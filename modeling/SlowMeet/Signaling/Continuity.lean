import SlowMeet.Signaling.Presence

/-!
# A reconnect token and its participant

From its admission a client's token leads to its connection, then to the
pending entry `disconnect` leaves, then to whoever reclaims either. Between
the two locked sections of `disconnect` it leads nowhere: the first deletes
the token, the second inserts the entry.
-/

namespace SlowMeet.Signaling

open Lib Media

/-- From the end of its service on. -/
def Stage.ended : Stage → Bool
  | .closing | .ending | .parting _ | .removing | .casting | .notifying _ | .over => true
  | _ => false

theorem Stage.eq_waiting {stage : Stage} {previous : ClientId}
    (hkind : stage.kind = .waiting previous) : stage = .waiting previous := by
  cases stage with
  | waiting b => exact congrArg Stage.waiting (Kind.waiting.inj hkind)
  | parting d =>
    unfold Stage.kind at hkind
    dsimp only at hkind
    split at hkind <;> cases hkind
  | _ => cases hkind

namespace Session

variable {s t : Session} {p : ParticipantID} {c : ClientId} {e : Event}

/-! ## Who keeps a participant -/

/-- What the flags of a connection say about its stage. -/
structure Marked (s : Session) : Prop where
  intentional : ∀ c, (s.life c).intentional = true → (s.life c).stage.ended = true
  waiting : ∀ c previous, (s.life c).stage = .waiting previous → (s.life c).resumed = true

theorem Marked.step (h : s.Marked) (hstep : s.Step e t) : t.Marked := by
  constructor
  · intro c
    have hc := h.intentional c
    cases hstep <;> simp only [setStage, setLife, tell, Function.update_apply] <;>
      grind [Stage.ended]
  · intro c previous
    have hc := h.waiting c previous
    cases hstep <;> simp only [setStage, setLife, tell, Function.update_apply] <;> grind

theorem Marked.reachable {timeout : Nat} {ok : Session → Event → Prop}
    (h : (lts timeout).Reachable ok s) : s.Marked := by
  refine h.invariant ?_ fun _ _ _ hf _ htr => hf.step htr
  intro s₀ hinit
  obtain rfl : s₀ = .start timeout := hinit
  constructor
  · intro c hintentional
    cases hintentional
  · intro c previous hstage
    cases hstage

theorem timeout_step (hstep : s.Step e t) : t.timeout = s.timeout := by
  cases hstep <;> rfl

/-- `c` holds the slot of `p`, was admitted or took over from a client that
was, and does not leave. -/
structure Keeping (s : Session) (c : ClientId) (p : ParticipantID) : Prop where
  slot : s.slot p = .held c
  pid : (s.life c).pid = some p
  stays : (s.life c).intentional = false
  admitted : (s.life c).joined = true ∨ (s.life c).resumed = true ∨
    (s.life c).stage = .announcing
  stage : ((s.life c).kind = .present ∨ ∃ b, (s.life c).kind = .waiting b) ∨
    ∃ d, (s.life c).stage = .parting d ∧ d.superseded = false ∧ d.timeout = s.timeout

/-- The participant `p` has a pending entry or somebody who keeps it. -/
def Keeps (s : Session) (p : ParticipantID) : Prop :=
  (∃ entry, s.pending p = some entry) ∨ ∃ c, s.Keeping c p

/-- A connection that reclaims `p` keeps it. -/
theorem keeping_of_reclaim (hf : s.Marked) (hout : (s.life c).stage = .outside)
    (hslot : t.slot p = .held c) (hpid : (t.life c).pid = some p)
    (hintentional : (t.life c).intentional = (s.life c).intentional)
    (hresumed : (t.life c).resumed = true) {previous : ClientId}
    (hstage : (t.life c).stage = .waiting previous) : t.Keeping c p where
  slot := hslot
  pid := hpid
  stays := by
    rw [hintentional]
    by_contra hne
    have hended := hf.intentional c (Bool.eq_true_of_not_eq_false hne)
    rw [hout] at hended
    cases hended
  admitted := Or.inr (Or.inl hresumed)
  stage := Or.inl (Or.inr ⟨previous, by rw [Life.kind, hstage]; rfl⟩)

/-- A pending entry stays until its timer fires, a `Close` takes it, or it
is reclaimed. -/
theorem keeps_of_pending (hf : s.Marked) {entry : ClientId × Bool}
    (hentry : s.pending p = some entry) (hstep : s.Step e t) (hclose : e ≠ .close)
    (hexpire : ∀ c, e = .expire c → (s.life c).pid ≠ some p) : t.Keeps p := by
  cases hstep
  case resume c' q previous armed hout hq =>
    by_cases hpq : p = q
    · right
      refine ⟨c', @keeping_of_reclaim s _ p c' hf hout ?_ ?_ ?_ ?_ previous ?_⟩ <;>
        simp [setLife, hpq]
    · left
      exact ⟨entry, by simp [hpq, hentry]⟩
  all_goals
    left
    simp only [setStage, setLife, Function.update_apply]
    grind

/-- What the slot of a kept participant rules out. -/
structure Exclusive (s : Session) (c : ClientId) (p : ParticipantID) : Prop where
  entering : ∀ c', (s.life c').kind ≠ .entering p
  yielding : ∀ c', (s.life c').pid = some p → (s.life c').kind = .yielding → c' = c
  reaping : ∀ c', (s.life c').pid = some p → (s.life c').reaping = false
  closing : p ∉ s.closingIDs
  pending : ∀ entry, s.pending p ≠ some entry
  next : p < s.next

theorem Slotted.exclusive (hs : s.Slotted p) (hslot : s.slot p = .held c)
    (hpid : (s.life c).pid = some p) : s.Exclusive c p where
  entering c' hk := (hs.entering c' hk).2 c hpid
  yielding c' hp hk := by
    have hslot' := hs.yielding c' hp hk
    rw [hslot, Slot.held.injEq] at hslot'
    exact hslot'.symm
  reaping c' hp := by
    by_contra hr
    have hslot' := hs.reaper c' hp (Bool.eq_true_of_not_eq_false hr)
    rw [hslot] at hslot'
    cases hslot'
  closing hp := by
    have hslot' := hs.closer hp
    rw [hslot] at hslot'
    cases hslot'
  pending entry hp := by
    have hslot' := hs.pending entry.1 entry.2 hp
    rw [hslot] at hslot'
    cases hslot'
  next := hs.seen c hpid

/-- Who keeps a participant passes it on with its token, or with a pending
entry. -/
theorem Keeping.step (hk : s.Keeping c p) (ho : s.Owned) (hf : s.Marked)
    (hopen : s.closed = false) (htimeout : 0 < s.timeout) (hstep : s.Step e t) (hclose : e ≠ .close)
    (hleave : e = .fail c true → False) : t.Keeps p := by
  have hs := ho.slotted p
  obtain ⟨hslot, hpid, hstays, hadmitted, hstage⟩ := hk
  obtain ⟨hentering, hyielding, hreaping, hclosing, hpending, hnext⟩ := hs.exclusive hslot hpid
  have hheld := hs.held c hslot
  cases hstep
  case takeover c' q previous hout hq hactive =>
    right
    by_cases hpq : p = q
    · refine ⟨c', @keeping_of_reclaim s _ p c' hf hout ?_ ?_ ?_ ?_ previous ?_⟩ <;>
        simp [setLife, hpq]
    · refine ⟨c, ?_⟩
      have hne : c ≠ c' := by
        rintro rfl
        grind [Life.kind, Stage.kind]
      constructor <;> simp only [setLife, Function.update_apply, if_neg hne, if_neg hpq] <;>
        assumption
  case settleGrace c' q d hparting hq hd hgive =>
    by_cases hc : c = c'
    · left
      subst hc
      rw [hpid, Option.some.injEq] at hq
      exact ⟨(c, false), by simp [hq]⟩
    · right
      refine ⟨c, ?_⟩
      have hpq : p ≠ q := by
        rintro rfl
        exact hc (hyielding c' hq (by simp [Life.kind, hparting, Stage.kind, hd])).symm
      constructor <;> simp only [setStage, setLife, Function.update_apply, if_neg hc, if_neg hpq] <;>
        assumption
  all_goals
    right
    refine ⟨c, ?_⟩
    constructor <;> simp only [setStage, setLife, tell, Function.update_apply] <;>
      grind [Life.kind, Stage.kind, Session.departure, Session.givesUp]

/-- **A kept participant stays kept** until its grace expires, it is left or
the hub closes. -/
theorem Keeps.step (hk : s.Keeps p) (ho : s.Owned) (hf : s.Marked) (hopen : s.closed = false)
    (htimeout : 0 < s.timeout) (hstep : s.Step e t) (hclose : e ≠ .close)
    (hexpire : ∀ c, e = .expire c → (s.life c).pid ≠ some p)
    (hleave : ∀ c, e = .fail c true → (s.life c).pid ≠ some p) : t.Keeps p := by
  rcases hk with ⟨entry, hentry⟩ | ⟨c, hc⟩
  · exact keeps_of_pending hf hentry hstep hclose hexpire
  · exact hc.step ho hf hopen htimeout hstep hclose fun he => hleave c he hc.pid

theorem closed_step (hopen : s.closed = false) (hstep : s.Step e t) (hclose : e ≠ .close) :
    t.closed = false := by
  cases hstep with
  | close _ _ => exact absurd rfl hclose
  | _ => exact hopen

/-- An admitted client keeps its participant, or the one that waits for it
does. -/
theorem keeps_of_announcing (ho : s.Owned) (hf : s.Marked) (hpid : (s.life c).pid = some p)
    (hstage : (s.life c).stage = .announcing) : s.Keeps p := by
  have hs := ho.slotted p
  have hkind : (s.life c).kind = .present := by rw [Life.kind, hstage]; rfl
  -- an owner other than `c` is above it in the chain, and so waits
  have habove : ∀ c', s.slot p = .held c' ∨ s.slot p = .graced c' ∨ s.slot p = .reaping c' →
      (s.life c').pid = some p → c' = c ∨ ∃ b, (s.life c').kind = .waiting b := by
    intro c' howner hpid'
    rcases Nat.lt_or_eq_of_le (hs.top c' c howner hpid' hpid) with hlt | heq
    · rcases hs.lower c' c hpid' hpid hlt with hwaiting | hover
      · exact Or.inr hwaiting
      · rw [hkind] at hover
        cases hover
    · exact Or.inl (hs.rank c c' hpid hpid' heq.symm)
  have hdone : ¬(s.slot p = .free ∨ s.slot p = .closing) := by
    intro hslot
    rcases hs.done c hpid hslot with hk | hk | hk <;> rw [hkind] at hk <;> cases hk
  cases hslot : s.slot p with
  | free => exact absurd (Or.inl hslot) hdone
  | closing => exact absurd (Or.inr hslot) hdone
  | graced c' =>
    obtain ⟨-, -, ⟨hentry, -⟩ | ⟨hentry, -⟩⟩ := hs.graced c' hslot
    · exact Or.inl ⟨_, hentry⟩
    · exact Or.inl ⟨_, hentry⟩
  | reaping c' =>
    obtain ⟨hpid', -, hover, -⟩ := hs.reaping c' hslot
    rcases habove c' (Or.inr (Or.inr hslot)) hpid' with rfl | ⟨b, hwaiting⟩
    · rw [hkind] at hover
      cases hover
    · rw [hover] at hwaiting
      cases hwaiting
  | held c' =>
    have hpid' : (s.life c').pid = some p := by
      rcases hs.held c' hslot with ⟨hentering, -⟩ | ⟨hp, -⟩ | ⟨hp, -⟩
      · exact absurd hpid ((hs.entering c' hentering).2 c)
      · exact hp
      · exact hp
    right
    rcases habove c' (Or.inl hslot) hpid' with rfl | ⟨b, hwaiting⟩
    · refine ⟨c', hslot, hpid, ?_, Or.inr (Or.inr hstage), Or.inl (Or.inl hkind)⟩
      by_contra hne
      have hended := hf.intentional c' (Bool.eq_true_of_not_eq_false hne)
      rw [hstage] at hended
      cases hended
    · have hwaits := Stage.eq_waiting hwaiting
      refine ⟨c', hslot, hpid', ?_, Or.inr (Or.inl (hf.waiting c' b hwaits)),
        Or.inl (Or.inr ⟨b, hwaiting⟩)⟩
      by_contra hne
      have hended := hf.intentional c' (Bool.eq_true_of_not_eq_false hne)
      rw [hwaits] at hended
      cases hended

end Session

namespace Hub

/-- `c` has just been admitted under `p`. -/
def Admits (h : Hub) (c : ClientId) (p : ParticipantID) : Prop :=
  (h.client c).phase = .releasing ∧ (h.client c).participantID = some p

/-- A step that gives the participant `p` up: an intentional leave, the end
of its grace, or `Close`. -/
def letsGo (h : Hub) (p : ParticipantID) : Label → Bool
  | .close => true
  | .graceFire c => (h.client c).participantID == some p
  | .receive c _ (some (.leave id)) => id == p && (h.client c).participantID == some p
  | _ => false

/-- Between the two locked sections of `disconnect`, for the holder of the
token of `p`. -/
def Handing (h : Hub) (p : ParticipantID) : Prop :=
  ∃ c departure at_, (h.client c).phase = .parting departure at_ ∧
    (h.client c).participantID = some p ∧ departure.superseded = false

/-- The reclaim of `d` has answered with the participant `p`. -/
def Resumes (h : Hub) (d : ClientId) (p : ParticipantID) : Prop :=
  (h.client d).resumed = true ∧ (h.client d).participantID = some p ∧
    ∃ previous, (h.client d).phase = .superseding previous

variable {h h' : Hub} {c d : ClientId} {p : ParticipantID} {l : Label}
  {rank : ClientId → Nat} {slot : ParticipantID → Slot}

/-! ## The events that give a participant up -/

/-- No section of a handler is one. -/
theorem runEvent_ne (c' : ClientId) (ok : Bool) : h.runEvent c' ok ≠ .close ∧
    (∀ c, h.runEvent c' ok ≠ .expire c) ∧ ∀ c, h.runEvent c' ok ≠ .fail c true := by
  cases hphase : (h.client c').phase with
  | parting departure at_ => cases at_ <;> simp [runEvent, hphase]
  | joining name => cases hjoin : h.meeting.join name h.nextID <;> simp [runEvent, hphase, hjoin]
  | upgrading | opening | peering | closing | admitting =>
    simp only [runEvent, hphase]
    split <;> simp
  | reclaiming name token =>
    simp only [runEvent, hphase]
    repeat' split
    all_goals simp
  | _ => simp [runEvent, hphase]

theorem event_close (hevent : h.event l = .close) : l = .close := by
  cases l with
  | close => rfl
  | run c ok => exact absurd hevent (runEvent_ne c ok).1
  | receive c allowed input =>
    unfold event receiveEvent at hevent
    dsimp only at hevent
    split at hevent <;> try split at hevent
    all_goals cases hevent
  | connect c | reap c =>
    unfold event at hevent
    dsimp only at hevent
    split at hevent <;> cases hevent
  | _ => cases hevent

theorem event_expire (hevent : h.event l = .expire c) : l = .graceFire c := by
  cases l with
  | graceFire c' =>
    cases hevent
    rfl
  | run c' ok => exact absurd hevent ((runEvent_ne c' ok).2.1 c)
  | receive c' allowed input =>
    unfold event receiveEvent at hevent
    dsimp only at hevent
    split at hevent <;> try split at hevent
    all_goals cases hevent
  | connect c' | reap c' =>
    unfold event at hevent
    dsimp only at hevent
    split at hevent <;> cases hevent
  | _ => cases hevent

theorem event_leave (hevent : h.event l = .fail c true) :
    ∃ allowed q, l = .receive c allowed (some (.leave q.id)) ∧
      (h.client c).participant = some q := by
  cases l with
  | run c' ok => exact absurd hevent ((runEvent_ne c' ok).2.2 c)
  | receive c' allowed input =>
    unfold event receiveEvent at hevent
    dsimp only at hevent
    split at hevent
    · cases hevent
    · next id q hq =>
      split at hevent
      · next hid =>
        cases hevent
        exact ⟨allowed, q, by rw [hid], hq⟩
      · cases hevent
    · cases hevent
  | connect c' | reap c' =>
    unfold event at hevent
    dsimp only at hevent
    split at hevent <;> cases hevent
  | _ => cases hevent

/-! ## Runs -/

/-- The hub is open, keeps a grace, and `p` is kept in it. -/
structure KeepsToken (h : Hub) (p : ParticipantID) : Prop where
  keyed : h.Keyed
  opened : h.closed = false
  timeout : 0 < h.config.reconnectTimeout
  kept : ∃ rank slot, (h.session rank slot).Owned ∧ (h.session rank slot).Membered ∧
    (h.session rank slot).Marked ∧ (h.session rank slot).Keeps p

theorem KeepsToken.step (hk : h.KeepsToken p) (hstep : h.Steps l h') (hgo : h.letsGo p l = false) :
    h'.KeepsToken p := by
  obtain ⟨rank, slot, ho, hm, hf, hkeeps⟩ := hk.kept
  obtain ⟨rank', slot', hevent⟩ := step_event hk.keyed ho hm hstep
  have hclose : h.event l ≠ .close := by
    intro he
    rw [event_close he] at hgo
    cases hgo
  have hexpire : ∀ c, h.event l = .expire c → (h.client c).participantID ≠ some p := by
    intro c he hp
    rw [event_expire he] at hgo
    unfold letsGo at hgo
    dsimp only at hgo
    rw [hp] at hgo
    simp at hgo
  have hleave : ∀ c, h.event l = .fail c true → (h.client c).participantID ≠ some p := by
    intro c he hp
    obtain ⟨allowed, q, hl, hq⟩ := event_leave he
    have hid : q.id = p := by
      rw [Client.participantID, hq] at hp
      exact Option.some.inj hp
    rw [hl] at hgo
    unfold letsGo at hgo
    dsimp only at hgo
    rw [hp, hid] at hgo
    simp at hgo
  have htimeout : h'.config.reconnectTimeout = h.config.reconnectTimeout :=
    Session.timeout_step hevent
  refine ⟨hk.keyed.step hstep, Session.closed_step hk.opened hevent hclose, ?_, rank', slot',
    ho.step hevent, hm.step hevent, hf.step hevent,
    hkeeps.step ho hf hk.opened hk.timeout hevent hclose hexpire hleave⟩
  rw [htimeout]
  exact hk.timeout

theorem keepsToken_of_admits {cfg : Config} (hr : (lts cfg).Reachable Lts.Any h)
    (htimeout : 0 < cfg.reconnectTimeout) (hopen : h.closed = false) (hc : h.Admits c p) :
    h.KeepsToken p := by
  obtain ⟨hkeyed, s, hs, rank, slot, rfl⟩ := reachable_session Lts.Any (fun _ _ _ _ _ => trivial) hr
  have hconst : (h.session rank slot).timeout = cfg.reconnectTimeout := by
    refine hs.invariant (I := fun s => s.timeout = cfg.reconnectTimeout) ?_ ?_
    · intro s₀ hinit
      rw [show s₀ = .start cfg.reconnectTimeout from hinit]
      rfl
    · intro s l t hs _ htr
      rw [Session.timeout_step htr, hs]
  have hopen' : 0 < h.config.reconnectTimeout := by
    rw [show h.config.reconnectTimeout = cfg.reconnectTimeout from hconst]
    exact htimeout
  refine ⟨hkeyed, hopen, hopen', rank, slot, .reachable hs, .reachable hs, .reachable hs, ?_⟩
  apply Session.keeps_of_announcing (c := c) (.reachable hs) (.reachable hs) hc.2
  show (h.client c).phase.stage (h.client c).participant.isSome = .announcing
  rw [hc.1]
  rfl

theorem keepsToken_of_run {cfg : Config} (hk : h.KeepsToken p)
    (hrun : (lts cfg).Run (fun h l => h.letsGo p l = false) h h') : h'.KeepsToken p :=
  hrun.invariant (I := fun h => h.KeepsToken p)
    (fun _ _ _ hk hgo htr => hk.step (steps_of_step htr) hgo) hk

/-! ## Reclaims -/

/-- Who holds the token of a handed participant. -/
theorem held_of_handing (ho : (h.session rank slot).Owned) (hphase : (h.client c).phase =
      .parting departure at_) (hp : (h.client c).participantID = some p)
    (hsuperseded : departure.superseded = false) :
    slot p = .held c ∧ ((h.session rank slot).life c).kind = .yielding := by
  have hkind : ((h.session rank slot).life c).kind = .yielding := by
    show ((h.client c).phase.stage (h.client c).participant.isSome).kind = .yielding
    rw [hphase]
    show (if departure.superseded then Kind.superseded else .yielding) = _
    rw [hsuperseded]
    rfl
  exact ⟨(ho.slotted p).yielding c hp hkind, hkind⟩

/-- A token that leads to a pending entry or to a connection is not being
handed over. -/
theorem not_handing (ho : (h.session rank slot).Owned)
    (hlive : (∃ reconnect, h.pending.lookup ⟨p⟩ = some reconnect) ∨
      ∃ c, h.activeTokens.lookup ⟨p⟩ = some c) : ¬h.Handing p := by
  intro hhanding
  obtain ⟨c, departure, at_, hphase, hp, hsuperseded⟩ := hhanding
  obtain ⟨hslot, hkind⟩ := held_of_handing ho hphase hp hsuperseded
  have hs := ho.slotted p
  rcases hlive with ⟨reconnect, hentry⟩ | ⟨c', hactive⟩
  · have hgraced := hs.pending reconnect.client reconnect.armed
      (by simp [session, pendingOf, hentry])
    rw [show (h.session rank slot).slot p = .held c from hslot] at hgraced
    cases hgraced
  · have hheld := hs.active c' hactive
    rw [show (h.session rank slot).slot p = .held c from hslot, Slot.held.injEq] at hheld
    subst hheld
    rcases hs.held c hslot with ⟨hk, -⟩ | ⟨-, hk, -⟩ | ⟨-, -, hnone⟩
    · rw [hkind] at hk
      cases hk
    · rw [hkind] at hk
      rcases hk with hk | ⟨b, hk⟩ <;> cases hk
    · rw [show (h.session rank slot).active p = some c from hactive] at hnone
      cases hnone

/-- A kept token leads somewhere, or is being handed over. -/
theorem KeepsToken.live (hk : h.KeepsToken p) :
    (∃ reconnect, h.pending.lookup ⟨p⟩ = some reconnect) ∨
      (∃ c, h.activeTokens.lookup ⟨p⟩ = some c) ∨ h.Handing p := by
  obtain ⟨rank, slot, ho, -, -, ⟨entry, hentry⟩ | ⟨c, hc⟩⟩ := hk.kept
  · left
    have hpending : h.pendingOf p = some entry := hentry
    unfold pendingOf at hpending
    obtain ⟨reconnect, hlookup, -⟩ := Option.map_eq_some_iff.mp hpending
    exact ⟨reconnect, hlookup⟩
  · right
    rcases hc.stage with hserved | ⟨departure, hparting, hsuperseded, -⟩
    · left
      rcases (ho.slotted p).held c hc.slot with ⟨hentering, -⟩ | ⟨-, -, hactive⟩ | ⟨-, hyielding, -⟩
      · exact absurd hc.pid (((ho.slotted p).entering c hentering).2 c)
      · exact ⟨c, hactive⟩
      · rw [hyielding] at hserved
        rcases hserved with hk | ⟨b, hk⟩ <;> cases hk
    · right
      have hstage : (h.client c).phase.stage (h.client c).participant.isSome = .parting departure :=
        hparting
      cases hphase : (h.client c).phase with
      | parting departure' at_ =>
        rw [hphase] at hstage
        exact ⟨c, departure', at_, hphase, hc.pid, (Stage.parting.inj hstage) ▸ hsuperseded⟩
      | reading | handling _ | closing =>
        rw [hphase] at hstage
        unfold Phase.stage at hstage
        dsimp only at hstage
        split at hstage <;> cases hstage
      | _ =>
        rw [hphase] at hstage
        cases hstage

theorem reclaim_pending {name : Name} {reconnect : PendingReconnect} (hkeyed : h.Keyed)
    (hentry : h.pending.lookup ⟨p⟩ = some reconnect) : (h.reclaim d name ⟨p⟩).Resumes d p := by
  unfold reclaim
  rw [hentry]
  dsimp only
  unfold Resumes Client.participantID
  rw [client_update, if_pos rfl]
  refine ⟨rfl, ?_, reconnect.client, rfl⟩
  exact congrArg (fun token : Token => some token.participant) (hkeyed ⟨p⟩ reconnect hentry)

theorem reclaim_active {name : Name} (hentry : h.pending.lookup ⟨p⟩ = none)
    (hactive : h.activeTokens.lookup ⟨p⟩ = some c) (hp : (h.client c).participantID = some p) :
    (h.reclaim d name ⟨p⟩).Resumes d p := by
  unfold reclaim
  rw [hentry, hactive]
  dsimp only
  unfold Resumes Client.participantID
  rw [client_update, if_pos rfl]
  exact ⟨rfl, hp, c, rfl⟩

/-- **A reclaim resumes a kept participant exactly when its token is not
being handed over.** -/
theorem KeepsToken.resumes_iff (hk : h.KeepsToken p) (name : Name) :
    (h.reclaim d name ⟨p⟩).Resumes d p ↔ ¬h.Handing p := by
  obtain ⟨rank, slot, ho, -⟩ := hk.kept
  constructor
  · intro hresumes
    cases hentry : h.pending.lookup ⟨p⟩ with
    | some reconnect => exact not_handing ho (Or.inl ⟨reconnect, hentry⟩)
    | none =>
      cases hactive : h.activeTokens.lookup ⟨p⟩ with
      | some c => exact not_handing ho (Or.inr ⟨c, hactive⟩)
      | none =>
        -- the token leads nowhere, so the client goes on to join
        obtain ⟨-, -, previous, hphase⟩ := hresumes
        unfold reclaim at hphase
        rw [hentry, hactive] at hphase
        dsimp only at hphase
        rw [phase_goto] at hphase
        cases hphase
  · intro hnot
    cases hentry : h.pending.lookup ⟨p⟩ with
    | some reconnect => exact reclaim_pending hk.keyed hentry
    | none =>
      rcases hk.live with ⟨reconnect, hsome⟩ | ⟨c, hactive⟩ | hhanding
      · rw [hentry] at hsome
        cases hsome
      · have hheld := (ho.slotted p).active c hactive
        have hp : (h.client c).participantID = some p := by
          rcases (ho.slotted p).held c hheld with ⟨-, hnone⟩ | ⟨hp, -⟩ | ⟨hp, -⟩
          · rw [show (h.session rank slot).active p = some c from hactive] at hnone
            cases hnone
          · exact hp
          · exact hp
        exact reclaim_active hentry hactive hp
      · exact absurd hhanding hnot

/-- **The token of an admitted client resumes its participant**, at every
moment from its admission on until the participant is given up, except
between the two locked sections of `disconnect`. -/
theorem reclaim_resumes_iff {cfg : Config} {h'' : Hub} {name : Name} {ok : Bool}
    (htimeout : 0 < cfg.reconnectTimeout) (hr : (lts cfg).Reachable Lts.Any h)
    (hopen : h.closed = false) (hc : h.Admits c p)
    (hrun : (lts cfg).Run (fun h l => h.letsGo p l = false) h h')
    (hphase : (h'.client d).phase = .reclaiming name ⟨p⟩) (hstep : h'.step (.run d ok) = some h'') :
    h''.Resumes d p ↔ ¬h'.Handing p := by
  have hk := keepsToken_of_run (keepsToken_of_admits hr htimeout hopen hc) hrun
  have hreclaim : h'' = h'.reclaim d name ⟨p⟩ := by
    simp only [step, run, hphase, Option.some.injEq] at hstep
    exact hstep.symm
  rw [hreclaim]
  exact hk.resumes_iff name

/-- The first client up to its admission. -/
def admission : List Label := requests 0 none ++ runs 0 6

theorem letsGo_of_check {n : Nat} {cfg : Config}
    (hrun : (lts cfg).Run (fun h l => h.Unborn n ∧ (!h.letsGo p l) = true) h h') :
    (lts cfg).Run (fun h l => h.letsGo p l = false) h h' :=
  hrun.mono fun _ _ hok => (Bool.not_eq_true' _).mp hok.2

/-- The client drops, its pending entry stands, and another one presents the
token. -/
theorem reclaim_resumes_iff_dropped : ∃ h h' h'' : Hub, h.Admits 0 0 ∧
    (lts sampleConfig).Run (fun h l => h.letsGo 0 l = false) h h' ∧
    h'.step (.run 1 true) = some h'' ∧ h''.Resumes 1 0 := by
  obtain ⟨h, h', hr, hrun, hunborn, ho⟩ := exists_run_within sampleConfig 2
    (fun h l => !h.letsGo 0 l) admission
    (runs 0 2 ++ drops 0 ++ runs 0 2 ++ requests 1 (some ⟨0⟩))
    (fun h h' => decide ((h.closed = false ∧ (h.client 0).phase = .releasing ∧
      (h.client 0).participantID = some 0) ∧ (h'.client 0).phase = .notifying ∅ ∧
      (h'.client 1).phase = .reclaiming ['a'] ⟨0⟩)) true (by decide)
  obtain ⟨⟨hopen, hadmits⟩, hphase₀, hphase₁⟩ := of_decide_eq_true ho
  have hstep : ∃ h'', h'.step (.run 1 true) = some h'' := by
    simp only [step, run, hphase₁]
    exact ⟨_, rfl⟩
  obtain ⟨h'', hstep⟩ := hstep
  have hnot : ¬h'.Handing 0 := by
    intro hhanding
    obtain ⟨c, departure, at_, hphase, -, -⟩ := hhanding
    rcases c with _ | _ | c
    · rw [hphase₀] at hphase
      cases hphase
    · rw [hphase₁] at hphase
      cases hphase
    · rw [(hunborn (c + 2) (by omega)).1] at hphase
      cases hphase
  have hstays := letsGo_of_check hrun
  exact ⟨h, h', h'', hadmits, hstays, hstep,
    (@reclaim_resumes_iff _ _ _ _ _ sampleConfig _ _ _ (by decide) hr hopen hadmits hstays hphase₁ hstep).mpr
      hnot⟩

/-- The same client presents the token between the two locked sections, and
goes on to join as somebody else. -/
theorem not_reclaim_resumes : ∃ h h' h'' : Hub, (lts sampleConfig).Reachable Lts.Any h ∧
    h.closed = false ∧ h.Admits 0 0 ∧
    (lts sampleConfig).Run (fun h l => h.letsGo 0 l = false) h h' ∧
    h'.meeting.has 0 = true ∧ h'.step (.run 1 true) = some h'' ∧
    (h''.client 1).phase = .joining ['a'] ∧ ¬h''.Resumes 1 0 := by
  obtain ⟨h, h', hr, hrun, -, ho⟩ := exists_run_within sampleConfig 2
    (fun h l => !h.letsGo 0 l) admission (runs 0 2 ++ drops 0 ++ requests 1 (some ⟨0⟩))
    (fun h h' => decide ((h.closed = false ∧ (h.client 0).phase = .releasing ∧
      (h.client 0).participantID = some 0) ∧ (h'.meeting.has 0 = true ∧
      h'.pending.lookup ⟨0⟩ = none ∧ h'.activeTokens.lookup ⟨0⟩ = none) ∧
      (h'.client 1).phase = .reclaiming ['a'] ⟨0⟩)) true (by decide)
  obtain ⟨⟨hopen, hadmits⟩, ⟨hhas, hpending, hactive⟩, hphase⟩ := of_decide_eq_true ho
  have hstep : ∃ h'', h'.step (.run 1 true) = some h'' ∧ (h''.client 1).phase = .joining ['a'] := by
    simp only [step, run, hphase, reclaim, hpending, hactive]
    exact ⟨_, rfl, phase_goto _ _⟩
  obtain ⟨h'', hstep, hjoining⟩ := hstep
  refine ⟨h, h', h'', hr, hopen, hadmits, letsGo_of_check hrun, hhas, hstep, hjoining, ?_⟩
  intro hresumes
  obtain ⟨-, -, previous, hsuperseding⟩ := hresumes
  rw [hjoining] at hsuperseding
  cases hsuperseding

end Hub

end SlowMeet.Signaling
