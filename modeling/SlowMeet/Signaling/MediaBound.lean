import SlowMeet.Signaling.Continuity
import SlowMeet.Signaling.Streams

/-!
# Media across a resume

A reclaim of a pending token finds its client past the teardown that the
grace put off: what is left of `disconnect` touches neither the router nor
the peer, and the grace timer finds no entry. A reclaim of a live token
finds its client still connected. Once superseded that client has no grace,
and its `disconnect` tears its media down before the resumed client goes on.
-/

namespace SlowMeet.Signaling

open Lib Media

/-- The phases of a connection whose pending entry was inserted, or that is
done with its participant. -/
def Phase.retired : Phase → Bool
  | .notifying _ | .armingGrace | .scheduling | .arming | .finished => true
  | _ => false

namespace Session

variable {s t : Session} {e : Event} {c d : ClientId} {p : ParticipantID}

/-- `c` is past its `disconnect` and its pending entry is taken. -/
structure Retired (s : Session) (c : ClientId) (p : ParticipantID) : Prop where
  pid : (s.life c).pid = some p
  kind : (s.life c).kind = .notifying ∨ (s.life c).kind = .over
  graced : s.slot p ≠ .graced c
  reaping : s.slot p ≠ .reaping c

theorem Retired.step (h : s.Retired c p) (ho : s.Owned) (hstep : s.Step e t) : t.Retired c p := by
  have hs := ho.slotted p
  have hpending : ∀ armed, s.pending p ≠ some (c, armed) :=
    fun armed hentry => h.graced (hs.pending c armed hentry)
  obtain ⟨hpid, hkind, hgraced, hreaping⟩ := h
  have hnext := hs.seen c hpid
  have hentering : ∀ c', (s.life c').kind ≠ .entering p := fun c' hk => (hs.entering c' hk).2 c hpid
  cases hstep
  all_goals
    constructor <;> simp only [setStage, setLife, tell, Function.update_apply] <;>
      grind [Life.kind, Stage.kind]

/-- `d` has superseded `c` as the connection of `p`. -/
structure Swapped (s : Session) (c d : ClientId) (p : ParticipantID) : Prop where
  retired : s.Retired c p
  pid : (s.life d).pid = some p
  waiting : ∀ b, (s.life d).kind = .waiting b → b = c

theorem Swapped.step (h : s.Swapped c d p) (ho : s.Owned) (hstep : s.Step e t) :
    t.Swapped c d p := by
  have hfresh := ho.fresh d
  have hentering : ∀ c', (s.life c').kind ≠ .entering p :=
    fun c' hk => (((ho.slotted p).entering c' hk).2 c) h.retired.pid
  refine ⟨h.retired.step ho hstep, ?_, ?_⟩
  · have hpid := h.pid
    cases hstep <;> simp only [setStage, setLife, tell, Function.update_apply] <;>
      grind [Life.kind, Stage.kind]
  · obtain ⟨-, hpid, hwaiting⟩ := h
    cases hstep <;> simp only [setStage, setLife, tell, Function.update_apply] <;>
      grind [Life.kind, Stage.kind]

/-- While the token leads to `d`, every other connection of `p` is past its
`disconnect`. -/
theorem Swapped.others (h : s.Swapped c d p) (ho : s.Owned) (hactive : s.active p = some d)
    {c' : ClientId} (hpid : (s.life c').pid = some p) (hne : c' ≠ d) :
    ((s.life c').kind = .notifying ∨ (s.life c').kind = .over) ∧ (s.life c').reaping = false := by
  have hs := ho.slotted p
  have hslot := hs.active d hactive
  have hreaping : (s.life c').reaping = false := by
    by_contra hr
    have hslot' := hs.reaper c' hpid (Bool.eq_true_of_not_eq_false hr)
    rw [hslot] at hslot'
    cases hslot'
  refine ⟨?_, hreaping⟩
  have hrank : s.rank c' < s.rank d := by
    have hle := hs.top d c' (Or.inl hslot) h.pid hpid
    have heq : s.rank c' ≠ s.rank d := fun heq => hne (hs.rank d c' h.pid hpid heq)
    omega
  rcases hs.lower d c' h.pid hpid hrank with hwaits | hover
  · obtain ⟨b, hb⟩ := hwaits
    obtain rfl := h.waiting b hb
    have hnext := (hs.waiting d b h.pid hb).2
    by_cases hc : c' = b
    · rw [hc]
      exact h.retired.kind
    · -- below `c`, which does not wait, all are over
      have hlt : s.rank c' < s.rank b := by
        have heq : s.rank c' ≠ s.rank b := fun heq => hc (hs.rank b c' h.retired.pid hpid heq)
        omega
      rcases hs.lower b c' h.retired.pid hpid hlt with hwaits' | hover
      · obtain ⟨b', hb'⟩ := hwaits'
        rcases h.retired.kind with hk | hk <;> rw [hk] at hb' <;> cases hb'
      · exact Or.inr hover
  · exact Or.inr hover

end Session

namespace Hub

variable {h h₁ h₂ : Hub} {c d : ClientId} {p : ParticipantID} {l : Label}
  {rank : ClientId → Nat} {slot : ParticipantID → Slot}

/-! ## A connection past its `disconnect` -/

theorem retired_of_kind (hp : ((h.client c).participant).isSome = true)
    (hkind : ((h.session rank slot).life c).kind = .notifying ∨
      ((h.session rank slot).life c).kind = .over) : (h.client c).phase.retired = true := by
  have hstage : ((h.client c).phase.stage (h.client c).participant.isSome).kind = .notifying ∨
      ((h.client c).phase.stage (h.client c).participant.isSome).kind = .over := hkind
  rw [hp] at hstage
  cases hphase : (h.client c).phase with
  | parting departure at_ =>
    rw [hphase] at hstage
    simp only [Phase.stage, Stage.kind] at hstage
    split at hstage <;> simp at hstage
  | notifying _ | armingGrace | scheduling | arming | finished => rfl
  | _ =>
    rw [hphase] at hstage
    simp [Phase.stage, Stage.kind] at hstage

/-- The step is the delayed close of the peer of `c`. -/
def closesLate (c : ClientId) : Label → Bool
  | .closeSuperseded c' => c' == c
  | _ => false

/-- No other step of `c` touches the media plane or its peer. -/
def KeepsMedia (h : Hub) (c : ClientId) : Prop :=
  ∀ l h', l.actor = some c → closesLate c l = false → h.step l = some h' →
    h'.media = h.media ∧ (h'.client c).peerClosed = (h.client c).peerClosed

theorem keepsMedia_of_retired (ho : (h.session rank slot).Owned)
    (hretired : (h.session rank slot).Retired c p) : h.KeepsMedia c := by
  have hpid : (h.client c).participantID = some p := hretired.pid
  have hsome : ((h.client c).participant).isSome = true := by
    cases hp : (h.client c).participant with
    | none =>
      rw [Client.participantID, hp] at hpid
      cases hpid
    | some q => rfl
  have hphase := retired_of_kind hsome hretired.kind
  have hreaping : (h.client c).reaper.reaping = false := by
    by_contra hr
    exact hretired.reaping ((ho.slotted p).reaper c hpid (Bool.eq_true_of_not_eq_false hr))
  intro l h' hactor hl hstep
  have hsteps := steps_of_step hstep
  cases hsteps
  all_goals simp only [Label.actor, Option.some.injEq, reduceCtorEq] at hactor
  all_goals subst hactor
  case connect hphase' =>
    rw [hphase'] at hphase
    cases hphase
  case receive hphase' _ =>
    rw [hphase'] at hphase
    cases hphase
  case run ok hrun =>
    cases hrun with
    | scheduling hphase' => exact ⟨rfl, by simp [client_update, goto, Client.goto]⟩
    | arming hphase' =>
      refine ⟨media_scheduleChatHistoryExpiry, ?_⟩
      simp [client_update, goto, Client.goto, client_scheduleChatHistoryExpiry]
    | notifying hphase' => exact ⟨rfl, by simp [client_update, goto, Client.goto]⟩
    | armingGrace q hq hphase' =>
      simp only [armGrace]
      repeat' split
      all_goals exact ⟨rfl, by simp [client_update, goto, Client.goto]⟩
    | finished hphase' hreserved =>
      simp only [releasePending, hreserved, if_true]
      exact ⟨rfl, by simp [client_update]⟩
    | _ => simp_all [Phase.retired]
  case notify c' d' q clients hphase' hq hd' =>
    refine ⟨rfl, ?_⟩
    by_cases hd : c' = d'
    · simp [goto, write, client_update, Client.goto, Client.write, hd]
    · simp [goto, write, client_update, Client.goto, hd]
  case expireAdmission hphase' =>
    simp only [expireAdmission]
    split
    · exact ⟨rfl, rfl⟩
    · exact ⟨rfl, by simp [client_update]⟩
  case graceFire c' q reconnect hq hentry hc harmed =>
    -- the entry under the token of `p` is another client's
    have hid : q.id = p := by
      rw [Client.participantID, hq] at hpid
      exact Option.some.inj hpid
    have hpending : (h.session rank slot).pending p = some (c', true) := by
      rw [← hid]
      show h.pendingOf q.id = _
      unfold pendingOf
      rw [show (⟨q.id⟩ : Token) = reconnectToken q from rfl, hentry, Option.map_some, hc, harmed]
    exact absurd ((ho.slotted p).pending c' true hpending) hretired.graced
  case reapUnregister q hq hreaper =>
    rw [hreaper] at hreaping
    cases hreaping
  case reapClosePeer q hq hreaper =>
    rw [hreaper] at hreaping
    cases hreaping
  case reapLeave q hq hreaper =>
    rw [hreaper] at hreaping
    cases hreaping
  case reapForget q hq hreaper => exact ⟨rfl, by simp [setReaper, forgetMediaState, client_update]⟩
  case reapSchedule q hq hreaper => exact ⟨rfl, by simp [setReaper, client_update]⟩
  case reapArm q hq hreaper =>
    refine ⟨media_scheduleChatHistoryExpiry, ?_⟩
    simp [setReaper, client_update, client_scheduleChatHistoryExpiry]
  case closeSuperseded htimer => simp [closesLate] at hl

/-! ## Runs from a reclaim -/

/-- `d` has superseded `c`. -/
structure Resuming (h : Hub) (c d : ClientId) (p : ParticipantID) : Prop where
  keyed : h.Keyed
  swapped : ∃ rank slot, (h.session rank slot).Owned ∧ (h.session rank slot).Membered ∧
    (h.session rank slot).Swapped c d p

theorem Resuming.step {h' : Hub} (hr : h.Resuming c d p) (hstep : h.Steps l h') :
    h'.Resuming c d p := by
  obtain ⟨rank, slot, ho, hm, hswapped⟩ := hr.swapped
  obtain ⟨rank', slot', hevent⟩ := step_event hr.keyed ho hm hstep
  exact ⟨hr.keyed.step hstep, rank', slot', ho.step hevent, hm.step hevent,
    hswapped.step ho hevent⟩

theorem Resuming.run {cfg : Config} {ok : Hub → Label → Prop} (hr : h₁.Resuming c d p)
    (hrun : (lts cfg).Run ok h₁ h₂) : h₂.Resuming c d p :=
  hrun.invariant (I := fun h => h.Resuming c d p)
    (fun _ _ _ hr _ htr => hr.step (steps_of_step htr)) hr

theorem Resuming.keepsMedia (hr : h.Resuming c d p) : h.KeepsMedia c := by
  obtain ⟨rank, slot, ho, -, hswapped⟩ := hr.swapped
  exact keepsMedia_of_retired ho hswapped.retired

/-- While the token leads to `d`, nobody unregisters `p`. -/
theorem Resuming.unregisters_ne (hr : h.Resuming c d p)
    (hactive : h.activeTokens.lookup ⟨p⟩ = some d) :
    h.unregisters l ≠ some p := by
  obtain ⟨rank, slot, ho, -, hswapped⟩ := hr.swapped
  have hslot := (ho.slotted p).active d hactive
  -- the holder of a live token has not parted
  have hkind : ((h.session rank slot).life d).kind = .present ∨
      ∃ b, ((h.session rank slot).life d).kind = .waiting b := by
    rcases (ho.slotted p).held d hslot with ⟨-, hnone⟩ | ⟨-, hk, -⟩ | ⟨-, -, hnone⟩
    · rw [show (h.session rank slot).active p = some d from hactive] at hnone
      cases hnone
    · exact hk
    · rw [show (h.session rank slot).active p = some d from hactive] at hnone
      cases hnone
  intro hun
  cases l <;> unfold unregisters at hun <;> dsimp only at hun
  case run c' ok =>
    split at hun
    · next departure hphase =>
      have hparting : ((h.session rank slot).life c').kind = .superseded ∨
          ((h.session rank slot).life c').kind = .yielding := by
        show ((h.client c').phase.stage (h.client c').participant.isSome).kind = .superseded ∨
          ((h.client c').phase.stage (h.client c').participant.isSome).kind = .yielding
        rw [hphase]
        simp only [Phase.stage, Stage.kind]
        cases departure.superseded
        · exact Or.inr rfl
        · exact Or.inl rfl
      by_cases hd : c' = d
      · subst hd
        rcases hkind with hk | ⟨b, hk⟩ <;> rw [hk] at hparting <;> rcases hparting with hp | hp <;>
          cases hp
      · rcases (hswapped.others ho hactive hun hd).1 with hk | hk <;> rw [hk] at hparting <;>
          rcases hparting with hp | hp <;> cases hp
    · cases hun
  case reap c' =>
    split at hun
    · next hreaper =>
      have hreaping : ((h.session rank slot).life c').reaping = true := by
        show (h.client c').reaper.reaping = true
        rw [hreaper]
        rfl
      have hslot' := (ho.slotted p).reaper c' hun hreaping
      rw [hslot] at hslot'
      cases hslot'
    · cases hun
  all_goals cases hun

/-- No step but the delayed close touches the superseded peer. -/
theorem Resuming.peerClosed_step {h' : Hub} (hr : h.Resuming c d p)
    (hl : closesLate c l = false) (hstep : h.step l = some h') :
    (h'.client c).peerClosed = (h.client c).peerClosed := by
  by_cases hactor : l.actor = some c
  · exact (hr.keepsMedia l h' hactor hl hstep).2
  · obtain ⟨_, _, _, _, he⟩ := beside_step (steps_of_step hstep) hactor
    rw [he]

/-- The step neither unregisters `receiver` nor is its new camera set, and
unregisters `p` at most by `c` or while the token leads to `d`: the resumed
participant is not given up in its turn. -/
def Awaits (h : Hub) (c d : ClientId) (p receiver : ParticipantID) (l : Label) : Prop :=
  (h.unregisters l = some p → l.actor = some c ∨ h.activeTokens.lookup ⟨p⟩ = some d) ∧
    h.requestsVideo l ≠ some receiver ∧ h.unregisters l ≠ some receiver

instance (h : Hub) (c d : ClientId) (p receiver : ParticipantID) (l : Label) :
    Decidable (h.Awaits c d p receiver l) :=
  inferInstanceAs (Decidable (_ ∧ _))

theorem Resuming.requested_step {h' : Hub} {receiver : ParticipantID} (hr : h.Resuming c d p)
    (hawaits : h.Awaits c d p receiver l) (hstep : h.step l = some h')
    (hrequested : h.media.router.Requested receiver p) :
    h'.media.router.Requested receiver p := by
  obtain ⟨hother, hnew, hreceiver⟩ := hawaits
  by_cases hun : h.unregisters l = some p
  · rcases hother hun with hactor | hactive
    · have hl : closesLate c l = false := by
        cases l with
        | closeSuperseded c' => cases hun
        | _ => rfl
      rw [(hr.keepsMedia l h' hactor hl hstep).1]
      exact hrequested
    · exact absurd hun (hr.unregisters_ne hactive)
  · exact Hub.requested_step (steps_of_step hstep) hrequested hnew hreceiver hun

theorem Resuming.requested_run {cfg : Config} {receiver : ParticipantID}
    (hr : h₁.Resuming c d p) (hrun : (lts cfg).Run (fun h l => h.Awaits c d p receiver l) h₁ h₂)
    (hrequested : h₁.media.router.Requested receiver p) :
    h₂.media.router.Requested receiver p := by
  have hinv : h₂.Resuming c d p ∧ h₂.media.router.Requested receiver p := by
    refine hrun.invariant
      (I := fun h => h.Resuming c d p ∧ h.media.router.Requested receiver p) ?_ ⟨hr, hrequested⟩
    intro h l h' hI hawaits htr
    exact ⟨hI.1.step (steps_of_step htr), hI.1.requested_step hawaits htr hI.2⟩
  exact hinv.2

/-- A reclaim of a pending token supersedes a connection past its
`disconnect`. -/
theorem resuming_of_reclaim {cfg : Config} {name : Name} {ok : Bool} {reconnect : PendingReconnect}
    (hr : (lts cfg).Reachable Lts.Any h) (hphase : (h.client d).phase = .reclaiming name ⟨p⟩)
    (hentry : h.pending.lookup ⟨p⟩ = some reconnect) (hstep : h.step (.run d ok) = some h₁) :
    h₁.Resuming reconnect.client d p := by
  obtain ⟨hk, -, hs, rank, slot, rfl⟩ := reachable_session Lts.Any (fun _ _ _ _ _ => trivial) hr
  have ho : (h.session rank slot).Owned := .reachable hs
  have hm : (h.session rank slot).Membered := .reachable hs
  obtain ⟨rank', slot', hevent⟩ := step_event hk ho hm (steps_of_step hstep)
  refine ⟨hk.step (steps_of_step hstep), rank', slot', ho.step hevent, hm.step hevent, ?_⟩
  have hpending : (h.session rank slot).pending p = some (reconnect.client, reconnect.armed) := by
    show h.pendingOf p = _
    unfold pendingOf
    rw [hentry, Option.map_some]
  have hgraced := (ho.slotted p).graced _ ((ho.slotted p).pending _ _ hpending)
  have hresume : h.event (.run d ok) = .resume d p := by
    simp only [event, runEvent, hphase, hentry, Option.isSome_some, if_true]
  rw [hresume] at hevent
  generalize h₁.session rank' slot' = t at hevent
  cases hevent with
  | resume _ _ previous armed hout hp =>
    rw [hpending, Option.some.injEq, Prod.mk.injEq] at hp
    obtain ⟨rfl, rfl⟩ := hp
    have hne : reconnect.client ≠ d := by
      rintro hcd
      have hk := hgraced.2.2
      rw [hcd, Life.kind, hout] at hk
      rcases hk with ⟨-, hk⟩ | ⟨-, hk⟩ <;> cases hk
    constructor
    · constructor <;> simp only [Session.setLife, Function.update_apply, if_neg hne, if_true]
      · exact hgraced.1
      · rcases hgraced.2.2 with ⟨-, hk⟩ | ⟨-, hk⟩
        · exact Or.inr hk
        · exact Or.inl hk
      · simp
      · simp
    · simp [Session.setLife]
    · intro b hb
      simp [Session.setLife, Life.kind, Stage.kind] at hb
      exact hb.symm

/-- **A resume from a pending entry keeps the media bound.** Until the
delayed close, no step of the superseded connection touches the media plane
or closes its peer; and every receiver's camera set keeps the participant
unless the resumed connection is given up in its turn, or the receiver
leaves or sends a new set. -/
theorem reclaim_keeps_media {cfg : Config} {name : Name} {ok : Bool} {reconnect : PendingReconnect}
    (hr : (lts cfg).Reachable Lts.Any h) (hphase : (h.client d).phase = .reclaiming name ⟨p⟩)
    (hentry : h.pending.lookup ⟨p⟩ = some reconnect) (hstep : h.step (.run d ok) = some h₁)
    (hrun : (lts cfg).Run (fun _ l => closesLate reconnect.client l = false) h₁ h₂) :
    h₂.KeepsMedia reconnect.client ∧
    (h₂.client reconnect.client).peerClosed = (h₁.client reconnect.client).peerClosed ∧
    ∀ receiver, (lts cfg).Run (fun h l => h.Awaits reconnect.client d p receiver l) h₁ h₂ →
      h₁.media.router.Requested receiver p → h₂.media.router.Requested receiver p := by
  have hresuming := resuming_of_reclaim hr hphase hentry hstep
  refine ⟨(hresuming.run hrun).keepsMedia, ?_, fun receiver => hresuming.requested_run⟩
  have hinv : h₂.Resuming reconnect.client d p ∧
      (h₂.client reconnect.client).peerClosed = (h₁.client reconnect.client).peerClosed := by
    refine hrun.invariant (I := fun h => h.Resuming reconnect.client d p ∧
      (h.client reconnect.client).peerClosed = (h₁.client reconnect.client).peerClosed) ?_
      ⟨hresuming, rfl⟩
    intro h l h' hI hl htr
    exact ⟨hI.1.step (steps_of_step htr), (hI.1.peerClosed_step hl htr).trans hI.2⟩
  exact hinv.2

/-- The first client publishes its microphone and the second one asks for
its camera. -/
def publishes : List Label :=
  joins 0 ++ [.onTrack 0 (Plane.opusTrack 0 7), .track 0 ∅] ++ joins 1 ++
    [.receive 1 true (some (.videoSubscriptions [0] none))]

/-- The publishing client drops and is resumed from its pending entry; what
is left of its `disconnect` runs before the resumed client goes on. -/
theorem reclaim_keeps_media_dropped : ∃ h₁ h₂ : Hub,
    h₁.media.router.Requested 1 0 ∧ h₂.media.router.Requested 1 0 ∧ h₂.KeepsMedia 0 ∧
    (h₂.client 0).phase = .finished ∧
    (h₂.client 0).peerClosed = (h₁.client 0).peerClosed := by
  obtain ⟨h, h₁, h₂, hr, hstep, hrun, ho⟩ := Lts.exists_step_run_of_execWhen (fun _ _ => true)
    (fun h l => !closesLate 0 l && decide (h.Awaits 0 2 0 1 l)) step (Hub.new sampleConfig)
    (publishes ++ drops 0 ++ runs 0 2 ++ requests 2 (some ⟨0⟩)) (.run 2 true)
    ([.run 2 true, .notify 0 1] ++ runs 0 2)
    (fun h h₁ h₂ => decide ((h.client 2).phase = .reclaiming ['a'] ⟨0⟩ ∧
      (h.pending.lookup ⟨0⟩).map (·.client) = some 0 ∧ h₁.media.router.Requested 1 0 ∧
      (h₂.client 0).phase = .finished)) true (by decide)
  obtain ⟨hphase, hclient, hrequested, hfinished⟩ := of_decide_eq_true ho
  obtain ⟨reconnect, hentry, hc⟩ := Option.map_eq_some_iff.mp hclient
  have hchecks : ∀ (h : Hub) l, (!closesLate 0 l && decide (h.Awaits 0 2 0 1 l)) = true →
      closesLate 0 l = false ∧ h.Awaits 0 2 0 1 l := by
    intro h l hok
    rw [Bool.and_eq_true, Bool.not_eq_true', decide_eq_true_eq] at hok
    exact hok
  have hkeeps := reclaim_keeps_media hr.any hphase hentry hstep
    (hrun.mono fun h l hok => hc.symm ▸ (hchecks h l hok).1)
  rw [hc] at hkeeps
  obtain ⟨hmedia, hpeer, hcameras⟩ := hkeeps
  refine ⟨h₁, h₂, hrequested, ?_, hmedia, hfinished, hpeer⟩
  exact hcameras 1 (hrun.mono fun h l hok => (hchecks h l hok).2) hrequested

/-- The publishing client is taken over while it is connected: before the
resumed client has a peer, the cleanup of the superseded one unregisters
their participant and closes its peer. -/
theorem not_reclaim_keeps_media : ∃ h h₁ h₂ : Hub, (lts sampleConfig).Reachable Lts.Any h ∧
    (h.client 2).phase = .reclaiming ['a'] ⟨0⟩ ∧ h.activeTokens.lookup ⟨0⟩ = some 0 ∧
    h.step (.run 2 true) = some h₁ ∧
    (lts sampleConfig).Run (fun h l => closesLate 0 l = false ∧ h.Awaits 0 2 0 1 l) h₁ h₂ ∧
    (h₂.client 2).phase = .waiting 0 ∧
    ((h₁.media.router.pubs.lookup ⟨0, .audio, none⟩).isSome = true ∧
      h₂.media.router.pubs.lookup ⟨0, .audio, none⟩ = none) ∧
    ((h₁.client 0).peerClosed = false ∧ (h₂.client 0).peerClosed = true) ∧
    h₁.media.router.Requested 1 0 ∧ ¬h₂.media.router.Requested 1 0 := by
  obtain ⟨h, h₁, h₂, hr, hstep, hrun, ho⟩ := Lts.exists_step_run_of_execWhen (fun _ _ => true)
    (fun h l => !closesLate 0 l && decide (h.Awaits 0 2 0 1 l)) step (Hub.new sampleConfig)
    (publishes ++ requests 2 (some ⟨0⟩)) (.run 2 true)
    ([.run 2 true] ++ drops 0 ++ runs 0 2)
    (fun h h₁ h₂ => decide (((h.client 2).phase = .reclaiming ['a'] ⟨0⟩ ∧
      h.activeTokens.lookup ⟨0⟩ = some 0) ∧ (h₂.client 2).phase = .waiting 0 ∧
      ((h₁.media.router.pubs.lookup ⟨0, .audio, none⟩).isSome = true ∧
        (h₂.media.router.pubs.lookup ⟨0, .audio, none⟩).isNone = true) ∧
      ((h₁.client 0).peerClosed = false ∧ (h₂.client 0).peerClosed = true) ∧
      h₁.media.router.Requested 1 0 ∧ ¬h₂.media.router.Requested 1 0)) true (by decide)
  obtain ⟨⟨hphase, hactive⟩, hwaiting, ⟨hpub, hgone⟩, hpeer, hrequested, hforgot⟩ :=
    of_decide_eq_true ho
  refine ⟨h, h₁, h₂, hr.any, hphase, hactive, hstep, ?_, hwaiting,
    ⟨hpub, Option.isNone_iff_eq_none.mp hgone⟩, hpeer, hrequested, hforgot⟩
  apply hrun.mono
  intro h l hok
  rw [Bool.and_eq_true, Bool.not_eq_true', decide_eq_true_eq] at hok
  exact hok

end Hub

end SlowMeet.Signaling
