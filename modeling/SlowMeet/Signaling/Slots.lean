import SlowMeet.Signaling.Refinement

/-!
# Every slot of the meeting has one owner

An owner of a participant's slot is a client that has neither been
superseded nor handed the slot on, a pending entry, or a grace expiry or a
`Close` that has taken the pending entry and not yet left the meeting.
-/

namespace SlowMeet.Signaling

open Lib

/-- Who may own a slot. -/
inductive Owner
  | client (c : ClientId)
  | entry (token : Token)
  | expiry (c : ClientId)
  | close
  deriving DecidableEq, Repr

namespace Hub

/-- `c` serves `p` and has not begun to disconnect. -/
def Connected (h : Hub) (c : ClientId) (p : ParticipantID) : Prop :=
  match (h.client c).phase with
  | .entering participant => participant.id = p
  | .superseding _ | .waiting _ | .cancelling | .peering | .registering | .admitting | .releasing
  | .announcing | .reading | .handling _ | .closing | .disconnecting =>
    (h.client c).participantID = some p
  | _ => False

/-- `c` serves `p`, is not superseded and has not handed the slot on: the
token leads to it or, from the first decision of `disconnect` on, did. -/
def Holds (h : Hub) (c : ClientId) (p : ParticipantID) : Prop :=
  match (h.client c).phase with
  | .entering participant => participant.id = p
  | .superseding _ | .waiting _ | .cancelling | .peering | .registering | .admitting | .releasing
  | .announcing | .reading | .handling _ | .closing | .disconnecting =>
    (h.client c).participantID = some p ∧ h.activeTokens.lookup ⟨p⟩ = some c
  | .parting departure _ => (h.client c).participantID = some p ∧ departure.superseded = false
  | .forgetting | .leaving => (h.client c).participantID = some p
  | _ => False

def Owns (h : Hub) (p : ParticipantID) : Owner → Prop
  | .client c => h.Holds c p
  | .entry token => ∃ reconnect, h.pending.lookup token = some reconnect ∧
      reconnect.participant.id = p
  | .expiry c => (h.client c).participantID = some p ∧ (h.client c).reaper.reaping = true
  | .close => p ∈ h.closingIDs

variable {h h' : Hub} {rank : ClientId → Nat} {slot : ParticipantID → Slot} {c : ClientId}
  {p : ParticipantID}

/-! ## Owners and slots of the protocol -/

theorem connected_iff : h.Connected c p ↔ (h.session rank slot).Connected c p := by
  unfold Connected Session.Connected
  cases hphase : (h.client c).phase <;> cases hp : (h.client c).participant <;>
    simp [session, Life.kind, Client.life, Client.participantID, hphase, hp, Phase.stage,
      Stage.kind] <;>
    grind

theorem holds_iff (hs : (h.session rank slot).Slotted p) : h.Holds c p ↔ slot p = .held c := by
  have hheld := hs.held c
  have hactive := hs.active c
  have hyielding := hs.yielding c
  have hentering := hs.entering c
  unfold Holds
  cases hphase : (h.client c).phase <;> cases hp : (h.client c).participant <;>
    simp [session, Life.kind, Client.life, Client.participantID, hphase, hp, Phase.stage,
      Stage.kind] at hheld hactive hyielding hentering ⊢ <;>
    grind

theorem entry_iff (hk : h.Keyed) (hs : (h.session rank slot).Slotted p) {token : Token} :
    h.Owns p (.entry token) ↔ token = ⟨p⟩ ∧ ∃ c, slot p = .graced c := by
  constructor
  · rintro ⟨reconnect, hentry, hp⟩
    obtain rfl : token = ⟨p⟩ := (hk token reconnect hentry).symm.trans (congrArg Token.mk hp)
    refine ⟨rfl, reconnect.client, hs.pending reconnect.client reconnect.armed ?_⟩
    simp [session, pendingOf, hentry]
  · rintro ⟨rfl, c, hslot⟩
    have hpending : ∃ armed, h.pendingOf p = some (c, armed) := by
      obtain ⟨-, -, ⟨hp, -⟩ | ⟨hp, -⟩⟩ := hs.graced c hslot
      · exact ⟨true, hp⟩
      · exact ⟨false, hp⟩
    obtain ⟨armed, hp⟩ := hpending
    obtain ⟨reconnect, hentry, -⟩ : ∃ reconnect, h.pending.lookup ⟨p⟩ = some reconnect ∧
        (reconnect.client, reconnect.armed) = (c, armed) := by simpa [pendingOf] using hp
    exact ⟨reconnect, hentry, congrArg Token.participant (hk _ _ hentry)⟩

theorem expiry_iff (hs : (h.session rank slot).Slotted p) :
    h.Owns p (.expiry c) ↔ slot p = .reaping c := by
  constructor
  · rintro ⟨hp, hreaping⟩
    exact hs.reaper c hp hreaping
  · intro hslot
    obtain ⟨hp, -, -, hreaping⟩ := hs.reaping c hslot
    exact ⟨hp, hreaping⟩

theorem close_iff (hs : (h.session rank slot).Slotted p) :
    h.Owns p .close ↔ slot p = .closing :=
  ⟨hs.closer, fun hslot => (hs.closing hslot).2.1⟩

/-- A slot that is not free has one owner. -/
theorem existsUnique_owner (hk : h.Keyed) (hs : (h.session rank slot).Slotted p)
    (hp : h.meeting.has p = true) : ∃! owner, h.Owns p owner := by
  have hfree : slot p ≠ .free := hs.ids.mp hp
  have howns : ∀ owner, h.Owns p owner ↔ match owner with
      | .client c => slot p = .held c
      | .entry token => token = ⟨p⟩ ∧ ∃ c, slot p = .graced c
      | .expiry c => slot p = .reaping c
      | .close => slot p = .closing := by
    rintro (c | token | c | _)
    · exact holds_iff hs
    · exact entry_iff hk hs
    · exact expiry_iff hs
    · exact close_iff hs
  simp only [ExistsUnique, howns]
  cases hslot : slot p with
  | free => exact absurd hslot hfree
  | held c => exact ⟨.client c, rfl, by rintro (c' | _ | _ | _) <;> simp [eq_comm]⟩
  | graced c => exact ⟨.entry ⟨p⟩, ⟨rfl, c, rfl⟩, by rintro (_ | token | _ | _) <;> simp⟩
  | reaping c => exact ⟨.expiry c, rfl, by rintro (_ | _ | c' | _) <;> simp [eq_comm]⟩
  | closing => exact ⟨.close, rfl, by rintro (_ | _ | _ | _) <;> simp⟩

/-- An owner holds a slot of the meeting. -/
theorem has_of_owns (hk : h.Keyed) (hs : (h.session rank slot).Slotted p) {owner : Owner}
    (howner : h.Owns p owner) : h.meeting.has p = true := by
  refine hs.ids.mpr ?_
  change slot p ≠ .free
  cases owner with
  | client c => simp [(holds_iff hs).mp howner]
  | entry token =>
    obtain ⟨-, c, hslot⟩ := (entry_iff hk hs).mp howner
    simp [hslot]
  | expiry c => simp [(expiry_iff hs).mp howner]
  | close => simp [(close_iff hs).mp howner]

/-! ## The hub at rest -/

/-- Every handler has finished or not begun, no grace expiry is under way
and `Close` has left the entries it took. -/
structure Settled (h : Hub) : Prop where
  handlers : ∀ c, (h.client c).phase = .absent ∨ (h.client c).phase = .finished
  reapers : ∀ c, (h.client c).reaper = .idle ∨ (h.client c).reaper = .done
  closing : h.closingIDs = ∅

/-- With nobody left to own a slot the meeting is empty. -/
theorem count_eq_zero (hk : h.Keyed) (ho : (h.session rank slot).Owned)
    (hshut : (h.session rank slot).Shut) (hsettled : h.Settled)
    (htimers : h.closed = true ∨
      ∀ token reconnect, h.pending.lookup token = some reconnect → reconnect.armed = false) :
    h.meeting.count = 0 := by
  rw [Meeting.count_eq_zero_iff]
  intro p
  by_contra hp
  have hs := ho.slotted p
  obtain ⟨owner, howner, -⟩ := existsUnique_owner hk hs (by simpa using hp)
  cases owner with
  | client c =>
    have hholds : h.Holds c p := howner
    rcases hsettled.handlers c with hphase | hphase <;> simp [Holds, hphase] at hholds
  | entry token =>
    obtain ⟨rfl, c, hslot⟩ := (entry_iff hk hs).mp howner
    obtain ⟨-, -, ⟨hentry, -⟩ | ⟨-, hkind⟩⟩ := hs.graced c hslot
    · rcases htimers with hclosed | htimers
      · simp [hshut hclosed p] at hentry
      · obtain ⟨reconnect, hlookup, harmed⟩ : ∃ reconnect, h.pending.lookup ⟨p⟩ = some reconnect ∧
            (reconnect.client, reconnect.armed) = (c, true) := by
          simpa [session, pendingOf] using hentry
        simp [htimers _ _ hlookup] at harmed
    · rcases hsettled.handlers c with hphase | hphase <;>
        simp [session, Life.kind, Client.life, hphase, Phase.stage, Stage.kind] at hkind
  | expiry c =>
    obtain ⟨-, hreaping⟩ := howner
    rcases hsettled.reapers c with hr | hr <;> simp [hr, Reaper.reaping] at hreaping
  | close => simp [Owns, hsettled.closing] at howner

/-- **Slot ownership**, in every reachable hub: an identifier holds a slot
exactly when it has one owner; no step frees the slot under a client that
serves its participant; and once all handlers have finished and all grace
timers have fired, or the hub is closed, the meeting is empty. -/
theorem slot_owned {cfg : Config} (hr : (lts cfg).Reachable Lts.Any h) :
    (∀ p, h.meeting.has p = true ↔ ∃! owner, h.Owns p owner) ∧
    (∀ l h' p, h.step l = some h' → h.meeting.has p = true → h'.meeting.has p = false →
      ∀ c, ¬ h.Connected c p) ∧
    (h.Settled → (h.closed = true ∨
      ∀ token reconnect, h.pending.lookup token = some reconnect → reconnect.armed = false) →
      h.meeting.count = 0) := by
  obtain ⟨hk, _, hs, rank, slot, rfl⟩ := reachable_session Lts.Any
    (fun _ _ _ _ _ => trivial) hr
  have ho : (h.session rank slot).Owned := .reachable hs
  refine ⟨fun p => ⟨existsUnique_owner hk (ho.slotted p), fun ⟨owner, howner, _⟩ =>
    has_of_owns hk (ho.slotted p) howner⟩, ?_, count_eq_zero hk ho (.reachable hs)⟩
  intro l h' p hstep hp hfree c hc
  obtain ⟨rank', slot', hevent⟩ := step_event hk ho (.reachable hs) (steps_of_step hstep)
  exact ho.released hevent hp hfree c (connected_iff.mp hc)

/-- A client that joined, dropped and was given a grace: its pending entry
owns the slot, alone. -/
theorem slot_owned_dropped : ∃ h, (lts sampleConfig).Reachable Lts.Any h ∧
    h.meeting.has 0 = true ∧ (∃! owner, h.Owns 0 owner) := by
  obtain ⟨h, hr, hp⟩ := Lts.exists_reachable_of_execWhen (fun _ _ => true) step
    (Hub.new sampleConfig) (joins 0 ++ drops 0 ++ runs 0 4) (fun h => h.meeting.has 0) true
    (by decide)
  exact ⟨h, hr.any, hp, ((slot_owned hr.any).1 0).mp hp⟩

/-! ## Live tokens -/

/-- `ValidateActiveReconnectToken`, for a token that is not empty. -/
def validateActiveReconnectToken (h : Hub) (token : Token) : Bool :=
  match h.activeTokens.lookup token with
  | some c => !h.closed && decide (c ∈ h.roomMembers)
  | none => false

/-- A room member is present under its participant. -/
theorem present_of_member (ho : (h.session rank slot).Owned)
    (hm : (h.session rank slot).Membered) (hmember : c ∈ h.roomMembers) :
    ((h.session rank slot).life c).kind = .present ∧
      ∃ p, ((h.session rank slot).life c).pid = some p := by
  have hroom := hm.member c hmember
  have hkind : ((h.session rank slot).life c).kind = .present := by
    unfold Life.kind
    cases hstage : ((h.session rank slot).life c).stage <;> rw [hstage] at hroom <;>
      first
        | rfl
        | cases hroom
  refine ⟨hkind, Option.ne_none_iff_exists'.mp fun hnone => ?_⟩
  rcases ho.known c hnone with hk | ⟨q, hk⟩ | hk <;> rw [hkind] at hk <;> cases hk

/-- The token of a participant leads to the last connection of its chain. -/
theorem active_iff (hs : (h.session rank slot).Slotted p)
    (hpresent : ((h.session rank slot).life c).kind = .present)
    (hp : ((h.session rank slot).life c).pid = some p) :
    h.activeTokens.lookup ⟨p⟩ = some c ↔ ∀ d, h.Connected d p → d = c := by
  constructor
  · intro hactive d hd
    have hheld := hs.active c hactive
    rcases connected_iff.mp hd with hentering | ⟨hdp, hkind⟩
    · exact absurd hp ((hs.entering d hentering).2 c)
    · -- whoever is below a connection that does not wait has finished
      rcases Nat.lt_or_eq_of_le (hs.top c d (.inl hheld) hp hdp) with hlt | heq
      · rcases hs.lower c d hp hdp hlt with ⟨b, hwaiting⟩ | hover
        · rw [hpresent] at hwaiting
          cases hwaiting
        · rcases hkind with hk | ⟨b, hk⟩ <;> rw [hover] at hk <;> cases hk
      · exact hs.rank c d hp hdp heq
  · intro honly
    have hlast : ∀ d, (h.session rank slot).slot p = .held d ∨
        (h.session rank slot).slot p = .graced d ∨ (h.session rank slot).slot p = .reaping d →
        ((h.session rank slot).life d).pid = some p →
        ¬ (∃ b, ((h.session rank slot).life d).kind = .waiting b) → d = c := by
      intro d hslot hdp hwaits
      rcases Nat.lt_or_eq_of_le (hs.top d c hslot hdp hp) with hlt | heq
      · rcases hs.lower d c hdp hp hlt with hwaiting | hover
        · exact absurd hwaiting hwaits
        · rw [hpresent] at hover
          cases hover
      · exact (hs.rank d c hdp hp heq).symm
    cases hslot : (h.session rank slot).slot p with
    | held d =>
      rcases hs.held d hslot with ⟨hentering, -⟩ | ⟨hdp, hkind, hactive⟩ | ⟨hdp, hkind, -⟩
      · exact absurd hp ((hs.entering d hentering).2 c)
      · obtain rfl := honly d (connected_iff.mpr (.inr ⟨hdp, hkind⟩))
        exact hactive
      · obtain rfl := hlast d (.inl hslot) hdp (by rw [hkind]; rintro ⟨b, hb⟩; cases hb)
        rw [hpresent] at hkind
        cases hkind
    | graced d =>
      obtain ⟨hdp, -, hpending⟩ := hs.graced d hslot
      rcases hpending with ⟨-, hkind⟩ | ⟨-, hkind⟩
      · obtain rfl := hlast d (.inr (.inl hslot)) hdp (by rw [hkind]; rintro ⟨b, hb⟩; cases hb)
        rw [hpresent] at hkind
        cases hkind
      · obtain rfl := hlast d (.inr (.inl hslot)) hdp (by rw [hkind]; rintro ⟨b, hb⟩; cases hb)
        rw [hpresent] at hkind
        cases hkind
    | reaping d =>
      obtain ⟨hdp, -, hkind, -⟩ := hs.reaping d hslot
      obtain rfl := hlast d (.inr (.inr hslot)) hdp (by rw [hkind]; rintro ⟨b, hb⟩; cases hb)
      rw [hpresent] at hkind
      cases hkind
    | free | closing =>
      rcases hs.done c hp (by rw [hslot]; simp) with hk | hk | hk <;> rw [hpresent] at hk <;>
        cases hk

/-- **A live token is a member's**: a token authorizes exactly while the hub
is open and its participant is in the room by a connection that no other has
superseded. -/
theorem validateActiveReconnectToken_iff {cfg : Config} (hr : (lts cfg).Reachable Lts.Any h)
    (token : Token) : h.validateActiveReconnectToken token = true ↔
      h.closed = false ∧ ∃ c ∈ h.roomMembers, (h.client c).participantID = some token.participant ∧
        ∀ d, h.Connected d token.participant → d = c := by
  obtain ⟨-, rank, slot, ho, hm⟩ := owned_of_reachable hr
  have hs := ho.slotted token.participant
  constructor
  · intro hvalid
    unfold validateActiveReconnectToken at hvalid
    split at hvalid
    · next c hactive =>
      simp only [Bool.and_eq_true, Bool.not_eq_true', decide_eq_true_eq] at hvalid
      obtain ⟨hopen, hmember⟩ := hvalid
      obtain ⟨hpresent, -⟩ := present_of_member ho hm hmember
      have hp : ((h.session rank slot).life c).pid = some token.participant := by
        rcases hs.held c (hs.active c hactive) with ⟨hk, -⟩ | ⟨hp, -⟩ | ⟨hp, -⟩
        · rw [hpresent] at hk
          cases hk
        · exact hp
        · exact hp
      exact ⟨hopen, c, hmember, hp, (active_iff hs hpresent hp).mp hactive⟩
    · cases hvalid
  · rintro ⟨hopen, c, hmember, hp, honly⟩
    obtain ⟨hpresent, -⟩ := present_of_member ho hm hmember
    have hactive : h.activeTokens.lookup token = some c := (active_iff hs hpresent hp).mpr honly
    simp only [validateActiveReconnectToken, hactive, hopen, Bool.not_false, Bool.true_and,
      decide_eq_true_eq]
    exact hmember

/-- The member 0 is being superseded. -/
theorem validateActiveReconnectToken_iff_superseding : ∃ h : Hub,
    (h.validateActiveReconnectToken ⟨0⟩ = true ↔
      h.closed = false ∧ ∃ c ∈ h.roomMembers, (h.client c).participantID = some 0 ∧
        ∀ d, h.Connected d 0 → d = c) ∧
    0 ∈ h.roomMembers ∧ h.validateActiveReconnectToken ⟨0⟩ = false := by
  obtain ⟨h, hr, ho⟩ := Lts.exists_reachable_of_exec Lts.Any step (Hub.new sampleConfig)
    (joins 0 ++ requests 1 (some ⟨0⟩) ++ runs 1 1)
    (fun h => (decide (0 ∈ h.roomMembers), h.validateActiveReconnectToken ⟨0⟩)) (true, false)
    (fun _ _ _ => trivial) (by decide)
  obtain ⟨hmember, hinvalid⟩ := Prod.mk.inj ho
  exact ⟨h, validateActiveReconnectToken_iff hr ⟨0⟩, of_decide_eq_true hmember, hinvalid⟩

end Hub

end SlowMeet.Signaling
