import SlowMeet.Signaling.Handlers
import SlowMeet.Signaling.Presence

/-!
# Every member sees the media states

A media state is stored under the lock and told to the room after it. What a
member was last told about a participant is what is stored, or somebody is
still about to tell it; and a state is stored no longer than its participant
holds a slot.
-/

namespace SlowMeet.Signaling

open Lib Media

namespace Hub

variable {h h' : Hub} {c d : ClientId} {p : ParticipantID} {l : Label}

/-- What `d` was last told about the media of `p`. -/
def toldState (h : Hub) (d : ClientId) (p : ParticipantID) : Option MediaState :=
  lastOf (Message.mediaStateOf p) (h.client d).outbound

/-- A media state is stored under its participant. -/
def StatesKeyed (h : Hub) : Prop :=
  ∀ p state, h.mediaStates.lookup p = some state → state.participantID = p

/-- What a step tells `d` about the media of `p`. -/
def sentState (h : Hub) (d : ClientId) (p : ParticipantID) : Label → Option MediaState
  | .run c ok =>
    match (h.client c).phase, (h.client c).participant with
    | .handling (.relaying state), some _ =>
      if (d ∈ h.roomMembers ∧ d ≠ c) ∧ state.participantID = p then some state else none
    | .admitting, some _ =>
      if h.closed || (h.client c).admissionExpired || !ok || d ≠ c then none
      else h.mediaStates.lookup p
    | _, _ => none
  | _ => none

/-- An admission replays what is stored. -/
theorem lastOf_admissionReplay (hkeyed : h.StatesKeyed) (q : Participant) (takeover : Bool) :
    lastOf (Message.mediaStateOf p) (h.admissionReplay q takeover) = h.mediaStates.lookup p := by
  have hjoined : lastOf (Message.mediaStateOf p) ((h.rosterReplay q).map Message.joined) = none := by
    refine lastOf_eq_none _ fun msg hmsg => ?_
    obtain ⟨r, -, rfl⟩ := List.mem_map.mp hmsg
    rfl
  have hstates : lastOf (Message.mediaStateOf p) (h.mediaStates.values.map Message.mediaState) =
      h.mediaStates.lookup p := by
    rw [lastOf, List.filterMap_map]
    show (h.mediaStates.values.filterMap
      fun state => if state.participantID = p then some state else none).getLast? = _
    rw [GoMap.filterMap_values hkeyed]
    cases h.mediaStates.lookup p <;> rfl
  simp only [admissionReplay, lastOf_append, hjoined, hstates]
  cases h.screenOwner with
  | some owner => simp [screenShareMessage, Message.mediaStateOf]
  | none => cases takeover <;> simp [screenShareMessage, Message.mediaStateOf]

theorem lastOf_sentHandling (hphase : (h.client c).phase = .handling handler)
    (hq : (h.client c).participant = some q) (ok : Bool) :
    lastOf (Message.mediaStateOf p) (h.sentHandling c d handler) = h.sentState d p (.run c ok) := by
  simp only [sentState, hphase, hq]
  cases handler with
  | relaying state =>
    simp only [sentHandling, lastOf_toOthers, Message.mediaStateOf]
    split <;> simp_all
  | chatting msg entry => simp [sentHandling, lastOf_toOthers, Message.mediaStateOf]
  | sharing active streamID trackID =>
    simp only [sentHandling]
    split <;> simp [lastOf_toSelf, Message.mediaStateOf]
  | raising _ | shared _ _ => rfl
  | reacting _ _ _ | raisedCast _ _ | sharedCast _ =>
    simp [sentHandling, lastOf_toRoom, screenShareMessage, Message.mediaStateOf]

theorem lastOf_sent (hkeyed : h.StatesKeyed) (l : Label) :
    lastOf (Message.mediaStateOf p) (h.sent d l) = h.sentState d p l := by
  cases l with
  | run c ok =>
    cases hphase : (h.client c).phase with
    | refusing err =>
      simp only [sent, sentRunning, sentState, hphase, lastOf_append, lastOf_toSelf]
      cases err <;> simp [Message.mediaStateOf, lastOf_toRoom]
    | peering =>
      simp only [sent, sentRunning, sentState, hphase]
      cases ok <;> simp [lastOf_toSelf, Message.mediaStateOf]
    | admitting =>
      cases hq : (h.client c).participant with
      | none => simp [sent, sentRunning, sentState, hphase, hq]
      | some q =>
        simp only [sent, sentRunning, sentState, hphase, hq]
        cases h.closed || (h.client c).admissionExpired || !ok with
        | true => simp
        | false =>
          simp only [Bool.false_eq_true, if_false, lastOf_toSelf, lastOf_admissionReplay hkeyed]
          by_cases hd : d = c <;> simp [hd]
    | announcing =>
      cases hq : (h.client c).participant with
      | none => simp [sent, sentRunning, sentState, hphase, hq]
      | some q =>
        simp only [sent, sentRunning, sentState, hphase, hq]
        split <;> simp [lastOf_toOthers, Message.mediaStateOf]
    | handling handler =>
      cases hq : (h.client c).participant with
      | none => simp [sent, sentRunning, sentState, hphase, hq]
      | some q =>
        rw [← lastOf_sentHandling hphase hq ok]
        simp only [sent, sentRunning, hphase, hq]
    | parting departure at_ =>
      cases hq : (h.client c).participant <;> cases at_ <;>
        simp [sent, sentRunning, sentState, hphase, hq, lastOf_toRoom, screenShareMessage,
          Message.mediaStateOf]
    | casting =>
      cases hq : (h.client c).participant <;>
        simp [sent, sentRunning, sentState, hphase, hq, lastOf_toRoom, Message.mediaStateOf]
    | _ => simp [sent, sentRunning, sentState, hphase]
  | notify c e =>
    simp only [sent, sentState]
    split <;> simp [lastOf_toSelf, Message.mediaStateOf]
  | admin a =>
    simp only [sent, sentState]
    split <;> simp [lastOf_toRoom, screenShareMessage, Message.mediaStateOf]
  | _ => rfl

/-- What a step does to what `d` was last told. -/
theorem toldState_step (hkeyed : h.StatesKeyed) (hstep : h.Steps l h') (d : ClientId)
    (p : ParticipantID) : h'.toldState d p = (h.sentState d p l).or (h.toldState d p) := by
  rcases appends_step hstep d with hsent | ⟨⟨allowed, input, rfl⟩, text, herror⟩
  · rw [toldState, hsent, lastOf_append, lastOf_sent hkeyed]
    rfl
  · rw [toldState, herror, lastOf_append]
    rfl

/-! ## What is stored -/

/-- What a step does to the media state of `p`. -/
inductive StateChange (h h' : Hub) (p : ParticipantID) : Prop
  | same (hsame : h'.mediaStates.lookup p = h.mediaStates.lookup p)
  | stored (c : ClientId) (state : MediaState) (hserves : h.Serves c p)
      (hread : (h.client c).phase = .reading)
      (hphase : (h'.client c).phase = .handling (.relaying state))
      (hlookup : h'.mediaStates.lookup p = some state) (hid : state.participantID = p)
  | forgotten (c : ClientId) (hserves : h.Serves c p) (hphase : (h.client c).phase = .forgetting)
      (hphase' : (h'.client c).phase = .leaving) (hlookup : h'.mediaStates.lookup p = none)
  | reaped (c : ClientId) (hp : (h.client c).participantID = some p)
      (hreaper : (h.client c).reaper = .forgetting) (hlookup : h'.mediaStates.lookup p = none)
  | closed (hclosed : h'.closed = true) (hlookup : h'.mediaStates.lookup p = none)

theorem participantID_of_some {q : Participant} (hq : (h.client c).participant = some q) :
    (h.client c).participantID = some q.id := by
  rw [Client.participantID, hq]
  rfl

theorem state_receive {input : Option Request}
    (hread : (h.client c).phase = .reading) (hreceive : h.Receives c input h') (p : ParticipantID) :
    h.StateChange h' p := by
  cases hreceive with
  | mediaState q audio video paused hq =>
    by_cases hp : p = q.id
    · subst hp
      exact .stored c ⟨q.id, audio, video, paused⟩ ⟨participantID_of_some hq, by rw [hread]; rfl⟩
        hread (phase_goto _ _) (AList.lookup_insert _) rfl
    · exact .same (AList.lookup_insert_ne hp)
  | _ => exact .same rfl

theorem state_step (hstep : h.Steps l h') (p : ParticipantID) : h.StateChange h' p := by
  have hroom := room_step hstep
  have hstates : h'.mediaStates = h'.room.mediaStates := rfl
  generalize hr : h'.room = room at hroom hstates
  cases hroom with
  | mediaState c allowed q audio video paused hread hq =>
    cases hstep with
    | receive _ _ _ _ _ hreceive => exact state_receive hread hreceive p
  | forgot c ok q hq hphase =>
    by_cases hp : p = q.id
    · subst hp
      refine .forgotten c ⟨participantID_of_some hq, by rw [hphase]; rfl⟩ hphase ?_ ?_
      · cases hstep with
        | run _ _ _ hrun => cases hrun <;> simp_all
      · rw [hstates]
        exact AList.lookup_erase _ _
    · refine .same ?_
      rw [hstates]
      exact AList.lookup_erase_ne hp
  | reaperForgot c q hq hreaper =>
    by_cases hp : p = q.id
    · subst hp
      refine .reaped c (participantID_of_some hq) hreaper ?_
      rw [hstates]
      exact AList.lookup_erase _ _
    · refine .same ?_
      rw [hstates]
      exact AList.lookup_erase_ne hp
  | closed closing =>
    refine .closed (congrArg Room.closed hr) ?_
    rw [hstates]
    rfl
  | _ =>
    refine .same ?_
    rw [hstates]
    rfl

/-- What a step does to the slot of `p`. -/
inductive SlotChange (h h' : Hub) (p : ParticipantID) : Label → Prop
  | same (l : Label) (hsame : h'.meeting.has p = h.meeting.has p) : SlotChange h h' p l
  | joined (l : Label) (hp : p = h.nextID) : SlotChange h h' p l
  | left (c : ClientId) (ok : Bool) (hserves : h.Serves c p) (hphase : (h.client c).phase = .leaving)
      (hfree : h'.meeting.has p = false) : SlotChange h h' p (.run c ok)
  | reaped (c : ClientId) (hp : (h.client c).participantID = some p)
      (hreaper : (h.client c).reaper = .leaving) (hfree : h'.meeting.has p = false) :
      SlotChange h h' p (.reap c)
  | closed (hp : p ∈ h.closingIDs) (hfree : h'.meeting.has p = false) :
      SlotChange h h' p (.closeLeave p)

theorem slot_step (hstep : h.Steps l h') (p : ParticipantID) : h.SlotChange h' p l := by
  have hroom := room_step hstep
  have hmeeting : h'.meeting = h'.room.meeting := rfl
  generalize h'.room = room at hroom hmeeting
  cases hroom with
  | joined c ok name meeting q hphase hjoin =>
    by_cases hp : p = h.nextID
    · exact .joined _ hp
    · obtain ⟨hid, hstore⟩ := Meeting.join_ok _ _ _ hjoin
      refine .same _ ?_
      rw [hmeeting, hstore, Meeting.has_store, hid]
      simp [hp]
  | left c ok q hq hphase =>
    by_cases hp : p = q.id
    · subst hp
      refine .left c ok ⟨participantID_of_some hq, by rw [hphase]; rfl⟩ hphase ?_
      rw [hmeeting, Meeting.has_leave]
      simp
    · refine .same _ ?_
      rw [hmeeting, Meeting.has_leave]
      simp [hp]
  | reaped c q hq hreaper =>
    by_cases hp : p = q.id
    · subst hp
      refine .reaped c (participantID_of_some hq) hreaper ?_
      rw [hmeeting, Meeting.has_leave]
      simp
    · refine .same _ ?_
      rw [hmeeting, Meeting.has_leave]
      simp [hp]
  | closeLeft id hid =>
    by_cases hp : p = id
    · subst hp
      refine .closed hid ?_
      rw [hmeeting, Meeting.has_leave]
      simp
    · refine .same _ ?_
      rw [hmeeting, Meeting.has_leave]
      simp [hp]
  | raised c allowed q raised meeting changed hphase hq hraised =>
    refine .same _ ?_
    rw [hmeeting]
    exact Meeting.has_setRaisedHand hraised p
  | limited a cfg hadmin =>
    refine .same _ ?_
    rw [hmeeting]
    exact Meeting.has_setMaxParticipants _ _ _
  | _ =>
    refine .same _ ?_
    rw [hmeeting]
    rfl

/-- What the stored media states have to do with the slots and with the
handlers that are about to tell the room. -/
structure StatesHeld (h : Hub) : Prop where
  keyed : h.StatesKeyed
  slot : ∀ p state, h.mediaStates.lookup p = some state → h.meeting.has p = true ∨
    ∃ c, (h.client c).participantID = some p ∧ (h.client c).reaper = .forgetting
  closing : ∀ p ∈ h.closingIDs, h.mediaStates.lookup p = none
  leaving : ∀ c p, h.Serves c p → (h.client c).phase = .leaving → h.mediaStates.lookup p = none
  reaped : ∀ c, (h.client c).reaper = .forgetting → ∃ p, (h.client c).participantID = some p ∧
    h.meeting.has p = false
  relaying : ∀ c state, (h.client c).phase = .handling (.relaying state) →
    (h.client c).participantID = some state.participantID ∧
      (h.closed = true ∨ h.mediaStates.lookup state.participantID = some state)

theorem Serves.step {phase : Phase} (hpresent : h.Present) (hstep : h.Steps l h')
    (hserves : h.Serves c p) (hphase : (h'.client c).phase = phase) (hserving : phase.serving = true) :
    h'.Serves c p :=
  ⟨participantID_step hpresent hstep hserves.1, hphase ▸ hserving⟩

theorem StatesHeld.keyed_step (hs : h.StatesHeld) (hstep : h.Steps l h') : h'.StatesKeyed := by
  intro p state hstate
  cases state_step hstep p with
  | same hsame => exact hs.keyed p state (hsame ▸ hstate)
  | stored c state' hserves hread hphase hlookup hid =>
    rw [hlookup, Option.some.injEq] at hstate
    exact hstate ▸ hid
  | forgotten _ _ _ _ hlookup | reaped _ _ _ hlookup | closed _ hlookup => simp [hlookup] at hstate

/-- A slot that is free stays free. -/
theorem has_eq_false_of_step (hstep : h.Steps l h') (hlt : p < h.nextID)
    (hfree : h.meeting.has p = false) : h'.meeting.has p = false := by
  cases slot_step hstep p with
  | same _ hsame => rw [hsame, hfree]
  | joined _ hp => exact absurd hp (Nat.ne_of_lt hlt)
  | left _ _ _ _ hfree' | reaped _ _ _ hfree' | closed _ hfree' => exact hfree'

theorem StatesHeld.reaped_step (hs : h.StatesHeld) (hpresent : h.Present) (hstep : h.Steps l h')
    (hreaper : (h'.client c).reaper = .forgetting) :
    ∃ p, (h'.client c).participantID = some p ∧ h'.meeting.has p = false := by
  rcases reaper_step hstep c with hsame | ⟨-, hfired⟩ | ⟨rfl, hnext⟩
  · obtain ⟨p, hp, hfree⟩ := hs.reaped c (hsame ▸ hreaper)
    exact ⟨p, participantID_step hpresent hstep hp,
      has_eq_false_of_step hstep (hpresent.seen c p hp) hfree⟩
  · simp [hfired] at hreaper
  · rw [hreaper] at hnext
    cases hstep with
    | reapLeave _ q hq hleaving =>
      refine ⟨q.id, ?_, ?_⟩
      · rw [setReaper, Client.participantID, client_update, if_pos rfl]
        exact participantID_of_some hq
      · show ((h.meeting.leave q.id).1).has q.id = false
        rw [Meeting.has_leave]
        simp
    | reapUnregister _ _ _ hr | reapClosePeer _ _ _ hr | reapForget _ _ _ hr
      | reapSchedule _ _ _ hr | reapArm _ _ _ hr => simp [hr, Reaper.Next] at hnext

/-- An expiry that forgets is done with its participant. -/
theorem StatesHeld.not_serves (hs : h.StatesHeld) (hpresent : h.Present) {c' : ClientId}
    (hserves : h.Serves c p) (hp : (h.client c').participantID = some p) :
    (h.client c').reaper ≠ .forgetting := by
  intro hreaper
  obtain ⟨q, hq, hfree⟩ := hs.reaped c' hreaper
  rw [hp, Option.some.injEq] at hq
  rw [← hq, hpresent.has c p hserves] at hfree
  cases hfree

/-- Nobody gives up a slot while one of its connections is served. -/
theorem has_of_serving (hpresent : h.Present) (hstep : h.Steps l h') (hserves : h.Serves c p)
    (hphase : (h.client c).phase ≠ .leaving) : h'.meeting.has p = true := by
  have hhas := hpresent.has c p hserves
  cases slot_step hstep p with
  | same _ hsame => rwa [hsame]
  | joined _ hp => exact absurd hp (Nat.ne_of_lt (hpresent.slots p hhas))
  | left c' ok hserves' hleaving hfree =>
    obtain rfl := hpresent.unique c c' p hserves hserves'
    exact absurd hleaving hphase
  | reaped c' hp hreaper hfree =>
    have hidle := hpresent.reaping c c' p hserves hp
    simp [hreaper, Reaper.reaping] at hidle
  | closed hp hfree => exact absurd hp (hpresent.closing c p hserves)

theorem StatesHeld.slotted_step (hs : h.StatesHeld) (hpresent : h.Present) (hstep : h.Steps l h')
    {state : MediaState} (hstate : h'.mediaStates.lookup p = some state) :
    h'.meeting.has p = true ∨
      ∃ c, (h'.client c).participantID = some p ∧ (h'.client c).reaper = .forgetting := by
  cases state_step hstep p with
  | same hsame =>
    rw [hsame] at hstate
    rcases hs.slot p state hstate with hhas | ⟨c, hp, hreaper⟩
    · cases slot_step hstep p with
      | same _ hkept => exact Or.inl (by rwa [hkept])
      | joined _ hp => exact absurd hp (Nat.ne_of_lt (hpresent.slots p hhas))
      | left c ok hserves hleaving hfree => simp [hs.leaving c p hserves hleaving] at hstate
      | reaped c hp hreaper hfree =>
        refine Or.inr ⟨c, participantID_step hpresent hstep hp, ?_⟩
        cases hstep <;> simp_all [setReaper, client_update]
      | closed hp hfree => simp [hs.closing p hp] at hstate
    · refine Or.inr ⟨c, participantID_step hpresent hstep hp, ?_⟩
      rcases reaper_step hstep c with hkept | ⟨rfl, hfired⟩ | ⟨rfl, hnext⟩
      · rw [hkept, hreaper]
      · -- an expiry that forgets has freed the slot its entry would hold
        cases hstep with
        | graceFire _ q reconnect hq hentry hclient harmed =>
          obtain ⟨p', hp', hfree⟩ := hs.reaped c hreaper
          rw [participantID_of_some hq, Option.some.injEq] at hp'
          subst hp'
          simp [hpresent.entry _ _ hentry] at hfree
      · cases hstep with
        | reapForget _ q hq _ =>
          rw [participantID_of_some hq, Option.some.injEq] at hp
          subst hp
          have hnone : (h.mediaStates.erase q.id).lookup q.id = none := AList.lookup_erase _ _
          have hlookup : (h.mediaStates.erase q.id).lookup q.id = some state := hsame.trans hstate
          simp [hnone] at hlookup
        | reapUnregister _ _ _ hr | reapClosePeer _ _ _ hr | reapLeave _ _ _ hr
          | reapSchedule _ _ _ hr | reapArm _ _ _ hr => simp [hr] at hreaper
  | stored c state' hserves hread hphase hlookup hid =>
    exact Or.inl (has_of_serving hpresent hstep hserves (by simp [hread]))
  | forgotten _ _ _ _ hlookup | reaped _ _ _ hlookup | closed _ hlookup => simp [hlookup] at hstate

theorem StatesHeld.closing_step (hs : h.StatesHeld) (hpresent' : h'.Present) (hpresent : h.Present)
    (hstep : h.Steps l h') (hp : p ∈ h'.closingIDs) : h'.mediaStates.lookup p = none := by
  cases state_step hstep p with
  | same hsame =>
    have hroom := room_step hstep
    have hclosing : h'.closingIDs = h'.room.closingIDs := rfl
    have hstates : h'.mediaStates = h'.room.mediaStates := rfl
    rw [hclosing] at hp
    have hold : p ∈ h.closingIDs → h'.mediaStates.lookup p = none := fun hp => by
      rw [hsame, hs.closing p hp]
    generalize h'.room = room at hroom hp hstates
    cases hroom with
    | closed closing =>
      rw [hstates]
      rfl
    | closeLeft id hid => exact hold (Finset.mem_of_mem_erase hp)
    | _ => exact hold hp
  | stored c state hserves hread hphase hlookup hid =>
    exact absurd hp (hpresent'.closing c p (hserves.step hpresent hstep hphase rfl))
  | forgotten _ _ _ _ hlookup | reaped _ _ _ hlookup | closed _ hlookup => exact hlookup

theorem StatesHeld.leaving_step (hs : h.StatesHeld) (hpresent : h.Present) (hpresent' : h'.Present)
    (hstep : h.Steps l h') (hserves : h'.Serves c p) (hphase : (h'.client c).phase = .leaving) :
    h'.mediaStates.lookup p = none := by
  rcases next_step hstep c with hkept | ⟨-, hnext⟩
  · cases state_step hstep p with
    | same hsame =>
      rw [hphase] at hkept
      rcases participantID_of_step hstep hserves.1 with hp | hunknown
      · rw [hsame]
        exact hs.leaving c p ⟨hp, by rw [← hkept]; rfl⟩ hkept.symm
      · simp [← hkept, Phase.unknown] at hunknown
    | stored c' state hserves' hread hphase' hlookup hid =>
      obtain rfl := hpresent'.unique c c' p hserves (hserves'.step hpresent hstep hphase' rfl)
      simp [hphase] at hphase'
    | forgotten _ _ _ _ hlookup | reaped _ _ _ hlookup | closed _ hlookup => exact hlookup
  · rw [hphase] at hnext
    have hforgetting : (h.client c).phase = .forgetting := by
      cases hc : (h.client c).phase <;> simp [hc, Phase.Next] at hnext ⊢
    rcases stays_step (c := c) hstep (by simp [hforgetting]) (by simp [hforgetting])
      (by simp [hforgetting]) with hkept | ⟨ok, rfl⟩
    · simp [hphase, hforgetting] at hkept
    · cases hstep with
      | run _ _ _ hrun =>
        cases hrun with
        | forgetting q hq _ =>
          have hp := hserves.1
          rw [goto, Client.participantID, client_update, if_pos rfl] at hp
          obtain rfl : q.id = p := by simpa [forgetMediaState, Client.goto, hq] using hp
          exact AList.lookup_erase _ _
        | _ => simp_all

theorem closed_step (hstep : h.Steps l h') (hclosed : h.closed = true) : h'.closed = true := by
  have hroom := room_step hstep
  have heq : h'.closed = h'.room.closed := rfl
  rw [heq]
  generalize h'.room = room at hroom
  cases hroom with
  | closed closing => rfl
  | _ => exact hclosed

theorem StatesHeld.relaying_step (hs : h.StatesHeld) (hpresent : h.Present) (hstep : h.Steps l h')
    {state : MediaState} (hphase : (h'.client c).phase = .handling (.relaying state)) :
    (h'.client c).participantID = some state.participantID ∧
      (h'.closed = true ∨ h'.mediaStates.lookup state.participantID = some state) := by
  rcases handles_step hstep hphase with ⟨hold, -⟩ | hhandles
  · obtain ⟨hp, hstored⟩ := hs.relaying c state hold
    have hserves : h.Serves c state.participantID := ⟨hp, by rw [hold]; rfl⟩
    refine ⟨participantID_step hpresent hstep hp, ?_⟩
    rcases hstored with hclosed | hlookup
    · exact Or.inl (closed_step hstep hclosed)
    · cases state_step hstep state.participantID with
      | same hsame => exact Or.inr (by rw [hsame, hlookup])
      | stored c' state' hserves' hread _ _ _ =>
        obtain rfl := hpresent.unique c c' _ hserves hserves'
        simp [hold] at hread
      | forgotten c' hserves' hforgetting _ _ =>
        obtain rfl := hpresent.unique c c' _ hserves hserves'
        simp [hold] at hforgetting
      | reaped c' hp' hreaper _ => exact absurd hreaper (hs.not_serves hpresent hserves hp')
      | closed hclosed _ => exact Or.inl hclosed
  · cases hhandles with
    | mediaState allowed q audio video paused hq =>
      cases hstep with
      | receive _ _ _ _ hread hreceive =>
        cases hreceive with
        | mediaState q' _ _ _ hq' =>
          obtain rfl : q' = q := by simpa [hq'] using hq
          refine ⟨?_, Or.inr (AList.lookup_insert _)⟩
          rw [goto, Client.participantID, client_update, if_pos rfl]
          exact participantID_of_some hq
        | ignored _ _ => simp [hread] at hphase
        | refused _ _ _ => simp [refuse, write, phase_update, Client.write, hread] at hphase
        | refusedJoin _ _ _ =>
          simp [refuse, write, phase_update, Client.write, countJoin, hread] at hphase
        | _ => simp at hphase

theorem statesHeld_new (cfg : Config) : (Hub.new cfg).StatesHeld := by
  constructor <;> simp [StatesKeyed, Hub.new, Client.new]

theorem StatesHeld.step (hs : h.StatesHeld) (hpresent : h.Present) (hpresent' : h'.Present)
    (hstep : h.Steps l h') : h'.StatesHeld where
  keyed := hs.keyed_step hstep
  slot _ _ hstate := hs.slotted_step hpresent hstep hstate
  closing _ hp := hs.closing_step hpresent' hpresent hstep hp
  leaving _ _ hserves hphase := hs.leaving_step hpresent hpresent' hstep hserves hphase
  reaped _ hreaper := hs.reaped_step hpresent hstep hreaper
  relaying _ _ hphase := hs.relaying_step hpresent hstep hphase

/-! ## What a member was told -/

/-- A room member whose admission stands. -/
def InRoom (h : Hub) (d : ClientId) : Prop :=
  d ∈ h.roomMembers ∧ (h.client d).phase ≠ .closing

/-- Why what `d` was last told about `p` need not be what is stored: the
slot is free or about to be, the state is still to be told, or the hub is
closed. -/
inductive Told (h : Hub) (d : ClientId) (p : ParticipantID) : Prop
  | agrees (htold : h.toldState d p = h.mediaStates.lookup p)
  | relaying (c : ClientId) (state : MediaState)
      (hphase : (h.client c).phase = .handling (.relaying state)) (hid : state.participantID = p)
  | leaving (c : ClientId) (hserves : h.Serves c p) (hphase : (h.client c).phase = .leaving)
  | gone (c : ClientId) (hp : (h.client c).participantID = some p)
      (hfree : h.meeting.has p = false)
  | closed (hclosed : h.closed = true)

/-- Everybody was told what is stored or is going to be. -/
structure StatesTold (h : Hub) : Prop where
  early : ∀ d p, h.Early d → h.toldState d p = none
  told : ∀ d p, h.InRoom d → (h.client d).participantID ≠ some p → h.Told d p

/-- Whoever is told a media state is a room member, and what it is told is
what is stored. -/
theorem of_sentState (hs : h.StatesHeld) (hstep : h.Steps l h') {state : MediaState}
    (hsent : h.sentState d p l = some state) :
    d ∈ h'.roomMembers ∧ (h.closed = true ∨ h.mediaStates.lookup p = some state) := by
  cases l with
  | run c ok =>
    cases hstep with
    | run _ _ _ hrun =>
      cases hrun with
      | handling q handler hq hphase =>
        simp only [sentState, hphase, hq] at hsent
        cases handler with
        | relaying state' =>
          simp only [Option.ite_none_right_eq_some, Option.some.injEq] at hsent
          obtain ⟨⟨⟨hd, -⟩, rfl⟩, rfl⟩ := hsent
          exact ⟨hd, (hs.relaying c _ hphase).2⟩
        | _ => simp at hsent
      | admitting q hq hphase =>
        simp only [sentState, hphase, hq, Option.ite_none_left_eq_some] at hsent
        obtain ⟨haccepted, hlookup⟩ := hsent
        refine ⟨?_, Or.inr hlookup⟩
        simp only [Bool.or_eq_true, Bool.not_eq_true', decide_eq_true_eq, not_or, ne_eq, not_not,
          Bool.not_eq_true, Bool.not_eq_false] at haccepted
        obtain ⟨⟨⟨hopen, hlate⟩, rfl⟩, rfl⟩ := haccepted
        simp [admitClient, hopen, hlate, update]
      | _ => simp_all [sentState]
  | _ => simp [sentState] at hsent

theorem StatesTold.early_step (ht : h.StatesTold) (hs : h.StatesHeld) (hpresent : h.Present)
    (hpresent' : h'.Present) (hstep : h.Steps l h') (hearly : h'.Early d) :
    h'.toldState d p = none := by
  rw [toldState_step hs.keyed hstep, ht.early d p (early_of_step hpresent hstep hearly),
    Option.or_none]
  cases hsent : h.sentState d p l with
  | none => rfl
  | some state =>
    exact absurd (of_sentState hs hstep hsent).1 (not_member_of_early hpresent' hearly)

/-- A member was one before the step, or is admitted by it. -/
theorem admitted_of_step (hstep : h.Steps l h') (hroom' : h'.InRoom d) :
    h.InRoom d ∨ ∃ q, (h.client d).phase = .admitting ∧ (h.client d).participant = some q ∧
      (h.closed || (h.client d).admissionExpired) = false ∧ l = .run d true ∧
      h' = h.admitClient d q true := by
  by_cases hd : d ∈ h.roomMembers
  · left
    refine ⟨hd, fun hclosing => ?_⟩
    rcases stays_step (c := d) hstep (by simp [hclosing]) (by simp [hclosing])
      (by simp [hclosing]) with hkept | ⟨ok, rfl⟩
    · exact hroom'.2 (hkept.trans hclosing)
    · cases hstep with
      | run _ _ _ hrun =>
        cases hrun with
        | closing _ => exact Finset.notMem_erase d h.roomMembers hroom'.1
        | _ => simp_all
  · right
    have hchange := room_step hstep
    have hmembers : d ∈ h'.room.members := hroom'.1
    generalize h'.room = room at hchange hmembers
    cases hchange with
    | entered c ok q hq hphase hopen hearly =>
      obtain rfl : d = c := by simpa [hd] using hmembers
      cases hstep with
      | run _ _ _ hrun =>
        cases hrun with
        | admitting q' hq' _ =>
          -- an admission that fails closes the connection
          have hstands := hroom'.2
          cases ok with
          | true => exact ⟨q', hphase, hq', by rw [hopen, hearly]; rfl, rfl, rfl⟩
          | false => simp [admitClient, hopen, hearly] at hstands
        | _ => simp_all
    | cleaned c ok hphase => exact absurd (Finset.mem_of_mem_erase hmembers) hd
    | _ => exact absurd hmembers hd

/-- An admission that stands tells the newcomer everything stored. -/
theorem inRoom_of_step (hstep : h.Steps l h') (hroom' : h'.InRoom d) :
    h.InRoom d ∨ (h.client d).phase = .admitting ∧ h'.mediaStates = h.mediaStates ∧
      ∀ p, h.sentState d p l = h.mediaStates.lookup p := by
  rcases admitted_of_step hstep hroom' with hroom | ⟨q, hphase, hq, haccepted, rfl, rfl⟩
  · exact Or.inl hroom
  · refine Or.inr ⟨hphase, ?_, fun p => ?_⟩
    · rw [admitClient, haccepted]
      rfl
    · simp [sentState, hphase, hq, haccepted]

theorem Told.step (ht : h.Told d p) (hs : h.StatesHeld) (hpresent : h.Present) (hroom : h.InRoom d)
    (hne : (h.client d).participantID ≠ some p) (hstep : h.Steps l h') : h'.Told d p := by
  have htold := toldState_step hs.keyed hstep d p
  cases ht with
  | agrees hagrees =>
    cases state_step hstep p with
    | same hsame =>
      cases hsent : h.sentState d p l with
      | none => exact .agrees (by rw [htold, hsent, Option.none_or, hagrees, hsame])
      | some state =>
        rcases (of_sentState hs hstep hsent).2 with hclosed | hlookup
        · exact .closed (closed_step hstep hclosed)
        · exact .agrees (by rw [htold, hsent, Option.some_or, hsame, hlookup])
    | stored c state hserves hread hphase hlookup hid => exact .relaying c state hphase hid
    | forgotten c hserves hphase hphase' hlookup =>
      exact .leaving c (hserves.step hpresent hstep hphase' rfl) hphase'
    | reaped c hp hreaper hlookup =>
      obtain ⟨q, hq, hfree⟩ := hs.reaped c hreaper
      obtain rfl : p = q := by simpa [hp] using hq
      exact .gone c (participantID_step hpresent hstep hp)
        (has_eq_false_of_step hstep (hpresent.seen c p hp) hfree)
    | closed hclosed hlookup => exact .closed hclosed
  | relaying c state hphase hid =>
    rcases stays_step (c := c) hstep (by simp [hphase]) (by simp [hphase]) (by simp [hphase]) with
      hkept | ⟨ok, rfl⟩
    · exact .relaying c state (hkept.trans hphase) hid
    · -- the broadcast reaches `d`, which is a member and not the sender
      obtain ⟨hp, hstored⟩ := hs.relaying c state hphase
      rw [hid] at hp hstored
      have hdc : d ≠ c := by
        rintro rfl
        exact hne hp
      rcases hstored with hclosed | hlookup
      · exact .closed (closed_step hstep hclosed)
      · cases hstep with
        | run _ _ _ hrun =>
          cases hrun with
          | handling q handler hq hphase' =>
            obtain rfl : handler = .relaying state := by simpa [hphase] using hphase'.symm
            refine .agrees ?_
            rw [htold]
            simp only [sentState, hphase, hq, hroom.1, hdc, hid, ne_eq, not_false_eq_true, and_self,
              if_true, Option.some_or]
            exact hlookup.symm
          | _ => simp_all
  | leaving c hserves hphase =>
    rcases stays_step (c := c) hstep (by simp [hphase]) (by simp [hphase]) (by simp [hphase]) with
      hkept | ⟨ok, rfl⟩
    · exact .leaving c (hserves.step hpresent hstep (hkept.trans hphase) rfl) (hkept.trans hphase)
    · refine .gone c (participantID_step hpresent hstep hserves.1) ?_
      cases hstep with
      | run _ _ _ hrun =>
        cases hrun with
        | leaving q hq _ =>
          have hp := hserves.1
          rw [participantID_of_some hq, Option.some.injEq] at hp
          show ((h.meeting.leave q.id).1).has p = false
          rw [Meeting.has_leave]
          simp [hp]
        | _ => simp_all
  | gone c hp hfree =>
    exact .gone c (participantID_step hpresent hstep hp)
      (has_eq_false_of_step hstep (hpresent.seen c p hp) hfree)
  | closed hclosed => exact .closed (closed_step hstep hclosed)

theorem StatesTold.step (ht : h.StatesTold) (hs : h.StatesHeld) (hpresent : h.Present)
    (hpresent' : h'.Present) (hstep : h.Steps l h') : h'.StatesTold where
  early d p hearly := ht.early_step hs hpresent hpresent' hstep hearly
  told d p hroom' hne' := by
    have hne : (h.client d).participantID ≠ some p := fun hp =>
      hne' (participantID_step hpresent hstep hp)
    rcases inRoom_of_step hstep hroom' with hroom | ⟨hphase, hstates, hsent⟩
    · exact (ht.told d p hroom hne).step hs hpresent hroom hne hstep
    · refine .agrees ?_
      rw [toldState_step hs.keyed hstep, hsent, hstates,
        ht.early d p (Or.inr (by rw [hphase]; rfl)), Option.or_none]

theorem statesTold_of_reachable {cfg : Config} {ok : Hub → Label → Prop}
    (hr : (lts cfg).Reachable ok h) : h.StatesHeld ∧ h.StatesTold := by
  refine hr.invariant_of (I := fun h => h.StatesHeld ∧ h.StatesTold)
    (fun _ hs => present_of_reachable hs) ?_ ?_
  · rintro _ rfl
    refine ⟨statesHeld_new cfg, fun _ _ _ => rfl, fun d _ hroom => ?_⟩
    exact absurd hroom.1 (Finset.notMem_empty d)
  · intro s l t hpresent hpresent' ⟨hs, ht⟩ _ htr
    exact ⟨hs.step hpresent hpresent' (steps_of_step htr),
      ht.step hs hpresent hpresent' (steps_of_step htr)⟩

/-! ## With nothing in progress -/

/-- No handler and no expiry is in progress. A `Close` has closed every
connection, so on a closed hub a read loop is about to end. -/
structure Idle (h : Hub) : Prop where
  handlers : ∀ c, (h.client c).phase = .absent ∨ (h.client c).phase = .upgrading ∨
    (h.client c).phase = .opening ∨ (h.client c).phase = .reading ∧ h.closed = false ∨
    (h.client c).phase = .finished
  reapers : ∀ c, (h.client c).reaper = .idle ∨ (h.client c).reaper = .done

/-- **Media-state view agreement**: what a member was last told about
another participant is what is stored for it, and whatever is stored is a
participant's. -/
theorem mediaStates_agree {cfg : Config} (hr : (lts cfg).Reachable Lts.Any h) (hidle : h.Idle) :
    (∀ d ∈ h.roomMembers, ∀ p, h.meeting.has p = true → (h.client d).participantID ≠ some p →
      lastOf (Message.mediaStateOf p) (h.client d).outbound = h.mediaStates.lookup p) ∧
    ∀ p state, h.mediaStates.lookup p = some state → h.meeting.has p = true := by
  have hpresent := present_of_reachable hr
  obtain ⟨hs, ht⟩ := statesTold_of_reachable hr
  constructor
  · intro d hd p hhas hne
    have hphase : (h.client d).phase = .reading ∧ h.closed = false := by
      have hroom := (hpresent.member d hd).2
      rcases hidle.handlers d with hp | hp | hp | hp | hp
      · simp [hp, Phase.inRoom] at hroom
      · simp [hp, Phase.inRoom] at hroom
      · simp [hp, Phase.inRoom] at hroom
      · exact hp
      · simp [hp, Phase.inRoom] at hroom
    have hbusy : ∀ c, (h.client c).phase ≠ .leaving ∧
        ∀ handler, (h.client c).phase ≠ .handling handler := by
      intro c
      rcases hidle.handlers c with hp | hp | hp | ⟨hp, -⟩ | hp <;> simp [hp]
    cases ht.told d p ⟨hd, by simp [hphase.1]⟩ hne with
    | agrees hagrees => exact hagrees
    | relaying c state hrelaying _ => exact absurd hrelaying ((hbusy c).2 _)
    | leaving c _ hleaving => exact absurd hleaving (hbusy c).1
    | gone c _ hfree => simp [hhas] at hfree
    | closed hclosed => simp [hphase.2] at hclosed
  · intro p state hstate
    rcases hs.slot p state hstate with hhas | ⟨c, -, hreaper⟩
    · exact hhas
    · rcases hidle.reapers c with hr | hr <;> simp [hr] at hreaper

/-- The member 0 mutes itself after 1 has joined, and everybody is told. -/
theorem mediaStates_agree_muted : ∃ h : Hub,
    (∀ d ∈ h.roomMembers, ∀ p, h.meeting.has p = true → (h.client d).participantID ≠ some p →
      lastOf (Message.mediaStateOf p) (h.client d).outbound = h.mediaStates.lookup p) ∧
    1 ∈ h.roomMembers ∧ h.mediaStates.lookup 0 = some ⟨0, some false, none, none⟩ := by
  obtain ⟨h, hr, hunborn, ho⟩ := exists_reachable_within sampleConfig 2
    (joins 0 ++ joins 1 ++ [.receive 0 true (some (.mediaState (some false) none none))] ++ runs 0 1)
    (fun h => decide (((h.client 0).phase = .reading ∧ (h.client 1).phase = .reading) ∧
      ((h.client 0).reaper = .idle ∧ (h.client 1).reaper = .idle) ∧ h.closed = false ∧
      1 ∈ h.roomMembers ∧ h.mediaStates.lookup 0 = some ⟨0, some false, none, none⟩))
    true (by decide)
  obtain ⟨⟨hp₀, hp₁⟩, ⟨hr₀, hr₁⟩, hopen, hmember, hstate⟩ := of_decide_eq_true ho
  have hidle : h.Idle := by
    refine ⟨fun c => ?_, fun c => ?_⟩
    · rcases c with _ | _ | c
      · simp [hp₀, hopen]
      · simp [hp₁, hopen]
      · exact Or.inl (hunborn (c + 2) (by omega)).1
    · rcases c with _ | _ | c
      · exact Or.inl hr₀
      · exact Or.inl hr₁
      · exact Or.inl (hunborn (c + 2) (by omega)).2.2
  exact ⟨h, (mediaStates_agree hr hidle).1, hmember, hstate⟩

end Hub

end SlowMeet.Signaling
