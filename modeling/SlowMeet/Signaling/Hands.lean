import SlowMeet.Signaling.Chat
import SlowMeet.Signaling.Identities
import SlowMeet.Signaling.MediaStates

/-!
# What the members know of raised hands

`SetRaisedHand` changes the records under the meeting's lock; the handler
then tells the room of one record after the other. What a member was last
told of a hand is its record, or a handler still has that participant to
broadcast, as long as the last one to do so broadcasts the record of now.
-/

namespace SlowMeet.Signaling

open Lib Media

/-- Whether a hand is up, and its place. -/
def hand (q : Participant) : Bool × Nat := (q.raisedHand, q.handOrder)

/-- What a message says about the hand of the participant `p`. -/
def Message.handOf (p : ParticipantID) : Message → Option (Bool × Nat)
  | .participant q _ _ | .joined q => if q.id = p then some (hand q) else none
  | .handState id handRaised handOrder => if id = p then some (handRaised, handOrder) else none
  | _ => none

/-- The participants a hand change has still to be broadcast for. -/
def Phase.owed : Phase → List ParticipantID
  | .handling (.raising changed) => changed.map (·.id)
  | .handling (.raisedCast q changed) => q.id :: changed.map (·.id)
  | _ => []

theorem Phase.owed_of_carried {phase : Phase} {r : Participant} (hr : r ∈ phase.carried) :
    r.id ∈ phase.owed := by
  cases phase with
  | handling handler =>
    cases handler with
    | raising changed => exact List.mem_map_of_mem hr
    | raisedCast q changed => exact List.mem_cons_of_mem _ (List.mem_map_of_mem hr)
    | _ => cases hr
  | _ => cases hr

/-- Where all the messages that count say the same, the last one does. -/
theorem lastOf_eq_some {β : Type} (f : Message → Option β) {msgs : List Message} {b : β}
    (hall : ∀ msg ∈ msgs, ∀ b', f msg = some b' → b' = b) {msg : Message} (hmem : msg ∈ msgs)
    (hmsg : f msg = some b) : lastOf f msgs = some b := by
  have hmem' : b ∈ msgs.filterMap f := List.mem_filterMap.mpr ⟨msg, hmem, hmsg⟩
  cases hlast : (msgs.filterMap f).getLast? with
  | none =>
    rw [List.getLast?_eq_none_iff] at hlast
    rw [hlast] at hmem'
    cases hmem'
  | some b' =>
    obtain ⟨msg', hmsgs, hf⟩ := List.mem_filterMap.mp (List.mem_of_getLast? hlast)
    rw [lastOf, hlast, hall msg' hmsgs b' hf]

namespace Hub

variable {h h' : Hub} {c d : ClientId} {p : ParticipantID} {q : Participant} {l : Label}
  {handler : Handler}

/-- What `d` was last told about the hand of `p`. -/
def toldHand (h : Hub) (d : ClientId) (p : ParticipantID) : Option (Bool × Nat) :=
  lastOf (Message.handOf p) (h.client d).outbound

/-! ## What a step says -/

/-- What the admission of `q` replays of the hand of `p`. -/
def replayedHand (h : Hub) (q : Participant) (p : ParticipantID) : Option (Bool × Nat) :=
  if q.id = p then some (hand q)
  else if (h.pending.lookup ⟨p⟩).isSome then none
  else (h.meeting.participants.lookup p).map hand

/-- What a step tells `d` about the hand of `p`. -/
def sentHand (h : Hub) (d : ClientId) (p : ParticipantID) : Label → Option (Bool × Nat)
  | .run c ok =>
    match (h.client c).phase, (h.client c).participant with
    | .handling (.raisedCast q _), some _ =>
      if d ∈ h.roomMembers ∧ q.id = p then some (hand q) else none
    | .admitting, some q =>
      if h.closed || (h.client c).admissionExpired || !ok || d ≠ c then none
      else h.replayedHand q p
    | .announcing, some q =>
      if (h.client c).activeTakeover = false ∧ (d ∈ h.roomMembers ∧ d ≠ c) ∧ q.id = p then
        some (hand q)
      else none
    | _, _ => none
  | _ => none

theorem mem_rosterReplay (hk : h.Keyed) {r : Participant} :
    r ∈ h.rosterReplay q ↔
      h.meeting.participants.lookup r.id = some r ∧ r.id ≠ q.id ∧ h.pending.lookup ⟨r.id⟩ = none := by
  unfold rosterReplay
  rw [List.mem_filter, decide_eq_true_eq, mem_pendingIDs hk, Meeting.mem_list]
  simp [pendingOf]

theorem lastOf_rosterReplay (hk : h.Keyed) (hne : q.id ≠ p) :
    lastOf (Message.handOf p) ((h.rosterReplay q).map Message.joined) = h.replayedHand q p := by
  unfold replayedHand
  rw [if_neg hne]
  -- whatever the replay lists under `p` is its record
  have hlisted : ∀ msg ∈ (h.rosterReplay q).map Message.joined, ∀ b,
      Message.handOf p msg = some b → ∃ r, h.meeting.participants.lookup p = some r ∧
        h.pending.lookup ⟨p⟩ = none ∧ b = hand r := by
    intro msg hmsg b hb
    obtain ⟨r, hr, rfl⟩ := List.mem_map.mp hmsg
    obtain ⟨hrecord, -, hpending⟩ := (mem_rosterReplay hk).mp hr
    simp only [Message.handOf, Option.ite_none_right_eq_some, Option.some.injEq] at hb
    obtain ⟨rfl, rfl⟩ := hb
    exact ⟨r, hrecord, hpending, rfl⟩
  by_cases hshown : h.pending.lookup ⟨p⟩ = none ∧ ∃ r, h.meeting.participants.lookup p = some r
  · obtain ⟨hpending, r, hr⟩ := hshown
    rw [hpending, hr]
    have hid : r.id = p := h.meeting.keyed p r hr
    subst hid
    refine lastOf_eq_some _ (fun msg hmsg b hb => ?_)
      (List.mem_map_of_mem ((mem_rosterReplay hk).mpr ⟨hr, hne.symm, hpending⟩)) (if_pos rfl)
    obtain ⟨r', hr', -, rfl⟩ := hlisted msg hmsg b hb
    rw [hr, Option.some.injEq] at hr'
    rw [hr']
  · rw [lastOf_eq_none]
    · cases hpending : h.pending.lookup ⟨p⟩ with
      | some reconnect => rfl
      | none =>
        cases hr : h.meeting.participants.lookup p with
        | none => rfl
        | some r => exact absurd ⟨hpending, r, hr⟩ hshown
    · intro msg hmsg
      cases hb : Message.handOf p msg with
      | none => rfl
      | some b =>
        obtain ⟨r, hr, hpending, -⟩ := hlisted msg hmsg b hb
        exact absurd ⟨hpending, r, hr⟩ hshown

/-- An admission replays the newcomer's own record and what it shows of the
others. -/
theorem lastOf_replayedHand (hk : h.Keyed) (takeover : Bool) :
    lastOf (Message.handOf p) (h.admissionReplay q takeover) = h.replayedHand q p := by
  have hstates : lastOf (Message.handOf p) (h.mediaStates.values.map Message.mediaState) = none := by
    refine lastOf_eq_none _ fun msg hmsg => ?_
    obtain ⟨state, -, rfl⟩ := List.mem_map.mp hmsg
    rfl
  have hown : Message.handOf p (.participant q (reconnectToken q) h.chatHistorySnapshotLocked) =
      if q.id = p then some (hand q) else none := rfl
  have hlast : ((lastOf (Message.handOf p) ((h.rosterReplay q).map Message.joined)).or
      (Message.handOf p (.participant q (reconnectToken q) h.chatHistorySnapshotLocked))) =
        h.replayedHand q p := by
    rw [hown]
    by_cases hid : q.id = p
    · have hroster : lastOf (Message.handOf p) ((h.rosterReplay q).map Message.joined) = none := by
        refine lastOf_eq_none _ fun msg hmsg => ?_
        obtain ⟨r, hr, rfl⟩ := List.mem_map.mp hmsg
        exact if_neg (hid ▸ ((mem_rosterReplay hk).mp hr).2.1)
      rw [hroster, Option.none_or, if_pos hid]
      unfold replayedHand
      rw [if_pos hid]
    · rw [lastOf_rosterReplay hk hid, if_neg hid, Option.or_none]
  simp only [admissionReplay, lastOf_append, lastOf_singleton, hstates, Option.none_or, hlast]
  cases h.screenOwner with
  | some owner => simp [screenShareMessage, Message.handOf]
  | none => cases takeover <;> simp [screenShareMessage, Message.handOf]

theorem hand_sentHandling (hphase : (h.client c).phase = .handling handler)
    (hq : (h.client c).participant = some q) (ok : Bool) :
    lastOf (Message.handOf p) (h.sentHandling c d handler) = h.sentHand d p (.run c ok) := by
  simp only [sentHand, hphase, hq]
  cases handler with
  | raisedCast r changed =>
    simp only [sentHandling, lastOf_toRoom, Message.handOf]
    by_cases hd : d ∈ h.roomMembers <;> by_cases hid : r.id = p <;> simp [hd, hid, hand]
  | relaying state => simp [sentHandling, lastOf_toOthers, Message.handOf]
  | chatting msg entry => simp [sentHandling, lastOf_toOthers, Message.handOf]
  | sharing active streamID trackID =>
    simp only [sentHandling]
    split <;> simp [lastOf_toSelf, Message.handOf]
  | raising _ | shared _ _ => rfl
  | reacting _ _ _ | sharedCast _ =>
    simp [sentHandling, lastOf_toRoom, screenShareMessage, Message.handOf]

theorem hand_sent (hk : h.Keyed) (l : Label) :
    lastOf (Message.handOf p) (h.sent d l) = h.sentHand d p l := by
  cases l with
  | run c ok =>
    cases hphase : (h.client c).phase with
    | refusing err =>
      simp only [sent, sentRunning, sentHand, hphase, lastOf_append, lastOf_toSelf]
      cases err <;> simp [Message.handOf, lastOf_toRoom]
    | peering =>
      simp only [sent, sentRunning, sentHand, hphase]
      cases ok <;> simp [lastOf_toSelf, Message.handOf]
    | admitting =>
      cases hq : (h.client c).participant with
      | none => simp [sent, sentRunning, sentHand, hphase, hq]
      | some q =>
        simp only [sent, sentRunning, sentHand, hphase, hq]
        cases h.closed || (h.client c).admissionExpired || !ok with
        | true => simp
        | false =>
          simp only [Bool.false_eq_true, if_false, lastOf_toSelf, lastOf_replayedHand hk]
          by_cases hd : d = c <;> simp [hd]
    | announcing =>
      cases hq : (h.client c).participant with
      | none => simp [sent, sentRunning, sentHand, hphase, hq]
      | some q =>
        simp only [sent, sentRunning, sentHand, hphase, hq]
        cases (h.client c).activeTakeover with
        | true => simp
        | false =>
          simp only [Bool.false_eq_true, if_false, lastOf_toOthers, Message.handOf]
          by_cases hd : d ∈ h.roomMembers ∧ d ≠ c <;> by_cases hid : q.id = p <;> simp [hd, hid]
    | handling handler =>
      cases hq : (h.client c).participant with
      | none => cases handler <;> simp [sent, sentRunning, sentHand, hphase, hq]
      | some q =>
        rw [← hand_sentHandling hphase hq ok]
        simp only [sent, sentRunning, hphase, hq]
    | parting departure at_ =>
      cases hq : (h.client c).participant <;> cases at_ <;>
        simp [sent, sentRunning, sentHand, hphase, hq, lastOf_toRoom, screenShareMessage,
          Message.handOf]
    | casting =>
      cases hq : (h.client c).participant <;>
        simp [sent, sentRunning, sentHand, hphase, hq, lastOf_toRoom, Message.handOf]
    | _ => simp [sent, sentRunning, sentHand, hphase]
  | notify c e =>
    simp only [sent, sentHand]
    split <;> simp [lastOf_toSelf, Message.handOf]
  | admin a =>
    simp only [sent, sentHand]
    split <;> simp [lastOf_toRoom, screenShareMessage, Message.handOf]
  | _ => rfl

/-- What a step does to what `d` was last told. -/
theorem toldHand_step (hk : h.Keyed) (hstep : h.Steps l h') (d : ClientId) (p : ParticipantID) :
    h'.toldHand d p = (h.sentHand d p l).or (h.toldHand d p) := by
  rcases appends_step hstep d with hsent | ⟨⟨allowed, input, rfl⟩, text, herror⟩
  · rw [toldHand, hsent, lastOf_append, hand_sent hk]
    rfl
  · rw [toldHand, herror, lastOf_append]
    rfl

/-! ## What a step changes -/

/-- What a step makes of the record of `p`. -/
inductive HandChange (h h' : Hub) (p : ParticipantID) : Prop
  | kept (he : h'.meeting.participants.lookup p = h.meeting.participants.lookup p)
  | gone (he : h'.meeting.participants.lookup p = none)
  | joined (hp : p = h.nextID)
  | moved (c : ClientId) (howed : p ∈ (h'.client c).phase.owed)

/-- The record `q` that `c` sends is the one in the meeting, or another
handler has still to broadcast its participant. -/
def Informs (h : Hub) (c : ClientId) (q : Participant) : Prop :=
  (∀ r, h.meeting.participants.lookup q.id = some r → q = r) ∨
    ∃ e, e ≠ c ∧ q.id ∈ (h.client e).phase.owed

/-- A step after which the room can still be told right: the record of a
broadcast or an admission informs; whoever leaves the meeting is the last of
the queue; and a superseded client had been announced, or had itself taken
over. -/
def TellsHands (h : Hub) : Label → Prop
  | .run c ok =>
    match (h.client c).phase with
    | .handling (.raisedCast q _) => h.Informs c q
    | .admitting => ok = true → ∀ q, (h.client c).participant = some q → h.Informs c q
    | .announcing => (h.client c).activeTakeover = false →
        ∀ q, (h.client c).participant = some q → h.Informs c q
    | .leaving => ∀ p, (h.client c).participantID = some p → h.meeting.behind p = []
    | .disconnecting =>
      (∃ p, (h.client c).participantID = some p ∧ h.activeTokens.lookup ⟨p⟩ = some c) ∨
        (h.client c).announced = true ∨ (h.client c).activeTakeover = true
    | _ => True
  | .reap c => (h.client c).reaper = .leaving →
      ∀ p, (h.client c).participantID = some p → h.meeting.behind p = []
  | .closeLeave id => h.meeting.behind id = []
  | _ => True

theorem hand_receive {input : Option Request} (hqueued : h.meeting.Queued)
    (hreceive : h.Receives c input h') (p : ParticipantID) : h.HandChange h' p := by
  cases hreceive with
  | handState q raised meeting changed hq hraised =>
    by_cases he : meeting.participants.lookup p = h.meeting.participants.lookup p
    · exact .kept he
    · cases hr : meeting.participants.lookup p with
      | none => exact .gone hr
      | some r =>
        have hid : r.id = p := meeting.keyed p r hr
        subst hid
        have hmem : r ∈ changed := hqueued.reported hraised hr fun hold => he (hr.trans hold.symm)
        refine .moved c ?_
        rw [phase_goto]
        exact List.mem_map_of_mem hmem
  | _ => exact .kept rfl

theorem hand_step (hqueued : h.meeting.Queued) (htells : h.TellsHands l) (hstep : h.Steps l h')
    (p : ParticipantID) : h.HandChange h' p := by
  have hroom := room_step hstep
  have hmeeting : h'.meeting = h'.room.meeting := rfl
  generalize h'.room = room at hroom hmeeting
  -- whoever leaves is the last of the queue
  have hleave : ∀ id, h.meeting.behind id = [] → h'.meeting = (h.meeting.leave id).1 →
      h.HandChange h' p := by
    intro id hlast he
    by_cases hp : p = id
    · exact .gone (by rw [he, hp, Meeting.lookup_leave_self])
    · exact .kept (by rw [he, hqueued.lookup_leave hlast hp])
  cases hroom with
  | joined c ok name meeting q hphase hjoin =>
    by_cases hp : p = h.nextID
    · exact .joined hp
    · obtain ⟨hid, hstore⟩ := Meeting.join_ok _ _ _ hjoin
      refine .kept ?_
      rw [hmeeting, hstore, Meeting.lookup_store, hid, if_neg hp]
  | left c ok q hq hphase =>
    simp only [TellsHands, hphase] at htells
    exact hleave q.id (htells q.id (participantID_of_some hq)) hmeeting
  | reaped c q hq hreaper =>
    exact hleave q.id (htells hreaper q.id (participantID_of_some hq)) hmeeting
  | closeLeft id hid => exact hleave id htells hmeeting
  | raised c allowed q raised meeting changed hread hq hraised =>
    cases hstep with
    | receive _ _ _ _ _ hreceive => exact hand_receive hqueued hreceive p
  | limited a cfg hadmin =>
    refine .kept ?_
    rw [hmeeting]
    show (h.meeting.setMaxParticipants cfg.maxParticipants).participants.lookup p = _
    unfold Meeting.setMaxParticipants
    split <;> rfl
  | _ => exact .kept (by rw [hmeeting]; rfl)

/-- A participant is owed until it is broadcast. -/
theorem owed_step (hstep : h.Steps l h') (hp : p ∈ (h.client c).phase.owed) :
    p ∈ (h'.client c).phase.owed ∨ ∃ ok q changed, l = .run c ok ∧
      (h.client c).phase = .handling (.raisedCast q changed) ∧ q.id = p := by
  have hhandling : ∃ handler, (h.client c).phase = .handling handler := by
    cases hphase : (h.client c).phase with
    | handling handler => exact ⟨handler, rfl⟩
    | _ =>
      rw [hphase] at hp
      cases hp
  obtain ⟨handler, hphase⟩ := hhandling
  rcases stays_step (c := c) hstep (by simp [hphase]) (by simp [hphase]) (by simp [hphase]) with
    hkept | ⟨ok, rfl⟩
  · left
    rw [hkept]
    exact hp
  · cases hstep with
    | run _ _ _ hrun =>
      cases hrun with
      | handling q handler' hq hphase' =>
        rw [hphase'] at hp
        cases handler' with
        | raising changed =>
          cases changed with
          | nil => cases hp
          | cons r changed =>
            left
            rw [runHandler, phase_goto]
            exact hp
        | raisedCast r changed =>
          rcases List.mem_cons.mp hp with hid | hmem
          · exact Or.inr ⟨ok, r, changed, rfl, hphase', hid.symm⟩
          · left
            rw [runHandler, phase_goto]
            exact hmem
        | _ => cases hp
      | _ => simp_all

/-- Whoever comes to be owed is in the meeting. -/
theorem owed_of_step (hqueued : h.meeting.Queued) (hstep : h.Steps l h')
    (hp : p ∈ (h'.client c).phase.owed) :
    p ∈ (h.client c).phase.owed ∨ h'.meeting.has p = true := by
  cases carried_step hstep c with
  | taken ok q changed hphase hphase' =>
    left
    rw [hphase]
    rwa [hphase'] at hp
  | raised allowed q raised changed hread hq hraised hphase =>
    right
    rw [hphase] at hp
    obtain ⟨r, hmem, rfl⟩ := List.mem_map.mp hp
    rw [Meeting.has, (hqueued.changed hraised).1 r hmem]
    rfl
  | same _ he =>
    left
    cases hphase : (h'.client c).phase with
    | handling handler =>
      rcases handles_step hstep hphase with ⟨hold, -⟩ | hhandles
      · rwa [hold, ← hphase]
      · rw [hphase] at hp he
        cases hhandles with
        | handState allowed q raised meeting changed hq hraised =>
          obtain ⟨r, hmem, rfl⟩ := List.mem_map.mp hp
          exact Phase.owed_of_carried (he ▸ hmem)
        | raise ok q changed hold =>
          rw [hold]
          exact hp
        | raised ok q changed hold =>
          rw [hold]
          exact List.mem_cons_of_mem _ hp
        | _ => cases hp
    | _ =>
      rw [hphase] at hp
      cases hp

/-! ## What the members know -/

/-- What `d` was told of the hand of `p`, if anything, is what its record
says, or a handler has still to broadcast `p`. -/
inductive KnowsHand (h : Hub) (d : ClientId) (p : ParticipantID) : Prop
  | agrees (hagrees : ∀ r, h.meeting.participants.lookup p = some r →
      h.toldHand d p = none ∨ h.toldHand d p = some (hand r))
  | owed (c : ClientId) (howed : p ∈ (h.client c).phase.owed)

structure HandsKnown (h : Hub) : Prop where
  queued : h.meeting.Queued
  early : ∀ d p, h.Early d → h.toldHand d p = none
  told : ∀ d p, h.toldHand d p ≠ none → p < h.nextID
  owed : ∀ c, ∀ p ∈ (h.client c).phase.owed, p < h.nextID
  knows : ∀ d p, h.InRoom d → h.KnowsHand d p

/-- Whoever is told of a hand is a room member, and is told what is so or
what another handler is going to correct. -/
theorem of_sentHand (hs : h.HandsKnown) (hpresent : h.Present) (htells : h.TellsHands l)
    (hstep : h.Steps l h') {v : Bool × Nat} (hsent : h.sentHand d p l = some v) :
    d ∈ h'.roomMembers ∧ p < h.nextID ∧
      ((∀ r, h.meeting.participants.lookup p = some r → v = hand r) ∨
        ∃ c, p ∈ (h'.client c).phase.owed) := by
  -- another handler than the one that runs stays where it is
  have hinforms : ∀ c ok q, l = .run c ok → h.Informs c q →
      (∀ r, h.meeting.participants.lookup q.id = some r → hand q = hand r) ∨
        ∃ e, q.id ∈ (h'.client e).phase.owed := by
    intro c ok q hl hinforms
    rcases hinforms with hcurrent | ⟨e, hne, howed⟩
    · exact Or.inl fun r hr => congrArg hand (hcurrent r hr)
    · refine Or.inr ⟨e, ?_⟩
      rcases owed_step hstep howed with howed' | ⟨ok', r, changed, hl', -, -⟩
      · exact howed'
      · rw [hl, Label.run.injEq] at hl'
        exact absurd hl'.1.symm hne
  cases l with
  | run c ok =>
    cases hstep with
    | run _ _ _ hrun =>
      cases hrun with
      | handling q handler hq hphase =>
        simp only [sentHand, hphase, hq] at hsent
        cases handler with
        | raisedCast r changed =>
          simp only [Option.ite_none_right_eq_some, Option.some.injEq] at hsent
          obtain ⟨⟨hd, rfl⟩, rfl⟩ := hsent
          simp only [TellsHands, hphase] at htells
          exact ⟨hd, hs.owed c r.id (by rw [hphase]; exact List.mem_cons_self),
            hinforms c ok r rfl htells⟩
        | _ => simp at hsent
      | admitting q hq hphase =>
        simp only [sentHand, hphase, hq, Option.ite_none_left_eq_some] at hsent
        obtain ⟨haccepted, hreplayed⟩ := hsent
        simp only [Bool.or_eq_true, Bool.not_eq_true', decide_eq_true_eq, not_or, ne_eq, not_not,
          Bool.not_eq_true, Bool.not_eq_false] at haccepted
        obtain ⟨⟨⟨hopen, hlate⟩, rfl⟩, rfl⟩ := haccepted
        refine ⟨by simp [admitClient, hopen, hlate, update], ?_⟩
        unfold replayedHand at hreplayed
        split at hreplayed
        · next hid =>
          subst hid
          cases hreplayed
          simp only [TellsHands, hphase] at htells
          exact ⟨hpresent.seen d q.id (participantID_of_some hq),
            hinforms d true q rfl (htells trivial q hq)⟩
        · split at hreplayed
          · cases hreplayed
          · obtain ⟨r, hr, rfl⟩ := Option.map_eq_some_iff.mp hreplayed
            refine ⟨hpresent.slots p (by rw [Meeting.has, hr]; rfl), Or.inl fun r' hr' => ?_⟩
            rw [hr, Option.some.injEq] at hr'
            rw [hr']
      | announcing q hq hphase =>
        simp only [sentHand, hphase, hq, Option.ite_none_right_eq_some, Option.some.injEq] at hsent
        obtain ⟨⟨htakeover, ⟨hd, hne⟩, rfl⟩, rfl⟩ := hsent
        simp only [TellsHands, hphase] at htells
        refine ⟨?_, hpresent.seen c q.id (participantID_of_some hq),
          hinforms c ok q rfl (htells htakeover q hq)⟩
        show d ∈ (h.announce c q).roomMembers
        simp only [announce, htakeover]
        exact hd
      | _ => simp_all [sentHand]
  | _ => simp [sentHand] at hsent

/-- A member that is told of a hand knows it. -/
theorem HandsKnown.knows_of_sent (hs : h.HandsKnown) (hk : h.Keyed) (hpresent : h.Present)
    (htells : h.TellsHands l) (hstep : h.Steps l h') {v : Bool × Nat}
    (hsent : h.sentHand d p l = some v) : h'.KnowsHand d p := by
  obtain ⟨-, hlt, hright⟩ := of_sentHand hs hpresent htells hstep hsent
  rcases hright with hcurrent | ⟨c, howed⟩
  · cases hand_step hs.queued htells hstep p with
    | kept he =>
      refine .agrees fun r hr => Or.inr ?_
      rw [toldHand_step hk hstep, hsent, Option.some_or, hcurrent r (he ▸ hr)]
    | gone he =>
      refine .agrees fun r hr => ?_
      rw [he] at hr
      cases hr
    | joined hp => exact absurd hp (Nat.ne_of_lt hlt)
    | moved c howed => exact .owed c howed
  · exact .owed c howed

theorem KnowsHand.step (hknows : h.KnowsHand d p) (hs : h.HandsKnown) (hk : h.Keyed)
    (hpresent : h.Present) (hroom : h.InRoom d) (htells : h.TellsHands l) (hstep : h.Steps l h') :
    h'.KnowsHand d p := by
  cases hsent : h.sentHand d p l with
  | some v => exact hs.knows_of_sent hk hpresent htells hstep hsent
  | none =>
    have htold : h'.toldHand d p = h.toldHand d p := by
      rw [toldHand_step hk hstep, hsent, Option.none_or]
    cases hknows with
    | agrees hagrees =>
      cases hand_step hs.queued htells hstep p with
      | kept he =>
        refine .agrees fun r hr => ?_
        rw [htold]
        exact hagrees r (he ▸ hr)
      | gone he =>
        refine .agrees fun r hr => ?_
        rw [he] at hr
        cases hr
      | joined hp =>
        -- nobody was told of an identifier that had not been drawn
        refine .agrees fun r _ => Or.inl ?_
        by_contra hne
        exact Nat.lt_irrefl _ (hp ▸ hs.told d p (htold ▸ hne))
      | moved c howed => exact .owed c howed
    | owed c howed =>
      rcases owed_step hstep howed with howed' | ⟨ok, q, changed, rfl, hphase, hid⟩
      · exact .owed c howed'
      · -- the broadcast would have reached `d`
        cases hstep with
        | run _ _ _ hrun =>
          cases hrun with
          | handling r handler hr hphase' =>
            simp [sentHand, hphase, hr, hroom.1, hid] at hsent
          | _ => simp_all

theorem handsKnown_new (cfg : Config) : (Hub.new cfg).HandsKnown where
  queued := Meeting.queued_new _
  early _ _ _ := rfl
  told _ _ htold := absurd rfl htold
  owed _ _ howed := absurd howed List.not_mem_nil
  knows d _ hroom := absurd hroom.1 (Finset.notMem_empty d)

theorem HandsKnown.step (hs : h.HandsKnown) (hk : h.Keyed) (hpresent : h.Present)
    (hpresent' : h'.Present) (htells : h.TellsHands l) (hstep : h.Steps l h') : h'.HandsKnown where
  queued := queued_step hs.queued hpresent hstep
  early d p hearly := by
    rw [toldHand_step hk hstep, hs.early d p (early_of_step hpresent hstep hearly), Option.or_none]
    cases hsent : h.sentHand d p l with
    | none => rfl
    | some v =>
      exact absurd (of_sentHand hs hpresent htells hstep hsent).1
        (not_member_of_early hpresent' hearly)
  told d p htold := by
    refine Nat.lt_of_lt_of_le ?_ (nextID_step hstep)
    rw [toldHand_step hk hstep] at htold
    cases hsent : h.sentHand d p l with
    | none =>
      rw [hsent, Option.none_or] at htold
      exact hs.told d p htold
    | some v => exact (of_sentHand hs hpresent htells hstep hsent).2.1
  owed c p howed := by
    rcases owed_of_step hs.queued hstep howed with hold | hhas
    · exact Nat.lt_of_lt_of_le (hs.owed c p hold) (nextID_step hstep)
    · exact hpresent'.slots p hhas
  knows d p hroom' := by
    rcases admitted_of_step hstep hroom' with hroom | ⟨q, hphase, -, -, -, -⟩
    · exact (hs.knows d p hroom).step hs hk hpresent hroom htells hstep
    · cases hsent : h.sentHand d p l with
      | some v => exact hs.knows_of_sent hk hpresent htells hstep hsent
      | none =>
        refine .agrees fun r _ => Or.inl ?_
        rw [toldHand_step hk hstep, hsent, Option.none_or]
        exact hs.early d p (Or.inr (by rw [hphase]; rfl))

theorem handsKnown_of_reachable {cfg : Config} (hr : (lts cfg).Reachable TellsHands h) :
    h.HandsKnown := by
  refine hr.invariant_of (J := fun h => h.Keyed ∧ h.Present)
    (fun _ hs => ⟨(owned_of_reachable hs).1, present_of_reachable hs⟩) ?_ ?_
  · rintro h₀ rfl
    exact handsKnown_new cfg
  · intro h l h' hJ hJ' hs htells htr
    exact hs.step hJ.1 hJ.2 hJ'.2 htells (steps_of_step htr)

end Hub

end SlowMeet.Signaling
