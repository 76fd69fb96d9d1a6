import SlowMeet.Meeting.Queue
import SlowMeet.Signaling.Handlers
import SlowMeet.Signaling.Presence

/-!
# The cached participant

Every connection keeps a copy of its participant's record, which goes into
the pending entry when it drops and on to whoever reclaims it. The meeting
rewrites the record when a hand moves; the connection refreshes its copy
from the change list of its own `SetRaisedHand` only.
-/

namespace SlowMeet.Signaling

open Lib Media

/-- The records a hand change has still to be told the room about. -/
def Phase.carried : Phase → List Participant
  | .handling (.raising changed) | .handling (.raisedCast _ changed) => changed
  | _ => []

/-- From the reclaim or the join to the decision about the slot. -/
def Phase.holding (phase : Phase) : Bool := phase.arriving || phase.serving

/-- A connection that holds a participant held it before, or has just got
it. -/
theorem Phase.Next.holding {phase next : Phase} (hnext : phase.Next next)
    (hholding : next.holding = true) : phase.holding = true ∨ phase.unknown = true := by
  cases phase with
  | absent | upgrading | opening | reclaiming _ _ | joining _ | refusing _ | entering _ =>
    exact Or.inr rfl
  | casting | scheduling | arming | armingGrace =>
    simp only [Phase.Next] at hnext
    rcases hnext with rfl | rfl <;> cases hholding
  | notifying _ => rcases hnext with ⟨_, _, rfl⟩ | ⟨_, rfl⟩ <;> cases hholding
  | finished => exact hnext.elim
  | _ => exact Or.inl rfl

namespace Hub

variable {h h' : Hub} {c d : ClientId} {p : ParticipantID} {l : Label}
  {rank : ClientId → Nat} {slot : ParticipantID → Slot}

/-! ## What a step does to a record -/

/-- The participant that lowers its hand or leaves the meeting. -/
def stepsBack (h : Hub) : Label → Option ParticipantID
  | .receive c _ (some (.handState _ false)) => (h.client c).participantID
  | .run c _ => if (h.client c).phase = .leaving then (h.client c).participantID else none
  | .reap c => if (h.client c).reaper = .leaving then (h.client c).participantID else none
  | .closeLeave id => some id
  | _ => none

/-- Whoever lowers its hand or leaves is the last of the queue. -/
def keepsPlaces (h : Hub) (l : Label) : Bool :=
  (h.stepsBack l).all fun p => (h.meeting.behind p).isEmpty

theorem behind_of_keepsPlaces (hplaces : h.keepsPlaces l = true) (hp : h.stepsBack l = some p) :
    h.meeting.behind p = [] := by
  unfold keepsPlaces at hplaces
  rw [hp] at hplaces
  exact List.isEmpty_iff.mp hplaces

/-- The record of `p` after a step that keeps the other places. -/
inductive RecordChange (h h' : Hub) (p : ParticipantID) : Label → Prop
  | kept (l : Label)
      (he : h'.meeting.participants.lookup p = h.meeting.participants.lookup p) :
      RecordChange h h' p l
  | gone (l : Label) (he : h'.meeting.participants.lookup p = none) : RecordChange h h' p l
  | joined (c : ClientId) (ok : Bool) (hfresh : p = h.nextID)
      (hphase : ∃ name, (h.client c).phase = .joining name) : RecordChange h h' p (.run c ok)
  | raised (c : ClientId) (allowed : Bool) (q : Participant) (raised : Bool)
      (changed : List Participant) (hread : (h.client c).phase = .reading)
      (hq : (h.client c).participant = some q) (hid : q.id = p)
      (hraised : h.meeting.setRaisedHand q.id raised = some (h'.meeting, changed))
      (hphase : (h'.client c).phase = .handling (.raising changed)) :
      RecordChange h h' p (.receive c allowed (some (.handState q.id raised)))

theorem record_receive {allowed : Bool} {input : Option Request} (hqueued : h.meeting.Queued)
    (hplaces : h.keepsPlaces (.receive c allowed input) = true)
    (hread : (h.client c).phase = .reading) (hreceive : h.Receives c input h')
    (p : ParticipantID) : h.RecordChange h' p (.receive c allowed input) := by
  cases hreceive with
  | handState q raised meeting changed hq hraised =>
    by_cases hp : q.id = p
    · exact .raised c allowed q raised changed hread hq hp hraised (phase_goto _ _)
    · refine .kept _ (hqueued.lookup_setRaisedHand hraised ?_ (fun he => hp he.symm))
      intro hlowered
      subst hlowered
      exact behind_of_keepsPlaces hplaces (by simp [stepsBack, Client.participantID, hq])
  | _ => exact .kept _ rfl

theorem record_step (hqueued : h.meeting.Queued) (hplaces : h.keepsPlaces l = true)
    (hstep : h.Steps l h') (p : ParticipantID) : h.RecordChange h' p l := by
  have hroom := room_step hstep
  have hmeeting : h'.meeting = h'.room.meeting := rfl
  generalize h'.room = room at hroom hmeeting
  -- a participant that leaves keeps the others' places
  have hleave : ∀ id, h.stepsBack l = some id → h'.meeting = (h.meeting.leave id).1 →
      h.RecordChange h' p l := by
    intro id hid he
    by_cases hp : p = id
    · exact .gone l (by rw [he, hp, Meeting.lookup_leave_self])
    · exact .kept l (by rw [he, hqueued.lookup_leave (behind_of_keepsPlaces hplaces hid) hp])
  cases hroom with
  | joined c ok name meeting q hphase hjoin =>
    by_cases hp : p = h.nextID
    · exact .joined c ok hp ⟨name, hphase⟩
    · obtain ⟨hid, hstore⟩ := Meeting.join_ok _ _ _ hjoin
      refine .kept _ ?_
      rw [hmeeting, hstore, Meeting.lookup_store, hid, if_neg hp]
  | left c ok q hq hphase =>
    exact hleave q.id (by simp [stepsBack, hphase, Client.participantID, hq]) hmeeting
  | reaped c q hq hreaper =>
    exact hleave q.id (by simp [stepsBack, hreaper, Client.participantID, hq]) hmeeting
  | closeLeft id hid => exact hleave id rfl hmeeting
  | raised c allowed q raised meeting changed hread hq hraised =>
    cases hstep with
    | receive _ _ _ _ _ hreceive => exact record_receive hqueued hplaces hread hreceive p
  | limited a cfg hadmin =>
    refine .kept _ ?_
    rw [hmeeting]
    show (h.meeting.setMaxParticipants cfg.maxParticipants).participants.lookup p = _
    unfold Meeting.setMaxParticipants
    split <;> rfl
  | _ => exact .kept _ (by rw [hmeeting]; rfl)

theorem queued_step (hqueued : h.meeting.Queued) (hpresent : h.Present) (hstep : h.Steps l h') :
    h'.meeting.Queued := by
  have hroom := room_step hstep
  have hmeeting : h'.meeting = h'.room.meeting := rfl
  generalize h'.room = room at hroom hmeeting
  rw [hmeeting]
  cases hroom with
  | joined c ok name meeting q hphase hjoin =>
    refine hqueued.join ?_ hjoin
    by_contra hhas
    exact absurd (hpresent.slots h.nextID (eq_true_of_ne_false hhas)) (Nat.lt_irrefl _)
  | left c ok q hq hphase => exact hqueued.leave q.id
  | reaped c q hq hreaper => exact hqueued.leave q.id
  | closeLeft id hid => exact hqueued.leave id
  | raised c allowed q raised meeting changed hread hq hraised => exact hqueued.setRaisedHand hraised
  | limited a cfg hadmin => exact hqueued.setMaxParticipants _
  | _ => exact hqueued

/-! ## What a step does to the records a connection carries -/

/-- The records `c` carries after a step. -/
inductive CarriedChange (h h' : Hub) (c : ClientId) : Label → Prop
  | same (l : Label) (he : (h'.client c).phase.carried = (h.client c).phase.carried) :
      CarriedChange h h' c l
  | taken (ok : Bool) (q : Participant) (changed : List Participant)
      (hphase : (h.client c).phase = .handling (.raising (q :: changed)))
      (hphase' : (h'.client c).phase = .handling (.raisedCast q changed)) :
      CarriedChange h h' c (.run c ok)
  | raised (allowed : Bool) (q : Participant) (raised : Bool) (changed : List Participant)
      (hread : (h.client c).phase = .reading) (hq : (h.client c).participant = some q)
      (hraised : h.meeting.setRaisedHand q.id raised = some (h'.meeting, changed))
      (hphase : (h'.client c).phase = .handling (.raising changed)) :
      CarriedChange h h' c (.receive c allowed (some (.handState q.id raised)))

theorem carried_runHandler {q : Participant} {handler : Handler} (ok : Bool)
    (hphase : (h.client c).phase = .handling handler) :
    h.CarriedChange (h.runHandler c q handler) c (.run c ok) := by
  cases handler with
  | raising changed =>
    cases changed with
    | nil => exact .same _ (by rw [hphase, runHandler, phase_goto]; rfl)
    | cons r changed => exact .taken ok r changed hphase (by rw [runHandler, phase_goto])
  | raisedCast r changed => exact .same _ (by rw [hphase, runHandler, phase_goto]; rfl)
  | sharing active streamID trackID =>
    refine .same _ ?_
    rw [hphase]
    simp only [runHandler, requestScreenShare]
    split <;> rw [phase_goto] <;> rfl
  | shared active change =>
    refine .same _ ?_
    rw [hphase]
    cases change <;> rw [runHandler, phase_goto] <;> rfl
  | relaying _ | reacting _ _ _ | sharedCast _ | chatting _ _ =>
    exact .same _ (by rw [hphase, runHandler, phase_goto]; rfl)

/-- Only a handler carries records. -/
theorem Phase.carried_eq_nil {phase : Phase} (hphase : ∀ handler, phase ≠ .handling handler) :
    phase.carried = [] := by
  cases phase with
  | handling handler => exact absurd rfl (hphase handler)
  | _ => rfl

theorem carried_step (hstep : h.Steps l h') (c : ClientId) : h.CarriedChange h' c l := by
  rcases next_step hstep c with hsame | ⟨hhandler, hnext⟩
  · exact .same _ (congrArg Phase.carried hsame)
  cases hstep with
  | run e ok _ hrun =>
    obtain rfl : e = c := by simpa [Label.handler] using hhandler
    cases hrun with
    | handling q handler hq hphase => exact carried_runHandler ok hphase
    | _ =>
      refine .same _ ?_
      rw [@Phase.carried_eq_nil (h.client e).phase (by simp_all)]
      apply Phase.carried_eq_nil
      intro handler hphase'
      rw [hphase'] at hnext
      simp_all [Phase.Next]
  | receive e allowed input _ hread hreceive =>
    obtain rfl : e = c := by simpa [Label.handler] using hhandler
    cases hreceive with
    | handState q raised meeting changed hq hraised =>
      exact .raised allowed q raised changed hread hq hraised (phase_goto _ _)
    | ignored _ _ | videoSubscriptions _ _ _ _ => exact .same _ rfl
    | refused _ _ _ =>
      exact .same _ (by simp [refuse, write, phase_update, Client.write])
    | refusedJoin _ _ _ =>
      exact .same _ (by simp [refuse, write, phase_update, Client.write, countJoin])
    | leave _ _ => exact .same _ (by rw [hread, phase_update]; rfl)
    | lost | expelled _ _ _ | reclaiming _ _ _ _ | joining _ _ _ | mediaState _ _ _ _ _
      | screenShare _ _ _ _ _ _ | retainedChat _ _ _ _ | chat _ _ _ _ | reaction _ _ _ =>
      exact .same _ (by rw [hread, phase_goto]; rfl)
  | connect e hphase =>
    obtain rfl : e = c := by simpa [Label.handler] using hhandler
    refine .same _ ?_
    rw [hphase]
    simp only [reserve]
    split <;> simp [phase_update, Phase.carried]
  | notify e e' q clients hphase hq he =>
    obtain rfl : e = c := by simpa [Label.handler] using hhandler
    exact .same _ (by rw [hphase, phase_goto]; rfl)
  | _ => simp [Label.handler] at hhandler

/-! ## Hand changes and takeovers, one at a time -/

/-- A hand is moved by the connection its token leads to, and a live token
is not reclaimed from a connection that has yet to refresh its own record. -/
def handsApart (h : Hub) : Label → Bool
  | .receive c _ (some (.handState id _)) =>
    (h.client c).participantID != some id || h.activeTokens.lookup ⟨id⟩ == some c
  | .run c _ =>
    match (h.client c).phase with
    | .reclaiming _ token => (h.activeTokens.lookup token).all fun previous =>
        (h.client previous).phase.carried.all fun r => r.id != token.participant
    | _ => true
  | _ => true

theorem active_of_handsApart {q : Participant} {allowed raised : Bool}
    (hapart : h.handsApart (.receive c allowed (some (.handState q.id raised))) = true)
    (hq : (h.client c).participant = some q) : h.activeTokens.lookup ⟨q.id⟩ = some c := by
  simp only [handsApart, Client.participantID, hq, Option.map_some, bne_self_eq_false,
    Bool.false_or, beq_iff_eq] at hapart
  exact hapart

theorem refreshed_of_handsApart {ok : Bool} {name : Name} {token : Token} {previous : ClientId}
    (hapart : h.handsApart (.run c ok) = true)
    (hphase : (h.client c).phase = .reclaiming name token)
    (hactive : h.activeTokens.lookup token = some previous) :
    ∀ r ∈ (h.client previous).phase.carried, r.id ≠ token.participant := by
  simp only [handsApart, hphase, hactive, Option.all_some, List.all_eq_true, bne_iff_ne] at hapart
  exact hapart

/-- The live connection of a participant that reads is the only one that
holds it. -/
theorem eq_of_holding (hpresent : h.Present) (hs : (h.session rank slot).Slotted p)
    (hread : (h.client d).phase = .reading) (hd : (h.client d).participantID = some p)
    (hactive : h.activeTokens.lookup ⟨p⟩ = some d) (hc : (h.client c).participantID = some p)
    (hholding : (h.client c).phase.holding = true) : c = d := by
  by_cases hserving : (h.client c).phase.serving = true
  · exact hpresent.unique d c p ⟨hd, by rw [hread]; rfl⟩ ⟨hc, hserving⟩
  · -- it waits for another connection, and so is not below the live one
    have hwaits : ∃ b, ((h.session rank slot).life c).kind = .waiting b := by
      show ∃ b, ((h.client c).phase.stage (h.client c).participant.isSome).kind = .waiting b
      cases hphase : (h.client c).phase with
      | superseding b | waiting b => exact ⟨b, rfl⟩
      | _ =>
        rw [hphase] at hholding hserving
        simp [Phase.holding, Phase.arriving, Phase.serving] at hholding hserving
    by_contra hne
    have hslot := hs.active d hactive
    have hrank : (h.session rank slot).rank c < (h.session rank slot).rank d := by
      refine Nat.lt_of_le_of_ne (hs.top d c (Or.inl hslot) hd hc) ?_
      exact fun heq => hne (hs.rank d c hd hc heq)
    have hpresentKind : ((h.session rank slot).life d).kind = .present := by
      show ((h.client d).phase.stage (h.client d).participant.isSome).kind = .present
      have hsome : (h.client d).participant.isSome = true := by
        rw [Client.participantID] at hd
        cases hp : (h.client d).participant with
        | none => simp [hp] at hd
        | some q => rfl
      rw [hread, hsome]
      rfl
    rcases hs.lower d c hd hc hrank with hwaits' | hover
    · obtain ⟨b, hb⟩ := hwaits'
      rw [hpresentKind] at hb
      cases hb
    · obtain ⟨b, hb⟩ := hwaits
      rw [hover] at hb
      cases hb

/-! ## The copies -/

/-- The record `q` becomes once `changed` is gone through. -/
def refresh (changed : List Participant) (q : Participant) : Participant :=
  (changed.find? fun r => r.id = q.id).getD q

theorem refresh_of_notMem {changed : List Participant} {q : Participant}
    (hout : ∀ r ∈ changed, r.id ≠ q.id) : refresh changed q = q := by
  unfold refresh
  rw [List.find?_eq_none.mpr fun r hr => by simpa using hout r hr]
  rfl

/-- A hand change hands back what it made of a record. -/
theorem refresh_changed {m m' : Meeting} {id : ParticipantID} {raised : Bool}
    {changed : List Participant} {q r : Participant} (hqueued : m.Queued)
    (hset : m.setRaisedHand id raised = some (m', changed))
    (hq : m.participants.lookup q.id = some q) (hr : m'.participants.lookup q.id = some r) :
    refresh changed q = r := by
  have hrid : r.id = q.id := m'.keyed q.id r hr
  unfold refresh
  cases hfind : changed.find? fun r => r.id = q.id with
  | none =>
    by_contra hne
    have hmem : r ∈ changed := by
      refine hqueued.reported hset (hrid.symm ▸ hr) fun hold => hne ?_
      rw [hrid, hq] at hold
      exact Option.some.inj hold
    simpa [hrid] using List.find?_eq_none.mp hfind r hmem
  | some found =>
    have hid : found.id = q.id := by simpa using List.find?_some hfind
    have hlookup := (hqueued.changed hset).1 found (List.mem_of_find?_eq_some hfind)
    rw [hid, hr] at hlookup
    exact (Option.some.inj hlookup).symm

/-- Every copy of a participant is its record in the meeting, or will be
once its connection has gone through the records it carries. -/
structure Cached (h : Hub) : Prop where
  queued : h.meeting.Queued
  nodup : ∀ c, ((h.client c).phase.carried.map (·.id)).Nodup
  client : ∀ c q r, (h.client c).phase.holding = true → (h.client c).participant = some q →
    h.meeting.participants.lookup q.id = some r → refresh (h.client c).phase.carried q = r
  entering : ∀ c p r, (h.client c).phase = .entering p →
    h.meeting.participants.lookup p.id = some r → p = r
  pending : ∀ token reconnect r, h.pending.lookup token = some reconnect →
    h.meeting.participants.lookup reconnect.participant.id = some r → reconnect.participant = r

theorem cached_new (cfg : Config) : (Hub.new cfg).Cached where
  queued := Meeting.queued_new _
  nodup _ := List.nodup_nil
  client _ _ _ _ hq _ := by cases hq
  entering _ _ _ hphase _ := by cases hphase
  pending _ _ _ hentry _ := by cases hentry

theorem Cached.nodup_step (hs : h.Cached) (hstep : h.Steps l h') (c : ClientId) :
    ((h'.client c).phase.carried.map (·.id)).Nodup := by
  have hnodup := hs.nodup c
  cases carried_step hstep c with
  | same _ he =>
    rw [he]
    exact hnodup
  | taken ok q changed hphase hphase' =>
    rw [hphase] at hnodup
    rw [hphase']
    exact (List.nodup_cons.mp hnodup).2
  | raised allowed q raised changed hread hq hraised hphase =>
    rw [hphase]
    exact (hs.queued.changed hraised).2

/-- A hand change in progress refreshes the copy with its own record. -/
theorem run_taken {ok : Bool} {q r : Participant} {changed : List Participant}
    (hstep : h.Steps (.run c ok) h')
    (hphase : (h.client c).phase = .handling (.raising (r :: changed)))
    (hq : (h.client c).participant = some q) :
    (h'.client c).participant = some (if r.id = q.id then r else q) ∧
      (h'.client c).phase = .handling (.raisedCast r changed) ∧ h'.meeting = h.meeting := by
  cases hstep with
  | run _ _ _ hrun =>
    cases hrun with
    | handling p handler hp hphase' =>
      rw [hphase] at hphase'
      cases hphase'
      rw [hq, Option.some.injEq] at hp
      subst hp
      refine ⟨?_, by rw [runHandler, phase_goto], ?_⟩
      · unfold runHandler
        dsimp only
        rw [goto, client_update, if_pos rfl]
        split
        · simp [client_update, Client.goto]
        · exact hq
      · unfold runHandler
        dsimp only
        split <;> rfl
    | _ => simp_all

/-- The connection a live token leads to holds its participant. -/
theorem holding_of_active (ho : (h.session rank slot).Owned)
    (hactive : h.activeTokens.lookup ⟨p⟩ = some c) : (h.client c).phase.holding = true := by
  have hs := ho.slotted p
  have hkind : ((h.session rank slot).life c).kind = .present ∨
      ∃ b, ((h.session rank slot).life c).kind = .waiting b := by
    rcases hs.held c (hs.active c hactive) with ⟨-, hnone⟩ | ⟨-, hk, -⟩ | ⟨-, -, hnone⟩
    · rw [show (h.session rank slot).active p = some c from hactive] at hnone
      cases hnone
    · exact hk
    · rw [show (h.session rank slot).active p = some c from hactive] at hnone
      cases hnone
  have hstage : ((h.client c).phase.stage (h.client c).participant.isSome).kind = .present ∨
      ∃ b, ((h.client c).phase.stage (h.client c).participant.isSome).kind = .waiting b := hkind
  cases hphase : (h.client c).phase with
  | parting departure at_ => rfl
  | absent | upgrading | opening | reclaiming _ _ | joining _ | refusing _ | entering _ | casting
    | scheduling | arming | notifying _ | armingGrace | finished =>
    rw [hphase] at hstage
    rcases hstage with hk | ⟨b, hk⟩ <;> cases hk
  | _ => rfl

theorem Cached.taken_step (hs : h.Cached) {ok : Bool} {q q' r' : Participant}
    {changed : List Participant} (hstep : h.Steps (.run c ok) h')
    (hphase : (h.client c).phase = .handling (.raising (q :: changed)))
    (hq' : (h'.client c).participant = some q')
    (hr' : h'.meeting.participants.lookup q'.id = some r') : refresh changed q' = r' := by
  have hnodup := hs.nodup c
  rw [hphase] at hnodup
  have hout : q.id ∉ changed.map (·.id) := (List.nodup_cons.mp hnodup).1
  have hknown : ∃ p, (h.client c).participant = some p := by
    cases hstep with
    | run _ _ _ hrun => cases hrun <;> simp_all
  obtain ⟨p, hp⟩ := hknown
  obtain ⟨hparticipant, -, hmeeting⟩ := run_taken hstep hphase hp
  rw [hparticipant, Option.some.injEq] at hq'
  rw [hmeeting] at hr'
  have hclient := hs.client c p r' (by rw [hphase]; rfl) hp
  rw [hphase] at hclient
  by_cases hid : q.id = p.id
  · rw [if_pos hid] at hq'
    subst hq'
    have hfound : refresh (q :: changed) p = q := by
      unfold refresh
      rw [List.find?_cons_of_pos (by simpa using hid)]
      rfl
    have hr : q = r' := hfound.symm.trans (hclient (hid ▸ hr'))
    rw [← hr]
    refine refresh_of_notMem fun r hmem he => hout ?_
    exact List.mem_map.mpr ⟨r, hmem, he⟩
  · rw [if_neg hid] at hq'
    subst hq'
    have hskip : refresh (q :: changed) p = refresh changed p := by
      unfold refresh
      rw [List.find?_cons_of_neg (by simpa using hid)]
    exact hskip.symm.trans (hclient hr')

/-- The copy of a connection that changes its own hand. -/
theorem Cached.raised_step (hs : h.Cached) {q r' : Participant} {raised : Bool}
    {changed : List Participant} (hread : (h.client c).phase = .reading)
    (hq : (h.client c).participant = some q)
    (hraised : h.meeting.setRaisedHand q.id raised = some (h'.meeting, changed))
    (hr' : h'.meeting.participants.lookup q.id = some r') : refresh changed q = r' := by
  have hhas : h.meeting.has q.id = true := by
    rw [← Meeting.has_setRaisedHand hraised q.id]
    exact Option.isSome_iff_exists.mpr ⟨r', hr'⟩
  obtain ⟨r, hr⟩ := Option.isSome_iff_exists.mp hhas
  have hcopy := hs.client c q r (by rw [hread]; rfl) hq hr
  rw [hread] at hcopy
  have hcopy : q = r := hcopy
  exact refresh_changed hs.queued hraised (hcopy ▸ hr) hr'

/-- A connection that keeps its copy and its records. -/
theorem Cached.same_step (hs : h.Cached) (hpresent : h.Present) (ho : (h.session rank slot).Owned)
    (hapart : h.handsApart l = true) (hplaces : h.keepsPlaces l = true) (hstep : h.Steps l h')
    {q r' : Participant} (hholding : (h.client c).phase.holding = true)
    (hq : (h.client c).participant = some q)
    (hcarried : (h'.client c).phase.carried = (h.client c).phase.carried)
    (hr' : h'.meeting.participants.lookup q.id = some r') :
    refresh (h'.client c).phase.carried q = r' := by
  have hpid : (h.client c).participantID = some q.id := by rw [Client.participantID, hq]; rfl
  cases record_step hs.queued hplaces hstep q.id with
  | kept _ he =>
    rw [he] at hr'
    rw [hcarried]
    exact hs.client c q r' hholding hq hr'
  | gone _ he =>
    rw [he] at hr'
    cases hr'
  | joined d ok hfresh hphase =>
    exact absurd (hfresh ▸ hpresent.seen c q.id hpid) (Nat.lt_irrefl _)
  | raised d allowed qd raised changed hread hqd hid hraised hphase =>
    have hactive := active_of_handsApart hapart hqd
    have hpd : (h.client d).participantID = some qd.id := by rw [Client.participantID, hqd]; rfl
    obtain rfl : c = d := by
      rw [hid] at hactive hpd
      exact eq_of_holding hpresent (ho.slotted q.id) hread hpd hactive hpid hholding
    rw [hq, Option.some.injEq] at hqd
    subst hqd
    rw [hphase]
    exact hs.raised_step hread hq hraised hr'

/-- A connection that gets its copy in this step. -/
theorem Cached.fresh_step (hs : h.Cached) {ok : Bool}
    (hplaces : h.keepsPlaces (.run c ok) = true) (hstep : h.Steps (.run c ok) h') {q r' : Participant}
    (hjoining : ∀ name, (h.client c).phase ≠ .joining name)
    (hcopy : ∀ r, h.meeting.participants.lookup q.id = some r → q = r)
    (hcarried : (h'.client c).phase.carried = [])
    (hr' : h'.meeting.participants.lookup q.id = some r') :
    refresh (h'.client c).phase.carried q = r' := by
  rw [hcarried]
  show q = r'
  cases record_step hs.queued hplaces hstep q.id with
  | kept _ he => exact hcopy r' (he ▸ hr')
  | gone _ he =>
    rw [he] at hr'
    cases hr'
  | joined _ _ hfresh hphase =>
    obtain ⟨name, hphase⟩ := hphase
    exact absurd hphase (hjoining name)

theorem Cached.client_step (hs : h.Cached) (hpresent : h.Present)
    (ho : (h.session rank slot).Owned) (hapart : h.handsApart l = true)
    (hplaces : h.keepsPlaces l = true) (hstep : h.Steps l h') {q r' : Participant}
    (hholding' : (h'.client c).phase.holding = true) (hq' : (h'.client c).participant = some q)
    (hr' : h'.meeting.participants.lookup q.id = some r') :
    refresh (h'.client c).phase.carried q = r' := by
  -- who had a participant held it
  have hheld : (h.client c).participant = some q → (h.client c).phase.holding = true := by
    intro hq
    rcases next_step hstep c with hsame | ⟨-, hnext⟩
    · rw [← hsame]
      exact hholding'
    · rcases hnext.holding hholding' with hholding | hunknown
      · exact hholding
      · rw [hpresent.unknown c hunknown] at hq
        cases hq
  cases carried_step hstep c with
  | taken ok q₀ changed hphase hphase' =>
    rw [hphase']
    exact hs.taken_step hstep hphase hq' hr'
  | raised allowed q₀ raised changed hread hq hraised hphase =>
    have hidentity := identity_step hstep c
    generalize hown : (h'.client c).own = own at hidentity
    have hparticipant : (h'.client c).participant = own.1 := by rw [← hown]; rfl
    cases hidentity with
    | same _ =>
      rw [hq', show (h.client c).own.1 = some q₀ from hq, Option.some.injEq] at hparticipant
      subst hparticipant
      rw [hphase]
      exact hs.raised_step hread hq hraised hr'
  | same _ hcarried =>
    have hidentity := identity_step hstep c
    generalize hown : (h'.client c).own = own at hidentity
    have hparticipant : (h'.client c).participant = own.1 := by rw [← hown]; rfl
    rw [hq'] at hparticipant
    cases hidentity with
    | same _ | reaps _ _ =>
      have hq : (h.client c).participant = some q := hparticipant.symm
      exact hs.same_step hpresent ho hapart hplaces hstep (hheld hq) hq hcarried hr'
    | fired p hp hentry =>
      have hq : (h.client c).participant = some q := hp.trans hparticipant.symm
      exact hs.same_step hpresent ho hapart hplaces hstep (hheld hq) hq hcarried hr'
    | resumed ok name token reconnect hphase hentry =>
      obtain rfl : q = reconnect.participant := Option.some.inj hparticipant
      refine hs.fresh_step hplaces hstep (by simp [hphase])
        (fun r => hs.pending token reconnect r hentry) ?_ hr'
      rw [hcarried, hphase]
      rfl
    | tookOver ok name token previous hphase hentry hactive =>
      have hprevious : (h.client previous).participant = some q := hparticipant.symm
      have hpid : (h.client previous).participantID = some token.participant :=
        ho.pid_of_active (p := token.participant) hactive
      have hid : q.id = token.participant := by
        rw [Client.participantID, hprevious] at hpid
        exact Option.some.inj hpid
      have hlive : (h.client previous).phase.holding = true :=
        holding_of_active (p := token.participant) ho hactive
      refine hs.fresh_step hplaces hstep (by simp [hphase]) (fun r hr => ?_) ?_ hr'
      · have hcopy := hs.client previous q r hlive hprevious hr
        rw [refresh_of_notMem fun r hmem => hid ▸ refreshed_of_handsApart hapart hphase hactive r hmem]
          at hcopy
        exact hcopy
      · rw [hcarried, hphase]
        rfl
    | entered ok p hphase =>
      obtain rfl : q = p := Option.some.inj hparticipant
      refine hs.fresh_step hplaces hstep (by simp [hphase])
        (fun r => hs.entering c q r hphase) ?_ hr'
      rw [hcarried, hphase]
      rfl
    | refreshed ok p q₀ changed hphase hp hid =>
      obtain ⟨-, hphase', -⟩ := run_taken hstep hphase hp
      rw [hphase']
      exact hs.taken_step hstep hphase hq' hr'

/-- A participant that entered, or has a pending entry, has its record left
alone. -/
theorem Cached.idle_step (hs : h.Cached) (hapart : h.handsApart l = true)
    (hplaces : h.keepsPlaces l = true) (hstep : h.Steps l h') {q r' : Participant}
    (hlt : q.id < h.nextID) (hidle : ∀ c, (h.client c).phase = .reading →
      h.activeTokens.lookup ⟨q.id⟩ = some c → False)
    (hcopy : ∀ r, h.meeting.participants.lookup q.id = some r → q = r)
    (hr' : h'.meeting.participants.lookup q.id = some r') : q = r' := by
  cases record_step hs.queued hplaces hstep q.id with
  | kept _ he => exact hcopy r' (he ▸ hr')
  | gone _ he =>
    rw [he] at hr'
    cases hr'
  | joined d ok hfresh hphase => exact absurd hfresh (Nat.ne_of_lt hlt)
  | raised d allowed qd raised changed hread hqd hid hraised hphase =>
    have hactive := active_of_handsApart hapart hqd
    rw [hid] at hactive
    exact (hidle d hread hactive).elim

theorem Cached.entering_step (hs : h.Cached) (ho : (h.session rank slot).Owned)
    (hapart : h.handsApart l = true) (hplaces : h.keepsPlaces l = true) (hstep : h.Steps l h')
    {q r' : Participant} (hphase' : (h'.client c).phase = .entering q)
    (hr' : h'.meeting.participants.lookup q.id = some r') : q = r' := by
  rcases next_step hstep c with hsame | ⟨hhandler, hnext⟩
  · rw [hphase'] at hsame
    have hkind : ((h.session rank slot).life c).kind = .entering q.id := by
      show ((h.client c).phase.stage (h.client c).participant.isSome).kind = .entering q.id
      rw [← hsame]
      rfl
    have hs' := ho.slotted q.id
    have hslot := (hs'.entering c hkind).1
    refine hs.idle_step hapart hplaces hstep (hs'.next ?_) ?_
      (fun r => hs.entering c q r hsame.symm) hr'
    · rw [hslot]
      simp
    · intro d hread hactive
      have hheld := hs'.active d hactive
      rw [hslot, Slot.held.injEq] at hheld
      subst hheld
      rw [hread] at hsame
      cases hsame
  · -- it has just joined
    rw [hphase'] at hnext
    have hjoining : ∃ name, (h.client c).phase = .joining name := by
      cases hphase : (h.client c).phase <;> rw [hphase] at hnext <;> simp_all [Phase.Next]
    obtain ⟨name, hphase⟩ := hjoining
    cases hstep with
    | run e ok _ hrun =>
      obtain rfl : e = c := by simpa [Label.handler] using hhandler
      cases hrun with
      | joining name' hphase'' =>
        unfold join at hphase' hr'
        cases hjoin : h.meeting.join name' h.nextID with
        | error err =>
          rw [hjoin] at hphase'
          dsimp only at hphase'
          rw [phase_goto] at hphase'
          cases hphase'
        | ok result =>
          obtain ⟨meeting, q'⟩ := result
          rw [hjoin] at hphase' hr'
          dsimp only at hphase' hr'
          rw [phase_goto] at hphase'
          obtain rfl : q' = q := Phase.entering.inj hphase'
          obtain ⟨-, rfl⟩ := Meeting.join_ok _ _ _ hjoin
          have hstored : (h.meeting.store q').participants.lookup q'.id = some r' := hr'
          rw [Meeting.lookup_store, if_pos rfl] at hstored
          exact Option.some.inj hstored
      | _ => simp_all
    | receive e allowed input _ hread hreceive =>
      obtain rfl : e = c := by simpa [Label.handler] using hhandler
      rw [hphase] at hread
      cases hread
    | connect e habsent =>
      obtain rfl : e = c := by simpa [Label.handler] using hhandler
      rw [hphase] at habsent
      cases habsent
    | notify e d q clients hnotifying hq hd =>
      obtain rfl : e = c := by simpa [Label.handler] using hhandler
      rw [hphase] at hnotifying
      cases hnotifying
    | _ => simp [Label.handler] at hhandler

/-- An entry is one of before, or holds the copy of its client. -/
theorem Cached.pending_step (hs : h.Cached) (hpresent : h.Present) (hk : h.Keyed)
    (ho : (h.session rank slot).Owned) (hapart : h.handsApart l = true)
    (hplaces : h.keepsPlaces l = true) (hstep : h.Steps l h') {token : Token}
    {reconnect : PendingReconnect} {r' : Participant}
    (hentry' : h'.pending.lookup token = some reconnect)
    (hr' : h'.meeting.participants.lookup reconnect.participant.id = some r') :
    reconnect.participant = r' := by
  -- an entry that stands
  have hold : ∀ old, h.pending.lookup token = some old →
      reconnect.participant = old.participant → reconnect.participant = r' := by
    intro old hentry heq
    have htoken := hk token old hentry
    have hpending : h.pending.lookup ⟨reconnect.participant.id⟩ = some old := by
      rw [heq]
      show h.pending.lookup (reconnectToken old.participant) = _
      rw [htoken]
      exact hentry
    refine hs.idle_step hapart hplaces hstep (hpresent.slots _ (hpresent.entry _ old hpending)) ?_
      (fun r => heq ▸ hs.pending token old r hentry) hr'
    intro d hread hactive
    have hs' := ho.slotted reconnect.participant.id
    have hgraced := hs'.pending old.client old.armed (by simp [session, pendingOf, hpending])
    rw [hs'.active d hactive] at hgraced
    cases hgraced
  have hchange := Hub.pending_step hstep
  generalize h'.pending = pending at hentry' hchange
  cases hchange with
  | same _ => exact hold reconnect hentry' rfl
  | taken _ _ _ _ _ _ _ | fired _ _ _ _ _ _ _ =>
    rw [GoMap.lookup_erase] at hentry'
    split at hentry'
    · cases hentry'
    · exact hold reconnect hentry' rfl
  | handed d ok q departure hq hphase hsuperseded =>
    rw [GoMap.lookup_insert] at hentry'
    split at hentry'
    · cases hentry'
      dsimp only at hr' ⊢
      cases record_step hs.queued hplaces hstep q.id with
      | kept _ he =>
        have hcopy := hs.client d q r' (by rw [hphase]; rfl) hq (he ▸ hr')
        rw [hphase] at hcopy
        exact hcopy
      | gone _ he =>
        rw [he] at hr'
        cases hr'
      | joined _ _ hfresh hjoining =>
        obtain ⟨name, hjoining⟩ := hjoining
        rw [hphase] at hjoining
        cases hjoining
    · exact hold reconnect hentry' rfl
  | armed d ok q old hq hphase hentry hc =>
    rw [GoMap.lookup_insert] at hentry'
    split at hentry'
    · next htoken =>
      cases hentry'
      exact hold old (htoken ▸ hentry) rfl
    · exact hold reconnect hentry' rfl
  | closed => cases hentry'

/-- **Every copy stays the record of its participant.** -/
theorem Cached.step (hs : h.Cached) (hpresent : h.Present) (hk : h.Keyed)
    (ho : (h.session rank slot).Owned) (hapart : h.handsApart l = true)
    (hplaces : h.keepsPlaces l = true) (hstep : h.Steps l h') : h'.Cached where
  queued := queued_step hs.queued hpresent hstep
  nodup := hs.nodup_step hstep
  client _ _ _ := hs.client_step hpresent ho hapart hplaces hstep
  entering _ _ _ := hs.entering_step ho hapart hplaces hstep
  pending _ _ _ := hs.pending_step hpresent hk ho hapart hplaces hstep

theorem cached_of_reachable {cfg : Config}
    (hr : (lts cfg).Reachable (fun h l => h.handsApart l = true ∧ h.keepsPlaces l = true) h) :
    h.Cached := by
  refine hr.invariant_of (J := fun h => h.Keyed ∧ ∃ rank slot, (h.session rank slot).Owned ∧
    (h.session rank slot).Membered) (fun _ => owned_of_reachable) ?_ ?_
  · rintro h₀ rfl
    exact cached_new cfg
  · intro h l h' hJ hJ' hs hok htr
    obtain ⟨hk, rank, slot, ho, hm⟩ := hJ
    exact hs.step (present_of_owned ho hm) hk ho hok.1 hok.2 (steps_of_step htr)

/-- **Cached identities are current** in every run where whoever lowers its
hand or leaves is the last of the queue: the copy of every connection that
serves a participant, unless its own hand change is still to be refreshed;
that of every pending entry; and the one an admission announces. -/
theorem cached_current {cfg : Config}
    (hr : (lts cfg).Reachable (fun h l => h.handsApart l = true ∧ h.keepsPlaces l = true) h) :
    (∀ c q, h.Serves c q.id → (h.client c).participant = some q →
      (∀ r ∈ (h.client c).phase.carried, r.id ≠ q.id) →
      h.meeting.participants.lookup q.id = some q) ∧
    (∀ token reconnect, h.pending.lookup token = some reconnect →
      h.meeting.participants.lookup reconnect.participant.id = some reconnect.participant) ∧
    ∀ c q, (h.client c).participant = some q →
      (h.client c).phase = .admitting ∨ (h.client c).phase = .announcing →
      h.meeting.participants.lookup q.id = some q := by
  have hs := cached_of_reachable hr
  have hpresent := present_of_reachable hr
  obtain ⟨hk, -⟩ := owned_of_reachable hr
  have hserving : ∀ c q, h.Serves c q.id → (h.client c).participant = some q →
      (∀ r ∈ (h.client c).phase.carried, r.id ≠ q.id) →
      h.meeting.participants.lookup q.id = some q := by
    intro c q hserves hq hout
    obtain ⟨r, hr⟩ := Option.isSome_iff_exists.mp (hpresent.has c q.id hserves)
    have hholding : (h.client c).phase.holding = true := by
      unfold Phase.holding
      rw [hserves.2, Bool.or_true]
    have hcopy := hs.client c q r hholding hq hr
    rw [refresh_of_notMem hout] at hcopy
    exact hcopy ▸ hr
  refine ⟨hserving, ?_, ?_⟩
  · intro token reconnect hentry
    have hpending : h.pending.lookup ⟨reconnect.participant.id⟩ = some reconnect := by
      show h.pending.lookup (reconnectToken reconnect.participant) = _
      rw [hk token reconnect hentry]
      exact hentry
    obtain ⟨r, hr⟩ := Option.isSome_iff_exists.mp (hpresent.entry _ reconnect hpending)
    exact hs.pending token reconnect r hentry hr ▸ hr
  · intro c q hq hphase
    have hp : (h.client c).participantID = some q.id := by rw [Client.participantID, hq]; rfl
    rcases hphase with hphase | hphase <;>
      exact hserving c q ⟨hp, by rw [hphase]; rfl⟩ hq (by rw [hphase]; simp [Phase.carried])

/-- `c` sends the hand of `p` up or down, and handles the message; `n`
records change. -/
def moves (c : ClientId) (p : ParticipantID) (raised : Bool) (n : Nat) : List Label :=
  .receive c true (some (.handState p raised)) :: runs c (2 * n + 1)

/-- A client raises its hand and drops; its pending entry has the record. -/
theorem cached_current_dropped : ∃ h : Hub, ∃ token reconnect,
    h.pending.lookup token = some reconnect ∧ reconnect.participant.handOrder = 1 ∧
    h.meeting.participants.lookup reconnect.participant.id = some reconnect.participant := by
  obtain ⟨h, hr, -, ho⟩ := exists_checked_within sampleConfig 1
    (fun h l => h.handsApart l && h.keepsPlaces l) (joins 0 ++ moves 0 0 true 1 ++ drops 0 ++ runs 0 2)
    (fun h => (h.pending.lookup ⟨0⟩).map fun reconnect => reconnect.participant.handOrder) (some 1)
    (by decide)
  obtain ⟨reconnect, hentry, horder⟩ := Option.map_eq_some_iff.mp ho
  refine ⟨h, ⟨0⟩, reconnect, hentry, horder, (cached_current (hr.mono fun h l hok => ?_)).2.1 _ _ hentry⟩
  rwa [Bool.and_eq_true] at hok

/-- Two hands go up and the first one comes down, one after the other: the
second client keeps its old place, and so does the client that resumes it
and is announced to the room. -/
theorem not_cached_current : ∃ h : Hub, ∃ q r : Participant,
    (lts sampleConfig).Reachable (fun h l => h.handsApart l = true) h ∧
    (h.client 0).phase = .reading ∧ (h.client 1).phase = .finished ∧
    (h.client 2).phase = .announcing ∧ (h.client 2).resumed = true ∧
    (h.client 2).participant = some q ∧ h.meeting.participants.lookup q.id = some r ∧
    q.handOrder = 2 ∧ r.handOrder = 1 := by
  obtain ⟨h, hr, -, ho⟩ := exists_checked_within sampleConfig 3 (fun h l => h.handsApart l)
    (joins 0 ++ joins 1 ++ moves 0 0 true 1 ++ moves 1 1 true 1 ++ moves 0 0 false 2 ++
      drops 1 ++ runs 1 2 ++ [.notify 1 0] ++ runs 1 2 ++ requests 2 (some ⟨1⟩) ++ runs 2 8)
    (fun h => decide (((h.client 0).phase = .reading ∧ (h.client 1).phase = .finished ∧
      (h.client 2).phase = .announcing ∧ (h.client 2).resumed = true) ∧
      (h.client 2).participant.map (fun q => (q.id, q.handOrder)) = some (1, 2) ∧
      (h.meeting.participants.lookup 1).map (·.handOrder) = some 1)) true (by decide)
  obtain ⟨⟨hreading, hfinished, hannouncing, hresumed⟩, hcopy, hrecord⟩ := of_decide_eq_true ho
  obtain ⟨q, hq, hid⟩ := Option.map_eq_some_iff.mp hcopy
  obtain ⟨r, hlookup, horder⟩ := Option.map_eq_some_iff.mp hrecord
  obtain ⟨hqid, hqorder⟩ := Prod.mk.inj hid
  rw [← hqid] at hlookup
  exact ⟨h, q, r, hr, hreading, hfinished, hannouncing, hresumed, hq, hlookup, hqorder, horder⟩

end Hub

end SlowMeet.Signaling
