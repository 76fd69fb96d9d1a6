import SlowMeet.Signaling.Refinement

/-!
# Every member sees the meeting

What a member of the room makes of its admission replay and the joins and
departures it was sent agrees with the meeting whenever nothing is under
way, if the room is told of every join and departure. Four orders of the
sections let one pass untold: `TellsRoom` names them.
-/

namespace SlowMeet.Signaling

open Lib

namespace Hub

variable {h : Hub}

/-- No join, departure or expiry is under way. -/
structure Quiescent (h : Hub) : Prop where
  handlers : ∀ c, (h.client c).phase = .absent ∨ (h.client c).phase = .upgrading ∨
    (h.client c).phase = .opening ∨ (h.client c).phase = .reading ∨
    (∃ handler, (h.client c).phase = .handling handler) ∨ (h.client c).phase = .finished
  reapers : ∀ c, (h.client c).reaper = .idle ∨ (h.client c).reaper = .done
  closing : h.closingIDs = ∅

/-- Every member's roster, itself excluded, is the meeting less the
participants in `h.pending`. -/
def RostersAgree (h : Hub) : Prop :=
  h.Quiescent → ∀ d ∈ h.roomMembers, ∀ q, (h.client d).participantID ≠ some q →
    (inRoster q (h.client d).outbound = true ↔
      h.meeting.has q = true ∧ h.pending.lookup ⟨q⟩ = none)

/-- A client between its admission and the end of its read loop. -/
def Admitted (h : Hub) (d : ClientId) : Prop :=
  match (h.client d).phase with
  | .releasing | .announcing => True
  | .reading | .handling _ => (h.client d).participant.isSome = true
  | _ => False

/-- A step of which the room is told: no client is admitted while a grace
expiry has yet to leave the meeting; a disconnect keeps its slot pending only
when everyone admitted is among the clients its first section counted; a
client that leaves unannounced did not take over, and everyone admitted was
so before it took its slot; and a superseded client had been announced, or
had itself taken over. -/
def TellsRoom (h : Hub) : Label → Prop
  | .run c ok =>
    match (h.client c).phase with
    | .admitting => ok = true → ∀ d, (h.client d).reaper.reaping = false
    | .parting departure .settle =>
      departure.superseded = false → (h.client c).intentionalLeave = false → h.closed = false →
        (h.client c).joined = true ∨ (h.client c).resumed = true → departure.timeout ≠ 0 →
        ∀ d, h.Admitted d → (h.client d).participantID ≠ (h.client c).participantID →
          d ∈ departure.clients
    | .leaving => (h.client c).announced = true ∨ ∀ d, h.Admitted d →
        (h.client c).activeTakeover = false ∧ h.ledger.admittedAt d ≤ h.ledger.joinedAt c
    | .disconnecting =>
      (∃ p, (h.client c).participantID = some p ∧ h.activeTokens.lookup ⟨p⟩ = some c) ∨
        (h.client c).announced = true ∨ (h.client c).activeTakeover = true
    | _ => True
  | _ => True

variable {rank : ClientId → Nat} {slot : ParticipantID → Slot}

theorem admitted_iff {d : ClientId} :
    (h.client d).life.stage.admitted = true ↔ h.Admitted d := by
  unfold Admitted
  cases hphase : (h.client d).phase <;> cases hp : (h.client d).participant <;>
    simp [Client.life, hphase, hp, Phase.stage, Stage.admitted]

/-- The event of such a step is one the protocol's room is told of. -/
theorem tellsRoom_event {l : Label} (hl : h.TellsRoom l) :
    (h.session rank slot).tellsRoom (h.event l) := by
  cases l with
  | run c ok =>
    cases hphase : (h.client c).phase with
    | admitting =>
      simp only [TellsRoom, hphase] at hl
      simp only [event, runEvent, hphase]
      split
      · trivial
      · cases ok with
        | true => exact hl rfl
        | false => trivial
    | parting departure at_ =>
      cases at_ with
      | settle =>
        simp only [TellsRoom, hphase] at hl
        simp only [event, runEvent, hphase, Session.tellsRoom]
        intro d p hstage hpid hsup hgive d' hadmitted hne
        obtain rfl : departure = d := by
          simpa [session, Client.life, hphase, Phase.stage] using hstage
        simp only [Session.givesUp, session, Client.life, Bool.or_eq_false_iff, Bool.and_eq_false_iff,
          Bool.not_eq_false', decide_eq_false_iff_not] at hgive
        have hpid' : (h.client c).participantID = some p := hpid
        exact hl hsup hgive.1.1.1 hgive.1.1.2 hgive.1.2 hgive.2 d' (admitted_iff.mp hadmitted)
          (hpid' ▸ hne)
      | unregister | closePeer | releaseScreen | unpublish | screenCast =>
        simp only [event, runEvent, hphase]
        trivial
    | leaving =>
      simp only [TellsRoom, hphase] at hl
      simp only [event, runEvent, hphase]
      exact hl.imp id fun hl d hd => hl d (admitted_iff.mp hd)
    | disconnecting =>
      simp only [TellsRoom, hphase] at hl
      simp only [event, runEvent, hphase]
      exact hl
    | opening | reclaiming name token | joining name | peering | closing =>
      simp only [event, runEvent, hphase]
      split <;> first | trivial | (split <;> trivial)
    | absent | upgrading | reading | refusing err | entering p | superseding b | waiting b
      | cancelling | registering | releasing | announcing | handling handler | forgetting | casting
      | scheduling | arming | notifying clients | armingGrace | finished =>
      simp only [event, runEvent, hphase]
      first | trivial | (split <;> trivial)
  | connect c =>
    simp only [event]
    split <;> trivial
  | receive c allowed input =>
    simp only [event, receiveEvent]
    split
    · trivial
    · split <;> trivial
    · trivial
  | reap c =>
    simp only [event]
    split <;> trivial
  | notify _ _ | expireAdmission _ | graceFire _ | closeSuperseded _ | close | closeLeave _
    | chatTimer _ | chatCheck | chatDelete | adminUpdate _ _ | admin _ | onTrack _ _ | track _ _
    | trackOp _ _ | readStop _ => trivial

/-- With nothing under way in the hub nothing is in its session. -/
theorem Quiescent.quiet (hq : h.Quiescent) : (h.session rank slot).Quiet where
  stage c := by
    rcases hq.handlers c with hp | hp | hp | hp | ⟨handler, hp⟩ | hp <;>
      cases hs : (h.client c).participant.isSome <;>
      simp [session, Client.life, hp, Phase.stage, hs]
  reaping c := by
    rcases hq.reapers c with hr | hr <;> simp [session, Client.life, hr, Reaper.reaping]
  closing := hq.closing

/-- **Roster agreement** in every run of which the room is told. -/
theorem rostersAgree_of_tellsRoom {cfg : Config} (hr : (lts cfg).Reachable TellsRoom h) :
    h.RostersAgree := by
  obtain ⟨hk, _, hs, rank, slot, rfl⟩ := reachable_session _ (fun _ _ _ _ => tellsRoom_event) hr
  obtain ⟨hrostered, hflagged⟩ := Session.Rostered.reachable hs
  intro hquiet d hd q hq
  have hm : (h.session rank slot).Membered := .reachable hs
  have hstage : (h.client d).life.stage = .settled := by
    have hroom := hm.member d hd
    have hquiet := (hquiet.quiet : (h.session rank slot).Quiet).stage d
    rcases hquiet with hst | hst | hst <;> simp [hst, Stage.inRoom] at hroom
    exact hst
  have hagree := hrostered.agree (.reachable hs) hflagged hquiet.quiet hstage hq
  simpa [session, Client.life, pendingOf] using hagree

/-- `TellsRoom` at a reachable hub, checked over the members, the tokens and
the meeting. -/
def tellsRoomCheck (h : Hub) : Label → Bool
  | .run c ok =>
    match (h.client c).phase with
    | .admitting => !ok || h.meeting.list.all fun p => (h.activeTokens.lookup ⟨p.id⟩).isSome
    | .parting departure .settle => decide (h.roomMembers ⊆ departure.clients)
    | .leaving => (h.client c).announced
    | .disconnecting =>
      ((h.client c).participantID.bind fun p => h.activeTokens.lookup ⟨p⟩) = some c
    | _ => true
  | _ => true

theorem tellsRoom_of_check {cfg : Config} {ok : Hub → Label → Prop}
    (hr : (lts cfg).Reachable ok h) {l : Label} (hl : h.tellsRoomCheck l = true) :
    h.TellsRoom l := by
  obtain ⟨-, rank, slot, ho, hm⟩ := owned_of_reachable hr
  cases l with
  | run c ok =>
    cases hphase : (h.client c).phase with
    | admitting =>
      simp only [tellsRoomCheck, hphase, Bool.or_eq_true, Bool.not_eq_true'] at hl
      simp only [TellsRoom, hphase]
      rintro rfl d
      simp only [Bool.true_eq_false, false_or, List.all_eq_true] at hl
      by_contra hreaping
      have hreaping : ((h.session rank slot).life d).reaping = true := by
        simpa [session, Client.life] using hreaping
      -- an expiring participant holds a slot, and no token leads to it
      obtain ⟨p, hp⟩ := Option.ne_none_iff_exists'.mp (ho.reaper d hreaping)
      have hs := ho.slotted p
      have hslot := hs.reaper d hp hreaping
      obtain ⟨q, hq, rfl⟩ := Meeting.exists_mem_list_iff.mpr (hs.ids.mpr (by simp [hslot]))
      have hactive : h.activeTokens.lookup ⟨q.id⟩ = none := (hs.reaping d hslot).2.1
      simpa [hactive] using hl q hq
    | parting departure at_ =>
      cases at_ with
      | settle =>
        simp only [tellsRoomCheck, hphase, decide_eq_true_eq] at hl
        simp only [TellsRoom, hphase]
        intro _ _ _ _ _ d hadmitted _
        exact hl (hm.admitted d (admitted_iff.mpr hadmitted))
      | unregister | closePeer | releaseScreen | unpublish | screenCast =>
        simp [TellsRoom, hphase]
    | leaving =>
      simp only [tellsRoomCheck, hphase] at hl
      simp [TellsRoom, hphase, hl]
    | disconnecting =>
      simp only [tellsRoomCheck, hphase, decide_eq_true_eq, Option.bind_eq_some_iff] at hl
      simp only [TellsRoom, hphase]
      exact Or.inl hl
    | absent | upgrading | opening | reading | reclaiming _ _ | joining _ | refusing _ | entering _
      | superseding _ | waiting _ | cancelling | peering | registering | releasing | announcing
      | handling _ | closing | forgetting | casting | scheduling | arming | notifying _
      | armingGrace | finished => simp [TellsRoom, hphase]
  | connect _ | receive _ _ _ | notify _ _ | expireAdmission _ | graceFire _ | reap _
    | closeSuperseded _ | close | closeLeave _ | chatTimer _ | chatCheck | chatDelete
    | adminUpdate _ _ | admin _ | onTrack _ _ | track _ _ | trackOp _ _ | readStop _ => trivial

/-- Two clients join and the second drops, leaving a pending entry behind. -/
theorem rostersAgree_dropped : ∃ h, (lts sampleConfig).Reachable TellsRoom h ∧
    h.pending.size = 1 ∧ h.RostersAgree := by
  obtain ⟨h, hr, hsize⟩ := Lts.exists_reachable_of_execWhen tellsRoomCheck step
    (Hub.new sampleConfig)
    (joins 0 ++ joins 1 ++ drops 1 ++ runs 1 2 ++ [.notify 1 0] ++ runs 1 2)
    (fun h => h.pending.size) 1 (by decide)
  have hr := hr.strengthen fun _ _ hs hl => tellsRoom_of_check hs hl
  exact ⟨h, hr, hsize, rostersAgree_of_tellsRoom hr⟩

/-! ## An admission that fails

The member 0 is admitted after 1 has joined the meeting, so its replay shows
1; the admission of 1 then fails, and 1 leaves unannounced. -/

def failedAdmission : List Label :=
  requests 1 none ++ runs 1 3 ++ joins 0 ++ [.run 1 false] ++ runs 1 9

theorem not_rostersAgree_failedAdmission :
    ∃ h, (lts sampleConfig).Reachable Lts.Any h ∧ ¬ h.RostersAgree := by
  obtain ⟨h, hr, hunborn, ho⟩ := exists_reachable_within sampleConfig 2 failedAdmission
    (fun h => decide (((h.client 0).phase = .reading ∧ (h.client 1).phase = .finished) ∧
      ((h.client 0).reaper = .idle ∧ (h.client 1).reaper = .idle) ∧ h.closingIDs = ∅ ∧
      0 ∈ h.roomMembers ∧ (h.client 0).participantID = some 1 ∧
      inRoster 0 (h.client 0).outbound = true ∧ h.meeting.has 0 = false))
    true (by decide)
  obtain ⟨⟨hp₀, hp₁⟩, ⟨hr₀, hr₁⟩, hclosing, hmember, hid, hshown, hfree⟩ := of_decide_eq_true ho
  have hquiet : h.Quiescent := by
    refine ⟨fun c => ?_, fun c => ?_, hclosing⟩
    · rcases c with _ | _ | c
      · simp [hp₀]
      · simp [hp₁]
      · exact Or.inl (hunborn (c + 2) (by omega)).1
    · rcases c with _ | _ | c
      · simp [hr₀]
      · simp [hr₁]
      · exact Or.inl (hunborn (c + 2) (by omega)).2.2
  refine ⟨h, hr, fun hagree => ?_⟩
  have hmeeting := ((hagree hquiet 0 hmember 0 (by simp [hid])).mp hshown).1
  simp [hfree] at hmeeting

end Hub

end SlowMeet.Signaling
