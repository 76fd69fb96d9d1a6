import SlowMeet.Signaling.Handlers
import SlowMeet.Signaling.Presence

/-!
# Before the admission

What a connection does and is told until `admit` makes it a room member: how
it gets past the password check, how it becomes a member, and that nothing is
written to it but an answer to its own input.
-/

namespace SlowMeet.Signaling

open Lib Media

namespace Phase

/-- Past the password check, and no participant yet. -/
def passing : Phase → Bool
  | .reclaiming _ _ | .joining _ | .entering _ => true
  | _ => false

/-- The join the connection asked for may still be answered with an error. -/
def asking : Phase → Bool
  | .reclaiming _ _ | .joining _ | .refusing _ | .entering _ | .superseding _ | .waiting _
    | .cancelling | .peering => true
  | _ => false

/-- Only an admitted connection comes here. -/
def seated : Phase → Bool
  | .releasing | .announcing | .handling _ => true
  | _ => false

/-- The clients `disconnect` has yet to tell. -/
def recipients : Phase → Finset ClientId
  | .parting departure _ => departure.clients
  | .notifying clients => clients
  | _ => ∅

/-- A connection is seated when it is admitted, and stays so between messages. -/
theorem Next.seated {phase next : Phase} (hnext : phase.Next next) (hseated : next.seated = true) :
    phase.seated = true ∨ (phase = .admitting ∧ next = .releasing) ∨
      phase = .reading ∧ ∃ handler, next = .handling handler := by
  cases phase with
  | releasing | announcing | handling _ => exact Or.inl rfl
  | admitting =>
    rcases hnext with rfl | rfl
    · exact Or.inr (Or.inl ⟨rfl, rfl⟩)
    · simp [Phase.seated] at hseated
  | reading =>
    rcases hnext with rfl | ⟨_, _, rfl⟩ | ⟨_, rfl⟩ | ⟨handler, rfl⟩
    case inr.inr.inr => exact Or.inr (Or.inr ⟨rfl, handler, rfl⟩)
    all_goals simp [Phase.seated] at hseated
  | reclaiming _ _ => rcases hnext with rfl | ⟨_, rfl⟩ <;> simp [Phase.seated] at hseated
  | joining _ => rcases hnext with ⟨_, rfl⟩ | ⟨_, rfl⟩ <;> simp [Phase.seated] at hseated
  | parting _ _ =>
    rcases hnext with ⟨_, rfl⟩ | rfl | rfl | rfl <;> simp [Phase.seated] at hseated
  | notifying _ => rcases hnext with ⟨_, _, rfl⟩ | ⟨_, rfl⟩ <;> simp [Phase.seated] at hseated
  | disconnecting =>
    obtain ⟨_, _, rfl⟩ := hnext
    simp [Phase.seated] at hseated
  | absent | upgrading | opening | closing | leaving | scheduling | peering =>
    rcases hnext with rfl | rfl <;> simp [Phase.seated] at hseated
  | refusing _ | entering _ | superseding _ | waiting _ | cancelling | registering | forgetting
    | casting | arming | armingGrace =>
    obtain rfl := hnext
    simp [Phase.seated] at hseated
  | finished => exact hnext.elim

/-- A connection comes to its read loop seated, or before it has a participant. -/
theorem Next.reading {phase : Phase} (hnext : phase.Next .reading) :
    phase.seated = true ∨ phase = .opening ∨ ∃ err, phase = .refusing err := by
  cases phase <;> simp_all [Phase.Next, Phase.seated]

/-- `disconnect` tells the clients it counted. -/
theorem Next.recipients {phase next : Phase} (hnext : phase.Next next)
    (hphase : phase ≠ .disconnecting) : next.recipients ⊆ phase.recipients := by
  cases phase with
  | disconnecting => exact absurd rfl hphase
  | parting departure _ =>
    rcases hnext with ⟨_, rfl⟩ | rfl | rfl | rfl <;> simp [Phase.recipients]
  | notifying clients =>
    rcases hnext with ⟨d, -, rfl⟩ | ⟨-, rfl⟩
    · exact Finset.erase_subset d clients
    · simp [Phase.recipients]
  | reading => rcases hnext with rfl | ⟨_, _, rfl⟩ | ⟨_, rfl⟩ | ⟨_, rfl⟩ <;> simp [Phase.recipients]
  | reclaiming _ _ | handling _ => rcases hnext with rfl | ⟨_, rfl⟩ <;> simp [Phase.recipients]
  | joining _ => rcases hnext with ⟨_, rfl⟩ | ⟨_, rfl⟩ <;> simp [Phase.recipients]
  | absent | upgrading | opening | closing | leaving | scheduling | peering | admitting =>
    rcases hnext with rfl | rfl <;> simp [Phase.recipients]
  | refusing _ | entering _ | superseding _ | waiting _ | cancelling | registering | releasing
    | announcing | forgetting | casting | arming | armingGrace =>
    obtain rfl := hnext
    simp [Phase.recipients]
  | finished => exact hnext.elim

/-- A join is under way until it is admitted or answered. -/
theorem Next.asking {phase next : Phase} (hnext : phase.Next next) (hasking : next.asking = true) :
    phase.asking = true ∨ phase = .reading := by
  cases phase with
  | reclaiming _ _ | joining _ | refusing _ | entering _ | superseding _ | waiting _ | cancelling
    | peering => exact Or.inl rfl
  | reading => exact Or.inr rfl
  | handling _ => rcases hnext with rfl | ⟨_, rfl⟩ <;> simp [Phase.asking] at hasking
  | parting _ _ =>
    rcases hnext with ⟨_, rfl⟩ | rfl | rfl | rfl <;> simp [Phase.asking] at hasking
  | notifying _ => rcases hnext with ⟨_, _, rfl⟩ | ⟨_, rfl⟩ <;> simp [Phase.asking] at hasking
  | disconnecting =>
    obtain ⟨_, _, rfl⟩ := hnext
    simp [Phase.asking] at hasking
  | absent | upgrading | opening | closing | leaving | scheduling | admitting =>
    rcases hnext with rfl | rfl <;> simp [Phase.asking] at hasking
  | registering | releasing | announcing | forgetting | casting | arming | armingGrace =>
    obtain rfl := hnext
    simp [Phase.asking] at hasking
  | finished => exact hnext.elim

end Phase

namespace Hub

variable {h h' : Hub} {c d : ClientId} {l : Label}

/-! ## The password check -/

/-- The read loop takes the request for a join and finds its password right. -/
def passes (h : Hub) (c : ClientId) (allowed : Bool) : Option Request → Bool
  | some (.join _ password _) =>
    (h.client c).participant.isNone && (h.client c).joinAttempts < maxJoinAttempts &&
      (h.config.meetingPassword = "" || allowed) && h.config.checkMeetingPassword password
  | _ => false

/-- Past the password check. -/
def Credited (h : Hub) (c : ClientId) : Prop :=
  (h.client c).participant ≠ none ∨ (h.client c).phase.passing = true

/-- A join goes on only with the right password. -/
theorem passes_of_receive {allowed : Bool} {input : Option Request}
    (hread : (h.client c).phase = .reading)
    (hpassing : (((h.receive c allowed input).client c).phase).passing = true) :
    h.passes c allowed input = true := by
  have hcount : ((h.countJoin c).client c).phase = .reading := by
    rw [countJoin, phase_update, hread]
  cases input with
  | none => simp [receive, Phase.passing] at hpassing
  | some request =>
    by_cases hjoin : request.isJoin && (h.client c).participant.isNone
    · simp only [receive, if_pos hjoin] at hpassing
      have hnone : (h.client c).participant = none := by
        rw [Bool.and_eq_true, Option.isNone_iff_eq_none] at hjoin
        exact hjoin.2
      have hnone' : ((h.countJoin c).client c).participant = none := by
        simp [countJoin, client_update, hnone]
      have hattempts : ((h.countJoin c).client c).joinAttempts = (h.client c).joinAttempts + 1 := by
        simp [countJoin, client_update]
      rw [hattempts] at hpassing
      split at hpassing
      · simp [Phase.passing] at hpassing
      next hfew =>
      cases request with
      | join name password token =>
        simp only [dispatch, hnone', requestJoin] at hpassing
        split at hpassing
        · simp [Phase.passing] at hpassing
        next hlimited =>
        split at hpassing
        · simp [refuse, write, phase_update, Client.write, hcount, Phase.passing] at hpassing
        next hcheck =>
        have hconfig : (h.countJoin c).config = h.config := rfl
        rw [hconfig] at hlimited hcheck
        have hless : (h.client c).joinAttempts < maxJoinAttempts := by omega
        simp only [passes, hnone, Option.isNone_none, hless, decide_true, Bool.true_and,
          Bool.and_eq_true, Bool.or_eq_true, decide_eq_true_eq]
        refine ⟨?_, by simpa using hcheck⟩
        by_cases hempty : h.config.meetingPassword = ""
        · exact Or.inl hempty
        · right
          simpa [hempty] using hlimited
      | invalid isJoin error =>
        simp [dispatch, refuse, write, phase_update, Client.write, hcount, Phase.passing] at hpassing
      | _ => simp [Request.isJoin] at hjoin
    · have hreceives := h.receives_receive c allowed (some request)
      simp only [receive, if_neg hjoin] at hpassing hreceives
      cases hp : (h.client c).participant with
      | some p =>
        have hphase : ∀ {g}, h.Receives c (some request) g → (g.client c).phase.passing = false := by
          intro g hg
          cases hg with
          | refused _ _ _ => simp [refuse, write, phase_update, Client.write, hread, Phase.passing]
          | ignored _ _ | videoSubscriptions _ _ _ _ => simp [hread, Phase.passing]
          | leave _ _ => simp [phase_update, Phase.passing]
          | refusedJoin _ _ hnone | expelled _ _ hnone | reclaiming _ _ _ hnone
            | joining _ _ hnone => simp [hp] at hnone
          | _ => simp [Phase.passing]
        simp [hphase hreceives] at hpassing
      | none =>
        cases request with
        | join _ _ _ => simp [Request.isJoin, hp] at hjoin
        | _ => simp [dispatch, hp, refuse, write, phase_update, Client.write, hread,
            Phase.passing] at hpassing

/-- A participant is known before, or the connection is past the password
check. -/
theorem participantID_of_passing {p : ParticipantID} (hstep : h.Steps l h')
    (hp : (h'.client c).participantID = some p) :
    (h.client c).participantID = some p ∨ (h.client c).phase.passing = true := by
  rw [Client.participantID] at hp ⊢
  have hidentity := identity_step hstep c
  generalize hown : (h'.client c).own = own at hidentity
  have hparticipant : (h'.client c).participant = own.1 := by rw [← hown]; rfl
  rw [hparticipant] at hp
  cases hidentity with
  | same | reaps _ _ => exact Or.inl hp
  | resumed ok name token reconnect hphase hentry => exact Or.inr (by rw [hphase]; rfl)
  | tookOver ok name token previous hphase hentry hactive => exact Or.inr (by rw [hphase]; rfl)
  | entered ok q hphase => exact Or.inr (by rw [hphase]; rfl)
  | refreshed ok q q' changed hphase hq hid => exact Or.inl (by simpa [hq, hid] using hp)
  | fired q hq _ => exact Or.inl (by rwa [hq])

/-- **Nobody is past the password check but by a join that passes it.** -/
theorem credited_step (hstep : h.step l = some h') (hcredited : h'.Credited c) :
    h.Credited c ∨ ∃ allowed input, l = .receive c allowed input ∧
      h.passes c allowed input = true := by
  have hsteps := steps_of_step hstep
  by_cases hpassing : (h'.client c).phase.passing = true
  · rcases next_step hsteps c with hsame | ⟨hhandler, hnext⟩
    · exact Or.inl (Or.inr (hsame ▸ hpassing))
    · by_cases hbefore : (h.client c).phase.passing = true
      · exact Or.inl (Or.inr hbefore)
      · right
        have hread : (h.client c).phase = .reading := by
          cases hphase : (h.client c).phase <;> rw [hphase] at hnext hbefore <;>
            simp only [Phase.Next] at hnext <;> first | rfl | exfalso
          case reclaiming | joining | entering => exact hbefore rfl
          all_goals
            obtain hn : (h'.client c).phase.passing = false := by
              grind [Phase.passing]
            rw [hn] at hpassing
            cases hpassing
        cases hsteps with
        | receive e allowed input _ hphase _ =>
          obtain rfl : e = c := by simpa [Label.handler] using hhandler
          refine ⟨allowed, input, rfl, passes_of_receive hread ?_⟩
          simp only [step, hphase, if_true, Option.some.injEq] at hstep
          rw [hstep]
          exact hpassing
        | run e ok _ hrun =>
          obtain rfl : e = c := by simpa [Label.handler] using hhandler
          cases hrun <;> simp_all
        | connect e hphase =>
          obtain rfl : e = c := by simpa [Label.handler] using hhandler
          simp [hread] at hphase
        | notify e e' p clients hphase hp he =>
          obtain rfl : e = c := by simpa [Label.handler] using hhandler
          simp [hread] at hphase
        | _ => simp [Label.handler] at hhandler
  · obtain ⟨q, hq⟩ := Option.ne_none_iff_exists'.mp (hcredited.resolve_right hpassing)
    have hp : (h'.client c).participantID = some q.id := by simp [Client.participantID, hq]
    left
    rcases participantID_of_passing hsteps hp with hp | hpassing
    · refine Or.inl fun hnone => ?_
      simp [Client.participantID, hnone] at hp
    · exact Or.inr hpassing

/-! ## Membership -/

/-- Served as a member. -/
def Seated (h : Hub) (c : ClientId) : Prop :=
  (h.client c).phase.seated = true ∨
    (h.client c).phase = .reading ∧ (h.client c).participant ≠ none

/-- The admission deadline of `c` has fired. -/
def Expired (h : Hub) (c : ClientId) : Prop := (h.client c).admissionExpired = true

/-- **A new room member is one whose deadline has not fired.** -/
theorem member_of_step (hstep : h.Steps l h') (hc : c ∈ h'.roomMembers) :
    c ∈ h.roomMembers ∨
      (h.client c).participant ≠ none ∧ ¬ h.Expired c := by
  have hroom := room_step hstep
  have hmembers : h'.roomMembers = h'.room.members := rfl
  generalize hr : h'.room = room at hroom hmembers
  rw [hmembers] at hc
  cases hroom with
  | entered e ok p hp hphase hopen hearly =>
    rcases Finset.mem_insert.mp hc with rfl | hc
    · exact Or.inr ⟨by simp [hp], by simp [Expired, hearly]⟩
    · exact Or.inl hc
  | cleaned e ok hphase => exact Or.inl (Finset.mem_of_mem_erase hc)
  | _ => exact Or.inl hc

/-- A message handler of the read loop starts for a participant. -/
theorem Handles.known {handler : Handler} (hhandles : h.Handles c l handler)
    (hread : (h.client c).phase = .reading) : (h.client c).participant ≠ none := by
  cases hhandles with
  | mediaState _ _ _ _ _ hp | reaction _ _ _ hp | handState _ _ _ _ _ hp _
    | screenShare _ _ _ _ _ hp _ | retainedChat _ _ _ hp _ | chat _ _ _ hp _ => simp [hp]
  | raise _ _ _ hphase | raised _ _ _ hphase | shared _ _ _ _ _ hphase | sharedCast _ _ _ hphase =>
    simp [hread] at hphase

/-- `admit` seats a member. -/
theorem member_of_releasing {ok : Bool} (hrun : h.Runs c ok h')
    (hbefore : (h.client c).phase = .admitting) (hphase : (h'.client c).phase = .releasing) :
    c ∈ h'.roomMembers := by
  cases hrun with
  | admitting p hp _ =>
    unfold admitClient at hphase ⊢
    split
    next hrefused =>
      rw [if_pos hrefused] at hphase
      simp at hphase
    next hrefused =>
    rw [if_neg hrefused] at hphase
    cases ok with
    | false => simp at hphase
    | true => exact Finset.mem_insert_self c h.roomMembers
  | _ => simp_all

/-- Nobody is served as a member who was not made one. -/
theorem seated_step (hpresent : h.Present) (hstep : h.Steps l h') (hseated : h'.Seated c) :
    h.Seated c ∨ c ∈ h'.roomMembers := by
  rcases hseated with hseated | ⟨hread, hknown⟩
  · rcases next_step hstep c with hsame | ⟨hhandler, hnext⟩
    · exact Or.inl (Or.inl (hsame ▸ hseated))
    · rcases hnext.seated hseated with hseated | ⟨hadmitting, hreleasing⟩ | ⟨hread, handler, hhandling⟩
      · exact Or.inl (Or.inl hseated)
      · right
        rcases stays_step (c := c) hstep (by simp [hadmitting]) (by simp [hadmitting])
          (by simp [hadmitting]) with hsame | ⟨ok, rfl⟩
        · simp [hadmitting, hreleasing] at hsame
        · cases hstep with
          | run _ _ _ hrun => exact member_of_releasing hrun hadmitting hreleasing
      · left
        refine Or.inr ⟨hread, ?_⟩
        rcases handles_step hstep hhandling with ⟨hphase, -⟩ | hhandles
        · simp [hread] at hphase
        · exact hhandles.known hread
  · left
    have hpid : ∃ p, (h'.client c).participantID = some p := by
      obtain ⟨q, hq⟩ := Option.ne_none_iff_exists'.mp hknown
      exact ⟨q.id, by simp [Client.participantID, hq]⟩
    obtain ⟨p, hp⟩ := hpid
    have hbefore : (h.client c).participantID = some p ∨
        (h.client c).phase.passing = true := participantID_of_passing hstep hp
    have hsome : (h.client c).participantID = some p → (h.client c).participant ≠ none := by
      intro hp hnone
      simp [Client.participantID, hnone] at hp
    rcases next_step hstep c with hsame | ⟨hhandler, hnext⟩
    · right
      rw [hsame] at hread
      refine ⟨hread, hsome (hbefore.resolve_right ?_)⟩
      simp [hread, Phase.passing]
    · rw [hread] at hnext
      rcases hnext.reading with hseated | hunknown
      · exact Or.inl hseated
      · exfalso
        have hphase : (h.client c).phase.unknown = true ∧ ¬ (h.client c).phase.passing = true := by
          rcases hunknown with hphase | ⟨err, hphase⟩ <;> simp [hphase, Phase.unknown, Phase.passing]
        exact hsome (hbefore.resolve_right hphase.2) (hpresent.unknown c hphase.1)

/-! ## The deadline -/

theorem Expired.update {f : Client → Client} (he : h.Expired d)
    (hf : ∀ me : Client, me.admissionExpired = true → (f me).admissionExpired = true) :
    (h.update c f).Expired d := by
  rw [Expired, client_update]
  split
  · next hd =>
    subst hd
    exact hf _ he
  · exact he

theorem Expired.goto {phase : Phase} (he : h.Expired d) : (h.goto c phase).Expired d :=
  he.update fun _ hme => hme

theorem Expired.refuse {text : String} (he : h.Expired d) : (h.refuse c text).Expired d := by
  unfold Hub.refuse write
  exact he.update fun _ hme => hme

theorem Expired.closePeer (he : h.Expired d) : (h.closePeer c).Expired d := by
  unfold Hub.closePeer
  exact he.update fun _ hme => hme

theorem Expired.beside (hb : Beside d h h') (he : h.Expired d) : h'.Expired d := by
  obtain ⟨_, _, _, _, hclient⟩ := hb
  rw [Expired, hclient]
  exact he

theorem Expired.runHandler {p : Participant} {handler : Handler} (he : h.Expired c) :
    (h.runHandler c p handler).Expired c := by
  cases handler with
  | raising changed =>
    cases changed with
    | nil => exact he.goto
    | cons q changed =>
      refine Expired.goto ?_
      split
      · exact he.update fun _ hme => hme
      · exact he
  | sharing active streamID trackID =>
    simp only [Hub.runHandler, requestScreenShare]
    split
    · exact he.refuse.goto
    · refine Expired.goto ?_
      split
      · exact Expired.update (h := { h with screenSharer := some c }) he fun _ hme => hme
      · split
        · exact Expired.update (h := { h with screenSharer := none }) he fun _ hme => hme
        · exact he
  | relaying state => exact (he.beside (beside_broadcastExcept _)).goto
  | reacting id name emoji => exact (he.beside (beside_broadcastToRoom _)).goto
  | raisedCast q changed => exact (he.beside (beside_broadcastToRoom _)).goto
  | shared active change => exact Expired.goto (h := { h with media := _ }) he
  | sharedCast owner => exact (he.beside (beside_broadcastToRoom _)).goto
  | chatting msg entry => exact (he.beside (beside_recordAndBroadcastChat msg entry)).goto

theorem Expired.run {ok : Bool} (hrun : h.Runs c ok h') (he : h.Expired c) : h'.Expired c := by
  cases hrun with
  | reclaiming name token hphase =>
    simp only [reclaim]
    split
    · exact Expired.update he fun _ hme => hme
    · split
      · exact Expired.update he fun _ hme => hme
      · exact he.goto
  | superseding previous hphase =>
    refine Expired.goto ?_
    split
    · exact he.update fun _ hme => hme
    · exact he
  | joining name hphase =>
    simp only [join]
    split
    · exact Expired.goto he
    · exact he.goto
  | refusing err hphase =>
    refine Expired.goto (Expired.refuse ?_)
    cases err with
    | meetingFull => exact he.beside (beside_broadcastToRoom _)
    | invalidName => exact he
  | entering p hphase => exact Expired.update he fun _ hme => hme
  | cancelling hphase =>
    exact Expired.goto (he.beside (beside_of_eq client_cancelChatHistoryExpiry))
  | peering hphase =>
    simp only [newPeer]
    split
    · exact he.update fun _ hme => hme
    · exact he.refuse.goto
  | admitting p hp hphase =>
    simp only [admitClient]
    repeat' split
    · exact he.goto
    · exact Expired.update he fun _ hme => hme
    · exact Expired.goto he
  | releasing hphase =>
    refine Expired.goto ?_
    simp only [releasePending]
    split
    · exact Expired.update he fun _ hme => hme
    · exact he
  | announcing p hp hphase =>
    refine Expired.update ?_ fun _ hme => hme
    split
    · exact he
    · exact he.beside (beside_broadcastExcept _)
  | handling p handler hp hphase => exact he.runHandler
  | parting p departure at_ hp hphase =>
    cases at_ with
    | closePeer => exact he.closePeer.goto
    | releaseScreen =>
      simp only [runTeardown, releaseScreenShare]
      split
      · exact Expired.update he fun _ hme => hme
      · exact he.goto
    | screenCast => exact (he.beside (beside_broadcastToRoom _)).goto
    | settle =>
      simp only [runTeardown, settle]
      repeat' split
      all_goals exact Expired.goto he
    | unregister | unpublish => exact Expired.goto he
  | casting p hp hphase => exact (he.beside (beside_broadcastToRoom _)).goto
  | arming hphase =>
    exact Expired.goto (he.beside (beside_of_eq client_scheduleChatHistoryExpiry))
  | armingGrace p hp hphase =>
    simp only [armGrace]
    repeat' split
    all_goals exact Expired.goto he
  | finished hphase hreserved =>
    simp only [releasePending, hreserved, if_true]
    exact Expired.update he fun _ hme => hme
  | upgrading _ | opening _ | waiting _ _ _ | registering _ _ _ | closing _ | disconnecting _ _ _
    | forgetting _ _ _ | leaving _ _ _ | scheduling _ | notifying _ => exact Expired.goto he

/-- **A deadline that has fired stays fired.** -/
theorem Expired.step (hstep : h.Steps l h') (he : h.Expired c) : h'.Expired c := by
  by_cases hactor : l.actor = some c
  · cases hstep with
    | run e ok _ hrun =>
      obtain rfl : e = c := by simpa [Label.actor] using hactor
      exact he.run hrun
    | receive e allowed input _ hphase hreceive =>
      obtain rfl : e = c := by simpa [Label.actor] using hactor
      have hcount : (h.countJoin e).Expired e := he.update fun _ hme => hme
      cases hreceive with
      | ignored _ _ | videoSubscriptions _ _ _ _ => exact he
      | refused _ _ _ => exact he.refuse
      | refusedJoin _ _ _ => exact hcount.refuse
      | expelled _ _ _ => exact hcount.refuse.goto
      | reclaiming _ _ _ _ | joining _ _ _ => exact hcount.goto
      | leave _ _ => exact he.update fun _ hme => hme
      | lost | mediaState _ _ _ _ _ | handState _ _ _ _ _ _ | screenShare _ _ _ _ _ _
        | retainedChat _ _ _ _ | chat _ _ _ _ | reaction _ _ _ => exact Expired.goto he
    | connect e hphase =>
      simp only [reserve]
      split
      · exact he.goto
      · exact Expired.update he fun _ hme => hme
    | notify e e' p clients hphase hp he' => exact Expired.goto (he.update fun _ hme => hme)
    | expireAdmission e hphase =>
      simp only [expireAdmission]
      split
      · exact he
      · exact he.update fun _ _ => rfl
    | closeSuperseded e htimer =>
      unfold closeSuperseded
      refine Expired.closePeer ?_
      exact he.update fun _ hme => hme
    | reapArm e p hp hreaper =>
      exact Expired.update (he.beside (beside_of_eq client_scheduleChatHistoryExpiry))
        fun _ hme => hme
    | reapClosePeer e p hp hreaper => exact Expired.update he.closePeer fun _ hme => hme
    | graceFire _ _ _ _ _ _ _ | reapUnregister _ _ _ _ | reapLeave _ _ _ _ | reapForget _ _ _ _
      | reapSchedule _ _ _ _ => exact Expired.update he fun _ hme => hme
    | _ => simp [Label.actor] at hactor
  · exact he.beside (beside_step hstep hactor)

/-! ## Departures -/

/-- Who `disconnect` tells was a member when it started. -/
theorem recipients_step (hstep : h.Steps l h') (c : ClientId) :
    (h'.client c).phase.recipients ⊆ (h.client c).phase.recipients ∪ h.roomMembers := by
  rcases next_step hstep c with hsame | ⟨hhandler, hnext⟩
  · rw [hsame]
    exact Finset.subset_union_left
  · by_cases hdisconnect : (h.client c).phase = .disconnecting
    · cases hstep with
      | run e ok _ hrun =>
        obtain rfl : e = c := by simpa [Label.handler] using hhandler
        cases hrun with
        | disconnecting p hp hphase =>
          rw [disconnect, phase_goto]
          exact (Finset.filter_subset _ _).trans Finset.subset_union_right
        | _ => simp_all
      | receive e allowed input _ hphase hreceive =>
        obtain rfl : e = c := by simpa [Label.handler] using hhandler
        simp [hphase] at hdisconnect
      | connect e hphase =>
        obtain rfl : e = c := by simpa [Label.handler] using hhandler
        simp [hphase] at hdisconnect
      | notify e e' p clients hphase hp he =>
        obtain rfl : e = c := by simpa [Label.handler] using hhandler
        simp [hphase] at hdisconnect
      | _ => simp [Label.handler] at hhandler
    · exact (hnext.recipients hdisconnect).trans Finset.subset_union_left

/-! ## Answers -/

/-- Neither a member, nor seated, nor about to be told of a departure. -/
structure Outside (h : Hub) (d : ClientId) : Prop where
  member : d ∉ h.roomMembers
  seated : ¬ h.Seated d
  told : ∀ c, d ∉ (h.client c).phase.recipients

/-- The answers that `d` may still get to its join. -/
def owed (h : Hub) (d : ClientId) : Nat := if (h.client d).phase.asking then 1 else 0

/-- The messages that `d` sends with a step. -/
def Label.asks (d : ClientId) : Label → Nat
  | .receive c _ (some _) => if c = d then 1 else 0
  | _ => 0

/-- Nothing is written to `d`, or its own handler answers it with an error. -/
def Answers (h h' : Hub) (d : ClientId) (l : Label) : Prop :=
  (h'.client d).outbound = (h.client d).outbound ∧ h'.owed d ≤ h.owed d + l.asks d ∨
    ∃ text, (h'.client d).outbound = (h.client d).outbound ++ [.error text] ∧
      l.handler = some d ∧ h'.owed d + 1 ≤ h.owed d + l.asks d

/-- No answer is owed but to a join. -/
theorem owed_le_of_step (hstep : h.Steps l h') (hl : ∀ allowed input, l ≠ .receive d allowed input) :
    h'.owed d ≤ h.owed d := by
  unfold owed
  by_cases hasking : (h'.client d).phase.asking = true
  · rcases next_step hstep d with hsame | ⟨hhandler, hnext⟩
    · rw [hsame]
    · rcases hnext.asking hasking with hbefore | hread
      · rw [if_pos hasking, if_pos hbefore]
      · exfalso
        cases hstep with
        | receive e allowed input _ _ _ =>
          obtain rfl : e = d := by simpa [Label.handler] using hhandler
          exact hl allowed input rfl
        | run e ok _ hrun =>
          obtain rfl : e = d := by simpa [Label.handler] using hhandler
          cases hrun <;> simp_all
        | connect e hphase =>
          obtain rfl : e = d := by simpa [Label.handler] using hhandler
          simp [hread] at hphase
        | notify e e' p clients hphase hp he =>
          obtain rfl : e = d := by simpa [Label.handler] using hhandler
          simp [hread] at hphase
        | _ => simp [Label.handler] at hhandler
  · rw [if_neg hasking]
    exact Nat.zero_le _

theorem owed_eq_zero (hphase : (h.client d).phase.asking = false) : h.owed d = 0 := by
  simp [owed, hphase]

/-- The read loop answers with at most one error, or goes on with the join. -/
theorem answers_receive {allowed : Bool} {input : Option Request}
    (hread : (h.client d).phase = .reading) (hreceive : h.Receives d input h') :
    h.Answers h' d (.receive d allowed input) := by
  have hcount : ((h.countJoin d).client d).outbound = (h.client d).outbound := by
    simp [countJoin, client_update]
  have hphase : ((h.countJoin d).client d).phase = .reading := by
    rw [countJoin, phase_update, hread]
  cases hreceive with
  | refused request text _ =>
    refine Or.inr ⟨text, ?_, rfl, ?_⟩
    · simp [refuse, write, client_update, Client.write]
    · rw [owed_eq_zero (by simp [refuse, write, client_update, Client.write, hread, Phase.asking])]
      simp [Label.asks]
  | refusedJoin request text _ =>
    refine Or.inr ⟨text, ?_, rfl, ?_⟩
    · simp [refuse, write, client_update, Client.write, hcount]
    · rw [owed_eq_zero (by simp [refuse, write, client_update, Client.write, hphase, Phase.asking])]
      simp [Label.asks]
  | expelled request text _ =>
    refine Or.inr ⟨text, ?_, rfl, ?_⟩
    · simp [goto, refuse, write, client_update, Client.write, Client.goto, hcount]
    · rw [owed_eq_zero (by simp [Phase.asking])]
      simp [Label.asks]
  | reclaiming request name token _ =>
    refine Or.inl ⟨?_, ?_⟩
    · simp [goto, client_update, Client.goto, hcount]
    · simp [owed, Label.asks, Phase.asking]
  | joining request name _ =>
    refine Or.inl ⟨?_, ?_⟩
    · simp [goto, client_update, Client.goto, hcount]
    · simp [owed, Label.asks, Phase.asking]
  | ignored _ _ => exact Or.inl ⟨rfl, Nat.le_add_right _ _⟩
  | videoSubscriptions _ _ _ _ => exact Or.inl ⟨rfl, Nat.le_add_right _ _⟩
  | leave p hp =>
    refine Or.inl ⟨by simp [client_update], ?_⟩
    rw [owed_eq_zero (by simp [phase_update, Phase.asking])]
    exact Nat.zero_le _
  | lost | mediaState _ _ _ _ _ | handState _ _ _ _ _ _ | screenShare _ _ _ _ _ _
    | retainedChat _ _ _ _ | chat _ _ _ _ | reaction _ _ _ =>
    refine Or.inl ⟨by simp [goto, client_update, Client.goto], ?_⟩
    rw [owed_eq_zero (by simp [Phase.asking])]
    exact Nat.zero_le _

/-- What a section of a handler writes to somebody outside: the error that
ends a join. -/
theorem sentRunning_of_outside {ok : Bool} (hrun : h.Runs c ok h') (hout : h.Outside d)
    (hmember : d ∉ h'.roomMembers) :
    h.sentRunning c d ok = [] ∨ c = d ∧ (∃ text, h.sentRunning c d ok = [.error text]) ∧
      (h.client d).phase.asking = true ∧ (h'.client d).phase.asking = false := by
  have hroom : ∀ msg, h.toRoom d msg = [] := fun msg => if_neg hout.member
  have hothers : ∀ e msg, h.toOthers e d msg = [] := fun e msg => if_neg fun hd => hout.member hd.1
  cases hrun with
  | refusing err hphase =>
    have hsent : h.sentRunning c d ok = toSelf c d [.error err.text] := by
      simp only [sentRunning, hphase]
      cases err <;> simp [hroom]
    rw [hsent, toSelf]
    by_cases hd : d = c
    · subst hd
      right
      simp [hphase, refuseJoin, Phase.asking]
    · exact Or.inl (if_neg hd)
  | peering hphase =>
    simp only [sentRunning, hphase, newPeer]
    cases ok with
    | true => exact Or.inl rfl
    | false =>
      by_cases hd : d = c
      · subst hd
        right
        simp [toSelf, hphase, Phase.asking]
      · exact Or.inl (by simp [toSelf, hd])
  | admitting p hp hphase =>
    left
    simp only [sentRunning, hphase, hp]
    split
    · rfl
    · next hopen =>
      refine if_neg ?_
      rintro rfl
      refine hmember ?_
      simp only [Bool.or_eq_true, Bool.not_eq_true', not_or] at hopen
      obtain ⟨⟨hclosed, hexpired⟩, hok⟩ := hopen
      simp only [admitClient, hclosed, hexpired, hok]
      exact Finset.mem_insert_self d h.roomMembers
  | announcing p hp hphase =>
    left
    simp only [sentRunning, hphase, hp]
    split <;> simp [hothers]
  | handling p handler hp hphase =>
    left
    simp only [sentRunning, hphase, hp]
    cases handler with
    | sharing active streamID trackID =>
      simp only [sentHandling]
      split
      · refine if_neg ?_
        rintro rfl
        exact hout.seated (Or.inl (by rw [hphase]; rfl))
      · rfl
    | raising _ | shared _ _ => rfl
    | relaying _ | reacting _ _ _ | raisedCast _ _ | sharedCast _ | chatting _ _ =>
      simp [sentHandling, hroom, hothers]
  | parting p departure at_ hp hphase =>
    left
    cases at_ <;> simp [sentRunning, hphase, hp, hroom]
  | casting p hp hphase =>
    left
    simp [sentRunning, hphase, hp, hroom]
  | reclaiming _ _ hphase | joining _ hphase | superseding _ hphase | waiting _ hphase _
    | upgrading hphase | opening hphase | entering _ hphase | cancelling hphase
    | registering _ _ hphase | releasing hphase | closing hphase | disconnecting _ _ hphase
    | forgetting _ _ hphase | leaving _ _ hphase | scheduling hphase | arming hphase
    | notifying hphase | armingGrace _ _ hphase | finished hphase _ =>
    left
    simp [sentRunning, hphase]

/-- **Nothing is written to a connection outside but an answer to its own
input.** -/
theorem answers_step (hstep : h.Steps l h') (hout : h.Outside d) (hmember : d ∉ h'.roomMembers) :
    h.Answers h' d l := by
  by_cases hreceive : ∃ allowed input, l = .receive d allowed input
  · obtain ⟨allowed, input, rfl⟩ := hreceive
    cases hstep with
    | receive _ _ _ _ hphase hreceive => exact answers_receive hphase hreceive
  · have howed : h'.owed d ≤ h.owed d :=
      owed_le_of_step hstep fun allowed input hl => hreceive ⟨allowed, input, hl⟩
    have hquiet : h.sent d l = [] → h.Answers h' d l := by
      intro hnil
      rcases appends_step hstep d with hsent | ⟨hself, -⟩
      · rw [Appends, hnil, List.append_nil] at hsent
        exact Or.inl ⟨hsent, Nat.le_add_right_of_le howed⟩
      · exact absurd hself hreceive
    cases hstep with
    | run c ok _ hrun =>
      rcases sentRunning_of_outside hrun hout hmember with hnil | ⟨rfl, ⟨text, htext⟩, hbefore, hafter⟩
      · exact hquiet hnil
      · refine Or.inr ⟨text, ?_, rfl, ?_⟩
        · have happends := appends_run (d := c) hrun
          rwa [Appends, htext] at happends
        · simp [owed, hbefore, hafter]
    | notify c e p clients hphase hp he =>
      refine hquiet ?_
      simp only [sent, hp]
      refine if_neg ?_
      rintro rfl
      have htold := hout.told c
      rw [hphase] at htold
      exact htold he
    | adminSnapshot _ hadmin | adminLimit _ _ hadmin | adminRelease _ _ hadmin
      | adminPause _ _ _ hadmin | adminAnnounce _ _ _ hadmin | adminClear _ _ _ hadmin
      | adminScreenCast _ hadmin =>
      refine hquiet ?_
      simp [sent, hadmin, toRoom, hout.member]
    | _ => exact hquiet rfl

end Hub

end SlowMeet.Signaling
