import SlowMeet.Lib.Census
import SlowMeet.Signaling.Admission
import SlowMeet.Signaling.Presence

/-!
# The pre-admission budget

`ServeHTTP` takes a place among the pending connections before it upgrades
and gives it back once, at its admission or at its return. The counter is the
number of the calls that hold a place, and of the admission and its deadline
at most one takes effect on an open connection.
-/

namespace SlowMeet.Signaling

open Lib Media

/-- What the reservations and the deadlines of a hub are kept in. -/
structure Budget where
  pendingConnections : Nat
  reserved : ClientId → Bool
  expired : ClientId → Bool
  admittedAt : ClientId → Nat

namespace Hub

def budget (h : Hub) : Budget where
  pendingConnections := h.pendingConnections
  reserved c := (h.client c).reserved
  expired c := (h.client c).admissionExpired
  admittedAt := h.ledger.admittedAt

/-- What a step does to the budget, case by case. -/
inductive BudgetChange (h : Hub) : Label → Budget → Prop
  | kept (l : Label) : BudgetChange h l h.budget
  | reserved (c : ClientId) (hphase : (h.client c).phase = .absent)
      (hfree : h.pendingConnections < maxPendingConnections) :
      BudgetChange h (.connect c) { h.budget with
        pendingConnections := h.pendingConnections + 1
        reserved := Function.update h.budget.reserved c true }
  | released (c : ClientId) (ok : Bool)
      (hphase : (h.client c).phase = .releasing ∨ (h.client c).phase = .finished)
      (hreserved : (h.client c).reserved = true) :
      BudgetChange h (.run c ok) { h.budget with
        pendingConnections := h.pendingConnections - 1
        reserved := Function.update h.budget.reserved c false }
  | expired (c : ClientId) (hout : c ∉ h.roomMembers) :
      BudgetChange h (.expireAdmission c)
        { h.budget with expired := Function.update h.budget.expired c true }
  | admitted (c : ClientId) (p : Participant) (hp : (h.client c).participant = some p)
      (hphase : (h.client c).phase = .admitting)
      (hearly : (h.client c).admissionExpired = false) :
      BudgetChange h (.run c true) { h.budget with
        admittedAt := Function.update h.ledger.admittedAt c (h.ledger.admissions + 1) }

variable {h h' : Hub} {c d : ClientId} {l : Label}

theorem BudgetChange.of_eq (he : h'.budget = h.budget) : h.BudgetChange l h'.budget := by
  rw [he]
  exact .kept l

/-- A change of one client, in the budget. -/
theorem budget_update_eq (c : ClientId) (f : Client → Client) :
    (h.update c f).budget = { h.budget with
      reserved := Function.update h.budget.reserved c (f (h.client c)).reserved
      expired := Function.update h.budget.expired c (f (h.client c)).admissionExpired } := by
  simp only [budget, Budget.mk.injEq]
  refine ⟨rfl, ?_, ?_, rfl⟩
  all_goals
    funext d
    rw [client_update, Function.update_apply]
    by_cases hd : d = c
    · rw [if_pos hd, if_pos hd]
    · rw [if_neg hd, if_neg hd]

/-- A change of a client's other fields. -/
@[simp] theorem budget_update {f : Client → Client}
    (hreserved : (f (h.client c)).reserved = (h.client c).reserved)
    (hexpired : (f (h.client c)).admissionExpired = (h.client c).admissionExpired) :
    (h.update c f).budget = h.budget := by
  rw [budget_update_eq, hreserved, hexpired]
  show { h.budget with
    reserved := Function.update h.budget.reserved c (h.budget.reserved c)
    expired := Function.update h.budget.expired c (h.budget.expired c) } = h.budget
  rw [Function.update_eq_self, Function.update_eq_self]

@[simp] theorem budget_goto (phase : Phase) : (h.goto c phase).budget = h.budget :=
  budget_update rfl rfl

@[simp] theorem budget_write (msg : Message) : (h.write c msg).budget = h.budget :=
  budget_update rfl rfl

@[simp] theorem budget_refuse (text : String) : (h.refuse c text).budget = h.budget :=
  budget_write _

@[simp] theorem budget_countJoin : (h.countJoin c).budget = h.budget := budget_update rfl rfl

@[simp] theorem budget_closePeer : (h.closePeer c).budget = h.budget := budget_update rfl rfl

@[simp] theorem budget_setReaper (reaper : Reaper) : (h.setReaper c reaper).budget = h.budget :=
  budget_update rfl rfl

@[simp] theorem budget_setAdmin (a : AdminId) (phase : AdminPhase) :
    (h.setAdmin a phase).budget = h.budget := rfl

@[simp] theorem budget_broadcastToRoom (msg : Message) :
    (h.broadcastToRoom msg).budget = h.budget := by
  simp only [budget, broadcastToRoom, Budget.mk.injEq, true_and, and_true]
  constructor <;> funext d <;> split <;> rfl

@[simp] theorem budget_broadcastExcept (msg : Message) :
    (h.broadcastExcept c msg).budget = h.budget := by
  simp only [budget, broadcastExcept, Budget.mk.injEq, true_and, and_true]
  constructor <;> funext d <;> split <;> rfl

@[simp] theorem budget_cancelChatHistoryExpiry : h.cancelChatHistoryExpiry.budget = h.budget := by
  obtain ⟨timers, ht⟩ := h.stopExpiry_eq
  rw [cancelChatHistoryExpiry, ht]
  rfl

@[simp] theorem budget_scheduleChatHistoryExpiry :
    h.scheduleChatHistoryExpiry.budget = h.budget := by
  obtain ⟨timers, ht⟩ := h.stopExpiry_eq
  rw [scheduleChatHistoryExpiry, ht]
  cases h.chatHistory <;> rfl

@[simp] theorem budget_recordAndBroadcastChat (msg : ChatMessage)
    (entry : Option ChatHistoryEntry) :
    (h.recordAndBroadcastChat c msg entry).budget = h.budget := by
  cases entry with
  | none => exact budget_broadcastExcept _
  | some entry =>
    obtain ⟨timers, ht⟩ := h.stopExpiry_eq
    simp only [recordAndBroadcastChat, budget_broadcastExcept, recordChatMessageLocked, ht]
    rfl

/-- The place of `c` is taken or given back. -/
theorem budget_place {n : Nat} {f : Client → Client}
    (hexpired : (f (h.client c)).admissionExpired = (h.client c).admissionExpired) :
    ({ h with pendingConnections := n }.update c f).budget = { h.budget with
      pendingConnections := n
      reserved := Function.update h.budget.reserved c (f (h.client c)).reserved } := by
  rw [budget_update_eq]
  show { h.budget with
    pendingConnections := n
    reserved := Function.update h.budget.reserved c (f (h.client c)).reserved
    expired := Function.update h.budget.expired c (f (h.client c)).admissionExpired } = _
  rw [hexpired]
  show { h.budget with
    pendingConnections := n
    reserved := Function.update h.budget.reserved c (f (h.client c)).reserved
    expired := Function.update h.budget.expired c (h.budget.expired c) } = _
  rw [Function.update_eq_self]

/-! ## The spec -/

theorem budget_runHandler {p : Participant} (handler : Handler) :
    (h.runHandler c p handler).budget = h.budget := by
  cases handler with
  | raising changed =>
    cases changed with
    | nil => exact budget_goto _
    | cons q changed =>
      simp only [runHandler, budget_goto]
      split
      · exact budget_update rfl rfl
      · rfl
  | sharing active streamID trackID =>
    simp only [runHandler, requestScreenShare]
    split
    · rw [budget_goto, budget_refuse]
    · rw [budget_goto]
      split
      · exact budget_update rfl rfl
      · split
        · exact budget_update rfl rfl
        · rfl
  | shared active change => exact budget_goto _
  | relaying _ | reacting _ _ _ | raisedCast _ _ | sharedCast _ | chatting _ _ =>
    simp [runHandler]

theorem budget_runTeardown {p : Participant} {departure : Departure} (at_ : Teardown) :
    (h.runTeardown c p departure at_).budget = h.budget := by
  cases at_ with
  | releaseScreen =>
    simp only [runTeardown, releaseScreenShare]
    split
    · exact budget_update rfl rfl
    · exact budget_goto _
  | settle =>
    simp only [runTeardown, settle]
    repeat' split
    all_goals exact budget_goto _
  | unregister | unpublish => exact budget_goto _
  | closePeer | screenCast => simp [runTeardown]

theorem budget_run {ok : Bool} (hrun : h.Runs c ok h') :
    h.BudgetChange (.run c ok) h'.budget := by
  cases hrun with
  | admitting p hp hphase =>
    unfold admitClient
    cases hrefused : h.closed || (h.client c).admissionExpired with
    | true => exact .of_eq (budget_goto _)
    | false =>
      rw [Bool.or_eq_false_iff] at hrefused
      cases ok with
      | false => exact .of_eq (budget_goto _)
      | true =>
        have hadmitted := BudgetChange.admitted c p hp hphase hrefused.2
        simp only [Bool.false_eq_true, if_false, if_true]
        rw [budget_update rfl rfl]
        exact hadmitted
  | releasing hphase =>
    rw [budget_goto]
    by_cases hreserved : (h.client c).reserved = true
    · rw [releasePending, if_pos hreserved, budget_place rfl]
      exact .released c ok (Or.inl hphase) hreserved
    · rw [releasePending, if_neg hreserved]
      exact .kept _
  | finished hphase hreserved =>
    rw [releasePending, if_pos hreserved, budget_place rfl]
    exact .released c ok (Or.inr hphase) hreserved
  | handling p handler hp hphase => exact .of_eq (budget_runHandler handler)
  | parting p departure at_ hp hphase => exact .of_eq (budget_runTeardown at_)
  | reclaiming name token hphase =>
    simp only [reclaim]
    repeat' split
    all_goals exact .of_eq (budget_update rfl rfl)
  | superseding previous hphase =>
    simp only [supersede]
    split <;> exact .of_eq (by simp)
  | joining name hphase =>
    simp only [join]
    split <;> exact .of_eq (budget_goto _)
  | refusing err hphase => cases err <;> exact .of_eq (by simp [refuseJoin])
  | peering hphase =>
    simp only [newPeer]
    split <;> exact .of_eq (by simp)
  | announcing p hp hphase =>
    simp only [announce]
    split <;> exact .of_eq (by simp)
  | armingGrace p hp hphase =>
    simp only [armGrace]
    repeat' split
    all_goals exact .of_eq (budget_goto _)
  | entering p hphase => exact .of_eq (budget_update rfl rfl)
  | cancelling hphase => exact .of_eq (by simp)
  | casting p hp hphase => exact .of_eq (by simp)
  | arming hphase => exact .of_eq (by simp)
  | upgrading _ | opening _ | waiting _ _ _ | registering _ _ _ | closing _ | disconnecting _ _ _
    | forgetting _ _ _ | leaving _ _ _ | scheduling _ | notifying _ => exact .of_eq (budget_goto _)

theorem budget_receive {allowed : Bool} {input : Option Request}
    (hreceive : h.Receives c input h') : h.BudgetChange (.receive c allowed input) h'.budget := by
  cases hreceive with
  | ignored _ _ | videoSubscriptions _ _ _ _ => exact .kept _
  | leave p hp => exact .of_eq (budget_update rfl rfl)
  | lost | mediaState _ _ _ _ _ | handState _ _ _ _ _ _ | screenShare _ _ _ _ _ _
    | retainedChat _ _ _ _ | chat _ _ _ _ | reaction _ _ _ => exact .of_eq (budget_goto _)
  | refused _ _ _ | refusedJoin _ _ _ | expelled _ _ _ | reclaiming _ _ _ _ | joining _ _ _ =>
    exact .of_eq (by simp)

/-- **What a step does to the budget.** -/
theorem budget_step (hstep : h.Steps l h') : h.BudgetChange l h'.budget := by
  cases hstep with
  | run c ok _ hrun => exact budget_run hrun
  | receive c allowed input _ hphase hreceive => exact budget_receive hreceive
  | connect c hphase =>
    unfold reserve
    cases hfull : h.closed || h.pendingConnections ≥ maxPendingConnections with
    | true => exact .of_eq (budget_goto _)
    | false =>
      rw [Bool.or_eq_false_iff, decide_eq_false_iff_not] at hfull
      simp only [Bool.false_eq_true, if_false]
      rw [budget_place rfl]
      exact .reserved c hphase (Nat.lt_of_not_le hfull.2)
  | expireAdmission c hphase =>
    unfold expireAdmission
    by_cases hc : c ∈ h.roomMembers
    · rw [if_pos hc]
      exact .kept _
    · rw [if_neg hc, budget_update_eq]
      show h.BudgetChange _ { h.budget with
        reserved := Function.update h.budget.reserved c (h.budget.reserved c)
        expired := Function.update h.budget.expired c true }
      rw [Function.update_eq_self]
      exact .expired c hc
  | notify c d p clients hphase hp hd => exact .of_eq (by simp)
  | reapClosePeer c p hp hreaper => exact .of_eq (by simp)
  | reapArm c p hp hreaper => exact .of_eq (by simp)
  | closeSuperseded c htimer =>
    unfold closeSuperseded
    exact .of_eq (by simp)
  | close =>
    obtain ⟨timers, ht⟩ := h.stopExpiry_eq
    refine .of_eq ?_
    unfold close clearChatHistory
    rw [ht]
    rfl
  | adminRelease a cfg hadmin =>
    unfold releaseDisabledShare
    split
    · split
      · exact .kept _
      · exact .of_eq ((budget_setAdmin _ _).trans (budget_update rfl rfl))
    · exact .kept _
  | adminPause a cfg released hadmin => cases released <;> exact .kept _
  | adminAnnounce a cfg released hadmin => exact .of_eq (by simp)
  | adminClear a cfg released hadmin =>
    obtain ⟨timers, ht⟩ := h.stopExpiry_eq
    refine .of_eq ?_
    rw [budget_setAdmin]
    split
    · rfl
    · unfold clearChatHistory
      rw [ht]
      rfl
  | adminScreenCast a hadmin => exact .of_eq (by simp)
  | graceFire _ _ _ _ _ _ _ | reapUnregister _ _ _ _ | reapLeave _ _ _ _ | reapForget _ _ _ _
    | reapSchedule _ _ _ _ => exact .of_eq (budget_setReaper _)
  | closeLeave _ _ | chatTimer _ _ | chatCheck _ _ | chatDelete _ _ | adminUpdate _ _ _
    | adminSnapshot _ _ | adminLimit _ _ _ | onTrack _ _ _ _ | trackStarted _ _ _ _ _ _ _
    | trackChecked _ _ _ _ _ _ | trackPublish _ _ _ _ _ _ _ _ _ | trackOp _ _ _ _
    | readStop _ _ _ => exact .kept _

/-! ## Who holds a place -/

/-- The call of `ServeHTTP` has returned: its deferred release is behind it. -/
def Returned (h : Hub) (c : ClientId) : Prop :=
  (h.client c).phase = .finished ∧ ∀ ok, h.run c ok = none

/-- The call has arrived and not returned, and is not admitted, or admitted
and still to give its place back. -/
def Holding (h : Hub) (c : ClientId) : Prop :=
  (h.client c).phase ≠ .absent ∧ ¬ h.Returned c ∧
    (h.ledger.admittedAt c = 0 ∨ (h.client c).phase = .releasing)

theorem returned_iff :
    h.Returned c ↔ (h.client c).phase = .finished ∧ (h.client c).reserved = false := by
  unfold Returned
  constructor
  · rintro ⟨hphase, hrun⟩
    refine ⟨hphase, ?_⟩
    by_contra hreserved
    have hdone := hrun true
    simp [run, hphase, hreserved] at hdone
  · rintro ⟨hphase, hreserved⟩
    exact ⟨hphase, fun ok => by simp [run, hphase, hreserved]⟩

/-- How the place, the admission and the deadline of a connection go with its
section. -/
structure Placed (h : Hub) (c : ClientId) : Prop where
  absent : (h.client c).phase = .absent → (h.client c).reserved = false
  serving : (h.client c).phase ≠ .absent → (h.client c).phase ≠ .finished →
    ((h.client c).reserved = true ↔
      h.ledger.admittedAt c = 0 ∨ (h.client c).phase = .releasing)
  finished : (h.client c).phase = .finished → (h.client c).reserved = true →
    h.ledger.admittedAt c = 0
  early : h.Early c → h.ledger.admittedAt c = 0
  releasing : (h.client c).phase = .releasing → h.ledger.admittedAt c ≠ 0
  member : h.ledger.admittedAt c ≠ 0 → (h.client c).phase.inRoom = true → c ∈ h.roomMembers
  expired : h.Expired c → c ∉ h.roomMembers

theorem Placed.reserved_iff (hplaced : h.Placed c) :
    (h.client c).reserved = true ↔ h.Holding c := by
  unfold Holding
  rw [returned_iff]
  by_cases habsent : (h.client c).phase = .absent
  · simp [hplaced.absent habsent, habsent]
  · by_cases hfinished : (h.client c).phase = .finished
    · cases hreserved : (h.client c).reserved with
      | true => simp [hfinished, hplaced.finished hfinished hreserved]
      | false => simp [hfinished]
    · rw [hplaced.serving habsent hfinished]
      simp [habsent, hfinished]

/-! ## One step of a connection -/

theorem not_next_absent {phase : Phase} : ¬ phase.Next .absent := by
  cases phase <;> simp [Phase.Next]

theorem releasing_of_next {phase : Phase} (hnext : phase.Next .releasing) : phase = .admitting := by
  cases phase <;> simp_all [Phase.Next]

/-- Only the start of a call, its admission and its releases touch its place. -/
theorem place_of_step (hstep : h.Steps l h') (hconnect : l ≠ .connect c)
    (hrun : ∀ ok, l = .run c ok → (h.client c).phase ≠ .admitting ∧
      (h.client c).phase ≠ .releasing ∧ (h.client c).phase ≠ .finished) :
    h'.ledger.admittedAt c = h.ledger.admittedAt c ∧
      (h'.client c).reserved = (h.client c).reserved := by
  have hchange := budget_step hstep
  show h'.budget.admittedAt c = h.budget.admittedAt c ∧
    h'.budget.reserved c = h.budget.reserved c
  generalize h'.budget = b at hchange
  cases hchange with
  | kept | expired _ _ => exact ⟨rfl, rfl⟩
  | reserved e hphase hfree =>
    have hne : c ≠ e := fun heq => hconnect (heq ▸ rfl)
    exact ⟨rfl, Function.update_of_ne hne _ _⟩
  | released e ok hphase hreserved =>
    have hne : c ≠ e := by
      rintro rfl
      obtain ⟨-, hreleasing, hfinished⟩ := hrun ok rfl
      exact hphase.elim hreleasing hfinished
    exact ⟨rfl, Function.update_of_ne hne _ _⟩
  | admitted e p hp hphase hearly =>
    have hne : c ≠ e := by
      rintro rfl
      exact (hrun true rfl).1 hphase
    exact ⟨Function.update_of_ne hne _ _, rfl⟩

/-- A connection that arrives has its place, or is turned away. -/
theorem place_of_connect :
    ((h.reserve c).client c).phase = .upgrading ∧ ((h.reserve c).client c).reserved = true ∨
      ((h.reserve c).client c).phase = .finished ∧
        ((h.reserve c).client c).reserved = (h.client c).reserved := by
  unfold reserve
  split
  · right
    rw [goto, client_update, if_pos rfl]
    exact ⟨rfl, rfl⟩
  · left
    rw [client_update, if_pos rfl]
    exact ⟨rfl, rfl⟩

/-- Nothing but its connection moves a client that has not arrived. -/
theorem absent_of_step (hstep : h.Steps l h') (hphase : (h.client c).phase = .absent)
    (hconnect : l ≠ .connect c) : (h'.client c).phase = .absent := by
  rcases next_step hstep c with hsame | ⟨hhandler, -⟩
  · exact hsame.trans hphase
  · cases hstep with
    | connect e _ =>
      obtain rfl : e = c := by simpa [Label.handler] using hhandler
      exact absurd rfl hconnect
    | receive e allowed input _ hread _ =>
      obtain rfl : e = c := by simpa [Label.handler] using hhandler
      simp [hphase] at hread
    | run e ok _ hrun =>
      obtain rfl : e = c := by simpa [Label.handler] using hhandler
      cases hrun <;> simp_all
    | notify e d p clients hnotifying _ _ =>
      obtain rfl : e = c := by simpa [Label.handler] using hhandler
      simp [hphase] at hnotifying
    | _ => simp [Label.handler] at hhandler

/-- An admission that is taken back, refused or committed. -/
theorem place_of_admitting {ok : Bool} (hrun : h.Runs c ok h')
    (hphase : (h.client c).phase = .admitting) :
    (h'.client c).reserved = (h.client c).reserved ∧ (h'.client c).participant ≠ none ∧
      ((h'.client c).phase = .closing ∧ h'.ledger = h.ledger ∨
        (h'.client c).phase = .releasing ∧ h'.ledger.admittedAt c ≠ 0 ∧ c ∈ h'.roomMembers) := by
  cases hrun with
  | admitting p hp _ =>
    have hknown : (h.client c).participant ≠ none := by simp [hp]
    unfold admitClient
    split
    · rw [goto, client_update, if_pos rfl]
      exact ⟨rfl, hknown, Or.inl ⟨rfl, rfl⟩⟩
    · cases ok with
      | false =>
        simp only [Bool.false_eq_true, if_false]
        rw [goto, client_update, if_pos rfl]
        exact ⟨rfl, hknown, Or.inl ⟨rfl, rfl⟩⟩
      | true =>
        simp only [if_true]
        rw [client_update, if_pos rfl]
        refine ⟨rfl, hknown, Or.inr ⟨rfl, ?_, Finset.mem_insert_self _ _⟩⟩
        show Function.update h.ledger.admittedAt c (h.ledger.admissions + 1) c ≠ 0
        rw [Function.update_self]
        exact Nat.succ_ne_zero _
  | _ => simp_all

/-- A release gives the place back. -/
theorem place_of_releasing {ok : Bool} (hrun : h.Runs c ok h')
    (hphase : (h.client c).phase = .releasing ∨ (h.client c).phase = .finished) :
    (h'.client c).reserved = false ∧ h'.ledger = h.ledger ∧
      ((h.client c).phase = .releasing ∧ (h'.client c).phase = .announcing ∨
        (h.client c).phase = .finished ∧ (h'.client c).phase = .finished) := by
  cases hrun with
  | releasing hbefore =>
    rw [goto, client_update, if_pos rfl]
    unfold releasePending
    split
    · rw [client_update, if_pos rfl]
      exact ⟨rfl, rfl, Or.inl ⟨hbefore, rfl⟩⟩
    · rename_i hreserved
      exact ⟨Bool.eq_false_iff.mpr hreserved, rfl, Or.inl ⟨hbefore, rfl⟩⟩
  | finished hbefore hreserved =>
    unfold releasePending
    rw [if_pos hreserved, client_update, if_pos rfl]
    exact ⟨rfl, rfl, Or.inr ⟨hbefore, hbefore⟩⟩
  | _ => simp_all

/-- Whose deadline has fired is no room member. -/
theorem outside_of_expired (hout : h.Expired c → c ∉ h.roomMembers) (hstep : h.Steps l h')
    (hexpired : h'.Expired c) : c ∉ h'.roomMembers := by
  by_cases hbefore : h.Expired c
  · intro hmember
    rcases member_of_step hstep hmember with hmember | ⟨-, hnot⟩
    · exact hout hbefore hmember
    · exact hnot hbefore
  · -- The deadline fires here, and only outside the room.
    have hchange := budget_step hstep
    have hbudget : h'.budget.expired c = true := hexpired
    generalize h'.budget = b at hchange hbudget
    cases hchange with
    | expired e hnot =>
      by_cases heq : c = e
      · subst heq
        cases hstep with
        | expireAdmission _ _ =>
          unfold expireAdmission
          rw [if_neg hnot]
          exact hnot
      · have hsame : Function.update h.budget.expired e true c = true := hbudget
        rw [Function.update_of_ne heq] at hsame
        exact absurd hsame hbefore
    | _ => exact absurd hbudget hbefore

/-- A room member stays one until its connection is cleaned up. -/
theorem member_step (hstep : h.Steps l h') (hmember : c ∈ h.roomMembers)
    (hroom : (h'.client c).phase.inRoom = true) : c ∈ h'.roomMembers := by
  have hchange := room_step hstep
  show c ∈ h'.room.members
  generalize h'.room = room at hchange
  cases hchange with
  | entered e ok p hp hphase hopen hearly => exact Finset.mem_insert_of_mem hmember
  | cleaned e ok hphase =>
    refine Finset.mem_erase.mpr ⟨?_, hmember⟩
    rintro rfl
    cases hstep with
    | run _ _ _ hrun =>
      cases hrun with
      | closing _ =>
        rw [cleanup, phase_goto] at hroom
        split at hroom <;> simp [Phase.inRoom] at hroom
      | _ => simp_all
  | _ => exact hmember

/-- What leads to the room is the admission. -/
theorem inRoom_of_next {phase next : Phase} (hnext : phase.Next next)
    (hroom : next.inRoom = true) :
    phase.inRoom = true ∨ phase.arriving = true ∨ phase.unknown = true := by
  cases phase with
  | releasing | announcing | reading | handling _ | closing => exact Or.inl rfl
  | superseding _ | waiting _ | cancelling | peering | registering | admitting =>
    exact Or.inr (Or.inl rfl)
  | absent | upgrading | opening | reclaiming _ _ | joining _ | refusing _ | entering _ =>
    exact Or.inr (Or.inr rfl)
  | parting _ _ =>
    rcases hnext with ⟨_, rfl⟩ | rfl | rfl | rfl <;> simp [Phase.inRoom] at hroom
  | notifying _ => rcases hnext with ⟨_, _, rfl⟩ | ⟨_, rfl⟩ <;> simp [Phase.inRoom] at hroom
  | disconnecting =>
    obtain ⟨_, _, rfl⟩ := hnext
    simp [Phase.inRoom] at hroom
  | leaving | scheduling => rcases hnext with rfl | rfl <;> simp [Phase.inRoom] at hroom
  | forgetting | casting | arming | armingGrace =>
    obtain rfl := hnext
    simp [Phase.inRoom] at hroom
  | finished => exact hnext.elim

/-! ## The invariant -/

theorem Placed.connect (hpresent : h.Present) (hplaced : h.Placed c)
    (hstep : h.Steps (.connect c) h') (hearly : h'.Early c → h.Early c)
    (hexpired : h'.Expired c → c ∉ h'.roomMembers) : h'.Placed c := by
  cases hstep with
  | connect _ hphase =>
    have hzero : h.ledger.admittedAt c = 0 :=
      hplaced.early (Or.inl (hpresent.unknown c (by rw [hphase]; rfl)))
    have hsame : (h.reserve c).ledger = h.ledger := by
      unfold reserve
      split <;> rfl
    have hunreserved := hplaced.absent hphase
    rcases h.place_of_connect (c := c) with ⟨hnext, hreserved⟩ | ⟨hnext, hreserved⟩
    · exact {
        absent := fun h => by simp [hnext] at h
        serving := fun _ _ => by simp [hreserved, hsame, hzero]
        finished := fun h => by simp [hnext] at h
        early := fun _ => by rw [hsame, hzero]
        releasing := fun h => by simp [hnext] at h
        member := fun h => by simp [hsame, hzero] at h
        expired := hexpired }
    · rw [hunreserved] at hreserved
      exact {
        absent := fun _ => hreserved
        serving := fun _ h => absurd hnext h
        finished := fun _ h => by simp [hreserved] at h
        early := fun _ => by rw [hsame, hzero]
        releasing := fun h => by simp [hnext] at h
        member := fun h => by simp [hsame, hzero] at h
        expired := hexpired }

theorem Placed.admit {ok : Bool} (hplaced : h.Placed c) (hrun : h.Runs c ok h')
    (hphase : (h.client c).phase = .admitting) (hexpired : h'.Expired c → c ∉ h'.roomMembers) :
    h'.Placed c := by
  have hzero : h.ledger.admittedAt c = 0 := hplaced.early (Or.inr (by rw [hphase]; rfl))
  have hheld : (h.client c).reserved = true :=
    (hplaced.serving (by simp [hphase]) (by simp [hphase])).mpr (Or.inl hzero)
  obtain ⟨hreserved, hknown, ⟨hnext, hsame⟩ | ⟨hnext, hadmitted, hmember⟩⟩ :=
    place_of_admitting hrun hphase
  · rw [hheld] at hreserved
    exact {
      absent := fun h => by simp [hnext] at h
      serving := fun _ _ => by simp [hreserved, hsame, hzero]
      finished := fun h => by simp [hnext] at h
      early := fun _ => by rw [hsame, hzero]
      releasing := fun h => by simp [hnext] at h
      member := fun h => by simp [hsame, hzero] at h
      expired := hexpired }
  · rw [hheld] at hreserved
    exact {
      absent := fun h => by simp [hnext] at h
      serving := fun _ _ => by simp [hreserved, hnext]
      finished := fun h => by simp [hnext] at h
      early := by
        rintro (hnone | harriving)
        · exact absurd hnone hknown
        · simp [hnext, Phase.arriving] at harriving
      releasing := fun _ => hadmitted
      member := fun _ _ => hmember
      expired := hexpired }

theorem Placed.release {ok : Bool} (hplaced : h.Placed c) (hrun : h.Runs c ok h')
    (hphase : (h.client c).phase = .releasing ∨ (h.client c).phase = .finished)
    (hearly : h'.Early c → h.Early c)
    (hmember : c ∈ h.roomMembers → (h'.client c).phase.inRoom = true → c ∈ h'.roomMembers)
    (hexpired : h'.Expired c → c ∉ h'.roomMembers) : h'.Placed c := by
  obtain ⟨hreserved, hsame, ⟨hbefore, hnext⟩ | ⟨hbefore, hnext⟩⟩ := place_of_releasing hrun hphase
  · have hadmitted := hplaced.releasing hbefore
    exact {
      absent := fun h => by simp [hnext] at h
      serving := fun _ _ => by simp [hreserved, hsame, hadmitted, hnext]
      finished := fun h => by simp [hnext] at h
      early := fun h => absurd (hplaced.early (hearly h)) hadmitted
      releasing := fun h => by simp [hnext] at h
      member := fun h => hmember (hplaced.member hadmitted (by rw [hbefore]; rfl))
      expired := hexpired }
  · exact {
      absent := fun h => by simp [hnext] at h
      serving := fun _ h => absurd hnext h
      finished := fun _ h => by simp [hreserved] at h
      early := fun h => by rw [hsame]; exact hplaced.early (hearly h)
      releasing := fun h => by simp [hnext] at h
      member := fun _ h => by simp [hnext, Phase.inRoom] at h
      expired := hexpired }

/-- A step that is none of these keeps the place of `c`. -/
theorem Placed.keep (hpresent : h.Present) (hplaced : h.Placed c) (hstep : h.Steps l h')
    (hconnect : l ≠ .connect c)
    (hrun : ∀ ok, l = .run c ok → (h.client c).phase ≠ .admitting ∧
      (h.client c).phase ≠ .releasing ∧ (h.client c).phase ≠ .finished)
    (hearly : h'.Early c → h.Early c)
    (hexpired : h'.Expired c → c ∉ h'.roomMembers) : h'.Placed c := by
  obtain ⟨hadmitted, hreserved⟩ := place_of_step hstep hconnect hrun
  have hnext := next_step hstep c
  -- Neither into the release nor out of it.
  have hreleasing : (h'.client c).phase = .releasing ↔ (h.client c).phase = .releasing := by
    rcases hnext with hsame | ⟨hhandler, hnext⟩
    · rw [hsame]
    · have hstays : (h.client c).phase = .releasing ∨ (h.client c).phase = .admitting →
          (h'.client c).phase = (h.client c).phase := by
        rintro (hphase | hphase)
        all_goals
          rcases stays_step (c := c) hstep (by simp [hphase]) (by simp [hphase])
            (by simp [hphase]) with hsame | ⟨ok, rfl⟩
          · exact hsame
          · obtain ⟨hadmitting, hnot, -⟩ := hrun ok rfl
            contradiction
      constructor
      · intro hphase
        have hbefore := releasing_of_next (hphase ▸ hnext)
        rw [hstays (Or.inr hbefore), hbefore] at hphase
        cases hphase
      · intro hphase
        rw [hstays (Or.inl hphase), hphase]
  have habsent : (h'.client c).phase ≠ .absent → (h.client c).phase ≠ .absent :=
    fun hafter hbefore => hafter (absent_of_step hstep hbefore hconnect)
  have hfinished : (h.client c).phase = .finished → (h'.client c).phase = .finished := by
    intro hbefore
    rcases hnext with hsame | ⟨-, hnext⟩
    · exact hsame.trans hbefore
    · rw [hbefore] at hnext
      exact hnext.elim
  exact {
    absent := by
      intro hafter
      rw [hreserved]
      refine hplaced.absent ?_
      rcases hnext with hsame | ⟨-, hnext⟩
      · exact hsame ▸ hafter
      · rw [hafter] at hnext
        exact (not_next_absent hnext).elim
    serving := by
      intro hne hopen
      rw [hreserved, hadmitted, hreleasing]
      exact hplaced.serving (habsent hne) fun hbefore => hopen (hfinished hbefore)
    finished := by
      intro hafter hheld
      rw [hreserved] at hheld
      rw [hadmitted]
      by_cases hbefore : (h.client c).phase = .finished
      · exact hplaced.finished hbefore hheld
      · refine ((hplaced.serving (habsent (by simp [hafter])) hbefore).mp hheld).resolve_right ?_
        intro hphase
        rw [hreleasing.mpr hphase] at hafter
        cases hafter
    early := fun h => by rw [hadmitted]; exact hplaced.early (hearly h)
    releasing := fun h => by rw [hadmitted]; exact hplaced.releasing (hreleasing.mp h)
    member := by
      intro hin hroom
      rw [hadmitted] at hin
      refine member_step hstep (hplaced.member hin ?_) hroom
      rcases hnext with hsame | ⟨-, hnext⟩
      · exact hsame ▸ hroom
      · rcases inRoom_of_next hnext hroom with hroom | harriving | hunknown
        · exact hroom
        · exact absurd (hplaced.early (Or.inr harriving)) hin
        · exact absurd (hplaced.early (Or.inl (hpresent.unknown c hunknown))) hin
    expired := hexpired }

/-- **A step keeps the place of every connection in order.** -/
theorem Placed.step (hpresent : h.Present) (hplaced : h.Placed c) (hstep : h.Steps l h') :
    h'.Placed c := by
  have hearly : h'.Early c → h.Early c := early_of_step hpresent hstep
  have hexpired : h'.Expired c → c ∉ h'.roomMembers :=
    outside_of_expired hplaced.expired hstep
  by_cases hconnect : l = .connect c
  · subst hconnect
    exact hplaced.connect hpresent hstep hearly hexpired
  · by_cases hrun : ∃ ok, l = .run c ok
    · obtain ⟨ok, rfl⟩ := hrun
      by_cases hadmitting : (h.client c).phase = .admitting
      · cases hstep with
        | run _ _ _ hrun => exact hplaced.admit hrun hadmitting hexpired
      · by_cases hreleasing : (h.client c).phase = .releasing ∨ (h.client c).phase = .finished
        · have hmember := member_step (c := c) hstep
          cases hstep with
          | run _ _ _ hrun => exact hplaced.release hrun hreleasing hearly hmember hexpired
        · rw [not_or] at hreleasing
          exact hplaced.keep hpresent hstep hconnect (fun _ _ => ⟨hadmitting, hreleasing⟩) hearly
            hexpired
    · exact hplaced.keep hpresent hstep hconnect (fun ok hl => absurd ⟨ok, hl⟩ hrun) hearly hexpired

theorem placed_new (cfg : Config) (c : ClientId) : (Hub.new cfg).Placed c where
  absent _ := rfl
  serving h := absurd rfl h
  finished h := by cases h
  early _ := rfl
  releasing h := by cases h
  member h := absurd rfl h
  expired h := by cases h

theorem placed_of_reachable {cfg : Config} {ok : Hub → Label → Prop}
    (hr : (lts cfg).Reachable ok h) (c : ClientId) : h.Placed c := by
  refine hr.invariant_of (I := fun h => h.Placed c) (fun _ hr => present_of_reachable hr) ?_ ?_
  · rintro _ rfl
    exact placed_new cfg c
  · intro s l t hs _ hplaced _ htr
    exact hplaced.step hs (steps_of_step htr)

/-! ## The count -/

/-- The counter counts the places, up to the limit. -/
def Counted (h : Hub) : Prop :=
  Counts h.budget.reserved h.budget.pendingConnections ∧
    h.budget.pendingConnections ≤ maxPendingConnections

theorem counted_step (hplaced : ∀ c, h.Placed c) (hcount : h.Counted) (hstep : h.Steps l h') :
    h'.Counted := by
  obtain ⟨hcount, hle⟩ := hcount
  have hchange := budget_step hstep
  unfold Counted
  generalize h'.budget = b at hchange
  cases hchange with
  | kept | expired _ _ | admitted _ _ _ _ _ => exact ⟨hcount, hle⟩
  | reserved c hphase hfree => exact ⟨hcount.take ((hplaced c).absent hphase), hfree⟩
  | released c ok hphase hreserved =>
    exact ⟨hcount.give hreserved, Nat.le_trans (Nat.sub_le _ _) hle⟩

theorem counted_of_reachable {cfg : Config} {ok : Hub → Label → Prop}
    (hr : (lts cfg).Reachable ok h) : h.Counted := by
  refine hr.invariant_of (I := fun h => h.Counted) (fun _ hr => placed_of_reachable hr) ?_ ?_
  · rintro _ rfl
    exact ⟨counts_none, Nat.zero_le _⟩
  · intro s l t hs _ hcount _ htr
    exact counted_step hs hcount (steps_of_step htr)

/-! ## Runs -/

/-- What has given its place back does not get another. -/
theorem not_holding_step (hplaced : h.Placed c) (hplaced' : h'.Placed c) (hstep : h.Steps l h')
    (harrived : (h.client c).phase ≠ .absent) (hgone : ¬ h.Holding c) : ¬ h'.Holding c := by
  rw [← hplaced.reserved_iff] at hgone
  rw [← hplaced'.reserved_iff]
  have hchange := budget_step hstep
  show ¬ h'.budget.reserved c = true
  generalize h'.budget = b at hchange
  cases hchange with
  | kept | expired _ _ | admitted _ _ _ _ _ => exact hgone
  | reserved e hphase hfree =>
    have hne : c ≠ e := fun heq => harrived (heq ▸ hphase)
    show ¬ Function.update h.budget.reserved e true c = true
    rw [Function.update_of_ne hne]
    exact hgone
  | released e ok hphase hreserved =>
    show ¬ Function.update h.budget.reserved e false c = true
    by_cases heq : c = e
    · subst heq
      simp
    · rw [Function.update_of_ne heq]
      exact hgone

/-- A step that gives a place back lowers the counter by one. -/
theorem released_step (hcount : h.Counted) (hplaced : h.Placed c) (hplaced' : h'.Placed c)
    (hstep : h.Steps l h') (hheld : h.Holding c) (hgone : ¬ h'.Holding c) :
    h'.pendingConnections + 1 = h.pendingConnections := by
  rw [← hplaced.reserved_iff] at hheld
  rw [← hplaced'.reserved_iff] at hgone
  have hpos : 0 < h.pendingConnections := hcount.1.pos (i := c) hheld
  have hchange := budget_step hstep
  have hfree : ¬ h'.budget.reserved c = true := hgone
  show h'.budget.pendingConnections + 1 = h.pendingConnections
  generalize h'.budget = b at hchange hfree
  cases hchange with
  | kept | expired _ _ | admitted _ _ _ _ _ => exact absurd hheld hfree
  | reserved e hphase _ =>
    refine absurd ?_ hfree
    show Function.update h.budget.reserved e true c = true
    by_cases heq : c = e
    · rw [heq, Function.update_self]
    · rw [Function.update_of_ne heq]
      exact hheld
  | released e ok hphase hreserved => exact Nat.sub_add_cancel hpos

/-- Whose deadline has fired stays outside the room, and is not admitted. -/
theorem expired_step (hstep : h.Steps l h') (hexpired : h.Expired c) :
    h'.Expired c ∧ h'.ledger.admittedAt c = h.ledger.admittedAt c := by
  refine ⟨hexpired.step hstep, ?_⟩
  have hchange := budget_step hstep
  show h'.budget.admittedAt c = h.budget.admittedAt c
  generalize h'.budget = b at hchange
  cases hchange with
  | admitted e p hp hphase hearly =>
    have hne : c ≠ e := by
      rintro rfl
      rw [Expired, hearly] at hexpired
      cases hexpired
    exact Function.update_of_ne hne _ _
  | _ => rfl

/-- The budget before admission, at one state and in all that follow. -/
structure Budgeted (cfg : Config) (h : Hub) : Prop where
  /-- The counter is the number of the calls that hold a place. -/
  count : {c | h.Holding c}.encard = h.pendingConnections
  bound : h.pendingConnections ≤ maxPendingConnections
  /-- A place is given back at the admission or at the return. -/
  gives : ∀ c ok, h.Holding c →
    (h.client c).phase = .releasing ∨ (h.client c).phase = .finished →
    ∃ h', h.step (.run c ok) = some h' ∧ ¬ h'.Holding c
  /-- It is given back once: the counter falls by one, and the call holds no
  place again. -/
  lowers : ∀ c l h', h.step l = some h' → h.Holding c → ¬ h'.Holding c →
    h'.pendingConnections + 1 = h.pendingConnections
  once : ∀ c h', (lts cfg).Run Lts.Any h h' → (h.client c).phase ≠ .absent → ¬ h.Holding c →
    ¬ h'.Holding c
  /-- Whom the deadline closes is never a member and never admitted. -/
  expired : ∀ c h', (lts cfg).Run Lts.Any h h' → h.Expired c →
    c ∉ h'.roomMembers ∧ h'.ledger.admittedAt c = h.ledger.admittedAt c
  /-- An admitted client is a member its deadline does not close, until its
  own cleanup. -/
  admitted : ∀ c, h.ledger.admittedAt c ≠ 0 → (h.client c).phase.inRoom = true →
    c ∈ h.roomMembers ∧ ¬ h.Expired c

/-- **The pre-admission budget.** -/
theorem budgeted_of_reachable {cfg : Config} (hr : (lts cfg).Reachable Lts.Any h) :
    h.Budgeted cfg where
  count := by
    have hset : {c | h.Holding c} = {c | h.budget.reserved c = true} := by
      ext c
      exact (placed_of_reachable hr c).reserved_iff.symm
    rw [hset]
    exact (counted_of_reachable hr).1
  bound := (counted_of_reachable hr).2
  gives := by
    intro c ok hheld hphase
    have hplaced := placed_of_reachable hr c
    have hreserved := hplaced.reserved_iff.mpr hheld
    have hstep : ∃ h', h.step (.run c ok) = some h' := by
      show ∃ h', h.run c ok = some h'
      rcases hphase with hphase | hphase <;> simp [run, hphase, hreserved]
    obtain ⟨h', hstep⟩ := hstep
    refine ⟨h', hstep, ?_⟩
    have hplaced' := placed_of_reachable (hr.step trivial hstep) c
    rw [← hplaced'.reserved_iff, (place_of_releasing (runs_of_run hstep) hphase).1]
    simp
  lowers := by
    intro c l h' hstep hheld hgone
    exact released_step (counted_of_reachable hr) (placed_of_reachable hr c)
      (placed_of_reachable (hr.step trivial hstep) c) (steps_of_step hstep) hheld hgone
  once := by
    intro c h' hrun harrived hgone
    have hall : (h'.client c).phase ≠ .absent ∧ ¬ h'.Holding c := by
      induction hrun with
      | refl => exact ⟨harrived, hgone⟩
      | snoc hrun _ htr ih =>
        obtain ⟨harrived, hgone⟩ := ih
        have hreach := hr.run hrun
        have hstep := steps_of_step htr
        refine ⟨?_, not_holding_step (placed_of_reachable hreach c)
          (placed_of_reachable (hreach.step trivial htr) c) hstep harrived hgone⟩
        intro habsent
        rcases next_step hstep c with hsame | ⟨-, hnext⟩
        · exact harrived (hsame ▸ habsent)
        · rw [habsent] at hnext
          exact not_next_absent hnext
    exact hall.2
  expired := by
    intro c h' hrun hexpired
    have hall : h'.Expired c ∧ h'.ledger.admittedAt c = h.ledger.admittedAt c := by
      induction hrun with
      | refl => exact ⟨hexpired, rfl⟩
      | snoc _ _ htr ih =>
        obtain ⟨hexpired, hsame⟩ := ih
        have hnext := expired_step (steps_of_step htr) hexpired
        exact ⟨hnext.1, hnext.2.trans hsame⟩
    exact ⟨(placed_of_reachable (hr.run hrun) c).expired hall.1, hall.2⟩
  admitted := by
    intro c hadmitted hroom
    have hplaced := placed_of_reachable hr c
    have hmember := hplaced.member hadmitted hroom
    exact ⟨hmember, fun hexpired => hplaced.expired hexpired hmember⟩

/-- The deadline of one connection fires before it joins; another joins. -/
theorem budgeted_of_reachable_expired : ∃ h, (lts sampleConfig).Reachable Lts.Any h ∧
    h.Budgeted sampleConfig ∧ h.Expired 0 ∧ h.ledger.admittedAt 1 = 1 ∧
    h.pendingConnections = 1 := by
  obtain ⟨h, hr, -, ho⟩ := exists_reachable_within sampleConfig 2
    (.connect 0 :: runs 0 2 ++ [.expireAdmission 0] ++ joins 1)
    (fun h => ((h.client 0).admissionExpired, h.ledger.admittedAt 1, h.pendingConnections))
    (true, 1, 1) (by decide)
  simp only [Prod.mk.injEq] at ho
  exact ⟨h, hr, budgeted_of_reachable hr, ho.1, ho.2.1, ho.2.2⟩

/-- A connection that hangs up in time is neither expired nor admitted; and one
that is just admitted is counted, with no other call to count. -/
theorem not_counted_of_releasing : ∃ h, (lts sampleConfig).Reachable Lts.Any h ∧
    (h.Returned 0 ∧ ¬ h.Expired 0 ∧ h.ledger.admittedAt 0 = 0) ∧
    h.pendingConnections = 1 ∧
    ∀ c, (h.client c).phase = .absent ∨ (h.client c).phase = .finished ∨
      h.ledger.admittedAt c ≠ 0 := by
  obtain ⟨h, hr, hunborn, ho⟩ := exists_reachable_within sampleConfig 2
    (.connect 0 :: runs 0 2 ++ [.receive 0 true none] ++ runs 0 2 ++ requests 1 none ++ runs 1 6)
    (fun h => ((h.client 0).phase, (h.client 0).reserved, (h.client 0).admissionExpired,
      h.ledger.admittedAt 0, h.ledger.admittedAt 1, h.pendingConnections))
    (.finished, false, false, 0, 1, 1) (by decide)
  simp only [Prod.mk.injEq] at ho
  obtain ⟨hphase, hreserved, hexpired, hzero, hone, hpending⟩ := ho
  refine ⟨h, hr, ⟨returned_iff.mpr ⟨hphase, hreserved⟩, by simp [Expired, hexpired], hzero⟩,
    hpending, fun c => ?_⟩
  have hcases (n : Nat) : n = 0 ∨ n = 1 ∨ 2 ≤ n := by omega
  rcases hcases c with rfl | rfl | hc
  · exact Or.inr (Or.inl hphase)
  · exact Or.inr (Or.inr (by simp [hone]))
  · exact Or.inl (hunborn c hc).1

end Hub

end SlowMeet.Signaling
