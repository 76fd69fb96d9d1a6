import SlowMeet.Negotiation.Server

/-!
# Negotiation when calls fail

What a refused call leaves behind. `receiveOffer` returns between applying
the offer and answering it, `receiveAnswer` clears the flags of an offer whose
answer was refused, and a full queue makes `sendOfferWithPeer` forget an offer
the peer connection has already set: in each case the peer connection keeps a
description the flags know nothing of, and no rollback follows.
-/

namespace SlowMeet.Negotiation

open Lib

namespace Server

/-- The flags say what the peer connection's signalling state is. -/
def InStep (s : Server) : Prop :=
  (s.peer.offered = true ↔ s.offerInFlight = true) ∧ (s.offerInFlight = false → s.peer = .stable)

instance (s : Server) : Decidable s.InStep := inferInstanceAs (Decidable (_ ∧ _))

/-- A call of `sendOffer` that creates an offer gets it into the queue. -/
def OfferSettles (s : Server) (calls : Calls) : Prop :=
  s.negotiationReady = true → s.offerInFlight = false → calls.createOffer = true →
    calls.takes 0 = true

/-- No call of the step fails between a description and its record: an offer
that is applied is answered, with every queued candidate accepted; an awaited
answer is accepted; an offer that is created is queued. -/
def Settles (s : Server) : Label → Prop
  | .receive (.offer _) calls =>
    s.offerInFlight = false → calls.setRemoteOffer = true →
      (∀ i candidate, s.pendingCandidates[i]? = some candidate →
          calls.addICECandidate i candidate = true) ∧
        calls.createAnswer = true
  | .receive (.answer _) calls => s.offerInFlight = true → calls.setRemoteAnswer = true
  | .receive _ _ => True
  | .run calls => ∀ iceRestart reply, s.handler = .offering iceRestart reply → s.OfferSettles calls
  | .sendOffer _ calls => s.OfferSettles calls
  | .localCandidate _ _ => True

variable {s t : Server} {l : Label} {calls : Calls}

/-! ## What the calls leave alone -/

theorem InStep.congr (hpeer : t.peer = s.peer) (hflight : t.offerInFlight = s.offerInFlight) :
    t.InStep ↔ s.InStep := by
  unfold InStep
  rw [hpeer, hflight]

/-- A step that leaves the peer connection and its flag alone. -/
theorem InStep.same (hs : s.InStep) (hpeer : t.peer = s.peer)
    (hflight : t.offerInFlight = s.offerInFlight) : t.InStep :=
  (InStep.congr hpeer hflight).mpr hs

theorem peer_of_free (hs : s.InStep) (hfree : s.offerInFlight = false) : s.peer = .stable :=
  hs.2 hfree

theorem peer_of_inFlight (hs : s.InStep) (hflight : s.offerInFlight = true) :
    ∃ sdp, s.peer = .haveLocalOffer sdp := by
  have hoffered := hs.1.mpr hflight
  cases hpeer : s.peer with
  | haveLocalOffer sdp => exact ⟨sdp, rfl⟩
  | stable | haveRemoteOffer _ => simp [hpeer, Signaling.offered] at hoffered

@[simp] theorem thenOffer_peer (s : Server) (offer : Option Bool) :
    (s.thenOffer offer).peer = s.peer := by
  cases offer <;> rfl

@[simp] theorem thenOffer_offerInFlight (s : Server) (offer : Option Bool) :
    (s.thenOffer offer).offerInFlight = s.offerInFlight := by
  cases offer <;> rfl

theorem flushCandidates_peer (takes : Nat → Bool) (s : Server) (i : Nat)
    (pending : List Candidate) :
    (flushCandidates takes s i pending).peer = s.peer ∧
      (flushCandidates takes s i pending).offerInFlight = s.offerInFlight := by
  induction pending generalizing s i with
  | nil => exact ⟨rfl, rfl⟩
  | cons candidate rest ih =>
    rw [flushCandidates]
    split
    · exact ih _ _
    · exact ⟨rfl, rfl⟩

theorem addOrQueueCandidate_fst (s : Server) (calls : Calls) (candidate : Candidate) :
    ∃ pending, (s.addOrQueueCandidate calls candidate).1 =
      { s with pendingCandidates := pending } := by
  unfold addOrQueueCandidate
  split
  · split
    · exact ⟨s.pendingCandidates, rfl⟩
    · exact ⟨_, rfl⟩
  · exact ⟨s.pendingCandidates, rfl⟩

theorem applyCandidates_snd_from (accepts : Nat → Candidate → Bool) (i : Nat)
    (pending : List Candidate) :
    (applyCandidates accepts i pending).2 = true ↔
      ∀ j candidate, pending[j]? = some candidate → accepts (i + j) candidate = true := by
  induction pending generalizing i with
  | nil => simp [applyCandidates]
  | cons first rest ih =>
    cases hfirst : accepts i first with
    | false =>
      have hrejects : ¬ ∀ j candidate, (first :: rest)[j]? = some candidate →
          accepts (i + j) candidate = true := fun h => by
        have haccepts := h 0 first rfl
        rw [Nat.add_zero, hfirst] at haccepts
        cases haccepts
      simpa [applyCandidates, hfirst] using hrejects
    | true =>
      rw [applyCandidates, if_pos hfirst, ih]
      constructor
      · intro h j candidate hj
        cases j with
        | zero =>
          obtain rfl : first = candidate := Option.some_inj.mp hj
          exact hfirst
        | succ j =>
          have haccepts := h j candidate hj
          rwa [Nat.succ_add_eq_add_succ] at haccepts
      · intro h j candidate hj
        have haccepts := h (j + 1) candidate hj
        rwa [← Nat.succ_add_eq_add_succ] at haccepts

theorem applyCandidates_snd (accepts : Nat → Candidate → Bool) (pending : List Candidate) :
    (applyCandidates accepts 0 pending).2 = true ↔
      ∀ i candidate, pending[i]? = some candidate → accepts i candidate = true := by
  simpa using applyCandidates_snd_from accepts 0 pending

/-! ## One section at a time -/

/-- An offer that is created gets into the queue, or is forgotten. -/
theorem inStep_startOffer (hs : s.InStep) (hfree : s.offerInFlight = false) (calls : Calls)
    (iceRestart : Bool) :
    (s.startOffer calls iceRestart).1.InStep ↔
      (calls.createOffer = true → calls.takes 0 = true) := by
  have hpeer := peer_of_free hs hfree
  cases hcreate : calls.createOffer with
  | false => simp [startOffer, createOffer, hcreate, hpeer, InStep, Signaling.offered]
  | true =>
    cases htakes : calls.takes 0 <;>
      simp [startOffer, createOffer, hcreate, hpeer, htakes, InStep, Signaling.offered, write]

theorem inStep_sendOffer (hs : s.InStep) (calls : Calls) (iceRestart : Bool) :
    (s.sendOffer calls iceRestart).1.InStep ↔ s.OfferSettles calls := by
  cases hready : s.negotiationReady with
  | false =>
    have hsame : (s.sendOffer calls iceRestart).1.InStep := by
      refine hs.same ?_ ?_ <;> simp [sendOffer, queueOffer, hready]
    simp [OfferSettles, hready, hsame]
  | true =>
    cases hflight : s.offerInFlight with
    | true =>
      have hsame : (s.sendOffer calls iceRestart).1.InStep := by
        refine hs.same ?_ ?_ <;> simp [sendOffer, queueOffer, hready, hflight]
      simp [OfferSettles, hflight, hsame]
    | false =>
      have hstart := inStep_startOffer
        (hs.same (t := { s with requests := s.requests ++ [(iceRestart, s.created.length)] })
          rfl rfl) hflight calls iceRestart
      simpa [sendOffer, hready, hflight, OfferSettles] using hstart

theorem inStep_receiveOffer (hs : s.InStep) (sdp : Nat) :
    (s.receiveOffer calls sdp).InStep ↔ s.Settles (.receive (.offer sdp) calls) := by
  cases hflight : s.offerInFlight with
  | true =>
    have hsame : (s.receiveOffer calls sdp).InStep := by
      refine hs.same ?_ ?_ <;> simp [receiveOffer, hflight]
    simp [Settles, hflight, hsame]
  | false =>
    have hpeer := peer_of_free hs hflight
    have hcandidates := applyCandidates_snd calls.addICECandidate s.pendingCandidates
    cases hoffer : calls.setRemoteOffer with
    | false =>
      simp [receiveOffer, hflight, setRemoteOffer, hoffer, Settles, reply, InStep, hpeer,
        Signaling.offered]
    | true =>
      cases hrest : applyCandidates calls.addICECandidate 0 s.pendingCandidates with
      | mk rest ok =>
        rw [hrest] at hcandidates
        cases ok with
        | false =>
          -- the peer connection is left in have-remote-offer
          simp [receiveOffer, hflight, setRemoteOffer, hoffer, applyPendingCandidates, hrest, hpeer,
            Settles, reply, InStep, Signaling.offered, ← hcandidates]
        | true =>
          cases hanswer : calls.createAnswer <;>
            simp [receiveOffer, hflight, setRemoteOffer, hoffer, applyPendingCandidates, hrest,
              hpeer, Settles, reply, InStep, Signaling.offered, ← hcandidates, createAnswer,
              hanswer]

theorem inStep_receiveAnswer (hs : s.InStep) (sdp : Nat) :
    (s.receiveAnswer calls sdp).InStep ↔ s.Settles (.receive (.answer sdp) calls) := by
  cases hflight : s.offerInFlight with
  | false =>
    have hsame : (s.receiveAnswer calls sdp).InStep := by
      refine hs.same ?_ ?_ <;> simp [receiveAnswer, hflight, reply]
    simp [Settles, hflight, hsame]
  | true =>
    obtain ⟨own, hpeer⟩ := peer_of_inFlight hs hflight
    cases hanswer : calls.setRemoteAnswer with
    | false =>
      -- the peer connection is left in have-local-offer
      simp [receiveAnswer, hflight, applyRemoteAnswer, setRemoteAnswer, hanswer, hpeer, Settles,
        InStep, Signaling.offered]
    | true =>
      simp [receiveAnswer, hflight, applyRemoteAnswer, setRemoteAnswer, hanswer, hpeer, Settles,
        InStep, Signaling.offered, applyPendingCandidates]

theorem inStep_handleWebRTCMessage (hs : s.InStep) (msg : Inbound) :
    (s.handleWebRTCMessage calls msg).InStep ↔ s.Settles (.receive msg calls) := by
  cases msg with
  | offer sdp => exact inStep_receiveOffer hs sdp
  | answer sdp => exact inStep_receiveAnswer hs sdp
  | candidate candidate =>
    obtain ⟨pending, hadd⟩ := addOrQueueCandidate_fst s calls candidate
    have hsame : (s.handleWebRTCMessage calls (.candidate candidate)).InStep := by
      rw [handleWebRTCMessage]
      cases hresult : s.addOrQueueCandidate calls candidate with
      | mk s' error =>
        rw [hresult] at hadd
        obtain rfl : s' = { s with pendingCandidates := pending } := hadd
        cases error <;> exact hs.same rfl rfl
    simp [Settles, hsame]
  | iceRestart =>
    have hsame : (s.handleWebRTCMessage calls .iceRestart).InStep := hs.same rfl rfl
    simp [Settles, hsame]

theorem inStep_run (hs : s.InStep) (h : s.run calls s.handler = some t) :
    t.InStep ↔ s.Settles (.run calls) := by
  cases hhandler : s.handler with
  | idle => simp [hhandler, run] at h
  | offering iceRestart reply =>
    have hsend := inStep_sendOffer hs calls iceRestart
    simp only [hhandler, run, Option.some.injEq] at h
    subst h
    have hsame : (if (reply && !(s.sendOffer calls iceRestart).2) = true
        then (s.sendOffer calls iceRestart).1.reply calls.error
        else { (s.sendOffer calls iceRestart).1 with handler := .idle }).InStep ↔
        (s.sendOffer calls iceRestart).1.InStep := by
      split <;> exact InStep.congr rfl rfl
    rw [hsame, hsend]
    simp [Settles, hhandler]
  | answering sdp =>
    have hsame : t.InStep := by
      simp only [hhandler, run] at h
      split at h <;> exact hs.same (by cases h; rfl) (by cases h; rfl)
    simp [Settles, hhandler, hsame]
  | flushing =>
    obtain ⟨hpeer, hflight⟩ := flushCandidates_peer calls.takes s 0 s.pendingLocalCandidates
    have hsame : t.InStep := by
      simp only [hhandler, run, finishOffer, Option.some.injEq] at h
      subst h
      refine hs.same ?_ ?_
      · rw [thenOffer_peer]
        exact hpeer
      · rw [thenOffer_offerInFlight]
        exact hflight
    simp [Settles, hhandler, hsame]
  | replying error offer =>
    have hsame : t.InStep := by
      simp only [hhandler, run, Option.some.injEq] at h
      subst h
      refine hs.same ?_ ?_
      · rw [thenOffer_peer]
        split <;> rfl
      · rw [thenOffer_offerInFlight]
        split <;> rfl
    simp [Settles, hhandler, hsame]
  | refreshing completed offer =>
    have hsame : t.InStep := by
      simp only [hhandler, run, Option.some.injEq] at h
      subst h
      exact hs.same (thenOffer_peer _ _) (thenOffer_offerInFlight _ _)
    simp [Settles, hhandler, hsame]

/-- **One step** keeps the flags and the peer connection in step exactly when
no call of it fails at the wrong place. -/
theorem inStep_step (hs : s.InStep) (h : s.step l = some t) : t.InStep ↔ s.Settles l := by
  cases l with
  | receive msg calls =>
    simp only [step, Option.ite_none_right_eq_some, Option.some.injEq] at h
    obtain ⟨-, rfl⟩ := h
    exact inStep_handleWebRTCMessage hs msg
  | run calls => exact inStep_run hs h
  | sendOffer iceRestart calls =>
    simp only [step, Option.some.injEq] at h
    exact h ▸ inStep_sendOffer hs calls iceRestart
  | localCandidate candidate calls =>
    have hsame : t.InStep := by
      simp only [step, sendOrQueueLocalCandidate, Option.some.injEq] at h
      subst h
      repeat' split
      all_goals exact hs.same rfl rfl
    simp [Settles, hsame]

/-- **Error paths stay in step** in every run whose steps all settle: the peer
connection is in have-local-offer exactly when an offer is in flight, and
stable otherwise. From such a state every other step breaks it. -/
theorem inStep_of_settles (hr : serverLts.Reachable Settles s) :
    s.InStep ∧ ∀ l t, s.step l = some t → (t.InStep ↔ s.Settles l) := by
  have hs : s.InStep := by
    refine hr.invariant_ofStep (by decide) fun a l b ha hok h => ?_
    exact (inStep_step ha h).mpr hok
  exact ⟨hs, fun l t h => inStep_step hs h⟩

/-- A queued candidate that the next offer's peer connection rejects. -/
def rejectedCandidate : Candidate := ⟨"candidate:malformed", none, none⟩

/-- The run that breaks it: the browser's candidate waits for its offer, which
is applied; then the candidate is rejected, and the handler returns. -/
theorem not_inStep_of_rejectedCandidate :
    ¬ ∀ s, serverLts.Reachable Lts.Any s → s.handler = .idle → s.InStep := by
  intro hall
  obtain ⟨s, hr, ho⟩ := Lts.exists_reachable_of_exec Lts.Any Server.step new
    [.receive (.candidate rejectedCandidate) {},
      .receive (.offer 0) { addICECandidate := fun _ _ => false, error := "invalid candidate" },
      .run {}]
    (fun s => (s.handler, s.peer, s.offerInFlight)) (.idle, .haveRemoteOffer 0, false)
    (by simp [Lts.Any]) (by decide)
  simp only [Prod.mk.injEq] at ho
  obtain ⟨hidle, hpeer, hflight⟩ := ho
  have hstable := (hall s hr hidle).2 hflight
  rw [hpeer] at hstable
  cases hstable

/-- A colliding offer is dropped in step. -/
theorem inStep_of_settles_collision : ∃ s, serverLts.Reachable Settles s ∧ s.dropped = [1] ∧
    s.offerInFlight = true ∧ s.InStep := by
  obtain ⟨s, hr, ho⟩ := Lts.exists_reachable_of_exec Settles Server.step new
    [.receive (.offer 0) {}, .run {}, .run {}, .sendOffer false {}, .receive (.offer 1) {}]
    (fun s => (s.dropped, s.offerInFlight)) ([1], true)
    (by simp [Settles, OfferSettles]) (by decide)
  simp only [Prod.mk.injEq] at ho
  exact ⟨s, hr, ho.1, ho.2, (inStep_of_settles hr).1⟩

end Server

end SlowMeet.Negotiation
