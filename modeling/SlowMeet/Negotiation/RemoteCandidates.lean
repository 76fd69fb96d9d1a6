import Mathlib.Data.List.Sublists
import SlowMeet.Negotiation.Failures

/-!
# The browser's candidates

Each candidate of the browser has a number, its place among those received. A
ledger beside the server holds the numbers that are queued and those that were
handed to the peer connection: at most once each, and in the order they came
for those that were queued together. Whether a queued one is ever handed over
depends on who drains the queue: an answer whose drain meets a rejected
candidate leaves those behind it queued, with a remote description in place.
-/

namespace SlowMeet.Negotiation

open Lib

namespace Server

variable {s t : Server} {l : Label} {calls : Calls}

/-! ## What a step does to the queue -/

/-- The calls the loop of `applyPendingCandidates` makes. -/
def handedCount (accepts : Nat → Candidate → Bool) : Nat → List Candidate → Nat
  | _, [] => 0
  | i, candidate :: rest =>
    if accepts i candidate then handedCount accepts (i + 1) rest + 1 else 1

/-- The step applies the queued candidates. -/
def drains (s : Server) : Label → Bool
  | .receive (.offer sdp) calls => !s.offerInFlight && (s.setRemoteOffer calls sdp).isSome
  | .receive (.answer sdp) calls => s.offerInFlight && (s.setRemoteAnswer calls sdp).isSome
  | _ => false

/-- What the step queues. -/
def queued (s : Server) : Label → List Candidate
  | .receive (.candidate candidate) _ =>
    if !s.remoteDescription && decide (s.pendingCandidates.length < maxPendingCandidates) then
      [candidate]
    else []
  | _ => []

theorem queued_candidate (candidate : Candidate) :
    s.queued (.receive (.candidate candidate) calls) =
      if !s.remoteDescription && decide (s.pendingCandidates.length < maxPendingCandidates) then
        [candidate]
      else [] :=
  rfl

/-- What the step leaves of the queue. -/
def remaining (s : Server) (l : Label) : List Candidate :=
  if s.drains l then
    s.pendingCandidates.drop (handedCount l.calls.addICECandidate 0 s.pendingCandidates)
  else s.pendingCandidates

theorem applyCandidates_fst (accepts : Nat → Candidate → Bool) (i : Nat)
    (pending : List Candidate) :
    (applyCandidates accepts i pending).1 = pending.drop (handedCount accepts i pending) := by
  induction pending generalizing i with
  | nil => rfl
  | cons candidate rest ih =>
    unfold applyCandidates handedCount
    by_cases haccepts : accepts i candidate = true
    · rw [if_pos haccepts, if_pos haccepts, ih, List.drop_succ_cons]
    · rw [if_neg haccepts, if_neg haccepts, List.drop_succ_cons, List.drop_zero]

/-- Nothing stays behind where only the last candidate may be rejected. -/
theorem handedCount_eq_length (accepts : Nat → Candidate → Bool) (i : Nat)
    (pending : List Candidate)
    (h : ∀ j candidate, j + 1 < pending.length → pending[j]? = some candidate →
      accepts (i + j) candidate = true) :
    handedCount accepts i pending = pending.length := by
  induction pending generalizing i with
  | nil => rfl
  | cons candidate rest ih =>
    unfold handedCount
    cases rest with
    | nil => split <;> rfl
    | cons next rest =>
      have hfirst : accepts i candidate = true := h 0 candidate (by simp) rfl
      rw [if_pos hfirst, ih (i + 1), List.length_cons]
      · rfl
      · intro j later hj hlater
        have haccepts := h (j + 1) later (by simpa using hj) hlater
        rwa [← Nat.succ_add_eq_add_succ] at haccepts

/-- The queue is left alone, and no remote description takes effect. -/
structure Undrained (s t : Server) : Prop where
  pending : t.pendingCandidates = s.pendingCandidates
  remote : t.remoteDescription = true → s.remoteDescription = true

theorem Undrained.same (hpending : t.pendingCandidates = s.pendingCandidates)
    (hremote : t.remoteDescription = s.remoteDescription) : Undrained s t :=
  ⟨hpending, fun h => hremote ▸ h⟩

theorem undrained_thenOffer (h : Undrained s t) (offer : Option Bool) :
    Undrained s (t.thenOffer offer) := by
  cases offer <;> exact ⟨h.pending, h.remote⟩

theorem undrained_flushCandidates (takes : Nat → Bool) (i : Nat) (pending : List Candidate) :
    Undrained s (flushCandidates takes s i pending) := by
  induction pending generalizing s i with
  | nil => exact .same rfl rfl
  | cons candidate rest ih =>
    rw [flushCandidates]
    split
    · have hrest := ih (s := s.write (.candidate candidate)) (i + 1)
      exact ⟨hrest.pending, hrest.remote⟩
    · exact .same rfl rfl

theorem undrained_startOffer (s : Server) (calls : Calls) (iceRestart : Bool) :
    Undrained s (s.startOffer calls iceRestart).1 := by
  unfold startOffer createOffer
  dsimp only
  split
  · exact .same rfl rfl
  · rename_i s' hcreate
    split at hcreate
    · obtain ⟨peer, -, rfl⟩ := Option.map_eq_some_iff.mp hcreate
      split
      · refine ⟨rfl, fun h => ?_⟩
        have hboth : (s.remoteDescription && !iceRestart) = true := h
        exact (Bool.and_eq_true_iff.mp hboth).1
      · exact .same rfl rfl
    · cases hcreate

theorem undrained_sendOffer (s : Server) (calls : Calls) (iceRestart : Bool) :
    Undrained s (s.sendOffer calls iceRestart).1 := by
  unfold sendOffer
  dsimp only
  split
  · exact .same rfl rfl
  · split
    · exact .same rfl rfl
    · have hstart := undrained_startOffer
        { s with requests := s.requests ++ [(iceRestart, s.created.length)] } calls iceRestart
      exact ⟨hstart.pending, hstart.remote⟩

theorem undrained_run (h : s.run calls s.handler = some t) : Undrained s t := by
  cases hhandler : s.handler with
  | idle => simp [hhandler, run] at h
  | answering sdp =>
    simp only [hhandler, run] at h
    split at h <;> cases h <;> exact .same rfl rfl
  | flushing =>
    simp only [hhandler, run, finishOffer, Option.some.injEq] at h
    subst h
    have hflush := undrained_flushCandidates (s := s) calls.takes 0 s.pendingLocalCandidates
    apply undrained_thenOffer
    exact ⟨hflush.pending, hflush.remote⟩
  | offering iceRestart reply =>
    simp only [hhandler, run, Option.some.injEq] at h
    subst h
    have hsend := undrained_sendOffer s calls iceRestart
    split <;> exact ⟨hsend.pending, hsend.remote⟩
  | replying error offer =>
    simp only [hhandler, run, Option.some.injEq] at h
    subst h
    apply undrained_thenOffer
    split <;> exact .same rfl rfl
  | refreshing completed offer =>
    simp only [hhandler, run, Option.some.injEq] at h
    subst h
    apply undrained_thenOffer
    exact .same rfl rfl

theorem applyCandidates_of_accepted (accepts : Nat → Candidate → Bool) (i : Nat)
    (pending : List Candidate) (h : (applyCandidates accepts i pending).2 = true) :
    (applyCandidates accepts i pending).1 = [] := by
  induction pending generalizing i with
  | nil => rfl
  | cons candidate rest ih =>
    unfold applyCandidates at h ⊢
    by_cases haccepts : accepts i candidate = true
    · rw [if_pos haccepts] at h ⊢
      exact ih (i + 1) h
    · rw [if_neg haccepts] at h
      cases h

theorem remaining_of_drains (h : s.drains l = true) :
    s.remaining l =
      s.pendingCandidates.drop (handedCount l.calls.addICECandidate 0 s.pendingCandidates) :=
  if_pos h

theorem remaining_of_not_drains (h : s.drains l ≠ true) : s.remaining l = s.pendingCandidates :=
  if_neg h

theorem createAnswer_pending (h : s.createAnswer calls = some t) :
    t.pendingCandidates = s.pendingCandidates := by
  unfold createAnswer at h
  split at h
  · obtain ⟨peer, -, rfl⟩ := Option.map_eq_some_iff.mp h
    rfl
  · cases h

/-- An offer drains the queue, and its description takes effect only with
nothing left. -/
theorem receiveOffer_pending (s : Server) (calls : Calls) (sdp : Nat) :
    (s.receiveOffer calls sdp).pendingCandidates = s.remaining (.receive (.offer sdp) calls) ∧
      ((s.receiveOffer calls sdp).remoteDescription = true →
        s.remoteDescription = true ∨ (s.receiveOffer calls sdp).pendingCandidates = []) := by
  unfold receiveOffer
  cases hflight : s.offerInFlight with
  | true =>
    rw [remaining_of_not_drains (by simp [drains, hflight])]
    exact ⟨rfl, fun h => .inl h⟩
  | false =>
    cases hoffer : s.setRemoteOffer calls sdp with
    | none =>
      rw [remaining_of_not_drains (by simp [drains, hoffer])]
      exact ⟨rfl, fun h => .inl h⟩
    | some s' =>
      rw [remaining_of_drains (by simp [drains, hflight, hoffer])]
      have hs' : s'.pendingCandidates = s.pendingCandidates ∧
          s'.remoteDescription = s.remoteDescription := by
        unfold setRemoteOffer at hoffer
        split at hoffer
        · obtain ⟨peer, -, rfl⟩ := Option.map_eq_some_iff.mp hoffer
          exact ⟨rfl, rfl⟩
        · cases hoffer
      have hdrop := applyCandidates_fst calls.addICECandidate 0 s'.pendingCandidates
      have hnone := applyCandidates_of_accepted calls.addICECandidate 0 s'.pendingCandidates
      unfold applyPendingCandidates
      simp only [Bool.false_eq_true, if_false]
      cases happly : applyCandidates calls.addICECandidate 0 s'.pendingCandidates with
      | mk rest ok =>
        rw [happly, hs'.1] at hdrop
        rw [happly] at hnone
        cases ok with
        | false => exact ⟨hdrop, fun h => .inl (hs'.2 ▸ h)⟩
        | true =>
          have hrest : rest = [] := hnone rfl
          dsimp only
          split
          · exact ⟨hdrop, fun _ => .inr hrest⟩
          · rename_i answered hanswer
            have hsame := createAnswer_pending hanswer
            exact ⟨hsame.trans hdrop, fun _ => .inr (hsame.trans hrest)⟩

/-- An answer that is accepted drains the queue, whatever stays behind. -/
theorem receiveAnswer_pending (s : Server) (calls : Calls) (sdp : Nat) :
    (s.receiveAnswer calls sdp).pendingCandidates =
        s.remaining (.receive (.answer sdp) calls) ∧
      ((s.receiveAnswer calls sdp).remoteDescription = true →
        s.remoteDescription = true ∨ s.drains (.receive (.answer sdp) calls) = true) := by
  unfold receiveAnswer
  cases hflight : s.offerInFlight with
  | false =>
    rw [remaining_of_not_drains (by simp [drains, hflight])]
    exact ⟨rfl, fun h => .inl h⟩
  | true =>
    unfold applyRemoteAnswer
    cases hanswer : s.setRemoteAnswer calls sdp with
    | none =>
      rw [remaining_of_not_drains (by simp [drains, hanswer])]
      exact ⟨rfl, fun h => .inl h⟩
    | some s' =>
      have hdrains : s.drains (.receive (.answer sdp) calls) = true := by
        simp [drains, hflight, hanswer]
      rw [remaining_of_drains hdrains]
      have hs' : s'.pendingCandidates = s.pendingCandidates := by
        unfold setRemoteAnswer at hanswer
        split at hanswer
        · obtain ⟨peer, -, rfl⟩ := Option.map_eq_some_iff.mp hanswer
          rfl
        · cases hanswer
      have hdrop := applyCandidates_fst calls.addICECandidate 0 s'.pendingCandidates
      refine ⟨?_, fun _ => .inr hdrains⟩
      rw [← hs']
      exact hdrop

theorem handleWebRTCMessage_candidate (s : Server) (calls : Calls) (candidate : Candidate) :
    (s.handleWebRTCMessage calls (.candidate candidate)).pendingCandidates =
        s.pendingCandidates ++ s.queued (.receive (.candidate candidate) calls) ∧
      (s.handleWebRTCMessage calls (.candidate candidate)).remoteDescription =
        s.remoteDescription := by
  unfold handleWebRTCMessage addOrQueueCandidate queued
  cases hremote : s.remoteDescription with
  | true => cases haccepts : calls.addICECandidate 0 candidate <;> simp [haccepts, reply, hremote]
  | false =>
    by_cases hfull : maxPendingCandidates ≤ s.pendingCandidates.length
    · simp [hfull, Nat.not_lt.mpr hfull, reply, hremote]
    · simp [hfull, Nat.not_le.mp hfull]

/-- **One step**: the queue it leaves, and when a remote description takes
effect. -/
theorem pending_step (h : s.step l = some t) :
    t.pendingCandidates = s.remaining l ++ s.queued l ∧
      (t.remoteDescription = true → s.remoteDescription = true ∨ t.pendingCandidates = [] ∨
        ∃ sdp calls, l = .receive (.answer sdp) calls ∧ s.drains l = true) := by
  cases l with
  | receive msg calls =>
    simp only [step, Option.ite_none_right_eq_some, Option.some.injEq] at h
    obtain ⟨-, rfl⟩ := h
    cases msg with
    | offer sdp =>
      obtain ⟨hpending, hremote⟩ := receiveOffer_pending s calls sdp
      refine ⟨hpending.trans (List.append_nil _).symm, fun h => ?_⟩
      cases hremote h with
      | inl hold => exact .inl hold
      | inr hnone => exact .inr (.inl hnone)
    | answer sdp =>
      obtain ⟨hpending, hremote⟩ := receiveAnswer_pending s calls sdp
      refine ⟨hpending.trans (List.append_nil _).symm, fun h => ?_⟩
      cases hremote h with
      | inl hold => exact .inl hold
      | inr hdrains => exact .inr (.inr ⟨sdp, calls, rfl, hdrains⟩)
    | candidate candidate =>
      obtain ⟨hpending, hremote⟩ := handleWebRTCMessage_candidate s calls candidate
      exact ⟨hpending, fun h => .inl (hremote ▸ h)⟩
    | iceRestart => exact ⟨(List.append_nil _).symm, fun h => .inl h⟩
  | run calls =>
    have hrun := undrained_run h
    exact ⟨hrun.pending.trans (List.append_nil _).symm, fun h => .inl (hrun.remote h)⟩
  | sendOffer iceRestart calls =>
    simp only [step, Option.some.injEq] at h
    subst h
    have hsend := undrained_sendOffer s calls iceRestart
    exact ⟨hsend.pending.trans (List.append_nil _).symm, fun h => .inl (hsend.remote h)⟩
  | localCandidate candidate calls =>
    simp only [step, sendOrQueueLocalCandidate, Option.some.injEq] at h
    subst h
    repeat' split
    all_goals exact ⟨(List.append_nil _).symm, fun h => .inl h⟩

/-- No accepted answer finds a rejected candidate with others behind it. -/
def StrandsNothing (s : Server) : Label → Prop
  | .receive (.answer _) calls =>
    s.offerInFlight = true → calls.setRemoteAnswer = true →
      ∀ i candidate, i + 1 < s.pendingCandidates.length →
        s.pendingCandidates[i]? = some candidate → calls.addICECandidate i candidate = true
  | _ => True

/-- Once a remote description is in place, none is queued. -/
def Settled (s : Server) : Prop := s.remoteDescription = true → s.pendingCandidates = []

theorem settled_step (hs : s.Settled) (hok : s.StrandsNothing l) (h : s.step l = some t) :
    t.Settled := by
  obtain ⟨hpending, hremote⟩ := pending_step h
  intro ht
  rcases hremote ht with hold | hnone | ⟨sdp, calls, rfl, hdrains⟩
  · have hempty : s.pendingCandidates = [] := hs hold
    have hqueued : s.queued l = [] := by
      cases l with
      | receive msg calls => cases msg <;> simp [queued, hold]
      | run calls => rfl
      | sendOffer iceRestart calls => rfl
      | localCandidate candidate calls => rfl
    rw [hpending, hqueued, List.append_nil, remaining, hempty]
    simp
  · exact hnone
  · rw [hpending, remaining_of_drains hdrains]
    have hboth : s.offerInFlight = true ∧ (s.setRemoteAnswer calls sdp).isSome = true := by
      simpa [drains] using hdrains
    have hanswer : calls.setRemoteAnswer = true := by
      by_contra hrefused
      simp [setRemoteAnswer, hrefused] at hboth
    have hall := handedCount_eq_length calls.addICECandidate 0 s.pendingCandidates
      fun i candidate hi hcandidate => by
        rw [Nat.zero_add]
        exact hok hboth.1 hanswer i candidate hi hcandidate
    show s.pendingCandidates.drop (handedCount calls.addICECandidate 0 s.pendingCandidates) ++ [] = []
    rw [hall, List.drop_length, List.append_nil]

end Server

/-! ## The ledger -/

/-- The server, with the browser's candidates by their numbers. -/
structure Ledger where
  server : Server
  /-- All of the browser's candidates so far. -/
  received : List Candidate
  queue : List Nat
  /-- Handed to the peer connection, in this order. -/
  handed : List Nat

namespace Ledger

open Server (Label)

def new : Ledger := ⟨.new, [], [], []⟩

/-- A candidate is queued, handed over or refused as one too many. -/
def candidate (r : Ledger) (candidate : Candidate) : Ledger :=
  let number := r.received.length
  let r := { r with received := r.received ++ [candidate] }
  if r.server.remoteDescription then { r with handed := r.handed ++ [number] }
  else if r.server.pendingCandidates.length < Server.maxPendingCandidates then
    { r with queue := r.queue ++ [number] }
  else r

/-- The queued ones are handed over up to the first that is rejected. -/
def drain (r : Ledger) (l : Label) : Ledger :=
  let count := Server.handedCount l.calls.addICECandidate 0 r.server.pendingCandidates
  { r with handed := r.handed ++ r.queue.take count, queue := r.queue.drop count }

def note (r : Ledger) (l : Label) : Ledger :=
  match l with
  | .receive (.candidate candidate) _ => r.candidate candidate
  | l => if r.server.drains l then r.drain l else r

def step (r : Ledger) (l : Label) : Option Ledger :=
  (r.server.step l).map fun server => { r.note l with server }

/-- What the ledger says of any run. -/
structure Sound (r : Ledger) : Prop where
  /-- The queue holds the candidates of its numbers. -/
  pending : r.server.pendingCandidates.map some = r.queue.map (r.received[·]?)
  /-- Handed over at most once. -/
  nodup : (r.handed ++ r.queue).Nodup
  received : ∀ number ∈ r.handed ++ r.queue, number < r.received.length
  queue : r.queue.Pairwise (· < ·)
  bounded : r.queue.length ≤ Server.maxPendingCandidates

variable {r r' : Ledger} {l : Label}

theorem Sound.length (h : r.Sound) : r.server.pendingCandidates.length = r.queue.length := by
  have hlength := congrArg List.length h.pending
  simpa using hlength

theorem sound_new : new.Sound where
  pending := rfl
  nodup := List.nodup_nil
  received := by simp [new]
  queue := .nil
  bounded := Nat.zero_le _

/-- A step that leaves the queue alone. -/
theorem Sound.same (h : r.Sound) {t : Server}
    (ht : t.pendingCandidates = r.server.pendingCandidates) : Sound { r with server := t } :=
  { h with pending := by rw [ht, h.pending] }

theorem Sound.drain (h : r.Sound) {t : Server}
    (ht : t.pendingCandidates = r.server.pendingCandidates.drop
      (Server.handedCount l.calls.addICECandidate 0 r.server.pendingCandidates)) :
    Sound { r.drain l with server := t } := by
  -- What is handed over leaves the front of the queue: together they stay the same numbers.
  have htogether (count : Nat) :
      r.handed ++ r.queue.take count ++ r.queue.drop count = r.handed ++ r.queue := by
    rw [List.append_assoc, List.take_append_drop]
  constructor
  · show t.pendingCandidates.map some = (r.queue.drop _).map (r.received[·]?)
    rw [ht, List.map_drop, h.pending, ← List.map_drop]
  · show (r.handed ++ r.queue.take _ ++ r.queue.drop _).Nodup
    rw [htogether]
    exact h.nodup
  · show ∀ number ∈ r.handed ++ r.queue.take _ ++ r.queue.drop _, number < r.received.length
    rw [htogether]
    exact h.received
  · exact h.queue.sublist (List.drop_sublist _ _)
  · exact Nat.le_trans (List.drop_sublist _ _).length_le h.bounded

/-- The numbers that were given out before still name their candidates. -/
theorem Sound.pending_received (h : r.Sound) (candidate : Candidate) :
    r.queue.map ((r.received ++ [candidate])[·]?) = r.server.pendingCandidates.map some := by
  rw [h.pending]
  apply List.map_congr_left
  intro number hnumber
  exact List.getElem?_append_left (h.received number (List.mem_append_right _ hnumber))

theorem Sound.unused (h : r.Sound) : r.received.length ∉ r.handed ++ r.queue :=
  fun hmem => Nat.lt_irrefl _ (h.received _ hmem)

theorem Sound.received_concat (h : r.Sound) (candidate : Candidate) {number : Nat}
    (hnumber : number ∈ r.handed ++ r.queue) :
    number < (r.received ++ [candidate]).length := by
  have hbefore := h.received number hnumber
  rw [List.length_append, List.length_singleton]
  omega

theorem Sound.candidate (h : r.Sound) {candidate : Candidate} {calls : Calls} {t : Server}
    (ht : t.pendingCandidates =
      r.server.pendingCandidates ++ r.server.queued (.receive (.candidate candidate) calls)) :
    Sound { r.candidate candidate with server := t } := by
  have hunused := h.unused
  have hold := h.pending_received candidate
  rw [Server.queued_candidate] at ht
  unfold Ledger.candidate
  dsimp only
  by_cases hremote : r.server.remoteDescription = true
  · rw [if_pos hremote]
    rw [if_neg (by simp [hremote]), List.append_nil] at ht
    constructor
    · show t.pendingCandidates.map some = r.queue.map _
      rw [ht, hold]
    · show (r.handed ++ [r.received.length] ++ r.queue).Nodup
      rw [List.append_assoc, List.singleton_append, List.nodup_middle, List.nodup_cons]
      exact ⟨hunused, h.nodup⟩
    · intro number hnumber
      have hmem : number ∈ r.handed ++ [r.received.length] ++ r.queue := hnumber
      rw [List.append_assoc, List.singleton_append, List.mem_append, List.mem_cons] at hmem
      rcases hmem with hmem | rfl | hmem
      · exact h.received_concat candidate (List.mem_append_left _ hmem)
      · show r.received.length < (r.received ++ [candidate]).length
        rw [List.length_append, List.length_singleton]
        omega
      · exact h.received_concat candidate (List.mem_append_right _ hmem)
    · exact h.queue
    · exact h.bounded
  · rw [if_neg hremote]
    by_cases hroom : r.server.pendingCandidates.length < Server.maxPendingCandidates
    · rw [if_pos hroom]
      rw [if_pos (by simp [hremote, hroom])] at ht
      constructor
      · show t.pendingCandidates.map some = (r.queue ++ [r.received.length]).map _
        rw [ht, List.map_append, List.map_append, hold]
        simp
      · show (r.handed ++ (r.queue ++ [r.received.length])).Nodup
        rw [← List.append_assoc, List.nodup_append_comm, List.singleton_append, List.nodup_cons]
        exact ⟨hunused, h.nodup⟩
      · intro number hnumber
        have hmem : number ∈ r.handed ++ (r.queue ++ [r.received.length]) := hnumber
        rw [← List.append_assoc, List.mem_append, List.mem_singleton] at hmem
        rcases hmem with hmem | rfl
        · exact h.received_concat candidate hmem
        · show r.received.length < (r.received ++ [candidate]).length
          rw [List.length_append, List.length_singleton]
          omega
      · show (r.queue ++ [r.received.length]).Pairwise (· < ·)
        rw [List.pairwise_append]
        refine ⟨h.queue, List.pairwise_singleton _ _, ?_⟩
        intro number hnumber last hlast
        rw [List.mem_singleton.mp hlast]
        exact h.received number (List.mem_append_right _ hnumber)
      · show (r.queue ++ [r.received.length]).length ≤ _
        rw [List.length_append, List.length_singleton, ← h.length]
        omega
    · rw [if_neg hroom]
      rw [if_neg (by simp [hroom]), List.append_nil] at ht
      constructor
      · show t.pendingCandidates.map some = r.queue.map _
        rw [ht, hold]
      · exact h.nodup
      · exact fun number hnumber => h.received_concat candidate hnumber
      · exact h.queue
      · exact h.bounded

/-- A step that queues nothing. -/
theorem Sound.unqueued (h : r.Sound) {t : Server} (hqueued : r.server.queued l = [])
    (hpending : t.pendingCandidates = r.server.remaining l ++ r.server.queued l) :
    Sound { (if r.server.drains l then r.drain l else r) with server := t } := by
  rw [hqueued, List.append_nil] at hpending
  by_cases hdrains : r.server.drains l = true
  · rw [Server.remaining_of_drains hdrains] at hpending
    rw [if_pos hdrains]
    exact h.drain hpending
  · rw [Server.remaining_of_not_drains hdrains] at hpending
    rw [if_neg hdrains]
    exact h.same hpending

/-- **One step** keeps the ledger sound. -/
theorem Sound.step (h : r.Sound) (hstep : r.step l = some r') : r'.Sound := by
  obtain ⟨t, ht, rfl⟩ := Option.map_eq_some_iff.mp hstep
  obtain ⟨hpending, -⟩ := Server.pending_step ht
  cases l with
  | receive msg calls =>
    cases msg with
    | candidate candidate => exact h.candidate hpending
    | offer sdp => exact h.unqueued rfl hpending
    | answer sdp => exact h.unqueued rfl hpending
    | iceRestart => exact h.unqueued rfl hpending
  | run calls => exact h.unqueued rfl hpending
  | sendOffer iceRestart calls => exact h.unqueued rfl hpending
  | localCandidate candidate calls => exact h.unqueued rfl hpending

/-- What was handed over or queued keeps its place. -/
theorem sublist_step (hstep : r.step l = some r') :
    (r.handed ++ r.queue).Sublist (r'.handed ++ r'.queue) := by
  obtain ⟨t, -, rfl⟩ := Option.map_eq_some_iff.mp hstep
  show (r.handed ++ r.queue).Sublist ((r.note l).handed ++ (r.note l).queue)
  unfold note
  split
  · unfold candidate
    dsimp only
    split
    · exact (List.sublist_append_left _ _).append (List.Sublist.refl _)
    · split
      · exact (List.Sublist.refl _).append (List.sublist_append_left _ _)
      · exact List.Sublist.refl _
  · split
    · unfold drain
      dsimp only
      rw [List.append_assoc, List.take_append_drop]
    · exact List.Sublist.refl _

end Ledger

/-- The server's half of one negotiation, with the ledger. -/
def ledgerLts : Lts Ledger Server.Label := .ofStep .new Ledger.step

namespace Ledger

variable {r r' : Ledger} {ok : Ledger → Server.Label → Prop}

theorem sound_of_reachable (h : ledgerLts.Reachable ok r) : r.Sound :=
  Lts.Reachable.invariant_ofStep sound_new (fun _ _ _ hi _ hstep => hi.step hstep) h

theorem sublist_run (h : ledgerLts.Run ok r r') :
    (r.handed ++ r.queue).Sublist (r'.handed ++ r'.queue) := by
  induction h with
  | refl => exact List.Sublist.refl _
  | snoc _ _ hstep ih => exact ih.trans (sublist_step hstep)

/-- A pair in order stays in the part that holds its second member. -/
theorem pair_sublist_left {a b : Nat} {handed queue : List Nat} (hnodup : (handed ++ queue).Nodup)
    (h : [a, b].Sublist (handed ++ queue)) (hb : b ∈ handed) : [a, b].Sublist handed := by
  obtain ⟨front, back, heq, hfront, hback⟩ := List.sublist_append_iff.mp h
  -- Only all of the pair in front is left: its second member is in no queue.
  have hb' : b ∉ queue := fun hqueue => (List.disjoint_of_nodup_append hnodup) hb hqueue
  have hnone : b ∉ back := fun hmem => hb' (hback.subset hmem)
  cases front with
  | nil =>
    have hback' : [a, b] = back := heq
    exact absurd (hback' ▸ by simp) hnone
  | cons c front =>
    cases front with
    | nil =>
      obtain ⟨-, hback'⟩ := List.cons_eq_cons.mp heq
      have hb'' : [b] = back := hback'
      exact absurd (hb'' ▸ List.mem_singleton_self b) hnone
    | cons d front =>
      have hlength := congrArg List.length heq
      simp only [List.length_cons, List.length_nil, List.length_append] at hlength
      have hnil : back = [] := List.length_eq_zero_iff.mp (by omega)
      rw [hnil, List.append_nil] at heq
      exact heq ▸ hfront

theorem pair_sublist_of_pairwise {a b : Nat} {queue : List Nat}
    (h : queue.Pairwise (· < ·)) (ha : a ∈ queue) (hb : b ∈ queue) (hlt : a < b) :
    [a, b].Sublist queue := by
  induction queue with
  | nil => cases ha
  | cons c queue ih =>
    rw [List.pairwise_cons] at h
    rw [List.mem_cons] at ha hb
    rcases ha with rfl | ha
    · have hrest : b ∈ queue := hb.resolve_left (by omega)
      exact (List.singleton_sublist.mpr hrest).cons_cons a
    · rcases hb with rfl | hb
      · have hbefore := h.1 a ha
        omega
      · exact (ih h.2 ha hb).cons c

/-- Two numbers that are queued together are handed over in the order they
came, if the later one ever is. -/
def InOrder (r r' : Ledger) : Prop :=
  ∀ a ∈ r.queue, ∀ b ∈ r.queue, a < b → b ∈ r'.handed → [a, b].Sublist r'.handed

theorem inOrder_of_run (hr : r.Sound) (hr' : r'.Sound) (h : ledgerLts.Run ok r r') :
    InOrder r r' := by
  intro a ha b hb hlt hhanded
  have hpair : [a, b].Sublist r.queue := pair_sublist_of_pairwise hr.queue ha hb hlt
  have hkept : [a, b].Sublist (r'.handed ++ r'.queue) :=
    (hpair.trans (List.sublist_append_right _ _)).trans (sublist_run h)
  exact pair_sublist_left hr'.nodup hkept hhanded

/-- The condition, where the ledger is kept as well. -/
def StrandsNothing (r : Ledger) (l : Server.Label) : Prop := r.server.StrandsNothing l

/-- **Each candidate once, in order, and none left behind.** In every run a
candidate is handed to the peer connection at most once, those queued together
in the order they came, and the queue is bounded. In every run in which no
accepted answer finds a rejected candidate with others behind it, none is
queued while a remote description is in place. -/
theorem handsOver_of_reachable (h : ledgerLts.Reachable Lts.Any r) :
    r.Sound ∧ (∀ r', ledgerLts.Run Lts.Any r r' → InOrder r r') ∧
      (ledgerLts.Reachable StrandsNothing r → r.server.handler = .idle →
        r.server.remoteDescription = true → r.server.pendingCandidates = []) := by
  have hsound := sound_of_reachable h
  refine ⟨hsound, fun r' hrun => ?_, fun hstrands _ => ?_⟩
  · exact inOrder_of_run hsound (sound_of_reachable (h.run hrun)) hrun
  · refine Lts.Reachable.invariant_ofStep (I := fun r => r.server.Settled) (fun _ => rfl) ?_
      hstrands
    intro a l b ha hok hstep
    obtain ⟨t, ht, rfl⟩ := Option.map_eq_some_iff.mp hstep
    exact Server.settled_step ha hok ht

/-- A candidate the peer connection takes. -/
def hostCandidate : Candidate := ⟨"candidate:host", some "0", some 0⟩

/-- An offer's peer connection rejects the first of two candidates; the other
one waits for the next offer. -/
theorem handsOver_of_reachable_requeued :
    ∃ r, ledgerLts.Reachable StrandsNothing r ∧
      (r.server.handler = .idle → r.server.remoteDescription = true →
        r.server.pendingCandidates = []) ∧
      r.server.handler = .idle ∧ r.server.remoteDescription = true ∧ r.handed = [0, 1] := by
  obtain ⟨r, hr, ho⟩ := Lts.exists_reachable_of_exec StrandsNothing step new
    [.receive (.candidate Server.rejectedCandidate) {}, .receive (.candidate hostCandidate) {},
      .receive (.offer 0) { addICECandidate := fun i _ => i != 0, error := "invalid candidate" },
      .run {}, .receive (.offer 1) {}, .run {}, .run {}]
    (fun r => (r.server.handler, r.server.remoteDescription, r.handed)) (.idle, true, [0, 1])
    (by simp [StrandsNothing, Server.StrandsNothing]) (by decide)
  simp only [Prod.mk.injEq] at ho
  exact ⟨r, hr, (handsOver_of_reachable hr.any).2.2 hr, ho.1, ho.2.1, ho.2.2⟩

/-- The answer to an ICE restart finds a candidate that is rejected before one
that is not: the remote description is in place, and the other one stays queued,
since what comes later is handed over at once. -/
theorem not_settled_of_rejectedCandidate :
    ¬ ∀ r, ledgerLts.Reachable Lts.Any r → r.server.handler = .idle →
      r.server.remoteDescription = true → r.server.pendingCandidates = [] := by
  intro hall
  obtain ⟨r, hr, ho⟩ := Lts.exists_reachable_of_exec Lts.Any step new
    [.receive (.offer 0) {}, .run {}, .run {}, .sendOffer true {},
      .receive (.candidate Server.rejectedCandidate) {}, .receive (.candidate hostCandidate) {},
      .receive (.answer 0) { addICECandidate := fun i _ => i != 0, error := "invalid candidate" },
      .run {}, .receive (.candidate hostCandidate) {}]
    (fun r => (r.server.handler, r.server.remoteDescription, r.queue, r.handed))
    (.idle, true, [1], [0, 2]) (by simp [Lts.Any]) (by decide)
  simp only [Prod.mk.injEq] at ho
  obtain ⟨hidle, hremote, hqueue, -⟩ := ho
  have hlength := (sound_of_reachable hr).length
  rw [hall r hr hidle hremote, hqueue] at hlength
  cases hlength

end Ledger

end SlowMeet.Negotiation
