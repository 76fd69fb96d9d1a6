import SlowMeet.Lib.Lts
import SlowMeet.Negotiation.Browser

/-!
# The renegotiation queue

`web/js/renegotiation-queue.js` with its watchdog, its closing and the
promises of every `pump`, under any answers of `isCurrent`, `isStable` and
`sendOffer`. A step is one call from outside, the timer's callback, or one
continuation of a `pump`; between two steps no code of the queue runs.

A promise that `request` returned is a number. `unoffered` holds the requests
made since `sendOffer` was last invoked.
-/

namespace SlowMeet.Negotiation

open Lib

/-- What `isCurrent` and `isStable` answer to one `pump`. -/
structure Peer where
  current : Bool
  stable : Bool
  deriving DecidableEq, Repr

namespace RequestQueue

/-- How far the promises of one `pump` are. -/
inductive Stage
  /-- `sendOffer` is not invoked yet. -/
  | scheduled
  /-- Its promise is not settled yet. -/
  | running
  /-- The `then` is queued; `sent` is `false` for that result alone. -/
  | resolved (sent : Bool)
  /-- The `catch` is queued. -/
  | rejected (error : String)
  /-- The `finally` is queued. -/
  | finishing
  deriving DecidableEq, Repr

/-- The promises of one `pump`, with the batch its closures hold. -/
structure Offer where
  batch : Batch
  stage : Stage
  deriving DecidableEq, Repr

/-- What became of a request. -/
inductive Outcome
  /-- `offered` when `sendOffer` was invoked after the request. -/
  | resolved (offered : Bool)
  | rejected (error : String)
  deriving DecidableEq, Repr

end RequestQueue

open RequestQueue

structure RequestQueue where
  pending : List Nat
  inFlight : Option Batch
  pumping : Bool
  closed : Bool
  /-- The message of the timer that is armed. -/
  watchdogTimer : Option String
  offers : List Offer
  /-- The arrays that `pump` took as batches. -/
  batches : Nat
  /-- The promises that `request` returned while the queue was open. -/
  requests : Nat
  settled : List (Nat × Outcome)
  unoffered : List Nat
  deriving DecidableEq, Repr

namespace RequestQueue

def new : RequestQueue := ⟨[], none, false, false, none, [], 0, 0, [], []⟩

variable (q : RequestQueue)

/-- The requests in flight. -/
def flying : List Nat := (q.inFlight.map (·.requests)).getD []

def clearWatchdog : RequestQueue := { q with watchdogTimer := none }

def armWatchdog (message : String) : RequestQueue :=
  if q.watchdogTimer.isSome then q else { q with watchdogTimer := some message }

/-- `settle(batch, "reject", error)`. -/
def reject (batch : List Nat) (error : String) : RequestQueue :=
  { q with settled := q.settled ++ batch.map fun request => (request, .rejected error) }

/-- `settle(batch, "resolve")`. -/
def resolve (batch : List Nat) : RequestQueue :=
  { q with
    settled := q.settled ++ batch.map fun request =>
      (request, .resolved (!q.unoffered.contains request)) }

def close (error : String) : RequestQueue :=
  if q.closed then q
  else
    let q := { q with closed := true }.clearWatchdog
    { (q.reject q.flying error).reject q.pending error with inFlight := none, pending := [] }

/-- The end of `pump`, where a batch takes off. -/
def start : RequestQueue :=
  { { q.clearWatchdog with
      pending := [], inFlight := some ⟨q.batches, q.pending⟩, batches := q.batches + 1
    }.armWatchdog "renegotiation attempt timed out" with
    pumping := true
    offers := q.offers ++ [⟨⟨q.batches, q.pending⟩, .scheduled⟩] }

def stale : String := "stale WebRTC connection"

def pump (peer : Peer) : RequestQueue :=
  if q.closed || q.pumping || q.inFlight.isSome || q.pending = [] then q
  else if !peer.current then q.close stale
  else if !peer.stable then
    q.armWatchdog "renegotiation timed out waiting for signaling stability"
  else q.start

/-! ## The calls from outside -/

/-- `current` is what `isCurrent` answers before `pump` asks it again. -/
def request (current : Bool) (peer : Peer) : RequestQueue :=
  if q.closed then q
  else if !current then
    { (q.close stale).reject [q.requests] stale with requests := q.requests + 1 }
  else
    { q with
      pending := q.pending ++ [q.requests], requests := q.requests + 1
      unoffered := q.unoffered ++ [q.requests] }.pump peer

def answer (current : Bool) (peer : Peer) : RequestQueue :=
  if q.closed then q
  else if !current then q.close stale
  else { q.clearWatchdog.resolve q.flying with inFlight := none }.pump peer

def rollback : RequestQueue :=
  match q.inFlight with
  | none => q
  | some batch =>
    if q.closed then q
    else
      { q.clearWatchdog with pending := batch.requests ++ q.pending, inFlight := none }.armWatchdog
        "renegotiation timed out while resolving glare"

def fail (error : String) (peer : Peer) : RequestQueue :=
  match q.inFlight with
  | none => q
  | some batch =>
    if q.closed then q
    else { q.clearWatchdog.reject batch.requests error with inFlight := none }.pump peer

def resume (peer : Peer) : RequestQueue := q.pump peer

/-- The callback of the timer. -/
def watchdog (message : String) : RequestQueue :=
  let q := { q with watchdogTimer := none }
  if q.closed || (q.inFlight.isNone && q.pending = []) then q else q.close message

/-! ## The continuations -/

def setStage (id : Nat) (stage : Stage) : RequestQueue :=
  { q with
    offers := q.offers.map fun offer =>
      if offer.batch.id = id then { offer with stage := stage } else offer }

/-- The microtask that invokes `sendOffer`. -/
def invoke (id : Nat) : RequestQueue := { q.setStage id .running with unoffered := [] }

/-- The `then`. -/
def sent (batch : Batch) (sent : Bool) : RequestQueue :=
  let q := q.setStage batch.id .finishing
  if q.inFlight.map (·.id) ≠ some batch.id || sent then q
  else { q.clearWatchdog with inFlight := none, pending := batch.requests ++ q.pending }

/-- The `catch`. -/
def caught (batch : Batch) (error : String) : RequestQueue :=
  let q := q.setStage batch.id .finishing
  if q.inFlight.map (·.id) ≠ some batch.id then q
  else { q.clearWatchdog with inFlight := none }.reject batch.requests error

/-- The `finally`. -/
def finished (id : Nat) (peer : Peer) : RequestQueue :=
  let q :=
    { q with pumping := false, offers := q.offers.filter fun offer => offer.batch.id ≠ id }
  if q.pending ≠ [] && q.inFlight.isNone && !q.closed then q.pump peer else q

inductive Label
  | request (current : Bool) (peer : Peer)
  | answer (current : Bool) (peer : Peer)
  | rollback
  | fail (error : String) (peer : Peer)
  | resume (peer : Peer)
  | close (error : String)
  | watchdog
  /-- The promises of the `pump` of a batch take their next step: `result` is
  read by the end of `sendOffer`, `peer` by the `finally`. -/
  | proceed (id : Nat) (result : Except String Bool) (peer : Peer)
  deriving DecidableEq, Repr

/-- The next step of the promises of one `pump`. -/
def advance (offer : Offer) (result : Except String Bool) (peer : Peer) : RequestQueue :=
  match offer.stage with
  | .scheduled => q.invoke offer.batch.id
  | .running =>
    match result with
    | .ok sent => q.setStage offer.batch.id (.resolved sent)
    | .error error => q.setStage offer.batch.id (.rejected error)
  | .resolved sent => q.sent offer.batch sent
  | .rejected error => q.caught offer.batch error
  | .finishing => q.finished offer.batch.id peer

def step : Label → Option RequestQueue
  | .request current peer => some (q.request current peer)
  | .answer current peer => some (q.answer current peer)
  | .rollback => some q.rollback
  | .fail error peer => some (q.fail error peer)
  | .resume peer => some (q.resume peer)
  | .close error => some (q.close error)
  | .watchdog => q.watchdogTimer.map q.watchdog
  | .proceed id result peer =>
    (q.offers.find? fun offer => offer.batch.id = id).map fun offer => q.advance offer result peer

def lts : Lts RequestQueue Label := Lts.ofStep new step

/-! ## What every run keeps -/

variable {q} {q' : RequestQueue} {peer : Peer}

theorem armWatchdog_eq (message : String) :
    q.armWatchdog message = { q with watchdogTimer := some (q.watchdogTimer.getD message) } := by
  obtain ⟨pending, inFlight, pumping, closed, timer, offers, batches, requests, settled, unoffered⟩ := q
  cases timer with
  | none => rfl
  | some armed => rfl

theorem close_of_open (hopen : q.closed = false) (error : String) :
    q.close error =
      { q with
        pending := [], inFlight := none, closed := true, watchdogTimer := none
        settled := q.settled ++ (q.flying.map fun request => (request, .rejected error)) ++
          q.pending.map fun request => (request, .rejected error) } := by
  rw [close, if_neg (by rw [hopen]; exact Bool.false_ne_true)]
  rfl

theorem close_of_closed (hclosed : q.closed = true) (error : String) : q.close error = q := by
  rw [close, if_pos hclosed]

theorem start_eq :
    q.start =
      { q with
        pending := [], inFlight := some ⟨q.batches, q.pending⟩, pumping := true
        watchdogTimer := some "renegotiation attempt timed out", batches := q.batches + 1
        offers := q.offers ++ [⟨⟨q.batches, q.pending⟩, .scheduled⟩] } := rfl

/-- **What `pump` does**: nothing while the queue is closed, busy or empty,
otherwise it closes a stale queue, waits for stability or starts a batch. -/
theorem pump_cases (q : RequestQueue) (peer : Peer) :
    ((q.closed = true ∨ q.pumping = true ∨ q.inFlight ≠ none ∨ q.pending = []) ∧
        q.pump peer = q) ∨
      (q.closed = false ∧ q.pumping = false ∧ q.inFlight = none ∧ q.pending ≠ []) ∧
        (q.pump peer = q.close stale ∨
          q.pump peer =
            q.armWatchdog "renegotiation timed out waiting for signaling stability" ∨
          q.pump peer = q.start) := by
  unfold pump
  split_ifs with hidle hcurrent hstable
  · simp only [Bool.or_eq_true, Option.isSome_iff_ne_none, decide_eq_true_eq] at hidle
    exact Or.inl ⟨by tauto, rfl⟩
  all_goals
    simp only [Bool.or_eq_true, Option.isSome_iff_ne_none, decide_eq_true_eq, not_or,
      Bool.not_eq_true, not_not, ne_eq] at hidle
    refine Or.inr ⟨by tauto, ?_⟩
  · exact Or.inl rfl
  · exact Or.inr (Or.inl rfl)
  · exact Or.inr (Or.inr rfl)

/-- The batches whose promises are not through, by the closures that hold
them. -/
def held (q : RequestQueue) : List Batch := q.offers.map (·.batch)

/-- What holds between any two steps. -/
structure Sound (q : RequestQueue) : Prop where
  /-- A request waits, is in flight or is settled, and is so once. -/
  once : ∀ r, q.pending.count r + q.flying.count r + (q.settled.map Prod.fst).count r =
    if r < q.requests then 1 else 0
  quiet : q.closed = true → q.pending = [] ∧ q.inFlight = none
  single : q.held.length = if q.pumping then 1 else 0
  fresh : ∀ b ∈ q.held, b.id < q.batches
  same : ∀ b, q.inFlight = some b → b.id < q.batches ∧ ∀ b' ∈ q.held, b'.id = b.id → b' = b
  armed : q.inFlight ≠ none → q.watchdogTimer ≠ none

theorem sound_new : new.Sound where
  once r := by simp [new, flying]
  quiet _ := ⟨rfl, rfl⟩
  single := rfl
  fresh _ hb := absurd hb List.not_mem_nil
  same _ hb := absurd hb (by simp [new])
  armed h := absurd rfl h

/-- **What the timer's callback does**: it closes an open queue that someone
waits on. -/
theorem watchdog_cases (q : RequestQueue) (message : String) :
    ((q.closed = true ∨ q.inFlight = none ∧ q.pending = []) ∧
        q.watchdog message = { q with watchdogTimer := none }) ∨
      q.closed = false ∧ q.watchdog message = q.close message := by
  unfold watchdog
  dsimp only
  split_ifs with hidle
  · simp only [Bool.or_eq_true, Bool.and_eq_true, Option.isNone_iff_eq_none,
      decide_eq_true_eq] at hidle
    exact Or.inl ⟨hidle, rfl⟩
  · have hopen : q.closed = false := by
      simp only [Bool.or_eq_true, not_or, Bool.not_eq_true] at hidle
      exact hidle.1
    have hclose := @close_of_open { q with watchdogTimer := none } hopen message
    rw [close_of_open hopen]
    exact Or.inr ⟨hopen, hclose⟩

/-- The promises returned, and the next. -/
theorem count_next (requests r : Nat) :
    (if r < requests then 1 else 0) + [requests].count r = if r < requests + 1 then 1 else 0 := by
  rw [List.count_singleton]
  simp only [beq_iff_eq]
  split_ifs <;> omega

theorem held_setStage (id : Nat) (stage : Stage) : (q.setStage id stage).held = q.held := by
  unfold held setStage
  rw [List.map_map]
  apply List.map_congr_left
  intro offer _
  dsimp only [Function.comp_apply]
  split_ifs
  · rfl
  · rfl

namespace Sound

variable (h : q.Sound)

include h

/-- A step that leaves nothing in flight and touches no promise. -/
theorem land (hnone : q'.inFlight = none) (hpumping : q'.pumping = q.pumping)
    (hheld : q'.held = q.held) (hbatches : q'.batches = q.batches)
    (hrequests : q'.requests = q.requests)
    (honce : ∀ r, q'.pending.count r + (q'.settled.map Prod.fst).count r =
      q.pending.count r + q.flying.count r + (q.settled.map Prod.fst).count r)
    (hquiet : q'.closed = true → q'.pending = []) : q'.Sound where
  once r := by
    have hnothing : q'.flying = [] := by
      rw [flying, hnone]
      rfl
    rw [hnothing, hrequests, ← h.once r, List.count_nil, Nat.add_zero]
    exact honce r
  quiet hclosed := ⟨hquiet hclosed, hnone⟩
  single := by
    rw [hheld, hpumping]
    exact h.single
  fresh := by
    rw [hheld, hbatches]
    exact h.fresh
  same b hb := by
    rw [hnone] at hb
    cases hb
  armed hflight := absurd hnone hflight

theorem close (error : String) : (q.close error).Sound := by
  cases hclosed : q.closed with
  | true =>
    rw [close_of_closed hclosed]
    exact h
  | false =>
    rw [close_of_open hclosed]
    refine h.land rfl rfl rfl rfl rfl ?_ ?_
    · intro r
      simp [List.count_append, Function.comp_def]
      omega
    · intro _
      rfl

theorem arm (message : String) : (q.armWatchdog message).Sound := by
  rw [armWatchdog_eq]
  exact ⟨h.once, h.quiet, h.single, h.fresh, h.same, fun _ => Option.some_ne_none _⟩

/-- A batch takes off when the pump is at rest. -/
theorem start (hopen : q.closed = false) (hrest : q.pumping = false)
    (hnone : q.inFlight = none) : q.start.Sound := by
  have hsingle := h.single
  rw [hrest] at hsingle
  have hheld : q.held = [] := List.length_eq_zero_iff.mp hsingle
  have hstarted : q.start.held = [⟨q.batches, q.pending⟩] := by
    have hoffers : q.offers = [] := List.map_eq_nil_iff.mp hheld
    rw [start_eq, held, hoffers]
    rfl
  rw [start_eq] at hstarted ⊢
  refine ⟨?_, ?_, ?_, ?_, ?_, fun _ => Option.some_ne_none _⟩
  · intro r
    rw [← h.once r]
    simp [flying, hnone]
  · intro hclosed
    rw [hopen] at hclosed
    cases hclosed
  · rw [hstarted]
    rfl
  · intro b hb
    rw [hstarted, List.mem_singleton] at hb
    subst hb
    exact Nat.lt_succ_self _
  · intro b hb
    obtain rfl := Option.some.inj hb
    refine ⟨Nat.lt_succ_self _, ?_⟩
    intro b' hb' _
    rw [hstarted] at hb'
    exact List.mem_singleton.mp hb'

theorem pump (peer : Peer) : (q.pump peer).Sound := by
  obtain ⟨-, heq⟩ | ⟨⟨hopen, hrest, hnone, -⟩, heq | heq | heq⟩ := pump_cases q peer
  · rw [heq]
    exact h
  · rw [heq]
    exact h.close stale
  · rw [heq]
    exact h.arm _
  · rw [heq]
    exact h.start hopen hrest hnone

theorem request (current : Bool) (peer : Peer) : (q.request current peer).Sound := by
  unfold RequestQueue.request
  split_ifs with hclosed hcurrent
  · exact h
  · -- the promise is rejected at once
    have hq := h.close stale
    refine ⟨?_, hq.quiet, hq.single, hq.fresh, hq.same, hq.armed⟩
    intro r
    have hr := hq.once r
    have hrequests : (q.close stale).requests = q.requests := by
      rw [close_of_open (Bool.eq_false_iff.mpr hclosed)]
    rw [hrequests] at hr
    show (q.close stale).pending.count r + (q.close stale).flying.count r +
      (((q.close stale).settled ++ _).map Prod.fst).count r = if r < q.requests + 1 then 1 else 0
    rw [List.map_append, List.count_append, ← count_next q.requests r]
    simp only [List.map_cons, List.map_nil]
    omega
  · apply Sound.pump
    refine ⟨?_, ?_, h.single, h.fresh, h.same, h.armed⟩
    · intro r
      have hr := h.once r
      show (q.pending ++ [q.requests]).count r + q.flying.count r +
        (q.settled.map Prod.fst).count r = if r < q.requests + 1 then 1 else 0
      rw [List.count_append, ← count_next q.requests r]
      omega
    · intro hcontra
      exact absurd hcontra hclosed

/-- Nothing is in flight once the queue is closed. -/
theorem flying_of_closed (hclosed : q.closed = true) : q.flying = [] := by
  rw [flying, (h.quiet hclosed).2]
  rfl

theorem answer (current : Bool) (peer : Peer) : (q.answer current peer).Sound := by
  unfold RequestQueue.answer
  split_ifs with hclosed hcurrent
  · exact h
  · exact h.close stale
  · apply Sound.pump
    refine h.land rfl rfl rfl rfl rfl ?_ ?_
    · intro r
      simp [resolve, clearWatchdog, List.count_append, Function.comp_def]
      omega
    · intro hcontra
      exact absurd hcontra hclosed

theorem rollback : q.rollback.Sound := by
  unfold RequestQueue.rollback
  cases hflight : q.inFlight with
  | none => exact h
  | some batch =>
    dsimp only
    split_ifs with hclosed
    · exact h
    · apply Sound.arm
      refine h.land rfl rfl rfl rfl rfl ?_ ?_
      · intro r
        simp [clearWatchdog, flying, hflight, List.count_append]
        omega
      · intro hcontra
        exact absurd hcontra hclosed

theorem fail (error : String) (peer : Peer) : (q.fail error peer).Sound := by
  unfold RequestQueue.fail
  cases hflight : q.inFlight with
  | none => exact h
  | some batch =>
    dsimp only
    split_ifs with hclosed
    · exact h
    · apply Sound.pump
      refine h.land rfl rfl rfl rfl rfl ?_ ?_
      · intro r
        simp [clearWatchdog, reject, flying, hflight, List.count_append, Function.comp_def]
        omega
      · intro hcontra
        exact absurd hcontra hclosed

theorem watchdog (message : String) : (q.watchdog message).Sound := by
  obtain ⟨hidle, heq⟩ | ⟨-, heq⟩ := watchdog_cases q message
  · have hnone : q.inFlight = none := by
      obtain hclosed | hidle := hidle
      · exact (h.quiet hclosed).2
      · exact hidle.1
    rw [heq]
    exact ⟨h.once, h.quiet, h.single, h.fresh, h.same, fun hflight => absurd hnone hflight⟩
  · rw [heq]
    exact h.close message

theorem setStage (id : Nat) (stage : Stage) : (q.setStage id stage).Sound := by
  have hheld := held_setStage (q := q) id stage
  refine ⟨h.once, h.quiet, ?_, ?_, ?_, h.armed⟩
  · rw [hheld]
    exact h.single
  · rw [hheld]
    exact h.fresh
  · rw [hheld]
    exact h.same

/-- The batch of a closure is in flight when the identifiers agree. -/
theorem inFlight_of_id {batch : Batch} (hbatch : batch ∈ q.held)
    (hid : q.inFlight.map (·.id) = some batch.id) :
    q.inFlight = some batch ∧ q.closed = false := by
  obtain ⟨b, hb, hid⟩ := Option.map_eq_some_iff.mp hid
  have hsame := (h.same b hb).2 batch hbatch hid.symm
  constructor
  · rw [hb, hsame]
  · by_contra hclosed
    rw [(h.quiet ((Bool.not_eq_false _).mp hclosed)).2] at hb
    cases hb

theorem sent {batch : Batch} (hbatch : batch ∈ q.held) (result : Bool) :
    (q.sent batch result).Sound := by
  unfold RequestQueue.sent
  dsimp only
  split_ifs with hkept
  · exact h.setStage _ _
  · have hid : q.inFlight.map (·.id) = some batch.id := by
      simp only [Bool.or_eq_true, decide_eq_true_eq, not_or, not_not] at hkept
      exact hkept.1
    obtain ⟨hflight, hopen⟩ := h.inFlight_of_id hbatch hid
    refine h.land rfl rfl (held_setStage _ _) rfl rfl ?_ ?_
    · intro r
      simp [RequestQueue.setStage, clearWatchdog, flying, hflight, List.count_append]
      omega
    · intro hclosed
      exact absurd (hopen.symm.trans hclosed) Bool.false_ne_true

theorem caught {batch : Batch} (hbatch : batch ∈ q.held) (error : String) :
    (q.caught batch error).Sound := by
  unfold RequestQueue.caught
  dsimp only
  split_ifs with hkept
  · exact h.setStage _ _
  · obtain ⟨hflight, hopen⟩ := h.inFlight_of_id hbatch (not_not.mp hkept)
    refine h.land rfl rfl (held_setStage _ _) rfl rfl ?_ ?_
    · intro r
      simp [RequestQueue.setStage, clearWatchdog, reject, flying, hflight, List.count_append,
        Function.comp_def]
      omega
    · intro hclosed
      exact absurd (hopen.symm.trans hclosed) Bool.false_ne_true

theorem finished {batch : Batch} (hbatch : batch ∈ q.held) (peer : Peer) :
    (q.finished batch.id peer).Sound := by
  have hsingle := h.single
  have hheld : q.held = [batch] := by
    split_ifs at hsingle
    · obtain ⟨b, hb⟩ := List.length_eq_one_iff.mp hsingle
      rw [hb, List.mem_singleton] at hbatch
      rw [hb, hbatch]
    · rw [List.length_eq_zero_iff.mp hsingle] at hbatch
      cases hbatch
  have hnone : (q.offers.filter fun offer => offer.batch.id ≠ batch.id) = [] := by
    apply List.filter_eq_nil_iff.mpr
    intro offer hoffer
    have hmem : offer.batch ∈ q.held := List.mem_map_of_mem hoffer
    rw [hheld, List.mem_singleton] at hmem
    rw [hmem]
    simp
  have hrest : Sound { q with pumping := false, offers := [] } :=
    ⟨h.once, h.quiet, rfl, fun b hb => absurd hb List.not_mem_nil,
      fun b hb => ⟨(h.same b hb).1, fun b' hb' => absurd hb' List.not_mem_nil⟩, h.armed⟩
  unfold RequestQueue.finished
  dsimp only
  rw [hnone]
  split_ifs
  · exact hrest.pump peer
  · exact hrest

/-- **Every step keeps it.** -/
theorem step {l : Label} (hstep : q.step l = some q') : q'.Sound := by
  cases l with
  | request current peer =>
    obtain rfl := Option.some.inj hstep
    exact h.request current peer
  | answer current peer =>
    obtain rfl := Option.some.inj hstep
    exact h.answer current peer
  | rollback =>
    obtain rfl := Option.some.inj hstep
    exact h.rollback
  | fail error peer =>
    obtain rfl := Option.some.inj hstep
    exact h.fail error peer
  | resume peer =>
    obtain rfl := Option.some.inj hstep
    exact h.pump peer
  | close error =>
    obtain rfl := Option.some.inj hstep
    exact h.close error
  | watchdog =>
    obtain ⟨message, -, rfl⟩ := Option.map_eq_some_iff.mp hstep
    exact h.watchdog message
  | proceed id result peer =>
    obtain ⟨offer, hoffer, rfl⟩ := Option.map_eq_some_iff.mp hstep
    have hbatch : offer.batch ∈ q.held := List.mem_map_of_mem (List.mem_of_find?_eq_some hoffer)
    unfold advance
    cases offer.stage with
    | scheduled =>
      have hstage := h.setStage offer.batch.id .running
      exact ⟨hstage.once, hstage.quiet, hstage.single, hstage.fresh, hstage.same, hstage.armed⟩
    | running =>
      cases result with
      | ok sent => exact h.setStage _ _
      | error error => exact h.setStage _ _
    | resolved sent => exact h.sent hbatch sent
    | rejected error => exact h.caught hbatch error
    | finishing => exact h.finished hbatch peer

end Sound

theorem sound_of_reachable {ok : RequestQueue → Label → Prop} (h : lts.Reachable ok q) :
    q.Sound :=
  h.invariant_ofStep sound_new fun _ _ _ hs _ hstep => hs.step hstep

/-! ## What an answer resolves -/

/-- No request was resolved without an invocation of `sendOffer` after it. -/
def Offered (q : RequestQueue) : Prop := ∀ request, (request, .resolved false) ∉ q.settled

/-- No answer is handled while a request that was made after the last
invocation of `sendOffer` is in flight. -/
def AnswersOffered (q : RequestQueue) (l : Label) : Prop :=
  ∀ peer, l = .answer true peer → ∀ request ∈ q.flying, request ∉ q.unoffered

theorem offered_congr (h : q'.settled = q.settled) : q'.Offered ↔ q.Offered := by
  unfold Offered
  rw [h]

theorem offered_reject (batch : List Nat) (error : String) :
    (q.reject batch error).Offered ↔ q.Offered := by
  unfold Offered reject
  simp

theorem offered_close (error : String) : (q.close error).Offered ↔ q.Offered := by
  cases hclosed : q.closed with
  | true => rw [close_of_closed hclosed]
  | false =>
    rw [close_of_open hclosed]
    unfold Offered
    simp

theorem offered_pump (peer : Peer) : (q.pump peer).Offered ↔ q.Offered := by
  obtain ⟨-, heq⟩ | ⟨-, heq | heq | heq⟩ := pump_cases q peer
  · rw [heq]
  · rw [heq, offered_close]
  · rw [heq, armWatchdog_eq]
    exact offered_congr rfl
  · rw [heq]
    exact offered_congr rfl

theorem offered_resolve {batch : List Nat} :
    (q.resolve batch).Offered ↔ q.Offered ∧ ∀ request ∈ batch, request ∉ q.unoffered := by
  unfold Offered resolve
  simp only [List.mem_append, not_or, List.mem_map, Prod.mk.injEq, Outcome.resolved.injEq,
    Bool.not_eq_false', List.contains_eq_mem, decide_eq_true_eq, not_exists, not_and]
  constructor
  · intro h
    refine ⟨fun request => (h request).1, ?_⟩
    intro request hrequest hlate
    exact (h request).2 request hrequest rfl hlate
  · intro h request
    refine ⟨h.1 request, ?_⟩
    intro r hr _ hlate
    exact h.2 r hr hlate

theorem offered_answer (hs : q.Sound) (current : Bool) (peer : Peer) :
    (q.answer current peer).Offered ↔ q.Offered ∧
      (current = true → ∀ request ∈ q.flying, request ∉ q.unoffered) := by
  unfold answer
  split_ifs with hclosed hcurrent
  · rw [hs.flying_of_closed hclosed]
    simp
  · rw [offered_close]
    rw [Bool.not_eq_true'] at hcurrent
    simp [hcurrent]
  · rw [Bool.not_eq_true', Bool.not_eq_false] at hcurrent
    rw [offered_pump, hcurrent]
    have hresolve : ({ q.clearWatchdog.resolve q.flying with inFlight := none } :
        RequestQueue).Offered ↔
          q.clearWatchdog.Offered ∧ ∀ request ∈ q.flying, request ∉ q.clearWatchdog.unoffered :=
      offered_resolve
    rw [hresolve]
    simp [clearWatchdog, Offered]

/-- The continuations of a `pump` resolve nothing. -/
theorem offered_advance (offer : Offer) (result : Except String Bool) (peer : Peer) :
    (q.advance offer result peer).Offered ↔ q.Offered := by
  unfold advance
  cases offer.stage with
  | scheduled => exact offered_congr rfl
  | running =>
    cases result with
    | ok sent => exact offered_congr rfl
    | error error => exact offered_congr rfl
  | resolved result =>
    dsimp only [sent]
    split_ifs
    · exact offered_congr rfl
    · exact offered_congr rfl
  | rejected error =>
    dsimp only [caught]
    split_ifs
    · exact offered_congr rfl
    · rw [offered_reject]
      exact offered_congr rfl
  | finishing =>
    dsimp only [finished]
    split_ifs
    · rw [offered_pump]
      exact offered_congr rfl
    · exact offered_congr rfl

/-- No other call resolves anything. -/
theorem offered_other {l : Label} (hstep : q.step l = some q')
    (hother : ∀ current peer, l ≠ .answer current peer) : q'.Offered ↔ q.Offered := by
  cases l with
  | answer current peer => exact absurd rfl (hother current peer)
  | request current peer =>
    obtain rfl := Option.some.inj hstep
    unfold request
    split_ifs
    · exact Iff.rfl
    · have hreject := offered_reject (q := q.close stale) [q.requests] stale
      rw [offered_close] at hreject
      exact hreject
    · rw [offered_pump]
      exact offered_congr rfl
  | rollback =>
    obtain rfl := Option.some.inj hstep
    unfold rollback
    cases q.inFlight with
    | none => exact Iff.rfl
    | some batch =>
      dsimp only
      split_ifs
      · exact Iff.rfl
      · rw [armWatchdog_eq]
        exact offered_congr rfl
  | fail error peer =>
    obtain rfl := Option.some.inj hstep
    unfold fail
    cases q.inFlight with
    | none => exact Iff.rfl
    | some batch =>
      dsimp only
      split_ifs
      · exact Iff.rfl
      · rw [offered_pump]
        exact offered_reject (q := q.clearWatchdog) batch.requests error
  | resume peer =>
    obtain rfl := Option.some.inj hstep
    exact offered_pump peer
  | close error =>
    obtain rfl := Option.some.inj hstep
    exact offered_close error
  | watchdog =>
    obtain ⟨message, -, rfl⟩ := Option.map_eq_some_iff.mp hstep
    obtain ⟨-, heq⟩ | ⟨-, heq⟩ := watchdog_cases q message
    · rw [heq]
      exact offered_congr rfl
    · rw [heq, offered_close]
  | proceed id result peer =>
    obtain ⟨offer, -, rfl⟩ := Option.map_eq_some_iff.mp hstep
    exact offered_advance offer result peer

/-- **What one step resolves**: only an answer resolves, and all of it was
offered exactly when the answer met the condition. -/
theorem offered_step (hs : q.Sound) {l : Label} (hstep : q.step l = some q') :
    q'.Offered ↔ q.Offered ∧ AnswersOffered q l := by
  by_cases hanswer : ∃ current peer, l = .answer current peer
  · obtain ⟨current, peer, rfl⟩ := hanswer
    obtain rfl := Option.some.inj hstep
    rw [offered_answer hs]
    unfold AnswersOffered
    constructor
    · intro h
      refine ⟨h.1, ?_⟩
      intro peer' heq
      cases heq
      exact h.2 rfl
    · intro h
      refine ⟨h.1, ?_⟩
      intro hcurrent
      subst hcurrent
      exact h.2 peer rfl
  · rw [offered_other hstep fun current peer heq => hanswer ⟨current, peer, heq⟩]
    constructor
    · intro h
      exact ⟨h, fun peer heq => absurd ⟨true, peer, heq⟩ hanswer⟩
    · intro h
      exact h.1

/-- Requests are conserved, settled once, and resolved only by an answer to an
offer made after them. -/
structure Conserved (q : RequestQueue) : Prop where
  once : ∀ r, r < q.requests →
    q.pending.count r + q.flying.count r + (q.settled.map Prod.fst).count r = 1
  offered : ∀ r offered, (r, .resolved offered) ∈ q.settled → offered = true
  single : (q.offers.filter fun offer => offer.stage = .running).length ≤ 1
  settled : q.closed = true → ∀ r, r < q.requests → r ∈ q.settled.map Prod.fst

theorem Sound.conserved (h : q.Sound) (hoffered : q.Offered) : q.Conserved where
  once r hr := by
    rw [h.once r, if_pos hr]
  offered r offered hsettled := by
    cases offered with
    | true => rfl
    | false => exact absurd hsettled (hoffered r)
  single := by
    have hlength : q.offers.length ≤ 1 := by
      have hsingle := h.single
      rw [held, List.length_map] at hsingle
      rw [hsingle]
      split_ifs <;> omega
    exact (List.length_filter_le _ _).trans hlength
  settled hclosed r hr := by
    have hcount := h.once r
    rw [if_pos hr, (h.quiet hclosed).1, h.flying_of_closed hclosed] at hcount
    simp only [List.count_nil, Nat.zero_add] at hcount
    exact List.count_pos_iff.mp (by omega)

/-- **Requests are conserved and settled once** in every reachable state, and
resolved only after an offer of their own exactly when the run's answers met
the condition. -/
theorem conserved_iff_answersOffered (h : lts.Reachable Lts.Any q) :
    q.Conserved ↔ lts.Reachable AnswersOffered q := by
  constructor
  · intro hconserved
    apply Lts.Reachable.restrict (P := Offered) _ h
    · intro r hr
      have hcontra := hconserved.offered r false hr
      cases hcontra
    · intro a l b ha _ hstep hb
      exact (offered_step (sound_of_reachable ha) hstep).mp hb
  · intro hr
    have hoffered : q.Offered := by
      apply Lts.Reachable.invariant_of (I := Offered) (J := Sound) (fun _ => sound_of_reachable)
        _ _ hr
      · intro s hs request
        obtain rfl : s = new := hs
        exact List.not_mem_nil
      · intro a l b ha _ hi hok hstep
        exact (offered_step ha hstep).mpr ⟨hi, hok⟩
    exact (sound_of_reachable hr).conserved hoffered

/-! ## Deadlines -/

/-- `sendOffer` has not completed. -/
def Stage.outstanding : Stage → Bool
  | .scheduled | .running => true
  | .resolved _ | .rejected _ | .finishing => false

/-- `sendOffer` has completed, and the continuations up to the `finally` are
still queued. -/
def Completing (q : RequestQueue) : Prop := ∃ offer ∈ q.offers, offer.stage.outstanding = false

/-- A request waits on an open queue. -/
def Waiting (q : RequestQueue) : Prop :=
  q.closed = false ∧ (q.pending ≠ [] ∨ q.inFlight ≠ none)

/-- Every waiting request has a deadline. -/
def Armed (q : RequestQueue) : Prop := q.Waiting → q.watchdogTimer ≠ none

section
variable (lenient : Bool)

/-- A lenient reading takes the continuations of a completed `sendOffer` for
one call, which ends with the `finally`. -/
def Excused (q : RequestQueue) : Prop := lenient = true ∧ q.Completing

/-- A `pump` would return without a word. -/
def Busy (q : RequestQueue) : Prop := q.pumping = true ∧ ¬q.Excused lenient

def Guarded (q : RequestQueue) : Prop :=
  q.Waiting → q.watchdogTimer ≠ none ∨ q.Excused lenient

/-- No answer, and no failure of the batch in flight, finds the pump busy and
other requests pending; no request finds it busy with nothing in flight and
no timer. Read strictly, `sendOffer` also neither resolves to `false` nor is
rejected with other requests pending while its batch is in flight. -/
structure Timely (q : RequestQueue) (l : Label) : Prop where
  answer : ∀ peer, l = .answer true peer → q.Busy lenient → q.pending = []
  fail : ∀ error peer, l = .fail error peer → q.inFlight ≠ none → q.Busy lenient →
    q.pending = []
  request : ∀ peer, l = .request true peer → q.closed = false → q.Busy lenient →
    q.inFlight = none → q.watchdogTimer ≠ none
  sent : lenient = false → ∀ id result peer, l = .proceed id result peer →
    ∀ offer ∈ q.offers, offer.batch.id = id → q.inFlight = some offer.batch →
      offer.stage ≠ .resolved false
  rejected : lenient = false → ∀ id result peer, l = .proceed id result peer →
    ∀ offer ∈ q.offers, offer.batch.id = id → q.inFlight = some offer.batch →
      ∀ error, offer.stage = .rejected error → q.pending = []

end

variable {lenient : Bool}

theorem guarded_close (error : String) : (q.close error).Guarded lenient := by
  intro hwaiting
  have hclosed : (q.close error).closed = true := by
    cases hq : q.closed with
    | true => rw [close_of_closed hq, hq]
    | false => rw [close_of_open hq]
  have hopen := hwaiting.1
  rw [hclosed] at hopen
  cases hopen

theorem guarded_arm (message : String) : (q.armWatchdog message).Guarded lenient := by
  rw [armWatchdog_eq]
  intro _
  exact Or.inl (Option.some_ne_none _)

/-- A `pump` that is not busy closes the queue or sees to a timer. -/
theorem guarded_pump (harmed : q.inFlight ≠ none → q.watchdogTimer ≠ none)
    (hbusy : q.closed = false → q.Busy lenient → q.inFlight = none →
      q.pending = [] ∨ q.watchdogTimer ≠ none) : (q.pump peer).Guarded lenient := by
  obtain ⟨hidle, heq⟩ | ⟨-, heq | heq | heq⟩ := pump_cases q peer
  · rw [heq]
    intro hwaiting
    obtain ⟨hopen, hwaiting⟩ := hwaiting
    by_cases hflight : q.inFlight = none
    · have hpending : q.pending ≠ [] := hwaiting.resolve_right (not_not.mpr hflight)
      have hpumping : q.pumping = true := by
        obtain hclosed | hpumping | hflight' | hempty := hidle
        · rw [hopen] at hclosed
          cases hclosed
        · exact hpumping
        · exact absurd hflight hflight'
        · exact absurd hempty hpending
      by_cases hexcused : q.Excused lenient
      · exact Or.inr hexcused
      · exact Or.inl ((hbusy hopen ⟨hpumping, hexcused⟩ hflight).resolve_left hpending)
    · exact Or.inl (harmed hflight)
  · rw [heq]
    exact guarded_close stale
  · rw [heq]
    exact guarded_arm _
  · rw [heq]
    intro _
    exact Or.inl (Option.some_ne_none _)

/-- The promises of one `pump` are the only ones. -/
theorem Sound.offers_eq (hs : q.Sound) {offer : Offer} (hoffer : offer ∈ q.offers) :
    q.offers = [offer] := by
  have hlength : q.offers.length ≤ 1 := by
    have hsingle := hs.single
    rw [held, List.length_map] at hsingle
    rw [hsingle]
    split_ifs <;> omega
  cases hoffers : q.offers with
  | nil =>
    rw [hoffers] at hoffer
    cases hoffer
  | cons first rest =>
    rw [hoffers, List.length_cons] at hlength
    have hrest : rest = [] := List.length_eq_zero_iff.mp (by omega)
    rw [hoffers, hrest, List.mem_singleton] at hoffer
    rw [hrest, hoffer]

/-- While `sendOffer` has not completed nothing is excused. -/
theorem Sound.not_excused (hs : q.Sound) {offer : Offer} (hoffer : offer ∈ q.offers)
    (hstage : offer.stage.outstanding = true) : ¬q.Excused lenient := by
  intro hexcused
  obtain ⟨-, other, hother, hcompleted⟩ := hexcused
  rw [hs.offers_eq hoffer, List.mem_singleton] at hother
  rw [hother, hstage] at hcompleted
  cases hcompleted

/-- Once it has, a lenient reading excuses what follows. -/
theorem completing_setStage {offer : Offer} (hoffer : offer ∈ q.offers) {stage : Stage}
    (hstage : stage.outstanding = false) : (q.setStage offer.batch.id stage).Completing := by
  refine ⟨{ offer with stage := stage }, ?_, hstage⟩
  apply List.mem_map.mpr
  exact ⟨offer, hoffer, if_pos rfl⟩

/-- The continuations of one `pump`. -/
theorem guarded_advance (hs : q.Sound) (hq : q.Guarded lenient) {offer : Offer}
    (hoffer : offer ∈ q.offers) (result : Except String Bool)
    (hsent : lenient = false → q.inFlight = some offer.batch → offer.stage ≠ .resolved false)
    (hrejected : lenient = false → q.inFlight = some offer.batch →
      ∀ error, offer.stage = .rejected error → q.pending = []) :
    (q.advance offer result peer).Guarded lenient := by
  have hbatch : offer.batch ∈ q.held := List.mem_map_of_mem hoffer
  -- what keeps the requests and the timer keeps the deadline
  have hkept : ∀ stage : Stage, offer.stage.outstanding = true ∨ stage.outstanding = false →
      (q.setStage offer.batch.id stage).Guarded lenient := by
    intro stage hstage hwaiting
    obtain htimer | hexcused := hq hwaiting
    · exact Or.inl htimer
    · obtain houtstanding | hstage := hstage
      · exact absurd hexcused (hs.not_excused hoffer houtstanding)
      · exact Or.inr ⟨hexcused.1, completing_setStage hoffer hstage⟩
  unfold advance
  cases hoffered : offer.stage with
  | scheduled =>
    intro hwaiting
    exact hkept .running (Or.inl (by rw [hoffered]; rfl)) hwaiting
  | running =>
    have houtstanding : offer.stage.outstanding = true := by
      rw [hoffered]
      rfl
    cases result with
    | ok sent => exact hkept _ (Or.inl houtstanding)
    | error error => exact hkept _ (Or.inl houtstanding)
  | resolved result =>
    dsimp only [sent]
    split_ifs with hidle
    · exact hkept .finishing (Or.inr rfl)
    · intro _
      cases hlenient : lenient with
      | true => exact Or.inr ⟨rfl, completing_setStage hoffer rfl⟩
      | false =>
        simp only [Bool.or_eq_true, decide_eq_true_eq, not_or, not_not, Bool.not_eq_true] at hidle
        obtain ⟨hflight, -⟩ := hs.inFlight_of_id hbatch hidle.1
        have hne := hsent hlenient hflight
        rw [hoffered, hidle.2] at hne
        exact absurd rfl hne
  | rejected error =>
    dsimp only [caught]
    split_ifs with hidle
    · exact hkept .finishing (Or.inr rfl)
    · intro hwaiting
      cases hlenient : lenient with
      | true => exact Or.inr ⟨rfl, completing_setStage hoffer rfl⟩
      | false =>
        obtain ⟨hflight, -⟩ := hs.inFlight_of_id hbatch (not_not.mp hidle)
        have hempty := hrejected hlenient hflight error hoffered
        obtain hpending | hnone := hwaiting.2
        · exact absurd hempty hpending
        · exact absurd rfl hnone
  | finishing =>
    dsimp only [finished]
    split_ifs with hpump
    · apply guarded_pump
      · exact hs.armed
      · intro _ hbusy
        exact absurd hbusy.1 Bool.false_ne_true
    · intro hwaiting
      obtain ⟨hopen, hwaiting⟩ := hwaiting
      by_cases hflight : q.inFlight = none
      · exfalso
        apply hpump
        have hpending : q.pending ≠ [] := hwaiting.resolve_right (not_not.mpr hflight)
        have hopen' : q.closed = false := hopen
        simp [hpending, hflight, hopen']
      · exact Or.inl (hs.armed hflight)

/-- **Every timely step keeps the deadline.** -/
theorem guarded_step (hs : q.Sound) (hq : q.Guarded lenient) {l : Label}
    (hl : q.Timely lenient l) (hstep : q.step l = some q') : q'.Guarded lenient := by
  cases l with
  | request current peer =>
    obtain rfl := Option.some.inj hstep
    unfold request
    split_ifs with hclosed hcurrent
    · exact hq
    · exact guarded_close (q := q) stale
    · apply guarded_pump
      · exact hs.armed
      · intro hopen hbusy hnone
        rw [Bool.not_eq_true', Bool.not_eq_false] at hcurrent
        exact Or.inr (hl.request peer (by rw [hcurrent]) hopen hbusy hnone)
  | answer current peer =>
    obtain rfl := Option.some.inj hstep
    unfold answer
    split_ifs with hclosed hcurrent
    · exact hq
    · exact guarded_close stale
    · apply guarded_pump fun hflight => absurd rfl hflight
      intro _ hbusy _
      rw [Bool.not_eq_true', Bool.not_eq_false] at hcurrent
      exact Or.inl (hl.answer peer (by rw [hcurrent]) hbusy)
  | rollback =>
    obtain rfl := Option.some.inj hstep
    unfold rollback
    cases q.inFlight with
    | none => exact hq
    | some batch =>
      dsimp only
      split_ifs
      · exact hq
      · exact guarded_arm _
  | fail error peer =>
    obtain rfl := Option.some.inj hstep
    have hempty := hl.fail error peer rfl
    unfold fail
    cases hflight : q.inFlight with
    | none => exact hq
    | some batch =>
      dsimp only
      split_ifs
      · exact hq
      · apply guarded_pump fun hflight => absurd rfl hflight
        intro _ hbusy _
        exact Or.inl (hempty (by rw [hflight]; exact Option.some_ne_none _) hbusy)
  | resume peer =>
    obtain rfl := Option.some.inj hstep
    apply guarded_pump hs.armed
    intro hopen hbusy hnone
    by_cases hpending : q.pending = []
    · exact Or.inl hpending
    · obtain htimer | hexcused := hq ⟨hopen, Or.inl hpending⟩
      · exact Or.inr htimer
      · exact absurd hexcused hbusy.2
  | close error =>
    obtain rfl := Option.some.inj hstep
    exact guarded_close error
  | watchdog =>
    obtain ⟨message, -, rfl⟩ := Option.map_eq_some_iff.mp hstep
    obtain ⟨hidle, heq⟩ | ⟨-, heq⟩ := watchdog_cases q message
    · rw [heq]
      intro hwaiting
      obtain ⟨hopen, hwaiting⟩ := hwaiting
      obtain hclosed | ⟨hnone, hempty⟩ := hidle
      · exact absurd (hclosed.symm.trans hopen) (by decide)
      · obtain hpending | hflight := hwaiting
        · exact absurd hempty hpending
        · exact absurd hnone hflight
    · rw [heq]
      exact guarded_close message
  | proceed id result peer =>
    obtain ⟨offer, hoffer, rfl⟩ := Option.map_eq_some_iff.mp hstep
    have hmem := List.mem_of_find?_eq_some hoffer
    have hid : offer.batch.id = id := by simpa using List.find?_some hoffer
    exact guarded_advance hs hq hmem result
      (fun hlenient hflight => hl.sent hlenient id result peer rfl offer hmem hid hflight)
      (fun hlenient hflight => hl.rejected hlenient id result peer rfl offer hmem hid hflight)

theorem guarded_of_reachable (h : lts.Reachable (Timely lenient) q) : q.Guarded lenient := by
  apply Lts.Reachable.invariant_of (I := Guarded lenient) (J := Sound)
    (fun _ => sound_of_reachable) _ _ h
  · intro s hs hwaiting
    obtain rfl : s = new := hs
    obtain hpending | hflight := hwaiting.2
    · exact absurd rfl hpending
    · exact absurd rfl hflight
  · intro a l b ha _ hi hok hstep
    exact guarded_step ha hi hok hstep

/-- **Where every waiting request has a deadline**: in every state of a run
whose steps are timely, and with the lenient reading of timely in every state
but those between the end of a `sendOffer` and its `finally`. -/
theorem armed_of_timely (q : RequestQueue) :
    (lts.Reachable (Timely false) q → q.Armed) ∧
      (lts.Reachable (Timely true) q → q.Waiting → q.watchdogTimer ≠ none ∨ q.Completing) := by
  constructor
  · intro h hwaiting
    obtain htimer | hexcused := guarded_of_reachable h hwaiting
    · exact htimer
    · cases hexcused.1
  · intro h hwaiting
    obtain htimer | hexcused := guarded_of_reachable h hwaiting
    · exact Or.inl htimer
    · exact Or.inr hexcused.2

/-! ## Runs -/

/-- The peer is the current one, and stable. -/
def ready : Peer := ⟨true, true⟩

/-- A request whose offer is made and answered. -/
def answered : List Label :=
  [.request true ready, .proceed 0 (.ok true) ready, .proceed 0 (.ok true) ready,
    .answer true ready]

theorem conserved_iff_answersOffered_answered :
    ∃ q : RequestQueue, q.settled = [(0, .resolved true)] ∧
      (q.Conserved ↔ lts.Reachable AnswersOffered q) := by
  obtain ⟨q, hq, hsettled⟩ := Lts.exists_reachable_of_exec Lts.Any step new answered
    (fun q => q.settled) [(0, .resolved true)] (fun _ _ _ => trivial) (by decide)
  exact ⟨q, hsettled, conserved_iff_answersOffered hq⟩

/-- An answer in the task of the request resolves it before `sendOffer` is
invoked. -/
theorem not_conserved_of_earlyAnswer :
    ∃ q : RequestQueue, lts.Reachable Lts.Any q ∧ ¬q.Conserved := by
  obtain ⟨q, hq, hsettled⟩ := Lts.exists_reachable_of_exec Lts.Any step new
    [.request true ready, .answer true ready] (fun q => q.settled) [(0, .resolved false)]
    (fun _ _ _ => trivial) (by decide)
  refine ⟨q, hq, ?_⟩
  intro hconserved
  have hmem : (0, Outcome.resolved false) ∈ q.settled := by
    rw [hsettled]
    exact List.mem_singleton_self _
  cases hconserved.offered 0 false hmem

instance : Decidable q.Completing :=
  inferInstanceAs (Decidable (∃ offer ∈ q.offers, offer.stage.outstanding = false))

instance : Decidable (q.Busy lenient) :=
  inferInstanceAs (Decidable (q.pumping = true ∧ ¬(lenient = true ∧ q.Completing)))

/-- `Timely`, where every `sendOffer` of a strict run succeeds. -/
def checkTimely (lenient : Bool) (q : RequestQueue) : Label → Bool
  | .answer _ _ => decide (q.Busy lenient → q.pending = [])
  | .fail _ _ => decide (q.Busy lenient → q.pending = [])
  | .request _ _ => decide (q.Busy lenient → q.inFlight = none → q.watchdogTimer ≠ none)
  | .proceed _ _ _ => lenient || q.offers.all fun offer =>
    offer.stage.outstanding || offer.stage = .resolved true || offer.stage = .finishing
  | _ => true

theorem timely_of_check {l : Label} (h : q.checkTimely lenient l = true) : q.Timely lenient l := by
  have hsucceeds : ∀ id result peer, l = .proceed id result peer → lenient = false →
      ∀ offer ∈ q.offers, offer.stage ≠ .resolved false ∧ ∀ error, offer.stage ≠ .rejected error := by
    rintro id result peer rfl rfl offer hoffer
    simp only [checkTimely, Bool.false_or, List.all_eq_true, Bool.or_eq_true, decide_eq_true_eq] at h
    have hsucceeded := h offer hoffer
    refine ⟨fun hstage => ?_, fun error hstage => ?_⟩
    all_goals
      rw [hstage] at hsucceeded
      rcases hsucceeded with (hstage | hstage) | hstage <;> cases hstage
  constructor
  case answer =>
    rintro peer rfl
    exact of_decide_eq_true h
  case fail =>
    rintro error peer rfl _
    exact of_decide_eq_true h
  case request =>
    rintro peer rfl _
    exact of_decide_eq_true h
  case sent =>
    intro hstrict id result peer hl offer hoffer _ _
    exact (hsucceeds id result peer hl hstrict offer hoffer).1
  case rejected =>
    intro hstrict id result peer hl offer hoffer _ _ error hstage
    exact absurd hstage ((hsucceeds id result peer hl hstrict offer hoffer).2 error)

/-- The steps of one `sendOffer`. -/
def offering (id : Nat) (sent : Bool) : List Label :=
  List.replicate 4 (.proceed id (.ok sent) ready)

/-- A request is answered and the next one offered, with a third one behind
it. And an offer that is not sent leaves its request without a deadline up to
the `finally`. -/
theorem armed_of_timely_answered :
    (∃ q : RequestQueue, q.settled = [(0, .resolved true)] ∧ q.flying = [1] ∧ q.pending = [2] ∧
      q.watchdogTimer ≠ none) ∧
    ∃ q : RequestQueue, q.pending = [0] ∧ q.watchdogTimer = none ∧ q.Completing := by
  constructor
  · obtain ⟨q, hq, hstate⟩ := Lts.exists_reachable_of_execWhen (checkTimely false) step new
      ([.request true ready] ++ offering 0 true ++
        [.request true ready, .answer true ready, .request true ready] ++ offering 1 true)
      (fun q => (q.settled, q.flying, q.pending, q.closed))
      ([(0, .resolved true)], [1], [2], false) (by decide)
    simp only [Prod.mk.injEq] at hstate
    obtain ⟨hsettled, hflying, hpending, hopen⟩ := hstate
    refine ⟨q, hsettled, hflying, hpending, ?_⟩
    apply (armed_of_timely q).1 (hq.mono fun _ _ => timely_of_check)
    refine ⟨hopen, Or.inl ?_⟩
    rw [hpending]
    exact List.cons_ne_nil _ _
  · obtain ⟨q, hq, hstate⟩ := Lts.exists_reachable_of_execWhen (checkTimely true) step new
      ([.request true ready] ++ (offering 0 false).dropLast)
      (fun q => (q.pending, q.watchdogTimer, q.closed)) ([0], none, false) (by decide)
    simp only [Prod.mk.injEq] at hstate
    obtain ⟨hpending, htimer, hopen⟩ := hstate
    refine ⟨q, hpending, htimer, ?_⟩
    obtain harmed | hcompleting := (armed_of_timely q).2 (hq.mono fun _ _ => timely_of_check)
      ⟨hopen, Or.inl (by rw [hpending]; exact List.cons_ne_nil _ _)⟩
    · exact absurd htimer harmed
    · exact hcompleting

/-- An answer that overtakes `sendOffer` takes the deadline from the request
behind it. -/
theorem not_armed_of_overtakenOffer :
    ∃ q : RequestQueue, lts.Reachable Lts.Any q ∧ ¬q.Armed ∧ ¬q.Completing := by
  obtain ⟨q, hq, hstate⟩ := Lts.exists_reachable_of_exec Lts.Any step new
    [.request true ready, .proceed 0 (.ok true) ready, .request true ready, .answer true ready]
    (fun q => (q.closed, q.pending, q.watchdogTimer, q.offers))
    (false, [1], none, [⟨⟨0, [0]⟩, .running⟩]) (fun _ _ _ => trivial) (by decide)
  simp only [Prod.mk.injEq] at hstate
  obtain ⟨hopen, hpending, htimer, hoffers⟩ := hstate
  refine ⟨q, hq, ?_, ?_⟩
  · intro harmed
    refine harmed ⟨hopen, Or.inl ?_⟩ htimer
    rw [hpending]
    exact List.cons_ne_nil _ _
  · intro hcompleting
    obtain ⟨offer, hoffer, hstage⟩ := hcompleting
    rw [hoffers, List.mem_singleton] at hoffer
    rw [hoffer] at hstage
    cases hstage

end RequestQueue

end SlowMeet.Negotiation
