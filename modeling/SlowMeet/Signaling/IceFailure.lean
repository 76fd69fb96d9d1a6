import Mathlib.Tactic.SplitIfs
import SlowMeet.Lib.Lts

/-!
# The teardown after an ICE failure

`scheduleICEFailureTeardown` and `cancelICEFailureTeardown` of
`internal/signaling/hub.go` for one client, with the timers they arm. The
state of the peer connection changes first and its handler is called after,
one call after another; the callback of a timer that fired runs beside it, and
cannot be stopped any more. Times are in nanoseconds.
-/

namespace SlowMeet.Signaling

open Lib

/-- `pion.ICEConnectionState`. -/
inductive ICEConnectionState
  | new
  | checking
  | connected
  | completed
  | disconnected
  | failed
  | closed
  deriving DecidableEq, Repr

/-- A timer that runs. -/
structure TeardownTimer where
  id : Nat
  deadline : Nat
  deriving DecidableEq, Repr

/-- The callback of a timer that has fired, before or after it has held
`negotiationMu`. -/
structure TeardownCallback where
  id : Nat
  unlocked : Bool
  deriving DecidableEq, Repr

structure IceTeardown where
  /-- The state of the peer connection. -/
  iceConnectionState : ICEConnectionState
  /-- The state that the handler was called with and has yet to act on. -/
  handling : Option ICEConnectionState
  /-- `iceFailureTimer`: the timer last armed. -/
  iceFailureTimer : Option Nat
  armed : List TeardownTimer
  callbacks : List TeardownCallback
  timers : Nat
  clock : Nat
  /-- When the handler last acted on a failure. -/
  failedAt : Nat
  /-- The websocket connection. -/
  closed : Bool
  deriving DecidableEq, Repr

def iceFailureTeardownDelay : Nat := 5000000000

namespace IceTeardown

def start : IceTeardown where
  iceConnectionState := .new
  handling := none
  iceFailureTimer := none
  armed := []
  callbacks := []
  timers := 0
  clock := 0
  failedAt := 0
  closed := false

variable (s : IceTeardown)

def scheduleICEFailureTeardown : IceTeardown :=
  if s.iceFailureTimer.isSome then { s with failedAt := s.clock }
  else
    { s with
      iceFailureTimer := some s.timers
      armed := ⟨s.timers, s.clock + iceFailureTeardownDelay⟩ :: s.armed
      timers := s.timers + 1
      failedAt := s.clock }

def cancelICEFailureTeardown : IceTeardown :=
  match s.iceFailureTimer with
  | some id =>
    { s with
      iceFailureTimer := none
      armed := s.armed.filter fun timer => timer.id ≠ id }
  | none => s

/-- The handler of `OnICEConnectionStateChange`. -/
def handle : ICEConnectionState → IceTeardown
  | .connected | .completed | .checking => s.cancelICEFailureTeardown
  | .failed => s.scheduleICEFailureTeardown
  | .new | .disconnected | .closed => s

/-- `iceConnectionRecovered`. -/
def iceConnectionRecovered : Bool :=
  match s.iceConnectionState with
  | .checking | .connected | .completed => true
  | .new | .disconnected | .failed | .closed => false

inductive Label
  | tick (now : Nat)
  | change (state : ICEConnectionState)
  | handle
  /-- A timer fires: its callback starts. -/
  | fire (timer : TeardownTimer)
  /-- A callback has held the lock. -/
  | unlock (callback : TeardownCallback)
  /-- A callback looks at the peer connection, and ends. -/
  | check (callback : TeardownCallback)
  /-- The connection ends, for whatever reason. -/
  | close
  /-- The cancellation when `ServeHTTP` returns. -/
  | cancel
  deriving DecidableEq, Repr

def step : Label → Option IceTeardown
  | .tick now => if s.clock ≤ now then some { s with clock := now } else none
  | .change state =>
    if s.handling = none then
      some { s with iceConnectionState := state, handling := some state }
    else none
  | .handle =>
    match s.handling with
    | some state => some { s.handle state with handling := none }
    | none => none
  | .fire timer =>
    if timer ∈ s.armed ∧ timer.deadline ≤ s.clock then
      some { s with
        armed := s.armed.erase timer
        callbacks := ⟨timer.id, false⟩ :: s.callbacks }
    else none
  | .unlock callback =>
    if callback ∈ s.callbacks ∧ callback.unlocked = false then
      some { s with
        iceFailureTimer := none
        callbacks := ⟨callback.id, true⟩ :: s.callbacks.erase callback }
    else none
  | .check callback =>
    if callback ∈ s.callbacks ∧ callback.unlocked = true then
      some { s with
        callbacks := s.callbacks.erase callback
        closed := s.closed || !s.iceConnectionRecovered }
    else none
  | .close => some { s with closed := true }
  | .cancel => if s.closed = true then some s.cancelICEFailureTeardown else none

def lts : Lts IceTeardown Label := Lts.ofStep start step

/-! ## What every step keeps -/

variable {s} {t : IceTeardown} {id : Nat}

/-- The timer of a client is on its way. -/
def Coming (s : IceTeardown) (id by' : Nat) : Prop :=
  (∃ timer ∈ s.armed, timer.id = id ∧ timer.deadline ≤ by') ∨
    ∃ callback ∈ s.callbacks, callback.id = id ∧ callback.unlocked = false

/-- Some teardown is on its way. -/
def Pending (s : IceTeardown) (by' : Nat) : Prop :=
  (∃ timer ∈ s.armed, timer.deadline ≤ by') ∨ s.callbacks ≠ []

structure Sound (s : IceTeardown) : Prop where
  handled : ∀ state, s.handling = some state → s.iceConnectionState = state
  timer : ∀ id, s.iceFailureTimer = some id → s.Coming id (s.clock + iceFailureTeardownDelay)
  failed : s.iceConnectionState = .failed → s.handling = none → s.closed = false →
    s.Pending (s.failedAt + iceFailureTeardownDelay)

theorem sound_start : start.Sound where
  handled _ h := by cases h
  timer _ h := by cases h
  failed h := by cases h

theorem Coming.pending {by' : Nat} (h : s.Coming id by') : s.Pending by' := by
  obtain ⟨timer, htimer, -, hdeadline⟩ | ⟨callback, hcallback, -⟩ := h
  · exact Or.inl ⟨timer, htimer, hdeadline⟩
  · exact Or.inr (List.ne_nil_of_mem hcallback)

/-- A timer that was armed before a failure fires before one armed for it. -/
theorem pending_schedule (h : s.Sound) :
    s.scheduleICEFailureTeardown.Pending
      (s.scheduleICEFailureTeardown.failedAt + iceFailureTeardownDelay) := by
  unfold scheduleICEFailureTeardown
  by_cases hsome : s.iceFailureTimer.isSome = true
  · rw [if_pos hsome]
    obtain ⟨id, hid⟩ := Option.isSome_iff_exists.mp hsome
    exact (h.timer id hid).pending
  · rw [if_neg hsome]
    exact Or.inl ⟨_, List.mem_cons_self, Nat.le_refl _⟩

theorem timer_schedule (h : s.Sound) :
    ∀ id, s.scheduleICEFailureTeardown.iceFailureTimer = some id →
      s.scheduleICEFailureTeardown.Coming id
        (s.scheduleICEFailureTeardown.clock + iceFailureTeardownDelay) := by
  unfold scheduleICEFailureTeardown
  by_cases hsome : s.iceFailureTimer.isSome = true
  · rw [if_pos hsome]
    exact h.timer
  · rw [if_neg hsome]
    intro id hid
    obtain rfl : s.timers = id := Option.some.inj hid
    exact Or.inl ⟨_, List.mem_cons_self, rfl, Nat.le_refl _⟩

theorem timer_cancel : s.cancelICEFailureTeardown.iceFailureTimer = none := by
  unfold cancelICEFailureTeardown
  cases htimer : s.iceFailureTimer with
  | none => exact htimer
  | some id => rfl

theorem cancel_frame :
    s.cancelICEFailureTeardown.iceConnectionState = s.iceConnectionState ∧
      s.cancelICEFailureTeardown.handling = s.handling ∧
        s.cancelICEFailureTeardown.closed = s.closed := by
  unfold cancelICEFailureTeardown
  cases s.iceFailureTimer with
  | none => exact ⟨rfl, rfl, rfl⟩
  | some id => exact ⟨rfl, rfl, rfl⟩

/-- A cancellation is for a state that is no failure, or a closed connection. -/
theorem Sound.cancel (h : s.Sound)
    (hend : s.iceConnectionState ≠ .failed ∨ s.closed = true) :
    s.cancelICEFailureTeardown.Sound := by
  obtain ⟨hstate, hhandling, hclosed⟩ := cancel_frame (s := s)
  refine ⟨?_, ?_, ?_⟩
  · rw [hhandling, hstate]
    exact h.handled
  · intro id hid
    rw [timer_cancel] at hid
    cases hid
  · rw [hstate, hclosed]
    intro hfailed _ hopen
    obtain hne | hclosed' := hend
    · exact absurd hfailed hne
    · rw [hclosed'] at hopen
      cases hopen

theorem Sound.settle (h : s.Sound) (hne : s.iceConnectionState ≠ .failed) :
    Sound { s with handling := none } where
  handled _ hsome := by cases hsome
  timer := h.timer
  failed hfailed := absurd hfailed hne

theorem Sound.schedule (h : s.Sound) :
    Sound { s.scheduleICEFailureTeardown with handling := none } where
  handled _ hsome := by cases hsome
  timer := timer_schedule h
  failed _ _ _ := pending_schedule h

theorem Sound.recover (h : s.Sound) (hne : s.iceConnectionState ≠ .failed) :
    Sound { s.cancelICEFailureTeardown with handling := none } := by
  apply (h.cancel (Or.inl hne)).settle
  rw [cancel_frame.1]
  exact hne

theorem Sound.handle (h : s.Sound) {state : ICEConnectionState}
    (hstate : s.iceConnectionState = state) :
    Sound { s.handle state with handling := none } := by
  cases state with
  | failed => exact h.schedule
  | new => exact h.settle (by rw [hstate]; decide)
  | disconnected => exact h.settle (by rw [hstate]; decide)
  | closed => exact h.settle (by rw [hstate]; decide)
  | checking => exact h.recover (by rw [hstate]; decide)
  | connected => exact h.recover (by rw [hstate]; decide)
  | completed => exact h.recover (by rw [hstate]; decide)

theorem Sound.fire (h : s.Sound) {timer : TeardownTimer} :
    Sound { s with
      armed := s.armed.erase timer
      callbacks := ⟨timer.id, false⟩ :: s.callbacks } := by
  refine ⟨h.handled, ?_, fun _ _ _ => Or.inr (List.cons_ne_nil _ _)⟩
  intro id hid
  obtain ⟨other, hother, hsame, hdeadline⟩ | ⟨callback, hcallback, hsame, hlocked⟩ := h.timer id hid
  · by_cases heq : other = timer
    · -- the timer of the client is the one that fires
      right
      exact ⟨_, List.mem_cons_self, by rw [← hsame, heq], rfl⟩
    · exact Or.inl ⟨other, (List.mem_erase_of_ne heq).mpr hother, hsame, hdeadline⟩
  · exact Or.inr ⟨callback, List.mem_cons_of_mem _ hcallback, hsame, hlocked⟩

theorem Sound.check (h : s.Sound) {callback : TeardownCallback}
    (hunlocked : callback.unlocked = true) :
    Sound { s with
      callbacks := s.callbacks.erase callback
      closed := s.closed || !s.iceConnectionRecovered } := by
  refine ⟨h.handled, ?_, ?_⟩
  · intro id hid
    obtain htimer | ⟨other, hother, hsame, hlocked⟩ := h.timer id hid
    · exact Or.inl htimer
    · have hne : other ≠ callback := by
        intro heq
        rw [heq, hunlocked] at hlocked
        cases hlocked
      exact Or.inr ⟨other, (List.mem_erase_of_ne hne).mpr hother, hsame, hlocked⟩
  · -- a callback that finds the failure closes the connection
    intro hfailed _ hopen
    have hstate : s.iceConnectionState = .failed := hfailed
    have hrecovered : s.iceConnectionRecovered = false := by
      unfold iceConnectionRecovered
      rw [hstate]
    simp [hrecovered] at hopen

theorem Sound.step (h : s.Sound) {l : Label} (hstep : s.step l = some t) : t.Sound := by
  cases l with
  | tick now =>
    simp only [IceTeardown.step, Option.ite_none_right_eq_some, Option.some.injEq] at hstep
    obtain ⟨hnow, rfl⟩ := hstep
    refine ⟨h.handled, ?_, h.failed⟩
    intro id hid
    obtain ⟨timer, htimer, hsame, hdeadline⟩ | hcallback := h.timer id hid
    · exact Or.inl ⟨timer, htimer, hsame, by show _ ≤ now + _; omega⟩
    · exact Or.inr hcallback
  | change state =>
    simp only [IceTeardown.step, Option.ite_none_right_eq_some, Option.some.injEq] at hstep
    obtain ⟨-, rfl⟩ := hstep
    exact ⟨fun _ hsome => Option.some.inj hsome, h.timer, fun _ hnone => (by cases hnone)⟩
  | handle =>
    simp only [IceTeardown.step] at hstep
    cases hhandling : s.handling with
    | none => simp [hhandling] at hstep
    | some state =>
      simp only [hhandling, Option.some.injEq] at hstep
      rw [← hstep]
      exact h.handle (h.handled state hhandling)
  | fire timer =>
    simp only [IceTeardown.step, Option.ite_none_right_eq_some, Option.some.injEq] at hstep
    rw [← hstep.2]
    exact h.fire
  | unlock callback =>
    simp only [IceTeardown.step, Option.ite_none_right_eq_some, Option.some.injEq] at hstep
    rw [← hstep.2]
    exact ⟨h.handled, fun _ hnone => (by cases hnone),
      fun _ _ _ => Or.inr (List.cons_ne_nil _ _)⟩
  | check callback =>
    simp only [IceTeardown.step, Option.ite_none_right_eq_some, Option.some.injEq] at hstep
    obtain ⟨⟨-, hunlocked⟩, rfl⟩ := hstep
    exact h.check hunlocked
  | close =>
    cases hstep
    exact ⟨h.handled, h.timer, fun _ _ hopen => (by cases hopen)⟩
  | cancel =>
    simp only [IceTeardown.step, Option.ite_none_right_eq_some, Option.some.injEq] at hstep
    obtain ⟨hclosed, rfl⟩ := hstep
    exact h.cancel (Or.inr hclosed)

/-- **A failed connection does not linger.** Whatever the order in which the
state of the peer connection changes, the handler acts and the callbacks of old
timers run: once the handler has acted on a failure that lasts, the connection
is closed, or a timer is armed that fires no later than the grace period after,
or the callback of one is running, which will close it. -/
theorem pending_of_failed (hr : lts.Reachable Lts.Any s)
    (hfailed : s.iceConnectionState = .failed) (hhandled : s.handling = none)
    (hopen : s.closed = false) :
    s.iceConnectionRecovered = false ∧
      ((∃ timer ∈ s.armed, timer.deadline ≤ s.failedAt + iceFailureTeardownDelay) ∨
        s.callbacks ≠ []) := by
  have h : s.Sound :=
    hr.invariant_ofStep sound_start fun _ _ _ hs _ hstep => hs.step hstep
  refine ⟨?_, h.failed hfailed hhandled hopen⟩
  unfold iceConnectionRecovered
  rw [hfailed]

/-- The callback of a cancelled timer forgets the timer of the next failure,
which fires all the same. -/
theorem pending_of_failed_overtaken :
    ∃ s : IceTeardown, s.iceFailureTimer = none ∧ s.armed = [⟨1, 10000000000⟩] ∧
      ((∃ timer ∈ s.armed, timer.deadline ≤ s.failedAt + iceFailureTeardownDelay) ∨
        s.callbacks ≠ []) := by
  obtain ⟨s, hs, hstate⟩ := Lts.exists_reachable_of_exec Lts.Any step start
    [.change .failed, .handle, .tick (5000000000), .fire ⟨0, 5000000000⟩, .change .checking, .handle,
      .change .failed, .handle, .unlock ⟨0, false⟩]
    (fun s => (s.iceFailureTimer, s.armed, s.iceConnectionState, s.handling, s.closed))
    (none, [⟨1, 10000000000⟩], .failed, none, false) (fun _ _ _ => trivial) (by decide +kernel)
  obtain ⟨htimer, harmed, hfailed, hhandled, hopen⟩ :
      s.iceFailureTimer = none ∧ s.armed = [⟨1, 10000000000⟩] ∧ s.iceConnectionState = .failed ∧
        s.handling = none ∧ s.closed = false := by
    simpa using hstate
  exact ⟨s, htimer, harmed, (pending_of_failed hs hfailed hhandled hopen).2⟩

end IceTeardown

end SlowMeet.Signaling
