import Mathlib.Algebra.Order.Field.Rat
import Mathlib.Tactic.Linarith
import SlowMeet.Lib.GoMap
import SlowMeet.Lib.Lts

/-!
# The password limiter

The token buckets of `internal/ratelimit`, and any number of goroutines that
use one limiter: a call reads the clock, and takes the mutex later. Tokens and
times, in seconds, are exact.
-/

namespace SlowMeet.RateLimit

open Lib

def maxBuckets : Nat := 4096

structure Bucket where
  tokens : ℚ
  last : ℚ
  deriving DecidableEq

structure Limiter where
  buckets : GoMap String Bucket
  /-- Tokens per second. -/
  rate : ℚ
  burst : ℚ
  lastSweep : ℚ

/-- `NewWithClock`, where `current` is the clock's reading. -/
def Limiter.new (failuresPerMinute burst : ℤ) (current : ℚ) : Limiter where
  buckets := ∅
  rate := (if failuresPerMinute ≤ 0 then 1 else failuresPerMinute : ℤ) / 60
  burst := (if burst ≤ 0 then 1 else burst : ℤ)
  lastSweep := current

/-- Add the tokens of the time since the last call. The reading becomes the
last one also when it is older. -/
def Bucket.refill (b : Bucket) (rate burst now : ℚ) : Bucket where
  tokens := if 0 < now - b.last then min (b.tokens + (now - b.last) * rate) burst else b.tokens
  last := now

namespace Limiter

/-- `sweepLocked`. -/
def sweep (l : Limiter) (now : ℚ) : Limiter :=
  if now - l.lastSweep < 60 then l
  else
    let idleLimit := 2 * (l.burst / l.rate)
    { l with
      lastSweep := now
      buckets := GoMap.filter (fun b => ¬ idleLimit < now - b.last) l.buckets }

/-- The bucket of the key, or a new one where there is room. -/
def bucket (l : Limiter) (key : String) (now : ℚ) : Option Bucket :=
  match l.buckets.lookup key with
  | some b => some b
  | none => if maxBuckets ≤ l.buckets.size then none else some ⟨l.burst, now⟩

/-- `AllowAttempt` under the mutex, for a clock reading. -/
def allowAttempt (l : Limiter) (key : String) (now : ℚ) : Limiter × Bool :=
  if key = "" then (l, false)
  else
    let l := l.sweep now
    match l.bucket key now with
    | none => (l, false)
    | some b =>
      let b := b.refill l.rate l.burst now
      if b.tokens < 1 then ({ l with buckets := l.buckets.insert key b }, false)
      else ({ l with buckets := l.buckets.insert key { b with tokens := b.tokens - 1 } }, true)

/-- `RefundAttempt` under the mutex. -/
def refundAttempt (l : Limiter) (key : String) (now : ℚ) : Limiter :=
  if key = "" then l
  else
    match l.buckets.lookup key with
    | none => l
    | some b =>
      let b := b.refill l.rate l.burst now
      { l with buckets := l.buckets.insert key { b with tokens := min (b.tokens + 1) l.burst } }

end Limiter

/-! ## Goroutines -/

/-- An attempt that was granted, by its clock reading. -/
structure Attempt where
  key : String
  reading : ℚ
  /-- The password is right: the attempt will be refunded. -/
  correct : Bool
  deriving DecidableEq

inductive Call
  | allow (key : String) (correct : Bool)
  | refund (attempt : Attempt)
  deriving DecidableEq

/-- The attempt that a call refunds. -/
def Call.attempt? : Call → Option Attempt
  | .allow _ _ => none
  | .refund attempt => some attempt

/-- The key that a call is for. -/
def Call.key : Call → String
  | .allow key _ => key
  | .refund attempt => attempt.key

structure System where
  limiter : Limiter
  clock : ℚ
  /-- The calls that have read the clock and wait for the mutex. -/
  waiting : List (Call × ℚ)
  /-- The attempts that were granted, and whose refund has not begun. -/
  granted : List Attempt
  /-- The reading a key was last charged at. No call reads it. -/
  charged : String → Option ℚ

inductive Label
  | tick (seconds : ℚ)
  /-- `AllowAttempt` reads the clock. -/
  | attempt (key : String) (correct : Bool)
  /-- `RefundAttempt` of a granted attempt reads the clock. -/
  | refund (index : Nat)
  /-- A waiting call takes the mutex. -/
  | lock (index : Nat)

namespace System

def new (failuresPerMinute burst : ℤ) (current : ℚ) : System where
  limiter := .new failuresPerMinute burst current
  clock := current
  waiting := []
  granted := []
  charged _ := none

/-- The granted attempts that have not been refunded. -/
def outstanding (s : System) : List Attempt :=
  s.granted ++ s.waiting.filterMap fun call => call.1.attempt?

/-- The bucket that the call charges, a new one included. -/
def charging (s : System) (call : Call) (now : ℚ) : Option Bucket :=
  if call.key = "" then none
  else
    match call with
    | .allow key _ => (s.limiter.sweep now).bucket key now
    | .refund attempt => s.limiter.buckets.lookup attempt.key

/-- A call under the mutex. -/
def perform (s : System) (call : Call) (now : ℚ) : System :=
  let s' := { s with
    charged := if (s.charging call now).isSome then Function.update s.charged call.key (some now)
      else s.charged }
  match call with
  | .allow key correct =>
    match s.limiter.allowAttempt key now with
    | (limiter, true) => { s' with limiter, granted := s.granted ++ [⟨key, now, correct⟩] }
    | (limiter, false) => { s' with limiter }
  | .refund attempt => { s' with limiter := s.limiter.refundAttempt attempt.key now }

def step (s : System) : Label → Option System
  | .tick seconds => if 0 ≤ seconds then some { s with clock := s.clock + seconds } else none
  | .attempt key correct =>
    some { s with waiting := s.waiting ++ [(.allow key correct, s.clock)] }
  | .refund index =>
    match s.granted[index]? with
    | none => none
    | some attempt =>
      if attempt.correct then
        some { s with
          granted := s.granted.eraseIdx index
          waiting := s.waiting ++ [(.refund attempt, s.clock)] }
      else none
  | .lock index =>
    match s.waiting[index]? with
    | none => none
    | some (call, now) => some ({ s with waiting := s.waiting.eraseIdx index }.perform call now)

/-- Every interleaving of calls to one limiter. -/
def lts (failuresPerMinute burst : ℤ) (current : ℚ) : Lts System Label :=
  .ofStep (new failuresPerMinute burst current) step

/-- A key's granted attempts that have not been refunded. -/
def attempts (s : System) (key : String) : List Attempt :=
  s.outstanding.filter fun attempt => attempt.key = key

/-- Those with a reading in the window. -/
def failures (s : System) (key : String) (start stop : ℚ) : Nat :=
  (s.attempts key).countP fun attempt => start ≤ attempt.reading && attempt.reading ≤ stop

/-- The refunds of a key still to come. -/
def owed (s : System) (key : String) : Nat := (s.attempts key).countP (·.correct)

/-- The window's bound holds of every key. -/
def Bounded (s : System) : Prop :=
  ∀ key start stop, start ≤ stop →
    (s.failures key start stop : ℚ) ≤ s.limiter.burst + s.limiter.rate * (stop - start)

end System

end SlowMeet.RateLimit
