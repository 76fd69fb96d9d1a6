import Mathlib.Algebra.Order.BigOperators.Group.List
import Mathlib.Algebra.Order.Field.Rat
import Mathlib.Tactic.Linarith
import SlowMeet.Lib.Lts

/-!
# The bitrate cap

The token bucket of a `bitrateLimiter` in `internal/media/router.go`, and the
bytes it lets through in any time interval while the configured rate is
broadcast again and again. Tokens and times, in seconds, are exact.
-/

namespace SlowMeet.Media

open Lib

/-- The token bucket of a `bitrateLimiter`. The rate is in bytes per second;
zero shapes nothing. -/
structure TokenBucket where
  rate : ℚ
  tokens : ℚ
  last : ℚ
  deriving DecidableEq

namespace TokenBucket

def burst (rate : ℚ) : ℚ := if rate / 10 < 1200 then 1200 else rate / 10

/-- `refillLocked`, for a reading of the clock. -/
def refillLocked (l : TokenBucket) (current : ℚ) : TokenBucket :=
  if current < l.last then { l with last := current }
  else if 0 < l.rate then
    let tokens := l.tokens + (current - l.last) * l.rate
    { l with tokens := if burst l.rate < tokens then burst l.rate else tokens, last := current }
  else { l with last := current }

def setRate (l : TokenBucket) (rate : ℤ) (current : ℚ) : TokenBucket :=
  let l := l.refillLocked current
  if rate ≤ 0 then { l with rate := 0, tokens := 0 }
  else
    let tokens := if burst rate < l.tokens then burst rate else l.tokens
    { l with rate := rate, tokens := if tokens = 0 then burst rate else tokens }

def allow (l : TokenBucket) (bytes : ℕ) (current : ℚ) : TokenBucket × Bool :=
  if bytes = 0 then (l, true)
  else
    let l := l.refillLocked current
    if l.rate ≤ 0 then (l, true)
    else if l.tokens < bytes then (l, false)
    else ({ l with tokens := l.tokens - bytes }, true)

end TokenBucket

/-- A limiter with the packets it has let through, each with its time. -/
structure Shaping where
  bucket : TokenBucket
  clock : ℚ
  admitted : List (ℚ × ℕ)

namespace Shaping

inductive Label
  | allow (bytes : ℕ) (current : ℚ)
  | setRate (current : ℚ)

/-- A limiter whose rate has just been set, whatever it was before. -/
def start (l : TokenBucket) (rate : ℤ) (current : ℚ) : Shaping where
  bucket := l.setRate rate current
  clock := current
  admitted := []

/-- A call, at a clock reading no older than the last. Every `setRate` sets
the same rate. -/
def step (rate : ℤ) (s : Shaping) : Label → Option Shaping
  | .allow bytes current =>
    if s.clock ≤ current then
      some {
        bucket := (s.bucket.allow bytes current).1
        clock := current
        admitted := if (s.bucket.allow bytes current).2 then s.admitted ++ [(current, bytes)]
          else s.admitted
      }
    else none
  | .setRate current =>
    if s.clock ≤ current then
      some { s with bucket := s.bucket.setRate rate current, clock := current }
    else none

def lts (l : TokenBucket) (rate : ℤ) (current : ℚ) : Lts Shaping Label :=
  .ofStep (start l rate current) (step rate)

/-- The size of the packets let through in an interval. -/
def total (s : Shaping) (start stop : ℚ) : ℕ :=
  ((s.admitted.filter fun packet => start ≤ packet.1 ∧ packet.1 ≤ stop).map Prod.snd).sum

/-- The cap holds over every interval. -/
def Capped (rate : ℤ) (s : Shaping) : Prop :=
  ∀ start stop, start ≤ stop →
    (s.total start stop : ℚ) ≤ max ((rate : ℚ) / 10) 1200 + rate * (stop - start)

/-- No `setRate` finds the bucket exactly empty. -/
def mintsNothing (s : Shaping) : Label → Bool
  | .allow _ _ => true
  | .setRate current => (s.bucket.refillLocked current).tokens ≠ 0

/-! ## Refilling -/

section Refill

variable {l : TokenBucket} {current : ℚ}

theorem burst_eq_max (rate : ℚ) : TokenBucket.burst rate = max (rate / 10) 1200 := by
  unfold TokenBucket.burst
  split
  · rename_i hlow
    rw [max_eq_right hlow.le]
  · rename_i hhigh
    rw [max_eq_left (not_lt.mp hhigh)]

theorem refillLocked_eq (hrate : 0 < l.rate) (hlast : l.last ≤ current) :
    l.refillLocked current =
      { l with
        tokens := min (TokenBucket.burst l.rate) (l.tokens + (current - l.last) * l.rate)
        last := current } := by
  unfold TokenBucket.refillLocked
  rw [if_neg (not_lt.mpr hlast), if_pos hrate]
  dsimp only
  split
  · rename_i hover
    rw [min_eq_left hover.le]
  · rename_i hunder
    rw [min_eq_right (not_lt.mp hunder)]

/-- Setting the rate a limiter already has only refills it, unless it is
exactly empty. -/
theorem setRate_eq_refillLocked {rate : ℤ} (hrate : 0 < rate) (hsame : l.rate = rate)
    (hlast : l.last ≤ current) (htokens : (l.refillLocked current).tokens ≠ 0) :
    l.setRate rate current = l.refillLocked current := by
  have hpos : (0 : ℚ) < l.rate := by
    rw [hsame]
    exact_mod_cast hrate
  rw [refillLocked_eq hpos hlast] at htokens ⊢
  have hcapped : ¬ TokenBucket.burst rate <
      min (TokenBucket.burst l.rate) (l.tokens + (current - l.last) * l.rate) := by
    rw [← hsame]
    exact not_lt.mpr (min_le_left _ _)
  unfold TokenBucket.setRate
  rw [refillLocked_eq hpos hlast]
  dsimp only at htokens ⊢
  rw [if_neg (not_le.mpr hrate), if_neg hcapped, if_neg htokens, ← hsame]

end Refill

/-! ## The invariant -/

variable {s t : Shaping} {rate : ℤ} {start stop now : ℚ} {bytes : ℕ}

/-- The size of the packets let through from a time on. -/
def since (s : Shaping) (start : ℚ) : ℕ :=
  ((s.admitted.filter fun packet => start ≤ packet.1).map Prod.snd).sum

structure Sound (rate : ℤ) (s : Shaping) : Prop where
  rate_eq : s.bucket.rate = rate
  tokens_le : s.bucket.tokens ≤ TokenBucket.burst rate
  last_le : s.bucket.last ≤ s.clock
  /-- An empty packet does not read the clock. -/
  past : ∀ packet ∈ s.admitted, packet.1 ≤ s.bucket.last ∨ packet.2 = 0
  /-- What was let through and what is left was once in the bucket, or has
  come in since. -/
  spent : ∀ start, start ≤ s.bucket.last →
    (s.since start : ℚ) + s.bucket.tokens ≤
      TokenBucket.burst rate + rate * (s.bucket.last - start)
  capped : ∀ start stop, start ≤ stop →
    (s.total start stop : ℚ) ≤ TokenBucket.burst rate + rate * (stop - start)

theorem since_eq_zero (h : ∀ packet ∈ s.admitted, start ≤ packet.1 → packet.2 = 0) :
    s.since start = 0 := by
  unfold since
  rw [List.sum_eq_zero_iff_forall_eq_nat]
  intro bytes hbytes
  obtain ⟨packet, hpacket, rfl⟩ := List.mem_map.mp hbytes
  obtain ⟨hpacket, hlater⟩ := List.mem_filter.mp hpacket
  exact h packet hpacket (of_decide_eq_true hlater)

theorem total_le_since (s : Shaping) (start stop : ℚ) : s.total start stop ≤ s.since start := by
  have hsublist : (s.admitted.filter fun packet => start ≤ packet.1 ∧ packet.1 ≤ stop).Sublist
      (s.admitted.filter fun packet => start ≤ packet.1) := by
    refine List.monotone_filter_right _ fun packet hpacket => ?_
    simp only [decide_eq_true_eq] at hpacket ⊢
    exact hpacket.1
  exact (hsublist.map Prod.snd).sum_le_sum fun _ _ => Nat.zero_le _

theorem Sound.refill (h : s.Sound rate) (hrate : 0 < rate) (hnow : s.clock ≤ now) :
    ({ s with bucket := s.bucket.refillLocked now, clock := now } : Shaping).Sound rate := by
  have hpos : (0 : ℚ) < rate := by exact_mod_cast hrate
  have hlast := h.last_le.trans hnow
  rw [refillLocked_eq (h.rate_eq ▸ hpos) hlast]
  refine ⟨h.rate_eq, ?_, le_refl _, ?_, ?_, h.capped⟩
  · rw [← h.rate_eq]
    exact min_le_left _ _
  · intro packet hpacket
    exact (h.past packet hpacket).imp_left fun hpast => hpast.trans hlast
  · intro start hstart
    rw [h.rate_eq]
    dsimp only at hstart ⊢
    by_cases hbefore : start ≤ s.bucket.last
    · have hspent := h.spent start hbefore
      have htokens := min_le_right (TokenBucket.burst rate)
        (s.bucket.tokens + (now - s.bucket.last) * rate)
      show (s.since start : ℚ) + _ ≤ _
      linarith
    · have hnone : s.since start = 0 := by
        refine since_eq_zero fun packet hpacket hlater => ?_
        exact (h.past packet hpacket).resolve_left fun hpast => hbefore (hlater.trans hpast)
      have htokens := min_le_left (TokenBucket.burst rate)
        (s.bucket.tokens + (now - s.bucket.last) * rate)
      have hgain : 0 ≤ (rate : ℚ) * (now - start) := mul_nonneg hpos.le (by linarith)
      show (s.since start : ℚ) + _ ≤ _
      rw [hnone]
      push_cast
      linarith

theorem since_append (s : Shaping) (bucket : TokenBucket) (clock : ℚ) (packet : ℚ × ℕ)
    (start : ℚ) :
    since ⟨bucket, clock, s.admitted ++ [packet]⟩ start =
      s.since start + if start ≤ packet.1 then packet.2 else 0 := by
  unfold since
  by_cases hlater : start ≤ packet.1 <;> simp [hlater]

theorem total_append (s : Shaping) (bucket : TokenBucket) (clock : ℚ) (packet : ℚ × ℕ)
    (start stop : ℚ) :
    total ⟨bucket, clock, s.admitted ++ [packet]⟩ start stop =
      s.total start stop + if start ≤ packet.1 ∧ packet.1 ≤ stop then packet.2 else 0 := by
  unfold total
  by_cases hwithin : start ≤ packet.1 ∧ packet.1 ≤ stop <;> simp [hwithin]

/-- A packet takes its size out of the bucket. -/
theorem Sound.spend (h : s.Sound rate) (hrate : 0 < rate) (hlast : s.bucket.last = s.clock)
    (hbytes : bytes ≤ s.bucket.tokens) :
    Sound rate ⟨{ s.bucket with tokens := s.bucket.tokens - bytes }, s.clock,
      s.admitted ++ [(s.clock, bytes)]⟩ := by
  have hpos : (0 : ℚ) < rate := by exact_mod_cast hrate
  have hbytes₀ : (0 : ℚ) ≤ bytes := Nat.cast_nonneg bytes
  have hspent : ∀ start, start ≤ s.clock →
      (since ⟨{ s.bucket with tokens := s.bucket.tokens - bytes }, s.clock,
        s.admitted ++ [(s.clock, bytes)]⟩ start : ℚ) + (s.bucket.tokens - bytes) ≤
          TokenBucket.burst rate + rate * (s.clock - start) := by
    intro start hstart
    have hbefore := h.spent start (hlast ▸ hstart)
    rw [hlast] at hbefore
    rw [since_append, if_pos hstart]
    push_cast
    linarith
  refine ⟨h.rate_eq, ?_, h.last_le, ?_, ?_, ?_⟩
  · have htokens := h.tokens_le
    dsimp only
    linarith
  · intro packet hpacket
    obtain hpacket | hpacket := List.mem_append.mp hpacket
    · exact h.past packet hpacket
    · rw [List.mem_singleton.mp hpacket]
      exact Or.inl hlast.ge
  · intro start hstart
    dsimp only at hstart ⊢
    rw [hlast] at hstart ⊢
    exact hspent start hstart
  · intro start stop hle
    by_cases hwithin : start ≤ s.clock ∧ s.clock ≤ stop
    · have hsince := hspent start hwithin.1
      have htotal : (total ⟨{ s.bucket with tokens := s.bucket.tokens - bytes }, s.clock,
          s.admitted ++ [(s.clock, bytes)]⟩ start stop : ℚ) ≤ since _ start :=
        Nat.cast_le.mpr (total_le_since _ start stop)
      have hgain : (rate : ℚ) * (s.clock - start) ≤ rate * (stop - start) :=
        mul_le_mul_of_nonneg_left (by linarith [hwithin.2]) hpos.le
      linarith
    · rw [total_append, if_neg hwithin, Nat.add_zero]
      exact h.capped start stop hle

/-! ## Runs -/

theorem setRate_tokens_le {l : TokenBucket} (hrate : 0 < rate) (now : ℚ) :
    (l.setRate rate now).tokens ≤ TokenBucket.burst rate := by
  unfold TokenBucket.setRate
  rw [if_neg (not_le.mpr hrate)]
  dsimp only
  generalize (l.refillLocked now).tokens = tokens
  by_cases hover : TokenBucket.burst rate < tokens
  · rw [if_pos hover]
    split <;> exact le_refl _
  · rw [if_neg hover]
    split
    · exact le_refl _
    · exact not_lt.mp hover

theorem setRate_last {l : TokenBucket} (hrate : 0 < rate) (now : ℚ) :
    (l.setRate rate now).last = now := by
  unfold TokenBucket.setRate TokenBucket.refillLocked
  rw [if_neg (not_le.mpr hrate)]
  dsimp only
  split
  · rfl
  · split <;> rfl

theorem sound_start (l : TokenBucket) (hrate : 0 < rate) (now : ℚ) :
    (Shaping.start l rate now).Sound rate := by
  have hpos : (0 : ℚ) < rate := by exact_mod_cast hrate
  have hburst : (0 : ℚ) < TokenBucket.burst rate := by
    rw [burst_eq_max]
    exact lt_max_of_lt_right (by norm_num)
  have hlast := setRate_last (l := l) hrate now
  have htokens := setRate_tokens_le (l := l) hrate now
  refine ⟨?_, htokens, hlast.le, by simp [Shaping.start], ?_, ?_⟩
  · unfold Shaping.start TokenBucket.setRate
    rw [if_neg (not_le.mpr hrate)]
  · intro start hstart
    have hgain : 0 ≤ (rate : ℚ) * ((Shaping.start l rate now).bucket.last - start) :=
      mul_nonneg hpos.le (by linarith)
    rw [since_eq_zero (by simp [Shaping.start])]
    show ((0 : ℕ) : ℚ) + (l.setRate rate now).tokens ≤ _
    push_cast
    linarith
  · intro start stop hle
    have hgain : 0 ≤ (rate : ℚ) * (stop - start) := mul_nonneg hpos.le (by linarith)
    show ((0 : ℕ) : ℚ) ≤ _
    push_cast
    linarith

/-- An empty packet passes without a look at the bucket. -/
theorem Sound.pass (h : s.Sound rate) (hnow : s.clock ≤ now) :
    Sound rate ⟨s.bucket, now, s.admitted ++ [(now, 0)]⟩ := by
  refine ⟨h.rate_eq, h.tokens_le, h.last_le.trans hnow, ?_, ?_, ?_⟩
  · intro packet hpacket
    obtain hpacket | hpacket := List.mem_append.mp hpacket
    · exact h.past packet hpacket
    · rw [List.mem_singleton.mp hpacket]
      exact Or.inr rfl
  · intro start hstart
    rw [since_append, ite_self, Nat.add_zero]
    exact h.spent start hstart
  · intro start stop hle
    rw [total_append, ite_self, Nat.add_zero]
    exact h.capped start stop hle

theorem Sound.allow (h : s.Sound rate) (hrate : 0 < rate) (hnow : s.clock ≤ now) :
    Sound rate ⟨(s.bucket.allow bytes now).1, now,
      if (s.bucket.allow bytes now).2 then s.admitted ++ [(now, bytes)] else s.admitted⟩ := by
  have hpos : (0 : ℚ) < rate := by exact_mod_cast hrate
  have hrefilled := h.refill hrate hnow
  by_cases hbytes : bytes = 0
  · subst hbytes
    exact h.pass hnow
  · have hshapes : ¬ (s.bucket.refillLocked now).rate ≤ 0 := by
      rw [hrefilled.rate_eq]
      exact not_le.mpr hpos
    have hlast : (s.bucket.refillLocked now).last = now := by
      rw [refillLocked_eq (h.rate_eq ▸ hpos) (h.last_le.trans hnow)]
    unfold TokenBucket.allow
    rw [if_neg hbytes]
    dsimp only
    rw [if_neg hshapes]
    by_cases hshort : (s.bucket.refillLocked now).tokens < bytes
    · rw [if_pos hshort]
      exact hrefilled
    · rw [if_neg hshort]
      exact hrefilled.spend hrate hlast (not_lt.mp hshort)

theorem Sound.step (h : s.Sound rate) (hrate : 0 < rate) {l : Label}
    (hok : s.mintsNothing l = true) (hstep : s.step rate l = some t) : t.Sound rate := by
  cases l with
  | allow bytes current =>
    simp only [Shaping.step] at hstep
    split at hstep
    · rename_i hnow
      obtain rfl := Option.some.inj hstep
      exact h.allow hrate hnow
    · cases hstep
  | setRate current =>
    simp only [Shaping.step] at hstep
    split at hstep
    · rename_i hnow
      obtain rfl := Option.some.inj hstep
      rw [setRate_eq_refillLocked hrate h.rate_eq (h.last_le.trans hnow) (of_decide_eq_true hok)]
      exact h.refill hrate hnow
    · cases hstep

/-- **The bitrate cap holds over every interval** of a run in which no
`setRate` finds the bucket exactly empty. -/
theorem capped_of_mintsNothing {l : TokenBucket} {now : ℚ} (hrate : 0 < rate)
    (h : (lts l rate now).Reachable (fun s label => s.mintsNothing label = true) s) :
    s.Capped rate := by
  have hsound : s.Sound rate := Lts.Reachable.invariant_ofStep (sound_start l hrate now)
    (fun _ _ _ hs hok hstep => hs.step hrate hok hstep) h
  intro start stop hle
  rw [← burst_eq_max]
  exact hsound.capped start stop hle

/-- The rate is broadcast again while the bucket is nearly empty. -/
theorem capped_of_mintsNothing_sample :
    ∃ s : Shaping, s.total 0 1 = 1799 ∧ s.Capped 12000 := by
  obtain ⟨s, hs, hobs⟩ := Lts.exists_reachable_of_execWhen mintsNothing (step 12000)
    (Shaping.start ⟨0, 0, 0⟩ 12000 0)
    [.allow 1199 0, .setRate 0, .allow 100 0, .setRate (1 / 20), .allow 600 (1 / 20), .allow 2 (1 / 20)]
    (fun s => s.total 0 1) 1799 (by decide +kernel)
  exact ⟨s, hobs, capped_of_mintsNothing (by decide) hs⟩

/-- The same rate set on an empty bucket fills it: two bursts at one instant. -/
theorem not_capped_of_emptyBucket :
    ¬ ∀ (l : TokenBucket) (rate : ℤ) (now : ℚ) (s : Shaping), 0 < rate →
      (lts l rate now).Reachable Lts.Any s → s.Capped rate := by
  intro h
  obtain ⟨s, hs, hobs⟩ := Lts.exists_reachable_of_exec Lts.Any (step 12000)
    (Shaping.start ⟨0, 0, 0⟩ 12000 0) [.allow 1200 0, .setRate 0, .allow 1200 0]
    (fun s => s.total 0 0) 2400 (fun _ _ _ => trivial) (by decide +kernel)
  have hcapped := h ⟨0, 0, 0⟩ 12000 0 s (by decide) hs 0 0 (le_refl _)
  rw [hobs] at hcapped
  norm_num at hcapped

end Shaping

end SlowMeet.Media
