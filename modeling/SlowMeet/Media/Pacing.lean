import Mathlib.Algebra.Order.Floor.Ring
import Mathlib.Data.Rat.Floor
import SlowMeet.Media.Bitrate

/-!
# The pacer

`waitForBytes` of `internal/media/router.go`, which the one pacer of a
publication calls for a packet after another: a packet that finds too few
tokens waits for a timer and looks again, and one larger than the bucket pays
with tokens still to come. The rate may be broadcast again at any time.

Tokens and times are exact, but for a timer, which is set in whole
nanoseconds.
-/

namespace SlowMeet.Media

open Lib

/-- The packet that `waitForBytes` holds, and how many timers have fired for
it. -/
structure PacedPacket where
  bytes : ℕ
  deadline : ℚ
  oversizedPacket : Bool
  wakes : ℕ
  deriving DecidableEq

/-- A limiter, what its pacer has let through, and the packet it holds. -/
structure PacedLimiter where
  shaping : Shaping
  holding : Option PacedPacket
  stopped : Bool

namespace TokenBucket

variable (l : TokenBucket) (bytes : ℕ)

def oversizedPacket : Bool := decide (burst l.rate < bytes)

/-- The tokens a packet waits for. -/
def needed : ℚ := if l.oversizedPacket bytes then burst l.rate else bytes

/-- `time.Duration` drops what is less than a nanosecond. -/
def duration (seconds : ℚ) : ℚ := ⌊seconds * 1000000000⌋ / 1000000000

def waitFor : ℚ :=
  if duration ((l.needed bytes - l.tokens) / l.rate) < 1 / 1000 then 1 / 1000
  else duration ((l.needed bytes - l.tokens) / l.rate)

def spend : TokenBucket := { l with tokens := l.tokens - bytes }

end TokenBucket

namespace PacedLimiter

variable (s : PacedLimiter)

/-- A limiter whose rate has just been set, whatever it was before. -/
def start (l : TokenBucket) (rate : ℤ) (current : ℚ) : PacedLimiter :=
  ⟨Shaping.start l rate current, none, false⟩

/-- The loop of `waitForBytes` with a refilled bucket. -/
def look (l : TokenBucket) (bytes wakes : ℕ) (current : ℚ) : PacedLimiter :=
  if l.rate ≤ 0 then
    { s with shaping := ⟨l, current, s.shaping.admitted ++ [(current, bytes)]⟩, holding := none }
  else if bytes ≤ l.tokens then
    { s with
      shaping := ⟨l.spend bytes, current, s.shaping.admitted ++ [(current, bytes)]⟩
      holding := none }
  else
    { s with
      shaping := ⟨l, current, s.shaping.admitted⟩
      holding := some ⟨bytes, current + l.waitFor bytes, l.oversizedPacket bytes, wakes⟩ }

/-- `waitForBytes` up to its first timer. -/
def waitForBytes (bytes : ℕ) (current : ℚ) : PacedLimiter :=
  if bytes = 0 then
    { s with shaping := ⟨s.shaping.bucket, current, s.shaping.admitted ++ [(current, 0)]⟩ }
  else s.look (s.shaping.bucket.refillLocked current) bytes 0 current

/-- The timer fires: an oversized packet passes, another one looks again. -/
def wake (packet : PacedPacket) (current : ℚ) : PacedLimiter :=
  if packet.oversizedPacket then
    { s with
      shaping :=
        ⟨(s.shaping.bucket.refillLocked current).spend packet.bytes, current,
          s.shaping.admitted ++ [(current, packet.bytes)]⟩
      holding := none }
  else
    s.look (s.shaping.bucket.refillLocked current) packet.bytes (packet.wakes + 1) current

inductive Label
  /-- The pacer turns to its next packet. -/
  | packet (bytes : ℕ) (current : ℚ)
  | wake (current : ℚ)
  | setRate (current : ℚ)
  | stop

/-- A step, at a clock reading no older than the last. Every `setRate` sets the
same rate. -/
def step (rate : ℤ) (s : PacedLimiter) : Label → Option PacedLimiter
  | .packet bytes current =>
    if s.stopped = false ∧ s.holding = none ∧ s.shaping.clock ≤ current then
      some (s.waitForBytes bytes current)
    else none
  | .wake current =>
    match s.holding with
    | some packet =>
      if packet.deadline ≤ current ∧ s.shaping.clock ≤ current then some (s.wake packet current)
      else none
    | none => none
  | .setRate current =>
    if s.shaping.clock ≤ current then
      some { s with
        shaping := ⟨s.shaping.bucket.setRate rate current, current, s.shaping.admitted⟩ }
    else none
  | .stop => some { s with holding := none, stopped := true }

def lts (l : TokenBucket) (rate : ℤ) (current : ℚ) : Lts PacedLimiter Label :=
  .ofStep (start l rate current) (step rate)

/-- The packets have at most `size` bytes, and no `setRate` finds the bucket
exactly empty. -/
def within (size : ℕ) (s : PacedLimiter) : Label → Bool
  | .packet bytes _ => bytes ≤ size
  | .setRate current => (s.shaping.bucket.refillLocked current).tokens ≠ 0
  | _ => true

/-! ## Timers -/

/-- What passes in a nanosecond: a timer may fire so much too early. -/
def slack (rate : ℤ) : ℚ := (rate : ℚ) / 1000000000

section Timers

variable {l : TokenBucket} {rate : ℤ} {bytes : ℕ}

theorem duration_gt (seconds : ℚ) :
    seconds - 1 / 1000000000 < TokenBucket.duration seconds := by
  have hfloor := Int.lt_floor_add_one (seconds * 1000000000)
  unfold TokenBucket.duration
  rw [lt_div_iff₀ (by norm_num)]
  linarith

theorem waitFor_ge (l : TokenBucket) (bytes : ℕ) :
    1 / 1000 ≤ l.waitFor bytes ∧
      TokenBucket.duration ((l.needed bytes - l.tokens) / l.rate) ≤ l.waitFor bytes := by
  unfold TokenBucket.waitFor
  split_ifs with hshort
  · exact ⟨le_refl _, hshort.le⟩
  · exact ⟨not_lt.mp hshort, le_refl _⟩

/-- The first timer brings the tokens that were needed, but for the slack. -/
theorem needed_le_of_waitFor (hrate : 0 < rate) (hl : l.rate = rate) (bytes : ℕ) :
    l.needed bytes - slack rate ≤ l.tokens + rate * l.waitFor bytes := by
  have hpos : (0 : ℚ) < rate := by exact_mod_cast hrate
  have hgt := duration_gt ((l.needed bytes - l.tokens) / l.rate)
  have hge := (waitFor_ge l bytes).2
  have hwait : (l.needed bytes - l.tokens) / rate - 1 / 1000000000 ≤ l.waitFor bytes := by
    rw [hl] at hgt
    rw [hl] at hge
    linarith
  have hscaled := mul_le_mul_of_nonneg_left hwait hpos.le
  have hcancel : (rate : ℚ) * ((l.needed bytes - l.tokens) / rate - 1 / 1000000000) =
      l.needed bytes - l.tokens - slack rate := by
    unfold slack
    field_simp
  linarith

/-- The second one, which is no shorter than a millisecond, brings the slack. -/
theorem slack_le_of_waitFor (hrate : 0 < rate) (l : TokenBucket) (bytes : ℕ) :
    slack rate ≤ rate * l.waitFor bytes := by
  have hpos : (0 : ℚ) < rate := by exact_mod_cast hrate
  have hge := (waitFor_ge l bytes).1
  have hscaled := mul_le_mul_of_nonneg_left hge hpos.le
  unfold slack
  linarith

theorem needed_le_burst (l : TokenBucket) (bytes : ℕ) :
    l.needed bytes ≤ TokenBucket.burst l.rate := by
  unfold TokenBucket.needed TokenBucket.oversizedPacket
  split_ifs with hoversized
  · exact le_refl _
  · rw [decide_eq_true_eq, not_lt] at hoversized
    exact hoversized

end Timers

/-! ## The invariant -/

variable {s} {t : PacedLimiter} {rate : ℤ} {size bytes : ℕ} {now : ℚ}

/-- What a held packet will find when its timer fires. -/
structure Held (rate : ℤ) (size : ℕ) (l : TokenBucket) (packet : PacedPacket) : Prop where
  bytes_le : packet.bytes ≤ size
  oversized : packet.oversizedPacket = l.oversizedPacket packet.bytes
  wakes_le : packet.wakes ≤ 1
  covered : l.needed packet.bytes - (if packet.wakes = 0 then slack rate else 0) ≤
    l.tokens + rate * (max packet.deadline l.last - l.last)

/-- The part of the invariant that does not concern the held packet. -/
structure Metered (rate : ℤ) (size : ℕ) (s : Shaping) : Prop where
  rate_eq : s.bucket.rate = rate
  tokens_le : s.bucket.tokens ≤ TokenBucket.burst rate
  last_le : s.bucket.last ≤ s.clock
  past : ∀ packet ∈ s.admitted, packet.1 ≤ s.bucket.last ∨ packet.2 = 0
  /-- The debt of an oversized packet. -/
  floor : min 0 (TokenBucket.burst rate - slack rate - size) ≤ s.bucket.tokens
  spent : ∀ start, start ≤ s.bucket.last →
    (s.since start : ℚ) + s.bucket.tokens ≤
      TokenBucket.burst rate + rate * (s.bucket.last - start)
  capped : ∀ start stop, start ≤ stop →
    (s.total start stop : ℚ) ≤
      max (TokenBucket.burst rate) (size + slack rate) + rate * (stop - start)

structure Sound (rate : ℤ) (size : ℕ) (s : PacedLimiter) : Prop where
  metered : Metered rate size s.shaping
  held : ∀ packet, s.holding = some packet → Held rate size s.shaping.bucket packet

theorem Metered.refill {s : Shaping} (h : Metered rate size s) (hrate : 0 < rate)
    (hnow : s.clock ≤ now) :
    Metered rate size ⟨s.bucket.refillLocked now, now, s.admitted⟩ := by
  have hpos : (0 : ℚ) < rate := by exact_mod_cast hrate
  have hlast := h.last_le.trans hnow
  have hburst : (0 : ℚ) < TokenBucket.burst rate := by
    rw [Shaping.burst_eq_max]
    exact lt_max_of_lt_right (by norm_num)
  rw [Shaping.refillLocked_eq (h.rate_eq ▸ hpos) hlast]
  refine ⟨h.rate_eq, ?_, le_refl _, ?_, ?_, ?_, h.capped⟩
  · rw [← h.rate_eq]
    exact min_le_left _ _
  · intro packet hpacket
    exact (h.past packet hpacket).imp_left fun hpast => hpast.trans hlast
  · have hgain : 0 ≤ (now - s.bucket.last) * s.bucket.rate := by
      rw [h.rate_eq]
      exact mul_nonneg (by linarith) hpos.le
    have hfloor := h.floor
    apply le_min
    · rw [h.rate_eq]
      exact (min_le_left _ _).trans hburst.le
    · linarith
  · intro start hstart
    rw [h.rate_eq]
    dsimp only at hstart ⊢
    by_cases hbefore : start ≤ s.bucket.last
    · have hspent := h.spent start hbefore
      have htokens := min_le_right (TokenBucket.burst rate)
        (s.bucket.tokens + (now - s.bucket.last) * rate)
      show (s.since start : ℚ) + _ ≤ _
      linarith
    · have hnone : s.since start = 0 := by
        refine Shaping.since_eq_zero fun packet hpacket hlater => ?_
        exact (h.past packet hpacket).resolve_left fun hpast => hbefore (hlater.trans hpast)
      have htokens := min_le_left (TokenBucket.burst rate)
        (s.bucket.tokens + (now - s.bucket.last) * rate)
      have hgain : 0 ≤ (rate : ℚ) * (now - start) := mul_nonneg hpos.le (by linarith)
      show (s.since start : ℚ) + _ ≤ _
      rw [hnone]
      push_cast
      linarith

/-- A bucket refilled at a reading of the clock, or when the timer of a held
packet fires. -/
theorem refilled_tokens {l : TokenBucket} (hrate : 0 < rate) (hl : l.rate = rate)
    (hlast : l.last ≤ now) :
    l.refillLocked now =
      { l with
        tokens := min (TokenBucket.burst rate) (l.tokens + (now - l.last) * rate)
        last := now } := by
  have hpos : (0 : ℚ) < rate := by exact_mod_cast hrate
  rw [Shaping.refillLocked_eq (hl ▸ hpos) hlast, hl]

/-- The tokens that a held packet finds. -/
theorem Held.found {l : TokenBucket} {packet : PacedPacket} (h : Held rate size l packet)
    (hrate : 0 < rate) (hl : l.rate = rate) (hlast : l.last ≤ now)
    (hdeadline : packet.deadline ≤ now) :
    l.needed packet.bytes - (if packet.wakes = 0 then slack rate else 0) ≤
      (l.refillLocked now).tokens := by
  have hpos : (0 : ℚ) < rate := by exact_mod_cast hrate
  have hslack : 0 ≤ slack rate := div_nonneg hpos.le (by norm_num)
  have hneeded := needed_le_burst l packet.bytes
  have hcovered := h.covered
  rw [hl] at hneeded
  rw [refilled_tokens hrate hl hlast]
  apply le_min
  · split_ifs
    · linarith
    · linarith
  · have hmax : max packet.deadline l.last ≤ now := max_le hdeadline hlast
    have hgain : (rate : ℚ) * (max packet.deadline l.last - l.last) ≤ rate * (now - l.last) :=
      mul_le_mul_of_nonneg_left (by linarith) hpos.le
    linarith

/-- A refill before the timer fires leaves the rest of the wait. -/
theorem Held.refill {l : TokenBucket} {packet : PacedPacket} (h : Held rate size l packet)
    (hrate : 0 < rate) (hl : l.rate = rate) (hlast : l.last ≤ now) :
    Held rate size (l.refillLocked now) packet := by
  have hpos : (0 : ℚ) < rate := by exact_mod_cast hrate
  have hsame : (l.refillLocked now).rate = l.rate := by rw [refilled_tokens hrate hl hlast]
  have hnow : (l.refillLocked now).last = now := by rw [refilled_tokens hrate hl hlast]
  have hoversized : (l.refillLocked now).oversizedPacket packet.bytes =
      l.oversizedPacket packet.bytes := by
    unfold TokenBucket.oversizedPacket
    rw [hsame]
  have hneeded : (l.refillLocked now).needed packet.bytes = l.needed packet.bytes := by
    unfold TokenBucket.needed
    rw [hoversized, hsame]
  refine ⟨h.bytes_le, h.oversized.trans hoversized.symm, h.wakes_le, ?_⟩
  rw [hneeded, hnow]
  by_cases hdeadline : packet.deadline ≤ now
  · rw [max_eq_right hdeadline, sub_self, mul_zero, add_zero]
    exact h.found hrate hl hlast hdeadline
  · have hlater : now ≤ packet.deadline := (not_le.mp hdeadline).le
    have hcovered := h.covered
    have hburst := needed_le_burst l packet.bytes
    have hslack : 0 ≤ slack rate := div_nonneg hpos.le (by norm_num)
    have hrest : 0 ≤ (rate : ℚ) * (packet.deadline - now) :=
      mul_nonneg hpos.le (by linarith)
    rw [max_eq_left (hlast.trans hlater)] at hcovered
    rw [max_eq_left hlater, refilled_tokens hrate hl hlast]
    rw [hl] at hburst
    rcases min_choice (TokenBucket.burst rate) (l.tokens + (now - l.last) * rate) with hfull | hpart
    · dsimp only
      rw [hfull]
      split_ifs
      · linarith
      · linarith
    · dsimp only
      rw [hpart]
      linarith

/-- A packet takes its size out of the bucket, and may leave it in debt. -/
theorem Metered.pay {s : Shaping} (h : Metered rate size s) (hrate : 0 < rate)
    (hlast : s.bucket.last = s.clock)
    (hfloor : min 0 (TokenBucket.burst rate - slack rate - size) ≤ s.bucket.tokens - bytes) :
    Metered rate size ⟨s.bucket.spend bytes, s.clock, s.admitted ++ [(s.clock, bytes)]⟩ := by
  have hpos : (0 : ℚ) < rate := by exact_mod_cast hrate
  have hbytes₀ : (0 : ℚ) ≤ bytes := Nat.cast_nonneg bytes
  have hspent : ∀ start, start ≤ s.clock →
      (Shaping.since ⟨s.bucket.spend bytes, s.clock, s.admitted ++ [(s.clock, bytes)]⟩ start : ℚ) +
        (s.bucket.tokens - bytes) ≤ TokenBucket.burst rate + rate * (s.clock - start) := by
    intro start hstart
    have hbefore := h.spent start (hlast ▸ hstart)
    rw [hlast] at hbefore
    rw [Shaping.since_append, if_pos hstart]
    push_cast
    linarith
  refine ⟨h.rate_eq, ?_, h.last_le, ?_, hfloor, ?_, ?_⟩
  · have htokens := h.tokens_le
    show s.bucket.tokens - bytes ≤ _
    linarith
  · intro packet hpacket
    obtain hpacket | hpacket := List.mem_append.mp hpacket
    · exact h.past packet hpacket
    · rw [List.mem_singleton.mp hpacket]
      exact Or.inl hlast.ge
  · intro start hstart
    have hstart' : start ≤ s.bucket.last := hstart
    show _ ≤ TokenBucket.burst rate + rate * (s.bucket.last - start)
    rw [hlast] at hstart' ⊢
    exact hspent start hstart'
  · intro start stop hle
    by_cases hwithin : start ≤ s.clock ∧ s.clock ≤ stop
    · have hsince := hspent start hwithin.1
      have htotal : (Shaping.total
          ⟨s.bucket.spend bytes, s.clock, s.admitted ++ [(s.clock, bytes)]⟩ start stop : ℚ) ≤
            Shaping.since _ start :=
        Nat.cast_le.mpr (Shaping.total_le_since _ start stop)
      have hgain : (rate : ℚ) * (s.clock - start) ≤ rate * (stop - start) :=
        mul_le_mul_of_nonneg_left (by linarith [hwithin.2]) hpos.le
      rcases min_le_iff.mp hfloor with hpaid | hdebt
      · have hmax := le_max_left (TokenBucket.burst rate) (size + slack rate)
        linarith
      · have hmax := le_max_right (TokenBucket.burst rate) (size + slack rate)
        linarith
    · rw [Shaping.total_append, if_neg hwithin, Nat.add_zero]
      exact h.capped start stop hle

/-- An empty packet passes without a look at the bucket. -/
theorem Metered.pass {s : Shaping} (h : Metered rate size s) (hnow : s.clock ≤ now) :
    Metered rate size ⟨s.bucket, now, s.admitted ++ [(now, 0)]⟩ := by
  refine ⟨h.rate_eq, h.tokens_le, h.last_le.trans hnow, ?_, h.floor, ?_, ?_⟩
  · intro packet hpacket
    obtain hpacket | hpacket := List.mem_append.mp hpacket
    · exact h.past packet hpacket
    · rw [List.mem_singleton.mp hpacket]
      exact Or.inr rfl
  · intro start hstart
    rw [Shaping.since_append, ite_self, Nat.add_zero]
    exact h.spent start hstart
  · intro start stop hle
    rw [Shaping.total_append, ite_self, Nat.add_zero]
    exact h.capped start stop hle

theorem sound_of_metered (h : Metered rate size s.shaping) (hnone : s.holding = none) :
    s.Sound rate size := by
  refine ⟨h, fun packet hpacket => ?_⟩
  rw [hnone] at hpacket
  cases hpacket

/-- A look at a refilled bucket, the first one or one after a timer that
brought the tokens but for the slack. -/
theorem Sound.look {l : TokenBucket} {wakes : ℕ}
    (h : Metered rate size ⟨l, now, s.shaping.admitted⟩) (hrate : 0 < rate)
    (hlast : l.last = now) (hsize : bytes ≤ size)
    (hfirst : wakes = 0 ∨ l.oversizedPacket bytes = false ∧
      (wakes = 1 ∧ bytes - slack rate ≤ l.tokens ∨ bytes ≤ l.tokens)) :
    (s.look l bytes wakes now).Sound rate size := by
  have hpos : (0 : ℚ) < rate := by exact_mod_cast hrate
  have hl : l.rate = rate := h.rate_eq
  unfold PacedLimiter.look
  rw [if_neg (by rw [hl]; exact not_le.mpr hpos)]
  by_cases henough : (bytes : ℚ) ≤ l.tokens
  · rw [if_pos henough]
    apply sound_of_metered _ rfl
    apply h.pay hrate hlast
    apply (min_le_left _ _).trans
    show 0 ≤ l.tokens - bytes
    linarith
  · rw [if_neg henough]
    refine ⟨h, fun packet hpacket => ?_⟩
    obtain rfl := Option.some.inj hpacket
    have hwait := needed_le_of_waitFor hrate hl bytes
    have hshort := slack_le_of_waitFor hrate l bytes
    have hlater : now ≤ now + l.waitFor bytes := by
      have hge := (waitFor_ge l bytes).1
      linarith
    have hcovered : l.needed bytes - (if wakes = 0 then slack rate else 0) ≤
        l.tokens + rate * l.waitFor bytes := by
      obtain rfl | ⟨hoversized, ⟨rfl, hslack⟩ | hpaid⟩ := hfirst
      · rw [if_pos rfl]
        exact hwait
      · have hneeded : l.needed bytes = bytes := by
          unfold TokenBucket.needed
          rw [hoversized]
          rfl
        rw [hneeded, if_neg one_ne_zero]
        linarith
      · exact absurd hpaid henough
    refine ⟨hsize, rfl, ?_, ?_⟩
    · obtain rfl | ⟨-, ⟨rfl, -⟩ | hpaid⟩ := hfirst
      · exact Nat.zero_le _
      · exact le_refl _
      · exact absurd hpaid henough
    · show l.needed bytes - (if wakes = 0 then slack rate else 0) ≤
        l.tokens + rate * (max (now + l.waitFor bytes) l.last - l.last)
      rw [hlast, max_eq_left hlater, add_sub_cancel_left]
      exact hcovered

theorem Sound.waitForBytes (h : s.Sound rate size) (hrate : 0 < rate) (hsize : bytes ≤ size)
    (hnone : s.holding = none) (hnow : s.shaping.clock ≤ now) :
    (s.waitForBytes bytes now).Sound rate size := by
  unfold PacedLimiter.waitForBytes
  split_ifs with hbytes
  · exact sound_of_metered (h.metered.pass hnow) hnone
  · have hlast : (s.shaping.bucket.refillLocked now).last = now := by
      rw [refilled_tokens hrate h.metered.rate_eq (h.metered.last_le.trans hnow)]
    exact Sound.look (h.metered.refill hrate hnow) hrate hlast hsize (Or.inl rfl)

theorem Sound.wake (h : s.Sound rate size) (hrate : 0 < rate) {packet : PacedPacket}
    (hholding : s.holding = some packet) (hdeadline : packet.deadline ≤ now)
    (hnow : s.shaping.clock ≤ now) : (s.wake packet now).Sound rate size := by
  have hl := h.metered.rate_eq
  have hpast := h.metered.last_le.trans hnow
  have hheld := h.held packet hholding
  have hfound := hheld.found hrate hl hpast hdeadline
  have hrefilled := h.metered.refill hrate hnow
  have hlast : (s.shaping.bucket.refillLocked now).last = now := by
    rw [refilled_tokens hrate hl hpast]
  have hsame : (s.shaping.bucket.refillLocked now).rate = s.shaping.bucket.rate := by
    rw [refilled_tokens hrate hl hpast]
  unfold PacedLimiter.wake
  split_ifs with hoversized
  · -- the packet waited for a full bucket
    apply sound_of_metered _ rfl
    apply hrefilled.pay hrate hlast
    have hneeded : s.shaping.bucket.needed packet.bytes = TokenBucket.burst rate := by
      unfold TokenBucket.needed
      rw [← hheld.oversized, hoversized, hl]
      rfl
    have hsize : (packet.bytes : ℚ) ≤ size := Nat.cast_le.mpr hheld.bytes_le
    have hpos : (0 : ℚ) < rate := by exact_mod_cast hrate
    have hslack : 0 ≤ slack rate := div_nonneg hpos.le (by norm_num)
    rw [hneeded] at hfound
    apply (min_le_right _ _).trans
    show TokenBucket.burst rate - slack rate - size ≤
      (s.shaping.bucket.refillLocked now).tokens - packet.bytes
    split_ifs at hfound
    · linarith
    · linarith
  · have hfits : s.shaping.bucket.oversizedPacket packet.bytes = false := by
      rw [← hheld.oversized]
      simpa using hoversized
    have hneeded : s.shaping.bucket.needed packet.bytes = packet.bytes := by
      unfold TokenBucket.needed
      rw [hfits]
      rfl
    rw [hneeded] at hfound
    apply Sound.look hrefilled hrate hlast hheld.bytes_le
    right
    constructor
    · unfold TokenBucket.oversizedPacket at hfits ⊢
      rw [hsame]
      exact hfits
    · have hwakes := hheld.wakes_le
      by_cases hfirst : packet.wakes = 0
      · rw [if_pos hfirst] at hfound
        left
        exact ⟨by omega, hfound⟩
      · rw [if_neg hfirst, sub_zero] at hfound
        right
        exact hfound

/-! ## Runs -/

/-- A refill is never a loss. -/
theorem refillLocked_tokens_nonneg {l : TokenBucket} (htokens : 0 ≤ l.tokens) (now : ℚ) :
    0 ≤ (l.refillLocked now).tokens := by
  unfold TokenBucket.refillLocked
  split_ifs with hback hrate
  · exact htokens
  · have hgain : 0 ≤ (now - l.last) * l.rate := mul_nonneg (by linarith) hrate.le
    dsimp only
    split_ifs
    · rw [Shaping.burst_eq_max]
      exact le_max_of_le_right (by norm_num)
    · linarith
  · exact htokens

theorem setRate_tokens_nonneg {l : TokenBucket} (hrate : 0 < rate) (htokens : 0 ≤ l.tokens)
    (now : ℚ) : 0 ≤ (l.setRate rate now).tokens := by
  have hrefilled := refillLocked_tokens_nonneg htokens now
  have hburst : (0 : ℚ) ≤ TokenBucket.burst rate := by
    rw [Shaping.burst_eq_max]
    exact le_max_of_le_right (by norm_num)
  unfold TokenBucket.setRate
  rw [if_neg (not_le.mpr hrate)]
  dsimp only
  split_ifs
  · exact hburst
  · exact hburst
  · exact hburst
  · exact hrefilled

theorem sound_start {l : TokenBucket} (hrate : 0 < rate) (htokens : 0 ≤ l.tokens) (now : ℚ) :
    (PacedLimiter.start l rate now).Sound rate size := by
  have hshaping := Shaping.sound_start l hrate now
  apply sound_of_metered _ rfl
  refine ⟨hshaping.rate_eq, hshaping.tokens_le, hshaping.last_le, hshaping.past, ?_,
    hshaping.spent, ?_⟩
  · apply (min_le_left _ _).trans
    exact setRate_tokens_nonneg hrate htokens now
  · intro start stop hle
    have hcapped := hshaping.capped start stop hle
    have hmax := le_max_left (TokenBucket.burst rate) (size + slack rate)
    show (Shaping.total (Shaping.start l rate now) start stop : ℚ) ≤ _
    linarith

theorem Sound.step (h : s.Sound rate size) (hrate : 0 < rate) {l : Label}
    (hok : s.within size l = true) (hstep : s.step rate l = some t) : t.Sound rate size := by
  cases l with
  | packet bytes current =>
    simp only [PacedLimiter.step, Option.ite_none_right_eq_some, Option.some.injEq] at hstep
    obtain ⟨⟨-, hnone, hnow⟩, rfl⟩ := hstep
    exact h.waitForBytes hrate (of_decide_eq_true hok) hnone hnow
  | wake current =>
    simp only [PacedLimiter.step] at hstep
    cases hholding : s.holding with
    | none => simp [hholding] at hstep
    | some packet =>
      simp only [hholding, Option.ite_none_right_eq_some, Option.some.injEq] at hstep
      obtain ⟨⟨hdeadline, hnow⟩, rfl⟩ := hstep
      exact h.wake hrate hholding hdeadline hnow
  | setRate current =>
    simp only [PacedLimiter.step, Option.ite_none_right_eq_some, Option.some.injEq] at hstep
    obtain ⟨hnow, rfl⟩ := hstep
    have hl := h.metered.rate_eq
    have hlast := h.metered.last_le.trans hnow
    rw [Shaping.setRate_eq_refillLocked hrate hl hlast (of_decide_eq_true hok)]
    exact ⟨h.metered.refill hrate hnow, fun packet hpacket =>
      (h.held packet hpacket).refill hrate hl hlast⟩
  | stop =>
    cases hstep
    exact sound_of_metered h.metered rfl

/-- **The pacer holds the cap, and no packet for long.** While a rate is
broadcast again and again to a limiter that was not in debt, but never to an
exactly empty bucket, the packets that pass in any interval exceed the rate by
the bucket or by one packet, and none waits for a third timer. -/
theorem capped_and_wakes_le {l : TokenBucket} {now : ℚ} (hrate : 0 < rate)
    (htokens : 0 ≤ l.tokens)
    (h : (lts l rate now).Reachable (fun s label => s.within size label = true) s) :
    (∀ start stop, start ≤ stop →
      (s.shaping.total start stop : ℚ) ≤
        max (max ((rate : ℚ) / 10) 1200) (size + (rate : ℚ) / 1000000000) +
          rate * (stop - start)) ∧
      ∀ packet, s.holding = some packet → packet.wakes ≤ 1 := by
  have hsound : s.Sound rate size := Lts.Reachable.invariant_ofStep
    (sound_start hrate htokens now) (fun _ _ _ hs hok hstep => hs.step hrate hok hstep) h
  constructor
  · intro start stop hle
    rw [← Shaping.burst_eq_max]
    exact hsound.metered.capped start stop hle
  · intro packet hpacket
    exact (hsound.held packet hpacket).wakes_le

/-- An oversized packet pays with tokens to come, and the next one waits. -/
theorem capped_and_wakes_le_oversized :
    ∃ s : PacedLimiter, s.shaping.total 0 1 = 3000 ∧ s.holding.map (·.bytes) = some 600 ∧
      (s.shaping.total 0 1 : ℚ) ≤ max (max (12000 / 10) 1200) (3000 + 12000 / 1000000000) +
        12000 * (1 - 0) := by
  obtain ⟨s, hs, hobs⟩ := Lts.exists_reachable_of_execWhen (within 3000) (step 12000)
    (PacedLimiter.start ⟨0, 0, 0⟩ 12000 0)
    [.packet 3000 0, .setRate (1 / 2000), .wake (1 / 1000), .packet 600 (1 / 1000)]
    (fun s => (s.shaping.total 0 1, s.holding.map (·.bytes))) (3000, some 600)
    (by decide +kernel)
  obtain ⟨htotal, hholding⟩ := Prod.mk.inj hobs
  refine ⟨s, htotal, hholding, ?_⟩
  have hcapped := (capped_and_wakes_le (by decide) (le_refl _) hs).1 0 1 (by norm_num)
  push_cast at hcapped
  exact hcapped

end PacedLimiter

end SlowMeet.Media
