import Mathlib.Data.Finset.Card
import SlowMeet.Lib.Lts

/-!
# The frame rate cap

The frame side of a `bitrateLimiter`: a frame passes when its timestamp is a
whole frame interval after the last one that passed. Timestamps are of the
90 kHz clock and wrap; the frames a limiter is shown have their unwrapped
timestamps beside them.
-/

namespace SlowMeet.Media

open Lib

/-- The frame fields of a `bitrateLimiter`. -/
structure FrameRate where
  maxFPS : ℤ
  haveFrame : Bool
  lastFrameTimestamp : BitVec 32
  currentFrame : BitVec 32
  currentFrameAllowed : Bool
  deriving DecidableEq

namespace FrameRate

/-- The zero value. -/
def zero : FrameRate := ⟨0, false, 0, 0, false⟩

def setFPS (l : FrameRate) (fps : ℤ) : FrameRate := { l with maxFPS := fps, haveFrame := false }

/-- `uint32(90000 / l.maxFPS)`, for a positive rate. -/
def minTicks (l : FrameRate) : BitVec 32 := BitVec.ofNat 32 (90000 / l.maxFPS.toNat)

/-- Whether a timestamp other than the current one is let through. -/
def admits (l : FrameRate) (timestamp : BitVec 32) : Bool :=
  !(l.haveFrame && decide (0 < l.minTicks) &&
    decide (timestamp - l.lastFrameTimestamp < l.minTicks))

def allowFrame (l : FrameRate) (timestamp : BitVec 32) : FrameRate × Bool :=
  if l.maxFPS ≤ 0 then (l, true)
  else if l.haveFrame && l.currentFrame == timestamp then (l, l.currentFrameAllowed)
  else
    let allowed := l.admits timestamp
    ({ l with
        lastFrameTimestamp :=
          if allowed || !l.haveFrame then timestamp else l.lastFrameTimestamp
        haveFrame := true
        currentFrame := timestamp
        currentFrameAllowed := allowed }, allowed)

end FrameRate

/-- A limiter with the frames it was shown: the timestamp of the last, that of
the last that passed, those of all that passed, and where the stream stood at
each `setFPS`. -/
structure FrameRun where
  rate : FrameRate
  clock : ℕ
  last : ℕ
  passed : Finset ℕ
  broadcasts : List ℕ
  deriving DecidableEq

namespace FrameRun

inductive Label
  | frame (timestamp : ℕ)
  | setFPS (fps : ℤ)
  deriving DecidableEq

def start (fps : ℤ) : FrameRun := ⟨FrameRate.zero.setFPS fps, 0, 0, ∅, []⟩

/-- A call. The frames come in the order of their timestamps. -/
def step (s : FrameRun) : Label → Option FrameRun
  | .frame timestamp =>
    if s.clock ≤ timestamp then
      let answer := s.rate.allowFrame (BitVec.ofNat 32 timestamp)
      some { s with
        rate := answer.1
        clock := timestamp
        last := if answer.2 then timestamp else s.last
        passed := if answer.2 then insert timestamp s.passed else s.passed }
    else none
  | .setFPS fps => some { s with
      rate := s.rate.setFPS fps
      broadcasts := s.broadcasts ++ [s.clock] }

def lts (fps : ℤ) : Lts FrameRun Label := .ofStep (start fps) step

/-- Every `setFPS` sets the same rate, as repeated broadcasts of one
configuration do. -/
def Same (fps : ℤ) (_ : FrameRun) : Label → Prop
  | .frame _ => True
  | .setFPS n => n = fps

/-- How many frames of an interval passed. -/
def frames (s : FrameRun) (start stop : ℕ) : ℕ :=
  (s.passed.filter fun t => start ≤ t ∧ t ≤ stop).card

/-- How many broadcasts fell into an interval. -/
def resets (s : FrameRun) (start stop : ℕ) : ℕ :=
  (s.broadcasts.filter fun t => start ≤ t ∧ t ≤ stop).length

/-- A broadcast makes room for one frame, while the stream is in the
interval. -/
def credit (s : FrameRun) (stop : ℕ) : ℕ := if s.rate.haveFrame || stop < s.clock then 0 else 1

variable {s t : FrameRun} {fps : ℤ} {l : Label}

/-! ## Wrapping -/

/-- The distance of two wrapped timestamps is no more than that of the
timestamps. -/
theorem toNat_sub_le {a b : ℕ} (hle : a ≤ b) :
    (BitVec.ofNat 32 b - BitVec.ofNat 32 a).toNat ≤ b - a := by
  rw [BitVec.toNat_sub, BitVec.toNat_ofNat, BitVec.toNat_ofNat]
  omega

theorem le_of_ofNat_eq {a b : ℕ} (hle : a ≤ b) (he : BitVec.ofNat 32 a = BitVec.ofNat 32 b) :
    a = b ∨ a + 4294967296 ≤ b := by
  have he := congrArg BitVec.toNat he
  rw [BitVec.toNat_ofNat, BitVec.toNat_ofNat] at he
  omega

theorem toNat_minTicks (r : FrameRate) : r.minTicks.toNat = 90000 / r.maxFPS.toNat := by
  have hle : 90000 / r.maxFPS.toNat ≤ 90000 := Nat.div_le_self _ _
  rw [FrameRate.minTicks, BitVec.toNat_ofNat, Nat.mod_eq_of_lt (by omega)]

/-! ## The limiter -/

/-- What the limiter remembers of the frames. -/
structure Follows (fps : ℤ) (s : FrameRun) : Prop where
  maxFPS : s.rate.maxFPS = fps
  last_le : s.last ≤ s.clock
  passed_le : ∀ t ∈ s.passed, t ≤ s.last
  last_mem : s.passed.Nonempty → s.last ∈ s.passed
  current : s.rate.haveFrame = true → s.rate.currentFrame = BitVec.ofNat 32 s.clock
  lastFrame : s.rate.haveFrame = true → s.rate.lastFrameTimestamp = BitVec.ofNat 32 s.last
  allowed : s.rate.haveFrame = true → s.rate.currentFrameAllowed = true → s.last = s.clock

theorem follows_start (fps : ℤ) : (start fps).Follows fps where
  maxFPS := rfl
  last_le := Nat.le_refl _
  passed_le _ ht := absurd ht (Finset.notMem_empty _)
  last_mem h := absurd h Finset.not_nonempty_empty
  current h := by cases h
  lastFrame h := by cases h
  allowed h := by cases h

/-- What becomes of a frame: it passes with a whole interval since the last,
or as the first since a broadcast, or it does not pass. -/
inductive Presents (fps : ℤ) (s t : FrameRun) (timestamp : ℕ) : Prop
  | passed (hlast : t.last = timestamp) (hpassed : t.passed = insert timestamp s.passed)
      (hframe : t.rate.haveFrame = true)
      (hspaced : s.rate.haveFrame = true → timestamp = s.last ∨
        s.last + 90000 / fps.toNat ≤ timestamp)
  | held (hlast : t.last = s.last) (hpassed : t.passed = s.passed)
      (hframe : s.rate.haveFrame = true ∧ t.rate.haveFrame = true)

theorem presents_step (hfps : 0 < fps) (hs : s.Follows fps) {timestamp : ℕ}
    (hstep : s.step (.frame timestamp) = some t) :
    s.clock ≤ timestamp ∧ t.clock = timestamp ∧ t.broadcasts = s.broadcasts ∧ t.Follows fps ∧
      Presents fps s t timestamp := by
  simp only [step, Option.ite_none_right_eq_some, Option.some.injEq] at hstep
  obtain ⟨hle, rfl⟩ := hstep
  have hpositive : ¬ s.rate.maxFPS ≤ 0 := by rw [hs.maxFPS]; omega
  have hlast := hs.last_le
  refine ⟨hle, rfl, rfl, ?_⟩
  have hinsert : ∀ u ∈ insert timestamp s.passed, u ≤ timestamp := by
    intro u hu
    rcases Finset.mem_insert.mp hu with rfl | hu
    · exact Nat.le_refl _
    · exact (hs.passed_le u hu).trans (hlast.trans hle)
  by_cases hsame : (s.rate.haveFrame && s.rate.currentFrame == BitVec.ofNat 32 timestamp) = true
  · -- the current frame again, or one a whole turn of the clock later
    obtain ⟨hhave, hcurrent⟩ := Bool.and_eq_true_iff.mp hsame
    have hturn := le_of_ofNat_eq hle ((hs.current hhave).symm.trans (beq_iff_eq.mp hcurrent))
    have hbound : 90000 / fps.toNat ≤ 90000 := Nat.div_le_self _ _
    simp only [FrameRate.allowFrame, if_neg hpositive, if_pos hsame]
    cases hallowed : s.rate.currentFrameAllowed with
    | true =>
      have hclock := hs.allowed hhave hallowed
      refine ⟨⟨hs.maxFPS, Nat.le_refl _, hinsert, fun _ => Finset.mem_insert_self _ _,
        fun _ => beq_iff_eq.mp hcurrent, fun h => ?_, fun _ _ => rfl⟩,
        .passed rfl rfl hhave fun _ => by omega⟩
      rw [hs.lastFrame h, hclock, ← hs.current h]
      exact beq_iff_eq.mp hcurrent
    | false =>
      refine ⟨⟨hs.maxFPS, hlast.trans hle, hs.passed_le, hs.last_mem,
        fun _ => beq_iff_eq.mp hcurrent, hs.lastFrame, fun _ h => ?_⟩,
        .held rfl rfl ⟨hhave, hhave⟩⟩
      rw [hallowed] at h
      cases h
  · simp only [FrameRate.allowFrame, if_neg hpositive, if_neg hsame]
    cases hadmits : s.rate.admits (BitVec.ofNat 32 timestamp) with
    | true =>
      refine ⟨⟨hs.maxFPS, Nat.le_refl _, hinsert, fun _ => Finset.mem_insert_self _ _,
        fun _ => rfl, fun _ => rfl, fun _ _ => rfl⟩,
        .passed rfl rfl rfl fun hhave => Or.inr ?_⟩
      -- the interval is not shorter than the wrapped one
      have hticks := toNat_minTicks s.rate
      rw [hs.maxFPS] at hticks
      have hwrapped := toNat_sub_le (hlast.trans hle)
      rw [← hs.lastFrame hhave] at hwrapped
      simp only [FrameRate.admits, hhave, Bool.true_and, Bool.not_eq_true', Bool.and_eq_false_iff,
        decide_eq_false_iff_not, BitVec.lt_def, not_lt] at hadmits
      have hzero : (0 : BitVec 32).toNat = 0 := rfl
      omega
    | false =>
      have hhave : s.rate.haveFrame = true := by
        by_contra hnone
        simp [FrameRate.admits, Bool.eq_false_iff.mpr hnone] at hadmits
      refine ⟨⟨hs.maxFPS, hlast.trans hle, hs.passed_le, hs.last_mem, fun _ => rfl,
        fun _ => ?_, fun _ h => ?_⟩, .held rfl rfl ⟨hhave, rfl⟩⟩
      · simp only [hhave, Bool.not_true, Bool.or_self, Bool.false_eq_true, if_false]
        exact hs.lastFrame hhave
      · cases h

theorem Follows.step (hs : s.Follows fps) (hfps : 0 < fps) (hok : Same fps s l)
    (hstep : s.step l = some t) : t.Follows fps := by
  cases l with
  | frame timestamp => exact (presents_step hfps hs hstep).2.2.2.1
  | setFPS n =>
    obtain rfl : n = fps := hok
    obtain rfl := Option.some.inj hstep
    exact ⟨rfl, hs.last_le, hs.passed_le, hs.last_mem, fun h => (by cases h), fun h => (by cases h),
      fun h => (by cases h)⟩

/-! ## The frames of an interval -/

/-- The frames that passed in an interval, and the one a broadcast has made
room for, are a frame interval apart but for one at each broadcast. -/
def Spaced (fps : ℤ) (start stop : ℕ) (s : FrameRun) : Prop :=
  s.frames start stop ≠ 0 →
    (s.frames start stop + s.credit stop) * (90000 / fps.toNat) + start ≤
      min s.last stop + (1 + s.resets start stop) * (90000 / fps.toNat)

theorem frames_insert {timestamp : ℕ} (start stop : ℕ)
    (hpassed : t.passed = insert timestamp s.passed) :
    t.frames start stop ≤ s.frames start stop + 1 ∧
      (¬ (start ≤ timestamp ∧ timestamp ≤ stop) → t.frames start stop = s.frames start stop) ∧
      (timestamp ∈ s.passed → t.frames start stop = s.frames start stop) := by
  unfold frames
  rw [hpassed, Finset.filter_insert]
  refine ⟨?_, fun hout => by rw [if_neg hout], fun hmem => ?_⟩
  · split
    · exact Finset.card_insert_le _ _
    · exact Nat.le_succ _
  · split
    · next hin => rw [Finset.insert_eq_of_mem (Finset.mem_filter.mpr ⟨hmem, hin⟩)]
    · rfl

/-- Whoever passed in an interval passed after its start. -/
theorem start_le_last (hs : s.Follows fps) {start stop : ℕ} (hframes : s.frames start stop ≠ 0) :
    start ≤ s.last := by
  obtain ⟨u, hu⟩ := Finset.card_ne_zero.mp hframes
  obtain ⟨hmem, hin⟩ := Finset.mem_filter.mp hu
  exact hin.1.trans (hs.passed_le u hmem)

theorem Spaced.frame {start stop timestamp : ℕ} (hspaced : s.Spaced fps start stop)
    (hs : s.Follows fps) (hfps : 0 < fps) (hstep : s.step (.frame timestamp) = some t) :
    t.Spaced fps start stop := by
  obtain ⟨hle, hclock, hbroadcasts, hfollows, hpresents⟩ := presents_step hfps hs hstep
  have hresets : t.resets start stop = s.resets start stop := by rw [resets, hbroadcasts]; rfl
  have hlast := hs.last_le
  intro hframes
  rw [hresets]
  cases hpresents with
  | held hsame hpassed hframe =>
    have hcount : t.frames start stop = s.frames start stop := by rw [frames, hpassed]; rfl
    have hkept := hspaced (hcount ▸ hframes)
    rw [credit, hframe.1] at hkept
    rw [hcount, hsame, credit, hframe.2]
    exact hkept
  | passed hlast' hpassed hframe hinterval =>
    obtain ⟨hcount, hout, hin⟩ := frames_insert start stop hpassed
    have hcredit : t.credit stop = 0 := by rw [credit, hframe]; rfl
    rw [hcredit, hlast', Nat.add_zero]
    by_cases hwindow : start ≤ timestamp ∧ timestamp ≤ stop
    · rw [Nat.min_eq_left hwindow.2]
      by_cases hzero : s.frames start stop = 0
      · -- the first of the interval
        have hone := Nat.mul_le_mul_right (90000 / fps.toNat) (hzero ▸ hcount)
        rw [Nat.add_mul]
        omega
      · have hkept := hspaced hzero
        have hmul := Nat.mul_le_mul_right (90000 / fps.toNat) hcount
        rw [Nat.add_mul] at hmul hkept
        by_cases hhave : s.rate.haveFrame = true
        · rcases hinterval hhave with rfl | hafter
          · obtain ⟨u, hu⟩ := Finset.card_ne_zero.mp hzero
            rw [hin (hs.last_mem ⟨u, (Finset.mem_filter.mp hu).1⟩)]
            omega
          · omega
        · -- a broadcast has made room for it
          have hroom : s.credit stop = 1 := by
            rw [credit, Bool.eq_false_iff.mpr hhave, Bool.false_or, if_neg]
            rw [decide_eq_true_eq]
            omega
          rw [hroom] at hkept
          omega
    · rw [hout hwindow] at hframes ⊢
      have hkept := hspaced hframes
      have hstart := start_le_last hs hframes
      rw [Nat.add_mul] at hkept
      omega

theorem Spaced.setFPS {start stop : ℕ} {n : ℤ} (hspaced : s.Spaced fps start stop)
    (hs : s.Follows fps) (hstep : s.step (.setFPS n) = some t) : t.Spaced fps start stop := by
  have hlast := hs.last_le
  intro hframes
  have hcount : t.frames start stop = s.frames start stop := by
    obtain rfl := Option.some.inj hstep
    rfl
  rw [hcount] at hframes ⊢
  have hkept := hspaced hframes
  have hstart := start_le_last hs hframes
  have hsame : t.last = s.last := by
    obtain rfl := Option.some.inj hstep
    rfl
  rw [hsame]
  by_cases hpast : stop < s.clock
  · -- a broadcast behind the interval makes room for nothing in it
    have hcredit : t.credit stop = 0 := by
      obtain rfl := Option.some.inj hstep
      simp [credit, hpast]
    have hresets : t.resets start stop = s.resets start stop := by
      obtain rfl := Option.some.inj hstep
      have hout : ¬ (start ≤ s.clock ∧ s.clock ≤ stop) := fun h => absurd hpast (Nat.not_lt.mpr h.2)
      simp [resets, List.filter_append, hout]
    rw [hcredit, hresets, Nat.add_zero]
    rw [Nat.add_mul] at hkept
    omega
  · have hcredit : t.credit stop = 1 := by
      obtain rfl := Option.some.inj hstep
      simp [credit, FrameRate.setFPS, hpast]
    have hresets : t.resets start stop = s.resets start stop + 1 := by
      obtain rfl := Option.some.inj hstep
      have hin : start ≤ s.clock ∧ s.clock ≤ stop := ⟨hstart.trans hlast, Nat.not_lt.mp hpast⟩
      simp [resets, List.filter_append, hin]
    rw [hcredit, hresets]
    simp only [Nat.add_mul, Nat.one_mul] at hkept ⊢
    omega

theorem spaced_of_reachable (hfps : 0 < fps) (hr : (lts fps).Reachable (Same fps) s)
    (start stop : ℕ) : s.Follows fps ∧ s.Spaced fps start stop := by
  refine hr.invariant_ofStep (I := fun s => s.Follows fps ∧ s.Spaced fps start stop)
    ⟨follows_start fps, fun h => absurd rfl h⟩ ?_
  intro s l t hs hok hstep
  refine ⟨hs.1.step hfps hok hstep, ?_⟩
  cases l with
  | frame timestamp => exact hs.2.frame hs.1 hfps hstep
  | setFPS n => exact hs.2.setFPS hs.1 hstep

/-- **The frame rate cap**: in every interval of the stream the frames that
pass, less one and less the broadcasts of the rate within it, fill a frame
interval each. -/
theorem frames_mul_le (hfps : 0 < fps) (hr : (lts fps).Reachable (Same fps) s) {start stop : ℕ}
    (hle : start ≤ stop) :
    s.frames start stop * (90000 / fps.toNat) ≤
      stop - start + (1 + s.resets start stop) * (90000 / fps.toNat) := by
  obtain ⟨-, hspaced⟩ := spaced_of_reachable hfps hr start stop
  by_cases hzero : s.frames start stop = 0
  · rw [hzero, Nat.zero_mul]
    exact Nat.zero_le _
  · have hkept := hspaced hzero
    rw [Nat.add_mul] at hkept
    omega

/-- Ten frames a second of a stream of thirty, with a broadcast between. -/
theorem frames_mul_le_thinned : ∃ s, (lts 10).Reachable (Same 10) s ∧
    s.frames 0 90000 * (90000 / (10 : ℤ).toNat) ≤
      90000 - 0 + (1 + s.resets 0 90000) * (90000 / (10 : ℤ).toNat) ∧
    s.frames 0 90000 = 4 ∧ s.resets 0 90000 = 1 := by
  obtain ⟨s, hr, ho⟩ := Lts.exists_reachable_of_exec (Same 10) step (start 10)
    [.frame 0, .frame 3000, .frame 6000, .frame 9000, .setFPS 10, .frame 12000, .frame 15000,
      .frame 18000, .frame 21000]
    (fun s => (s.frames 0 90000, s.resets 0 90000)) (4, 1)
    (fun l hl s => by cases l <;> simp_all [Same]) (by decide)
  obtain ⟨hframes, hresets⟩ := Prod.mk.inj ho
  exact ⟨s, hr, frames_mul_le (by decide) hr (by decide), hframes, hresets⟩

end FrameRun

end SlowMeet.Media
