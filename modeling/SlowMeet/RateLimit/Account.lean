import Mathlib.Data.List.Perm.Basic
import Mathlib.Tactic.Ring
import SlowMeet.RateLimit.Limiter

/-!
# What one key is charged

A bucket charged in the order of the readings gains no more than the rate
allows, and what it holds and still gets back never exceeds the burst. The
burst and the time of a window then pay for its failures.
-/

namespace SlowMeet.RateLimit

open Lib

/-! ## One bucket -/

section Bucket

variable {b : Bucket} {rate burst now : ℚ}

theorem refill_le_add (hrate : 0 ≤ rate) (hlast : b.last ≤ now) :
    (b.refill rate burst now).tokens ≤ b.tokens + rate * (now - b.last) := by
  have hgain : 0 ≤ rate * (now - b.last) := mul_nonneg hrate (by linarith)
  unfold Bucket.refill
  by_cases helapsed : 0 < now - b.last
  · simp only [if_pos helapsed]
    have hmin := min_le_left (b.tokens + (now - b.last) * rate) burst
    linarith
  · simp only [if_neg helapsed]
    linarith

theorem refill_nonneg (hrate : 0 ≤ rate) (hburst : 0 ≤ burst) (htokens : 0 ≤ b.tokens) :
    0 ≤ (b.refill rate burst now).tokens := by
  unfold Bucket.refill
  by_cases helapsed : 0 < now - b.last
  · simp only [if_pos helapsed]
    have hgain : 0 ≤ (now - b.last) * rate := mul_nonneg helapsed.le hrate
    exact le_min (by linarith) hburst
  · simpa only [if_neg helapsed] using htokens

/-- A new bucket is full. -/
theorem refill_new : (Bucket.refill ⟨burst, now⟩ rate burst now).tokens = burst := by
  simp [Bucket.refill]

end Bucket

/-! ## One key -/

/-- What is known of one key: its bucket, the reading it was last charged at,
and its granted attempts that have not been refunded. -/
structure Account where
  bucket : Option Bucket
  charged : Option ℚ
  attempts : List Attempt

namespace Account

variable {x y : Account} {rate burst now start stop : ℚ}

def failures (x : Account) (start stop : ℚ) : Nat :=
  x.attempts.countP fun attempt => start ≤ attempt.reading && attempt.reading ≤ stop

def owed (x : Account) : Nat := x.attempts.countP (·.correct)

/-- The refunds of attempts from before the window. -/
def prior (x : Account) (start : ℚ) : Nat :=
  x.attempts.countP fun attempt => attempt.correct && attempt.reading < start

def held (x : Account) : ℚ := (x.bucket.map (·.tokens)).getD 0

/-- The burst and the time since the window's start pay for its failures, for
the tokens held and for the refunds of older attempts. -/
structure Sound (rate burst : ℚ) (x : Account) : Prop where
  last : ∀ b, x.bucket = some b → x.charged = some b.last
  tokens : ∀ b, x.bucket = some b → 0 ≤ b.tokens
  fits : ∀ b, x.bucket = some b → b.tokens + x.owed ≤ burst
  readings : ∀ attempt ∈ x.attempts, ∃ last, x.charged = some last ∧ attempt.reading ≤ last
  during : ∀ start stop last, x.charged = some last → start ≤ last → last ≤ stop →
    x.failures start stop + x.held + x.prior start ≤ burst + rate * (last - start)
  after : ∀ start stop last, x.charged = some last → start ≤ stop → stop < last →
    (x.failures start stop : ℚ) ≤ burst + rate * (stop - start)

theorem Sound.held_nonneg (hx : x.Sound rate burst) : 0 ≤ x.held := by
  unfold held
  cases hbucket : x.bucket with
  | none => exact le_refl 0
  | some b => exact hx.tokens b hbucket

theorem prior_le_owed (x : Account) (start : ℚ) : x.prior start ≤ x.owed := by
  refine List.countP_mono_left fun attempt _ h => ?_
  rw [Bool.and_eq_true] at h
  exact h.1

/-- No attempt has a reading from behind the last charge. -/
theorem Sound.failures_eq_zero (hx : x.Sound rate burst)
    (hbefore : ∀ last, x.charged = some last → last < start) : x.failures start stop = 0 := by
  refine List.countP_eq_zero.mpr fun attempt hattempt => ?_
  obtain ⟨last, hlast, hle⟩ := hx.readings attempt hattempt
  have hlt : attempt.reading < start := lt_of_le_of_lt hle (hbefore last hlast)
  simp [not_le.mpr hlt]

/-- An account that gets poorer stays sound. -/
theorem Sound.weaken (hx : x.Sound rate burst) (hcharged : y.charged = x.charged)
    (hbucket : y.bucket = x.bucket ∨ y.bucket = none) (hattempts : y.attempts.Subperm x.attempts) :
    y.Sound rate burst := by
  have hsome : ∀ b, y.bucket = some b → x.bucket = some b := by
    intro b hb
    rcases hbucket with hsame | hnone
    · rw [← hsame, hb]
    · rw [hnone] at hb
      cases hb
  have howed : y.owed ≤ x.owed := hattempts.countP_le _
  have hfailures : ∀ start stop, (y.failures start stop : ℚ) ≤ x.failures start stop := by
    intro start stop
    exact_mod_cast hattempts.countP_le _
  have hprior : ∀ start, (y.prior start : ℚ) ≤ x.prior start := by
    intro start
    exact_mod_cast hattempts.countP_le _
  have hheld : y.held ≤ x.held := by
    rcases hbucket with hsame | hnone
    · rw [held, held, hsame]
    · rw [held, hnone]
      exact hx.held_nonneg
  constructor
  case last => exact fun b hb => hcharged ▸ hx.last b (hsome b hb)
  case tokens => exact fun b hb => hx.tokens b (hsome b hb)
  case fits =>
    intro b hb
    have hfits := hx.fits b (hsome b hb)
    have howed' : (y.owed : ℚ) ≤ x.owed := by exact_mod_cast howed
    linarith
  case readings =>
    intro attempt hattempt
    rw [hcharged]
    exact hx.readings attempt (hattempts.subset hattempt)
  case during =>
    intro start stop last hlast hstart hstop
    have hduring := hx.during start stop last (hcharged ▸ hlast) hstart hstop
    linarith [hfailures start stop, hprior start]
  case after =>
    intro start stop last hlast hle hstop
    exact (hfailures start stop).trans (hx.after start stop last (hcharged ▸ hlast) hle hstop)

/-- Where the bucket that a call charges comes from, and that its reading is
in order. -/
structure Charging (rate burst : ℚ) (x : Account) (b : Bucket) (now : ℚ) : Prop where
  source : x.bucket = some b ∨ b = ⟨burst, now⟩ ∧
    ∀ last, x.charged = some last → last + burst / rate ≤ now
  inOrder : b.last ≤ now

theorem Charging.last_le (hrate : 0 < rate) (hburst : 0 ≤ burst) (hx : x.Sound rate burst) {b : Bucket}
    (hb : x.Charging rate burst b now) {last : ℚ} (hlast : x.charged = some last) : last ≤ now := by
  rcases hb.source with hbucket | ⟨-, hfull⟩
  · have hsame := hx.last b hbucket
    rw [hlast, Option.some.injEq] at hsame
    exact hsame ▸ hb.inOrder
  · have hpos : 0 ≤ burst / rate := div_nonneg hburst hrate.le
    linarith [hfull last hlast]

/-- What the refill adds is paid for by the time since the last charge. -/
theorem Charging.gains (hrate : 0 < rate) (hx : x.Sound rate burst) {b : Bucket}
    (hb : x.Charging rate burst b now) {last : ℚ} (hlast : x.charged = some last)
    (hstart : start ≤ last) (hstop : last ≤ stop) :
    x.failures start stop + (b.refill rate burst now).tokens + x.prior start ≤
      burst + rate * (now - start) := by
  have hduring := hx.during start stop last hlast hstart hstop
  rcases hb.source with hbucket | ⟨rfl, hfull⟩
  · have hsame := hx.last b hbucket
    rw [hlast, Option.some.injEq] at hsame
    have hrefill : (b.refill rate burst now).tokens ≤ b.tokens + rate * (now - b.last) :=
      refill_le_add hrate.le hb.inOrder
    have hheld : x.held = b.tokens := by rw [held, hbucket]; rfl
    rw [hheld] at hduring
    rw [← hsame] at hrefill
    linarith
  · have hgain : burst ≤ rate * (now - last) := by
      have hfull' := hfull last hlast
      rw [← div_le_iff₀' hrate]
      linarith
    rw [refill_new]
    linarith [hx.held_nonneg]

/-- The bound of every window. -/
theorem Sound.failures_le (hx : x.Sound rate burst) (hrate : 0 < rate) (hburst : 0 ≤ burst)
    (hle : start ≤ stop) : (x.failures start stop : ℚ) ≤ burst + rate * (stop - start) := by
  have hgain : 0 ≤ rate * (stop - start) := mul_nonneg hrate.le (by linarith)
  by_cases hbefore : ∀ last, x.charged = some last → last < start
  · rw [hx.failures_eq_zero hbefore, Nat.cast_zero]
    linarith
  · push Not at hbefore
    obtain ⟨last, hlast, hstart⟩ := hbefore
    by_cases hlt : stop < last
    · exact hx.after start stop last hlast hle hlt
    · have hduring := hx.during start stop last hlast hstart (not_lt.mp hlt)
      have hprior : (0 : ℚ) ≤ x.prior start := Nat.cast_nonneg _
      have htime : rate * (last - start) ≤ rate * (stop - start) :=
        mul_le_mul_of_nonneg_left (by linarith) hrate.le
      linarith [hx.held_nonneg]

/-- What a call leaves behind, where `tokens` were refilled. -/
structure Settles (burst now : ℚ) (x : Account) (tokens : ℚ) (y : Account) : Prop where
  charged : y.charged = some now
  bucket : ∃ left, y.bucket = some ⟨left, now⟩ ∧ 0 ≤ left ∧ left + y.owed ≤ burst
  readings : ∀ attempt ∈ y.attempts, attempt.reading ≤ now
  balance : ∀ start stop, start ≤ now → now ≤ stop →
    y.failures start stop + y.held + y.prior start ≤ x.failures start stop + tokens + x.prior start
  past : ∀ start stop, stop < now → y.failures start stop ≤ x.failures start stop
  enters : ∀ start stop, start ≤ now → now ≤ stop → x.failures start stop = 0 →
    y.failures start stop + y.held + y.prior start ≤ burst

/-- **A call in order keeps an account sound.** -/
theorem Sound.settle (hrate : 0 < rate) (hburst : 0 ≤ burst) (hx : x.Sound rate burst) {b : Bucket}
    (hb : x.Charging rate burst b now)
    (hy : x.Settles burst now (b.refill rate burst now).tokens y) : y.Sound rate burst := by
  obtain ⟨left, hbucket, hleft, hfits⟩ := hy.bucket
  constructor
  case last =>
    intro b' hb'
    rw [hbucket] at hb'
    obtain rfl := Option.some.inj hb'
    exact hy.charged
  case tokens =>
    intro b' hb'
    rw [hbucket] at hb'
    obtain rfl := Option.some.inj hb'
    exact hleft
  case fits =>
    intro b' hb'
    rw [hbucket] at hb'
    obtain rfl := Option.some.inj hb'
    exact hfits
  case readings => exact fun attempt hattempt => ⟨now, hy.charged, hy.readings attempt hattempt⟩
  case during =>
    intro start stop last hlast hstart hstop
    rw [hy.charged] at hlast
    obtain rfl := Option.some.inj hlast
    have hgain : 0 ≤ rate * (now - start) := mul_nonneg hrate.le (by linarith)
    by_cases hbefore : ∀ last, x.charged = some last → last < start
    · have henters := hy.enters start stop hstart hstop (hx.failures_eq_zero hbefore)
      linarith
    · push Not at hbefore
      obtain ⟨last, hlast, hle⟩ := hbefore
      have hlast_le := hb.last_le hrate hburst hx hlast
      have hgains := hb.gains hrate hx hlast hle (hlast_le.trans hstop)
      linarith [hy.balance start stop hstart hstop]
  case after =>
    intro start stop last hlast hle hstop
    rw [hy.charged] at hlast
    obtain rfl := Option.some.inj hlast
    have hpast : (y.failures start stop : ℚ) ≤ x.failures start stop := by
      exact_mod_cast hy.past start stop hstop
    exact hpast.trans (hx.failures_le hrate hburst hle)

/-! ### The three outcomes -/

/-- A denied attempt. -/
theorem Settles.denied (hx : ∀ attempt ∈ x.attempts, attempt.reading ≤ now) {tokens : ℚ}
    (hnonneg : 0 ≤ tokens) (hfits : tokens + x.owed ≤ burst) :
    x.Settles burst now tokens ⟨some ⟨tokens, now⟩, some now, x.attempts⟩ where
  charged := rfl
  bucket := ⟨tokens, rfl, hnonneg, hfits⟩
  readings := hx
  balance start stop _ _ := le_refl _
  past start stop _ := le_refl _
  enters start stop _ _ hzero := by
    have hprior : (x.prior start : ℚ) ≤ x.owed := by exact_mod_cast x.prior_le_owed start
    have hfailures : (x.failures start stop : ℚ) = 0 := by exact_mod_cast hzero
    show (x.failures start stop : ℚ) + tokens + x.prior start ≤ burst
    linarith

/-- A granted attempt takes a token. -/
theorem Settles.granted (hx : ∀ attempt ∈ x.attempts, attempt.reading ≤ now) {tokens : ℚ}
    (hfull : 1 ≤ tokens) (hfits : tokens + x.owed ≤ burst) {attempt : Attempt}
    (hreading : attempt.reading = now)
    (hy : y.attempts.Perm (attempt :: x.attempts)) (hcharged : y.charged = some now)
    (hbucket : y.bucket = some ⟨tokens - 1, now⟩) :
    x.Settles burst now tokens y := by
  have hheld : y.held = tokens - 1 := by rw [held, hbucket]; rfl
  have howed : (y.owed : ℚ) ≤ x.owed + 1 := by
    have hcount : y.owed ≤ x.owed + 1 := by
      rw [owed, hy.countP_eq, List.countP_cons]
      split <;> simp [owed]
    exact_mod_cast hcount
  have hprior : ∀ start, start ≤ now → y.prior start = x.prior start := by
    intro start hstart
    rw [prior, hy.countP_eq, List.countP_cons_of_neg (by simp [hreading, not_lt.mpr hstart])]
    rfl
  have hfailures : ∀ start stop, start ≤ now → now ≤ stop →
      (y.failures start stop : ℚ) = x.failures start stop + 1 := by
    intro start stop hstart hstop
    rw [failures, hy.countP_eq, List.countP_cons_of_pos (by simp [hreading, hstart, hstop])]
    push_cast
    rfl
  constructor
  case charged => exact hcharged
  case bucket => exact ⟨tokens - 1, hbucket, by linarith, by linarith⟩
  case readings =>
    intro a ha
    rcases List.mem_cons.mp (hy.subset ha) with rfl | ha
    · exact hreading.le
    · exact hx a ha
  case balance =>
    intro start stop hstart hstop
    rw [hfailures start stop hstart hstop, hprior start hstart, hheld]
    linarith
  case past =>
    intro start stop hstop
    rw [failures, hy.countP_eq, List.countP_cons_of_neg (by simp [hreading, not_le.mpr hstop])]
    exact le_refl _
  case enters =>
    intro start stop hstart hstop hzero
    have howed' : (x.prior start : ℚ) ≤ x.owed := by exact_mod_cast x.prior_le_owed start
    rw [hfailures start stop hstart hstop, hprior start hstart, hheld, hzero]
    push_cast
    linarith

/-- A refund gives a token back and takes its attempt away. -/
theorem Settles.refunded (hx : ∀ attempt ∈ x.attempts, attempt.reading ≤ now) {tokens : ℚ}
    (hnonneg : 0 ≤ tokens) (hburst : 0 ≤ burst) (hfits : min (tokens + 1) burst + x.owed ≤ burst + 1)
    {attempt : Attempt} (hcorrect : attempt.correct = true)
    (hy : x.attempts.Perm (attempt :: y.attempts)) (hcharged : y.charged = some now)
    (hbucket : y.bucket = some ⟨min (tokens + 1) burst, now⟩) :
    x.Settles burst now tokens y := by
  have hheld : y.held = min (tokens + 1) burst := by rw [held, hbucket]; rfl
  have hmin := min_le_left (tokens + 1) burst
  have howed : (x.owed : ℚ) = y.owed + 1 := by
    rw [owed, hy.countP_eq, List.countP_cons_of_pos (by simp [hcorrect])]
    push_cast
    rfl
  have hreading : attempt.reading ≤ now := hx attempt (hy.symm.subset List.mem_cons_self)
  -- the attempt counts once, in the window or before it
  have hcount : ∀ start stop, now ≤ stop →
      (x.failures start stop : ℚ) + x.prior start = y.failures start stop + y.prior start + 1 := by
    intro start stop hstop
    have hle : attempt.reading ≤ stop := hreading.trans hstop
    by_cases hstart : start ≤ attempt.reading
    · rw [failures, prior, hy.countP_eq, hy.countP_eq,
        List.countP_cons_of_pos (by simp [hstart, hle]),
        List.countP_cons_of_neg (by simp [not_lt.mpr hstart])]
      push_cast
      rw [failures, prior]
      ring
    · rw [failures, prior, hy.countP_eq, hy.countP_eq, List.countP_cons_of_neg (by simp [hstart]),
        List.countP_cons_of_pos (by simp [hcorrect, not_le.mp hstart])]
      push_cast
      rw [failures, prior]
      ring
  constructor
  case charged => exact hcharged
  case bucket =>
    exact ⟨_, hbucket, le_min (by linarith) hburst, by rw [howed] at hfits; linarith⟩
  case readings => exact fun a ha => hx a (hy.symm.subset (List.mem_cons_of_mem _ ha))
  case balance =>
    intro start stop _ hstop
    rw [hheld]
    linarith [hcount start stop hstop]
  case past =>
    intro start stop _
    rw [failures, failures, hy.countP_eq]
    exact (List.sublist_cons_self _ _).countP_le
  case enters =>
    intro start stop _ hstop hzero
    have hcount' := hcount start stop hstop
    have hprior : (x.prior start : ℚ) ≤ x.owed := by exact_mod_cast x.prior_le_owed start
    have hfailures : (x.failures start stop : ℚ) = 0 := by exact_mod_cast hzero
    rw [hheld]
    linarith

end Account

/-- What a call makes of the bucket it charges, after the refill: the attempts
it adds, and the tokens it leaves. -/
inductive Charge (b : Bucket) (burst now : ℚ) : Call → List Attempt → ℚ → Prop
  | denied (key : String) (correct : Bool) (hempty : b.tokens < 1) :
      Charge b burst now (.allow key correct) [] b.tokens
  | granted (key : String) (correct : Bool) (hfull : 1 ≤ b.tokens) :
      Charge b burst now (.allow key correct) [⟨key, now, correct⟩] (b.tokens - 1)
  | refunded (attempt : Attempt) :
      Charge b burst now (.refund attempt) [] (min (b.tokens + 1) burst)

/-- The tokens and the refunds to come fit into the burst. -/
def Fits (burst tokens : ℚ) (owed : Nat) : Call → Prop
  | .allow _ _ => tokens + owed ≤ burst
  | .refund _ => min (tokens + 1) burst + owed ≤ burst + 1

/-- **A charge keeps an account sound.** -/
theorem Account.Sound.charge {x y : Account} {rate burst now : ℚ} (hrate : 0 < rate) (hburst : 0 ≤ burst)
    (hx : x.Sound rate burst) {b : Bucket} (hb : x.Charging rate burst b now) {call : Call}
    {attempts base : List Attempt} {tokens : ℚ}
    (hcharge : Charge (b.refill rate burst now) burst now call attempts tokens)
    (hfits : Fits burst (b.refill rate burst now).tokens x.owed call)
    (hcorrect : ∀ attempt, call.attempt? = some attempt → attempt.correct = true)
    (hbucket : y.bucket = some ⟨tokens, now⟩) (hcharged : y.charged = some now)
    (hbefore : x.attempts.Perm (call.attempt?.toList ++ base))
    (hafter : y.attempts.Perm (attempts ++ base)) : y.Sound rate burst := by
  have hreadings : ∀ attempt ∈ x.attempts, attempt.reading ≤ now := by
    intro attempt hattempt
    obtain ⟨last, hlast, hle⟩ := hx.readings attempt hattempt
    exact hle.trans (hb.last_le hrate hburst hx hlast)
  have hnonneg : 0 ≤ (b.refill rate burst now).tokens := by
    rcases hb.source with hsome | ⟨rfl, -⟩
    · exact refill_nonneg hrate.le hburst (hx.tokens b hsome)
    · rwa [refill_new]
  cases hcharge with
  | denied key correct hempty =>
    have hsame := hx.settle hrate hburst hb (.denied hreadings hnonneg hfits)
    exact hsame.weaken hcharged (Or.inl hbucket) (hafter.trans hbefore.symm).subperm
  | granted key correct hfull =>
    have hreading : (Attempt.mk key now correct).reading = now := rfl
    refine hx.settle hrate hburst hb (.granted hreadings hfull hfits hreading ?_ hcharged hbucket)
    exact hafter.trans (hbefore.symm.cons _)
  | refunded attempt =>
    refine hx.settle hrate hburst hb
      (.refunded hreadings hnonneg hburst hfits (hcorrect attempt rfl) ?_ hcharged hbucket)
    exact hbefore.trans (hafter.symm.cons attempt)

end SlowMeet.RateLimit
