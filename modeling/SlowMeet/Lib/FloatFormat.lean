import Mathlib.Data.Int.Log
import Mathlib.Data.List.Induction
import Mathlib.Data.Rat.Floor
import Mathlib.Tactic.Linarith
import Mathlib.Tactic.Ring

/-!
# Binary floating point

A binary format with gradual underflow and without a greatest exponent, its
numbers as rationals. Results are rounded to the nearest number of the format,
and of two to the one with the even significand.
-/

namespace SlowMeet.Lib

/-! ## The nearest integer -/

/-- The nearest integer, of two the even one. -/
def roundEven (x : ℚ) : ℤ :=
  if Int.fract x < 1 / 2 ∨ Int.fract x = 1 / 2 ∧ ⌊x⌋ % 2 = 0 then ⌊x⌋ else ⌊x⌋ + 1

theorem le_roundEven {x : ℚ} {n : ℤ} (h : n ≤ x) : n ≤ roundEven x := by
  have hfloor : n ≤ ⌊x⌋ := Int.le_floor.mpr h
  unfold roundEven
  split_ifs <;> omega

theorem roundEven_le {x : ℚ} {n : ℤ} (h : x ≤ n) : roundEven x ≤ n := by
  unfold roundEven
  split_ifs with hdown
  · exact_mod_cast (Int.floor_le x).trans h
  · have hfract : 0 < Int.fract x := by
      rw [not_or, not_lt] at hdown
      linarith [hdown.1]
    have hlt : (⌊x⌋ : ℚ) < n := by linarith [Int.floor_add_fract x]
    have hint : ⌊x⌋ < n := by exact_mod_cast hlt
    omega

theorem abs_roundEven_sub_le (x : ℚ) : |(roundEven x : ℚ) - x| ≤ 1 / 2 := by
  have hx := Int.floor_add_fract x
  have hnonneg := Int.fract_nonneg x
  have hlt := Int.fract_lt_one x
  unfold roundEven
  rw [abs_le]
  split_ifs with hdown
  · have hfract : Int.fract x ≤ 1 / 2 := hdown.elim le_of_lt fun h => h.1.le
    constructor <;> linarith
  · rw [not_or, not_lt] at hdown
    push_cast
    constructor <;> linarith [hdown.1]

/-! ## Formats -/

/-- A significand has `fraction` digits behind its first, and the last digit of
a number a value of at least `2 ^ emin`. -/
structure FloatFormat where
  fraction : ℕ
  emin : ℤ

namespace FloatFormat

/-- Doubles. -/
def binary64 : FloatFormat := ⟨52, -1074⟩

variable (f : FloatFormat)

/-- The exponent of the last digit of a number. -/
def lastExp (x : ℚ) : ℤ := max (Int.log 2 |x| - f.fraction) f.emin

/-- The value of the last digit of a number. -/
def ulp (x : ℚ) : ℚ := 2 ^ f.lastExp x

/-- The number of the format that is nearest to `x`. -/
def nearest (x : ℚ) : ℚ := roundEven (x / f.ulp x) * f.ulp x

/-- The numbers of the format. -/
def Representable (x : ℚ) : Prop :=
  ∃ m e : ℤ, f.emin ≤ e ∧ |(m : ℚ)| ≤ 2 ^ (f.fraction + 1 : ℤ) ∧ x = m * 2 ^ e

/-- Add the numbers up, one after another. -/
def sum (l : List ℚ) : ℚ := l.foldl (fun total x => f.nearest (total + x)) 0

variable {f} {x d : ℚ}

theorem ulp_pos (f : FloatFormat) (x : ℚ) : 0 < f.ulp x := zpow_pos (by norm_num) _

theorem nearest_zero (f : FloatFormat) : f.nearest 0 = 0 := by simp [nearest, roundEven]

theorem abs_nearest_sub_le (f : FloatFormat) (x : ℚ) : |f.nearest x - x| ≤ f.ulp x / 2 := by
  have hpos := f.ulp_pos x
  have hsplit : f.nearest x - x = (roundEven (x / f.ulp x) - x / f.ulp x) * f.ulp x := by
    rw [nearest, sub_mul, div_mul_cancel₀ _ hpos.ne']
  rw [hsplit, abs_mul, abs_of_pos hpos]
  have hhalf := mul_le_mul_of_nonneg_right (abs_roundEven_sub_le (x / f.ulp x)) hpos.le
  linarith

/-- The last digit of a number below a power of two. -/
theorem ulp_le {k : ℤ} (hx : x ≠ 0) (hlt : |x| < 2 ^ k) (hk : f.emin + f.fraction < k) :
    f.ulp x ≤ 2 ^ (k - 1 - f.fraction) := by
  have hlog : Int.log 2 |x| < k := (Int.lt_zpow_iff_log_lt (by norm_num) (abs_pos.mpr hx)).mp hlt
  refine zpow_le_zpow_right₀ (by norm_num) (max_le ?_ ?_) <;> omega

theorem abs_nearest_sub_le_of_lt {k : ℤ} (hlt : |x| < 2 ^ k) (hk : f.emin + f.fraction < k) :
    |f.nearest x - x| ≤ 2 ^ (k - 1 - f.fraction) / 2 := by
  by_cases hx : x = 0
  · rw [hx, nearest_zero, sub_zero, abs_zero]
    exact div_nonneg (zpow_nonneg (by norm_num) _) (by norm_num)
  · have hulp := ulp_le hx hlt hk
    linarith [f.abs_nearest_sub_le x]

/-! ## Rounding is monotone -/

theorem le_nearest_of_multiple {n : ℤ} (h : n * f.ulp x ≤ x) : n * f.ulp x ≤ f.nearest x := by
  refine mul_le_mul_of_nonneg_right ?_ (f.ulp_pos x).le
  exact_mod_cast le_roundEven ((le_div_iff₀ (f.ulp_pos x)).mpr h)

theorem nearest_le_of_multiple {n : ℤ} (h : x ≤ n * f.ulp x) : f.nearest x ≤ n * f.ulp x := by
  refine mul_le_mul_of_nonneg_right ?_ (f.ulp_pos x).le
  exact_mod_cast roundEven_le ((div_le_iff₀ (f.ulp_pos x)).mpr h)

/-- A number of the format is so many last digits of `x`, or some number of
them is between it and `x`. -/
theorem Representable.cases (hd : f.Representable d) (hx : x ≠ 0) :
    (∃ n : ℤ, d = n * f.ulp x) ∨ ∃ n : ℤ, |d| ≤ n * f.ulp x ∧ n * f.ulp x ≤ |x| := by
  obtain ⟨m, e, hemin, hm, rfl⟩ := hd
  rcases le_or_gt (f.lastExp x) e with hle | hlt
  · obtain ⟨k, hk⟩ := Int.eq_ofNat_of_zero_le (sub_nonneg.mpr hle)
    refine Or.inl ⟨m * 2 ^ k, ?_⟩
    have he : e = k + f.lastExp x := by omega
    rw [ulp, he, zpow_add₀ (by norm_num)]
    push_cast
    rw [zpow_natCast, mul_assoc]
  · -- the last digit of `x` is a higher one, and so is its first
    have hlog : f.lastExp x = Int.log 2 |x| - f.fraction := by
      unfold lastExp at hlt ⊢
      omega
    have hfirst : ((2 ^ f.fraction : ℤ) : ℚ) * f.ulp x = 2 ^ Int.log 2 |x| := by
      rw [ulp, hlog]
      push_cast
      rw [← zpow_natCast, ← zpow_add₀ (by norm_num)]
      congr 1
      omega
    refine Or.inr ⟨2 ^ f.fraction, ?_, ?_⟩
    · rw [hfirst, abs_mul, abs_of_pos (zpow_pos (by norm_num) e : (0 : ℚ) < 2 ^ e)]
      calc |(m : ℚ)| * 2 ^ e ≤ 2 ^ (f.fraction + 1 : ℤ) * 2 ^ e :=
            mul_le_mul_of_nonneg_right hm (zpow_nonneg (by norm_num) e)
        _ = 2 ^ (f.fraction + 1 + e : ℤ) := (zpow_add₀ (by norm_num) _ _).symm
        _ ≤ 2 ^ Int.log 2 |x| := zpow_le_zpow_right₀ (by norm_num) (by omega)
    · rw [hfirst]
      exact_mod_cast Int.zpow_log_le_self (by norm_num) (abs_pos.mpr hx)

theorem nearest_le (hd : f.Representable d) (h : x ≤ d) : f.nearest x ≤ d := by
  by_cases hx : x = 0
  · rwa [hx, nearest_zero, ← hx]
  rcases hd.cases hx with ⟨n, rfl⟩ | ⟨n, habs, hn⟩
  · exact nearest_le_of_multiple h
  -- a multiple is no further out than `x`, and `d` is no further out than it
  rcases le_total 0 x with hpos | hneg
  · rw [abs_of_nonneg hpos] at hn
    exact (nearest_le_of_multiple (h.trans ((le_abs_self d).trans habs))).trans (hn.trans h)
  · rw [abs_of_nonpos hneg] at hn
    have hbelow : f.nearest x ≤ ((-n : ℤ) : ℚ) * f.ulp x :=
      nearest_le_of_multiple (by push_cast; linarith)
    push_cast at hbelow
    linarith [neg_abs_le d]

theorem le_nearest (hd : f.Representable d) (h : d ≤ x) : d ≤ f.nearest x := by
  by_cases hx : x = 0
  · rwa [hx, nearest_zero, ← hx]
  rcases hd.cases hx with ⟨n, rfl⟩ | ⟨n, habs, hn⟩
  · exact le_nearest_of_multiple h
  rcases le_total 0 x with hpos | hneg
  · rw [abs_of_nonneg hpos] at hn
    exact ((le_abs_self d).trans habs).trans (le_nearest_of_multiple hn)
  · rw [abs_of_nonpos hneg] at hn
    have habove : ((-n : ℤ) : ℚ) * f.ulp x ≤ f.nearest x :=
      le_nearest_of_multiple (by push_cast; linarith [neg_abs_le d])
    push_cast at habove
    linarith

theorem representable_intCast {n : ℤ} (hemin : f.emin ≤ 0)
    (hn : |(n : ℚ)| ≤ 2 ^ (f.fraction + 1 : ℤ)) : f.Representable n :=
  ⟨n, 0, hemin, hn, by rw [zpow_zero, mul_one]⟩

theorem representable_zero (f : FloatFormat) : f.Representable 0 :=
  ⟨0, f.emin, le_rfl, by rw [Int.cast_zero, abs_zero]; exact zpow_nonneg (by norm_num) _,
    by rw [Int.cast_zero, zero_mul]⟩

theorem nearest_nonneg (h : 0 ≤ x) : 0 ≤ f.nearest x := le_nearest f.representable_zero h

/-- A rounded number is one of the format. -/
theorem representable_nearest (f : FloatFormat) (x : ℚ) : f.Representable (f.nearest x) := by
  refine ⟨roundEven (x / f.ulp x), f.lastExp x, le_max_right _ _, ?_, rfl⟩
  have hlt : |x| < 2 ^ (Int.log 2 |x| + 1) := by
    exact_mod_cast Int.lt_zpow_succ_log_self (by norm_num : 1 < 2) |x|
  have hdigits : |x / f.ulp x| ≤ ((2 ^ (f.fraction + 1) : ℤ) : ℚ) := by
    rw [abs_div, abs_of_pos (f.ulp_pos x), div_le_iff₀ (f.ulp_pos x)]
    push_cast
    rw [ulp, ← zpow_natCast, ← zpow_add₀ (by norm_num)]
    refine hlt.le.trans (zpow_le_zpow_right₀ (by norm_num) ?_)
    have hlast : Int.log 2 |x| - f.fraction ≤ f.lastExp x := le_max_left _ _
    push_cast
    omega
  have hbounds := abs_le.mp hdigits
  have hlow : -2 ^ (f.fraction + 1) ≤ roundEven (x / f.ulp x) :=
    le_roundEven (by push_cast; push_cast at hbounds; exact hbounds.1)
  have hhigh : roundEven (x / f.ulp x) ≤ 2 ^ (f.fraction + 1) := roundEven_le hbounds.2
  have habs : |roundEven (x / f.ulp x)| ≤ 2 ^ (f.fraction + 1) := abs_le.mpr ⟨hlow, hhigh⟩
  exact_mod_cast habs

/-! ## Sums -/

@[simp] theorem sum_nil (f : FloatFormat) : f.sum [] = 0 := rfl

theorem sum_concat (f : FloatFormat) (l : List ℚ) (x : ℚ) :
    f.sum (l ++ [x]) = f.nearest (f.sum l + x) := by
  simp [sum]

theorem sum_nonneg {l : List ℚ} (h : ∀ x ∈ l, 0 ≤ x) : 0 ≤ f.sum l := by
  induction l using List.reverseRecOn with
  | nil => exact le_rfl
  | append_singleton l x ih =>
    rw [sum_concat]
    refine nearest_nonneg (add_nonneg (ih fun y hy => h y (List.mem_append_left _ hy)) ?_)
    exact h x (List.mem_append_right _ (List.mem_singleton_self x))

theorem representable_sum (f : FloatFormat) (l : List ℚ) : f.Representable (f.sum l) := by
  induction l using List.reverseRecOn with
  | nil => exact f.representable_zero
  | append_singleton l x ih =>
    rw [sum_concat]
    exact f.representable_nearest _

end FloatFormat

end SlowMeet.Lib
