import Mathlib.Data.Set.Card

/-!
# Counters of a set

A counter that is raised when a member comes and lowered when one goes, of a
set that may be anything: `Counts held n` says that exactly `n` are held.
-/

namespace SlowMeet.Lib

universe u

variable {ι : Type u} [DecidableEq ι] {held : ι → Bool} {n : Nat} {i : ι}

/-- Exactly `n` are held. -/
def Counts {ι : Type u} (held : ι → Bool) (n : Nat) : Prop :=
  {i | held i = true}.encard = n

omit [DecidableEq ι] in
theorem counts_none : Counts (fun _ : ι => false) 0 := by
  unfold Counts
  simp

omit [DecidableEq ι] in
/-- One who is held is counted. -/
theorem Counts.pos (hcount : Counts held n) (hi : held i = true) : 0 < n := by
  apply Nat.pos_of_ne_zero
  intro hzero
  have hempty : {i | held i = true} = ∅ := by
    rw [← Set.encard_eq_zero, hcount, hzero]
    rfl
  have hmem : i ∈ {i | held i = true} := hi
  rw [hempty] at hmem
  exact hmem

theorem Counts.take (hcount : Counts held n) (hi : held i = false) :
    Counts (Function.update held i true) (n + 1) := by
  have hset : {j | Function.update held i true j = true} = insert i {j | held j = true} := by
    ext j
    show Function.update held i true j = true ↔ j = i ∨ held j = true
    rw [Function.update_apply]
    by_cases hj : j = i
    · simp [hj]
    · simp [hj]
  have hout : i ∉ {j | held j = true} := by
    show ¬ held i = true
    simp [hi]
  unfold Counts
  rw [hset, Set.encard_insert_of_notMem hout, hcount]
  exact (Nat.cast_succ n).symm

theorem Counts.give (hcount : Counts held n) (hi : held i = true) :
    Counts (Function.update held i false) (n - 1) := by
  have hset : {j | Function.update held i false j = true} = {j | held j = true} \ {i} := by
    ext j
    show Function.update held i false j = true ↔ held j = true ∧ j ≠ i
    rw [Function.update_apply]
    by_cases hj : j = i
    · simp [hj]
    · simp [hj]
  obtain ⟨m, rfl⟩ : ∃ m, n = m + 1 := Nat.exists_eq_succ_of_ne_zero (hcount.pos hi).ne'
  have hone : ({j | held j = true} \ {i}).encard + 1 = {j | held j = true}.encard :=
    Set.encard_sdiff_singleton_add_one hi
  unfold Counts
  rw [hset, Nat.add_sub_cancel]
  apply ENat.add_left_injective_of_ne_top ENat.one_ne_top
  show ({j | held j = true} \ {i}).encard + 1 = (m : ℕ∞) + 1
  rw [hone, hcount]
  exact Nat.cast_succ m

end SlowMeet.Lib
