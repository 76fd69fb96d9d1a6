import Mathlib.Tactic.Common

/-!
# Streaks

A controller that acts on repeated observations counts those in a row that
meet a condition. `streak p history` is that count, read off the history of
observations, the latest of which stands first: a counter kept from one
observation to the next is correct when it agrees with the streak.
-/

namespace SlowMeet.Lib

universe u

variable {α : Type u} {p q : α → Bool} {a : α} {history : List α}

/-- How many of the latest observations in a row meet `p`. -/
def streak (p : α → Bool) (history : List α) : Nat := (history.takeWhile p).length

@[simp]
theorem streak_nil : streak p ([] : List α) = 0 := rfl

/-- A counter that is incremented or reset keeps the streak. -/
theorem streak_cons :
    streak p (a :: history) = if p a = true then streak p history + 1 else 0 := by
  unfold streak
  cases h : p a with
  | false => simp [h]
  | true => simp [h]

theorem streak_cons_of (h : p a = true) : streak p (a :: history) = streak p history + 1 := by
  rw [streak_cons, if_pos h]

theorem streak_cons_of_not (h : p a = false) : streak p (a :: history) = 0 := by
  rw [streak_cons, h]
  rfl

/-- Two conditions that exclude each other have no streak at one time. -/
theorem streak_eq_zero_of (h : ∀ a, p a = true → q a = false) (hp : streak p history ≠ 0) :
    streak q history = 0 := by
  cases history with
  | nil => rfl
  | cons a rest =>
    by_cases ha : p a = true
    · exact streak_cons_of_not (h a ha)
    · rw [streak_cons, if_neg ha] at hp
      omega

end SlowMeet.Lib
