import Mathlib.Logic.Function.Basic

/-!
# Copies of a stored value

A value is kept in one place and copied to others by writers, each of which
takes a snapshot and writes it to every copy in its own time. Versions are
numbered in the order in which they were stored. When no copy ever receives
a version older than the one it has, the copies agree with the stored value
as soon as no writer owes anything.
-/

namespace SlowMeet.Lib

universe u v

/-- A stored value with its number. -/
structure Version (β : Type v) where
  number : Nat
  value : β
  deriving DecidableEq

variable {κ : Type u} {β : Type v}

/-- How the copies stand to the stored version. `owes k p`: some writer has
still to write the snapshot `p` to the copy `k`, or, at `none`, whatever is
stored when it takes its snapshot. The copies that exist meet `live`. -/
structure Converging (live : κ → Prop) (stored : Version β) (copy : κ → Version β)
    (owes : κ → Option (Version β) → Prop) : Prop where
  copies : ∀ k, (copy k).number ≤ stored.number
  snapshots : ∀ k p, owes k (some p) → p.number ≤ stored.number ∧
    (p.number = stored.number → p = stored)
  /-- A copy that lags behind is owed the stored version. -/
  settled : ∀ k, live k → copy k = stored ∨ owes k none ∨ owes k (some stored)

namespace Converging

variable {live : κ → Prop} {stored : Version β} {copy : κ → Version β}
  {owes owes' : κ → Option (Version β) → Prop}

/-- All copies hold the stored version and nothing is owed. -/
theorem start (hcopy : ∀ k, copy k = stored) (howes : ∀ k p, ¬ owes k p) :
    Converging live stored copy owes where
  copies k := Nat.le_of_eq (congrArg Version.number (hcopy k))
  snapshots k p h := absurd h (howes k (some p))
  settled k _ := Or.inl (hcopy k)

/-- A new version is stored by a writer that owes it to every copy. -/
theorem store (h : Converging live stored copy owes) (value : β)
    (hold : ∀ k p, owes' k (some p) → owes k (some p)) (hnew : ∀ k, live k → owes' k none) :
    Converging live ⟨stored.number + 1, value⟩ copy owes' where
  copies k := Nat.le_succ_of_le (h.copies k)
  snapshots k p hp := by
    have hle := (h.snapshots k p (hold k p hp)).1
    refine ⟨Nat.le_succ_of_le hle, fun heq => ?_⟩
    have hlt : p.number = stored.number + 1 := heq
    omega
  settled k hk := Or.inr (Or.inl (hnew k hk))

/-- What is owed only changes by snapshots of the stored version. -/
theorem take (h : Converging live stored copy owes)
    (hsnap : ∀ k p, owes' k (some p) → owes k (some p) ∨ p = stored)
    (hkeep : ∀ k, live k → owes k none ∨ owes k (some stored) →
      owes' k none ∨ owes' k (some stored)) :
    Converging live stored copy owes' where
  copies := h.copies
  snapshots k p hp := by
    obtain hold | rfl := hsnap k p hp
    · exact h.snapshots k p hold
    · exact ⟨Nat.le_refl _, fun _ => rfl⟩
  settled k hk := by
    obtain hcopy | howed := h.settled k hk
    · exact Or.inl hcopy
    · exact Or.inr (hkeep k hk howed)

/-- **A write in order**: the copy gets a version no older than its own. If
the version is the stored one the copy is settled, else whoever owes it the
stored version still does. -/
theorem write [DecidableEq κ] (h : Converging live stored copy owes) {k : κ} {p : Version β}
    (hp : owes k (some p)) (horder : (copy k).number ≤ p.number)
    (hsub : ∀ j q, owes' j q → owes j q)
    (hkeep : ∀ j q, live j → owes j q → j = k ∧ q = some p ∨ owes' j q) :
    Converging live stored (Function.update copy k p) owes' where
  copies j := by
    by_cases hj : j = k
    · subst hj
      rw [Function.update_self]
      exact (h.snapshots j p hp).1
    · rw [Function.update_of_ne hj]
      exact h.copies j
  snapshots j q hq := h.snapshots j q (hsub j (some q) hq)
  settled j hj := by
    obtain ⟨hle, hstored⟩ := h.snapshots k p hp
    by_cases hjk : j = k
    · subst hjk
      rw [Function.update_self]
      obtain hcopy | hnone | hsome := h.settled j hj
      · -- the copy was settled, so the version in order is the stored one
        rw [hcopy] at horder
        exact Or.inl (hstored (Nat.le_antisymm hle horder))
      · obtain ⟨-, hfalse⟩ | hnone := hkeep j none hj hnone
        · cases hfalse
        · exact Or.inr (Or.inl hnone)
      · obtain ⟨-, hsame⟩ | hsome := hkeep j (some stored) hj hsome
        · exact Or.inl (Option.some.inj hsame).symm
        · exact Or.inr (Or.inr hsome)
    · rw [Function.update_of_ne hjk]
      obtain hcopy | hnone | hsome := h.settled j hj
      · exact Or.inl hcopy
      · exact Or.inr (Or.inl ((hkeep j none hj hnone).resolve_left fun hfalse => hjk hfalse.1))
      · exact Or.inr (Or.inr ((hkeep j _ hj hsome).resolve_left fun hfalse => hjk hfalse.1))

/-- **Convergence**: when nothing is owed, every copy holds the stored
version. -/
theorem converged (h : Converging live stored copy owes) (hdone : ∀ k p, ¬ owes k p) {k : κ}
    (hk : live k) : copy k = stored := by
  obtain hcopy | hnone | hsome := h.settled k hk
  · exact hcopy
  · exact absurd hnone (hdone k none)
  · exact absurd hsome (hdone k (some stored))

end Converging

end SlowMeet.Lib
