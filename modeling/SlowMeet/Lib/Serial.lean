import Mathlib.Data.BitVec
import Mathlib.Data.List.Sort

/-!
# Serial numbers

Numbers that wrap around are compared by the sign of their difference. The
comparison is an order only within half of the numbers, so an insertion sort
under it sorts a list that stays within half of them.
-/

namespace SlowMeet.Lib.Serial

variable {w : Nat}

/-- `a` comes after `b`, where numbers wrap around. -/
def After (a b : BitVec w) : Prop := 0 < (a - b).toInt

instance (a b : BitVec w) : Decidable (After a b) := inferInstanceAs (Decidable (0 < (a - b).toInt))

/-- The place of `a`, counted from `base`. -/
def offset (base a : BitVec w) : Nat := (a - base).toNat

theorem not_after_self (a : BitVec w) : ¬ After a a := by
  simp [After]

theorem offset_injective (base : BitVec w) {a b : BitVec w} (h : offset base a = offset base b) :
    a = b := by
  have hsub : a - base = b - base := BitVec.eq_of_toNat_eq h
  exact sub_left_injective hsub

/-- Within half of the numbers the serial order is that of the places. -/
theorem after_iff (base : BitVec w) {a b : BitVec w} (ha : 2 * offset base a < 2 ^ w)
    (hb : 2 * offset base b < 2 ^ w) : After a b ↔ offset base b < offset base a := by
  unfold offset at ha hb ⊢
  have hsub : a - b = (a - base) - (b - base) := (sub_sub_sub_cancel_right a b base).symm
  have hint : (a - b).toInt = ((a - base).toNat : Int) - (b - base).toNat := by
    rw [hsub, BitVec.toInt_sub, BitVec.toInt_eq_toNat_of_lt ha, BitVec.toInt_eq_toNat_of_lt hb]
    exact Int.bmod_eq_of_le_mul_two (by omega) (by omega)
  rw [After, hint]
  omega

/-! ## Insertion from the end -/

section Insertion

variable {α : Type*} (late : α → α → Prop) [DecidableRel late]

/-- Put `x` behind the last entry of the list that is not later. -/
def insertBack (l : List α) (x : α) : List α :=
  (l.reverse.orderedInsert (fun a b => ¬ late b a) x).reverse

/-- Insert the entries one after another. -/
def sortBack (l : List α) : List α := l.foldl (insertBack late) []

theorem insertBack_perm (l : List α) (x : α) : (insertBack late l x).Perm (x :: l) := by
  unfold insertBack
  refine (List.reverse_perm _).trans ((List.perm_orderedInsert _ x l.reverse).trans ?_)
  exact (List.reverse_perm l).cons x

theorem sortBack_concat (l : List α) (x : α) :
    sortBack late (l ++ [x]) = insertBack late (sortBack late l) x := by
  simp [sortBack]

/-- Sorting only reorders. -/
theorem sortBack_perm (l : List α) : (sortBack late l).Perm l := by
  induction l using List.reverseRecOn with
  | nil => exact List.Perm.refl _
  | append_singleton l x ih =>
    rw [sortBack_concat]
    exact (insertBack_perm late _ x).trans ((ih.cons x).trans (List.perm_append_singleton x l).symm)

variable {late}

/-- Where `late` compares keys, an entry is put in its place. -/
theorem orderedInsert_pairwise (key : α → Nat) {l : List α} {x : α}
    (hkey : ∀ a ∈ x :: l, ∀ b ∈ x :: l, late a b ↔ key b < key a)
    (hl : l.Pairwise fun a b => key b ≤ key a) :
    (l.orderedInsert (fun a b => ¬ late b a) x).Pairwise fun a b => key b ≤ key a := by
  induction l with
  | nil => simp
  | cons y l ih =>
    have hhead := hkey y (by simp) x (by simp)
    rw [List.orderedInsert_cons]
    obtain ⟨hy, hl⟩ := List.pairwise_cons.mp hl
    by_cases hlate : late y x
    · rw [if_neg (not_not.mpr hlate)]
      refine List.pairwise_cons.mpr ⟨fun z hz => ?_, ih (fun a ha b hb => ?_) hl⟩
      · rcases (List.mem_orderedInsert _).mp hz with rfl | hz
        · exact (hhead.mp hlate).le
        · exact hy z hz
      · exact hkey a (by grind) b (by grind)
    · rw [if_pos hlate]
      have hle : key y ≤ key x := Nat.le_of_not_lt fun hlt => hlate (hhead.mpr hlt)
      refine List.pairwise_cons.mpr ⟨fun z hz => ?_, List.pairwise_cons.mpr ⟨hy, hl⟩⟩
      rcases List.mem_cons.mp hz with rfl | hz
      · exact hle
      · exact (hy z hz).trans hle

theorem insertBack_pairwise (key : α → Nat) {l : List α} {x : α}
    (hkey : ∀ a ∈ x :: l, ∀ b ∈ x :: l, late a b ↔ key b < key a)
    (hl : l.Pairwise fun a b => key a ≤ key b) :
    (insertBack late l x).Pairwise fun a b => key a ≤ key b := by
  rw [insertBack, List.pairwise_reverse]
  refine orderedInsert_pairwise key (fun a ha b hb => hkey a ?_ b ?_) (List.pairwise_reverse.mpr hl)
  · simpa using ha
  · simpa using hb

/-- **The sort works where the comparison is an order.** -/
theorem sortBack_pairwise (key : α → Nat) {l : List α}
    (hkey : ∀ a ∈ l, ∀ b ∈ l, late a b ↔ key b < key a) :
    (sortBack late l).Pairwise fun a b => key a ≤ key b := by
  induction l using List.reverseRecOn with
  | nil => exact List.Pairwise.nil
  | append_singleton l x ih =>
    rw [sortBack_concat]
    have hmem : ∀ a, a ∈ x :: sortBack late l → a ∈ l ++ [x] := by
      intro a ha
      have hperm := (sortBack_perm late l).mem_iff (a := a)
      simp only [List.mem_cons, hperm] at ha
      simp [or_comm, ha]
    refine insertBack_pairwise key (fun a ha b hb => hkey a (hmem a ha) b (hmem b hb)) (ih ?_)
    exact fun a ha b hb => hkey a (by simp [ha]) b (by simp [hb])

end Insertion

end SlowMeet.Lib.Serial
