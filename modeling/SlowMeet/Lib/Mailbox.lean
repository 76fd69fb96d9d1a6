import Mathlib.Data.List.Infix
import Mathlib.Data.List.Sublists

/-!
# Bounded mailboxes

A channel with a buffer of a fixed capacity. A sender offers without waiting
and is refused when the buffer is full; a receiver takes the oldest item.
What was taken and what is buffered is, in order, what was accepted, and so a
sublist of what was offered.
-/

namespace SlowMeet.Lib

universe u

/-- The buffer of a channel. -/
structure Mailbox (α : Type u) (capacity : Nat) where
  pending : List α
  fits : pending.length ≤ capacity

namespace Mailbox

variable {α : Type u} {capacity : Nat} {m m' : Mailbox α capacity} {a : α}
  {taken offered : List α}

def empty : Mailbox α capacity := ⟨[], Nat.zero_le _⟩

@[simp] theorem empty_pending : (empty : Mailbox α capacity).pending = [] := rfl

/-- A send that does not wait. -/
def offer (m : Mailbox α capacity) (a : α) : Option (Mailbox α capacity) :=
  if h : m.pending.length < capacity then
    some ⟨m.pending ++ [a], by rw [List.length_append]; exact h⟩
  else none

/-- A receive. -/
def take (m : Mailbox α capacity) : Option (α × Mailbox α capacity) :=
  match m with
  | ⟨[], _⟩ => none
  | ⟨a :: rest, fits⟩ => some (a, ⟨rest, Nat.le_of_succ_le fits⟩)

theorem offer_eq_some (h : m.offer a = some m') : m'.pending = m.pending ++ [a] := by
  unfold offer at h
  split at h
  · cases h
    rfl
  · cases h

theorem offer_eq_none (h : m.offer a = none) : m.pending.length = capacity := by
  unfold offer at h
  split at h
  · cases h
  · next hfull => exact Nat.le_antisymm m.fits (Nat.le_of_not_lt hfull)

theorem take_eq_some (h : m.take = some (a, m')) : m.pending = a :: m'.pending := by
  unfold take at h
  split at h
  · cases h
  · cases h
    rfl

theorem take_eq_none (h : m.take = none) : m.pending = [] := by
  unfold take at h
  split at h
  · rfl
  · cases h

/-- What was taken, and what is buffered, was offered, in that order. -/
def Passes (m : Mailbox α capacity) (taken offered : List α) : Prop :=
  (taken ++ m.pending).Sublist offered

theorem passes_empty : (empty : Mailbox α capacity).Passes [] [] := List.Sublist.refl _

theorem Passes.accepted (hm : m.Passes taken offered) (h : m.offer a = some m') :
    m'.Passes taken (offered ++ [a]) := by
  unfold Passes
  rw [offer_eq_some h, ← List.append_assoc]
  exact hm.append (List.Sublist.refl _)

theorem Passes.refused (hm : m.Passes taken offered) (a : α) : m.Passes taken (offered ++ [a]) :=
  hm.trans (List.sublist_append_left _ _)

/-- An offer, accepted or not. -/
theorem Passes.offer (hm : m.Passes taken offered) (a : α) :
    ((m.offer a).getD m).Passes taken (offered ++ [a]) := by
  cases h : m.offer a with
  | none => exact hm.refused a
  | some m' => exact hm.accepted h

theorem Passes.took (hm : m.Passes taken offered) (h : m.take = some (a, m')) :
    m'.Passes (taken ++ [a]) offered := by
  unfold Passes at hm ⊢
  rw [take_eq_some h] at hm
  rw [List.append_assoc]
  exact hm

theorem Passes.taken_sublist (hm : m.Passes taken offered) : taken.Sublist offered :=
  (List.sublist_append_left _ _).trans hm

/-! ## A burst -/

/-- Offers in a row, until one is refused. -/
def offerAll (m : Mailbox α capacity) (items : List α) : Option (Mailbox α capacity) :=
  items.foldlM Mailbox.offer m

/-- A burst that fits is accepted whole. -/
theorem exists_offerAll {items : List α} (hroom : m.pending.length + items.length ≤ capacity) :
    ∃ m', m.offerAll items = some m' ∧ m'.pending = m.pending ++ items := by
  induction items generalizing m with
  | nil => exact ⟨m, rfl, (List.append_nil _).symm⟩
  | cons a rest ih =>
    rw [List.length_cons] at hroom
    cases hoffer : m.offer a with
    | none =>
      have hfull := offer_eq_none hoffer
      omega
    | some next =>
      have hpending := offer_eq_some hoffer
      have hnext : next.pending.length + rest.length ≤ capacity := by
        rw [hpending, List.length_append, List.length_singleton]
        omega
      obtain ⟨m', hrest, hm'⟩ := ih hnext
      refine ⟨m', ?_, ?_⟩
      · show (m.offer a).bind (fun next => rest.foldlM Mailbox.offer next) = some m'
        rw [hoffer]
        exact hrest
      · rw [hm', hpending, List.append_assoc, List.singleton_append]

end Mailbox

/-- Batches that are dropped whole leave the rest of the items in order. -/
theorem flatten_sublist {α : Type u} {xs ys : List (List α)} (h : xs.Sublist ys) :
    xs.flatten.Sublist ys.flatten := by
  induction h with
  | slnil => exact List.Sublist.refl _
  | cons batch _ ih => exact ih.trans (List.sublist_append_right _ _)
  | cons_cons batch _ ih => exact (List.Sublist.refl batch).append ih

end SlowMeet.Lib
