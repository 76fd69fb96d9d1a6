import Mathlib.Data.List.AList

/-!
# Go maps

A Go map as an association list without duplicate keys (Mathlib's `AList`
at a constant family). A `range` loop reads `values`; a loop that rewrites
or deletes entries while it ranges is `mapValues` or `filter`. Everything is
stated through `lookup`, so no result depends on the order of the entries.
-/

namespace SlowMeet.Lib

universe u v

/-- A Go `map[α]β`. -/
abbrev GoMap (α : Type u) (β : Type v) := AList fun _ : α => β

namespace GoMap

variable {α : Type u} {β : Type v}

/-- The values a `range` loop visits. -/
def values (m : GoMap α β) : List β := m.entries.map Sigma.snd

/-- The entries a `range` loop visits. -/
def pairs (m : GoMap α β) : List (α × β) := m.entries.map fun e => (e.1, e.2)

/-- Go's `len`. -/
def size (m : GoMap α β) : Nat := m.entries.length

/-- Rewrite every value in place. -/
def mapValues (f : β → β) (m : GoMap α β) : GoMap α β where
  entries := m.entries.map fun e => ⟨e.1, f e.2⟩
  nodupKeys := by
    have h : (m.entries.map fun e => (⟨e.1, f e.2⟩ : (_ : α) × β)).keys = m.entries.keys := by
      simp [List.keys, Function.comp_def]
    simpa [List.NodupKeys, h] using m.nodupKeys

/-- Keep the entries whose value meets `p`; the others are deleted. -/
def filter (p : β → Bool) (m : GoMap α β) : GoMap α β where
  entries := m.entries.filter fun e => p e.2
  nodupKeys := by
    refine List.Nodup.sublist ?_ m.nodupKeys
    exact (List.filter_sublist (p := fun e : (_ : α) × β => p e.2)).map Sigma.fst

/-- Rewrite every value in place, by its key. -/
def mapEntries (f : α → β → β) (m : GoMap α β) : GoMap α β where
  entries := m.entries.map fun e => ⟨e.1, f e.1 e.2⟩
  nodupKeys := by
    have h : (m.entries.map fun e => (⟨e.1, f e.1 e.2⟩ : (_ : α) × β)).keys = m.entries.keys := by
      simp [List.keys, Function.comp_def]
    simpa [List.NodupKeys, h] using m.nodupKeys

/-- Keep the entries that meet `p`; the others are deleted. -/
def filterEntries (p : α → β → Bool) (m : GoMap α β) : GoMap α β where
  entries := m.entries.filter fun e => p e.1 e.2
  nodupKeys := by
    refine List.Nodup.sublist ?_ m.nodupKeys
    exact (List.filter_sublist (p := fun e : (_ : α) × β => p e.1 e.2)).map Sigma.fst

variable [DecidableEq α]

theorem lookup_eq_some_iff {m : GoMap α β} {a : α} {b : β} :
    m.lookup a = some b ↔ (⟨a, b⟩ : (_ : α) × β) ∈ m.entries :=
  AList.mem_lookup_iff

theorem mem_values {m : GoMap α β} {b : β} : b ∈ m.values ↔ ∃ a, m.lookup a = some b := by
  simp only [values, List.mem_map, lookup_eq_some_iff]
  constructor
  · rintro ⟨⟨a, b'⟩, hmem, rfl⟩
    exact ⟨a, hmem⟩
  · rintro ⟨a, hmem⟩
    exact ⟨⟨a, b⟩, hmem, rfl⟩

theorem mem_pairs {m : GoMap α β} {a : α} {b : β} :
    (a, b) ∈ m.pairs ↔ m.lookup a = some b := by
  simp only [pairs, List.mem_map, lookup_eq_some_iff, Prod.mk.injEq]
  constructor
  · rintro ⟨⟨a', b'⟩, hmem, rfl, rfl⟩
    exact hmem
  · intro hmem
    exact ⟨⟨a, b⟩, hmem, rfl, rfl⟩

/-- A relation between the values of distinct keys relates the values a
`range` loop visits. -/
theorem pairwise_values {m : GoMap α β} {R : β → β → Prop}
    (h : ∀ a b a' b', m.lookup a = some b → m.lookup a' = some b' → a ≠ a' → R b b') :
    m.values.Pairwise R := by
  rw [values, List.pairwise_map]
  refine (List.nodupKeys_iff_pairwise.mp m.nodupKeys).imp_of_mem ?_
  intro e e' he he' hne
  exact h e.1 e.2 e'.1 e'.2 (lookup_eq_some_iff.mpr he) (lookup_eq_some_iff.mpr he') hne

@[simp] theorem lookup_mapValues (f : β → β) (m : GoMap α β) (a : α) :
    (mapValues f m).lookup a = (m.lookup a).map f :=
  List.dlookup_map₂ (f := fun _ => f) a

theorem lookup_filter_eq_some {p : β → Bool} {m : GoMap α β} {a : α} {b : β} :
    (filter p m).lookup a = some b ↔ m.lookup a = some b ∧ p b = true := by
  rw [lookup_eq_some_iff, lookup_eq_some_iff]
  simp [filter]

@[simp] theorem lookup_filter (p : β → Bool) (m : GoMap α β) (a : α) :
    (filter p m).lookup a = (m.lookup a).filter p := by
  ext b
  rw [lookup_filter_eq_some, Option.filter_eq_some_iff]

@[simp] theorem lookup_mapEntries (f : α → β → β) (m : GoMap α β) (a : α) :
    (mapEntries f m).lookup a = (m.lookup a).map (f a) :=
  List.dlookup_map₂ (f := f) a

theorem lookup_filterEntries_eq_some {p : α → β → Bool} {m : GoMap α β} {a : α} {b : β} :
    (filterEntries p m).lookup a = some b ↔ m.lookup a = some b ∧ p a b = true := by
  rw [lookup_eq_some_iff, lookup_eq_some_iff]
  simp [filterEntries]

@[simp] theorem lookup_filterEntries (p : α → β → Bool) (m : GoMap α β) (a : α) :
    (filterEntries p m).lookup a = (m.lookup a).filter (p a) := by
  ext b
  rw [lookup_filterEntries_eq_some, Option.filter_eq_some_iff]

theorem lookup_insert (m : GoMap α β) (a a' : α) (b : β) :
    (m.insert a b).lookup a' = if a' = a then some b else m.lookup a' := by
  by_cases h : a' = a
  · subst h; simp
  · simp [h, AList.lookup_insert_ne h]

theorem lookup_erase (m : GoMap α β) (a a' : α) :
    (m.erase a).lookup a' = if a' = a then none else m.lookup a' := by
  by_cases h : a' = a
  · subst h; simp
  · simp [h, AList.lookup_erase_ne h]

/-- A map is empty when every key misses. -/
theorem size_eq_zero_iff {m : GoMap α β} : m.size = 0 ↔ ∀ a, m.lookup a = none := by
  rw [size, List.length_eq_zero_iff]
  constructor
  · intro h a
    cases hl : m.lookup a with
    | none => rfl
    | some b => simp [lookup_eq_some_iff, h] at hl
  · intro h
    rw [List.eq_nil_iff_forall_not_mem]
    rintro ⟨a, b⟩ hmem
    have hl : m.lookup a = some b := lookup_eq_some_iff.mpr hmem
    simp [h a] at hl

/-- Of the values of a map whose values carry their key, one has the key
`a`: the one stored there. -/
theorem filterMap_values {key : β → α} {m : GoMap α β}
    (hkey : ∀ a b, m.lookup a = some b → key b = a) (a : α) :
    (m.values.filterMap fun b => if key b = a then some b else none) = (m.lookup a).toList := by
  obtain ⟨entries, hnodup⟩ := m
  replace hkey : ∀ e ∈ entries, key e.2 = e.1 := fun e he =>
    hkey e.1 e.2 (lookup_eq_some_iff.mpr he)
  simp only [values, AList.lookup]
  induction entries with
  | nil => rfl
  | cons e rest ih =>
    have hrest := ih (List.nodupKeys_cons.mp hnodup).2 fun x hx => hkey x (List.mem_cons_of_mem _ hx)
    have he := hkey e List.mem_cons_self
    by_cases hea : e.1 = a
    · subst hea
      have hnot : rest.dlookup e.1 = none :=
        List.dlookup_eq_none.mpr (List.nodupKeys_cons.mp hnodup).1
      rw [hnot] at hrest
      have hhead : List.dlookup e.1 (e :: rest) = some e.2 := List.dlookup_cons_eq rest e.1 e.2
      simp [he, hhead, hrest]
    · rw [List.dlookup_cons_ne _ _ (fun h => hea h.symm)]
      simp [he, hea, hrest]

end GoMap

end SlowMeet.Lib
