import Mathlib.Data.Rat.Floor
import Mathlib.Tactic.FieldSimp
import Mathlib.Tactic.Linarith
import Mathlib.Tactic.Positivity

/-!
# The participant layout

`chooseParticipantLayout` of `web/js/adaptation-policy.js`: of the column
counts that leave room for tiles the one with the highest score, over exact
rationals.

A single column is what remains when no column count leaves room, and the
object returned then holds all participants in one entry of `rowCounts`.
-/

namespace SlowMeet.Client

/-- The argument of `chooseParticipantLayout`. -/
structure LayoutOptions where
  width : ℚ
  height : ℚ
  count : ℚ
  gap : ℚ := 12
  aspectRatio : ℚ := 16 / 9
  minTileWidth : ℚ := 144
  minTileHeight : ℚ := 88
  maxTileWidth : ℚ := 720
  preferredColumns : ℚ := 0
  maxColumns : ℚ := 0

structure ParticipantLayout where
  columns : ℕ
  rows : ℕ
  tileWidth : ℚ
  tileHeight : ℚ
  rowCounts : List ℕ
  overflow : Bool
  deriving DecidableEq, Repr

/-- An element of `candidates`. -/
structure LayoutCandidate extends ParticipantLayout where
  belowMinimum : Bool
  score : ℚ

namespace LayoutOptions

variable (o : LayoutOptions)

def participantCount : ℕ := (max 0 ⌊o.count⌋).toNat

def stageWidth : ℚ := max 0 o.width

def stageHeight : ℚ := max 0 o.height

def participantColumnLimit : ℕ :=
  if 0 < o.maxColumns then min o.participantCount ⌊o.maxColumns⌋.toNat else o.participantCount

/-! ## One column count -/

/-- `Math.ceil(participantCount / columns)`. -/
def rows (columns : ℕ) : ℕ := ⌈(o.participantCount / columns : ℚ)⌉₊

def availableWidth (columns : ℕ) : ℚ :=
  (o.stageWidth - o.gap * (columns - 1)) / columns

def availableHeight (columns : ℕ) : ℚ :=
  (o.stageHeight - o.gap * (o.rows columns - 1)) / o.rows columns

def tileWidth (columns : ℕ) : ℚ :=
  min (min (o.availableWidth columns) (o.availableHeight columns * o.aspectRatio)) o.maxTileWidth

def tileHeight (columns : ℕ) : ℚ := o.tileWidth columns / o.aspectRatio

def belowMinimum (columns : ℕ) : Bool :=
  o.tileWidth columns < o.minTileWidth || o.tileHeight columns < o.minTileHeight

def area (columns : ℕ) : ℚ :=
  o.tileWidth columns * o.tileHeight columns * o.participantCount

def rowCounts (columns : ℕ) : List ℕ :=
  (List.range (o.rows columns)).map fun row => min columns (o.participantCount - row * columns)

def score (columns : ℕ) : ℚ :=
  (if o.belowMinimum columns then o.area columns * (2 / 10) else o.area columns) +
    o.area columns * (if o.preferredColumns = columns then 6 / 100 else 0)

/-- The object that the loop pushes. -/
def tiled (columns : ℕ) : LayoutCandidate where
  columns := columns
  rows := o.rows columns
  tileWidth := o.tileWidth columns
  tileHeight := o.tileHeight columns
  rowCounts := o.rowCounts columns
  overflow := false
  belowMinimum := o.belowMinimum columns
  score := o.score columns

/-- The body of the loop over the column counts. -/
def candidate (columns : ℕ) : Option LayoutCandidate :=
  if o.availableWidth columns ≤ 0 ∨ o.availableHeight columns ≤ 0 then none
  else some (o.tiled columns)

def candidates : List LayoutCandidate :=
  (List.range' 1 o.participantColumnLimit).filterMap o.candidate

/-! ## The choice -/

def usableCandidates : List LayoutCandidate :=
  o.candidates.filter fun candidate => !candidate.belowMinimum

/-- The order of `rankedCandidates.sort`: higher scores first, then fewer
columns. -/
def ranksBefore (left right : LayoutCandidate) : Bool :=
  right.score < left.score || (left.score = right.score && left.columns ≤ right.columns)

def rankedCandidates : List LayoutCandidate :=
  (if o.usableCandidates = [] then o.candidates else o.usableCandidates).mergeSort ranksBefore

def fallback : ParticipantLayout where
  columns := 1
  rows := o.participantCount
  tileWidth := 0
  tileHeight := 0
  rowCounts := [o.participantCount]
  overflow := false

/-- Two columns of three participants. -/
def balancedCandidate : Option LayoutCandidate :=
  if o.participantCount = 3 then
    o.usableCandidates.find? fun candidate => candidate.columns = 2
  else none

end LayoutOptions

open LayoutOptions in
def chooseParticipantLayout (o : LayoutOptions) : ParticipantLayout :=
  if o.participantCount = 0 ∨ o.stageWidth = 0 ∨ o.stageHeight = 0 then
    ⟨1, 0, 0, 0, [], false⟩
  else
    match o.balancedCandidate with
    | some candidate => candidate.toParticipantLayout
    | none =>
      match o.rankedCandidates.head? with
      | some candidate => candidate.toParticipantLayout
      | none => o.fallback

/-! ## What a layout should be -/

namespace LayoutOptions

variable {o : LayoutOptions} {columns : ℕ}

/-- The arguments a layout is chosen for: someone to show, on a stage that
has an extent. -/
structure Sound (o : LayoutOptions) : Prop where
  count : ∃ n : ℕ, 1 ≤ n ∧ o.count = n
  width : 0 < o.width
  height : 0 < o.height
  aspectRatio : 0 < o.aspectRatio
  minTileWidth : 0 ≤ o.minTileWidth
  minTileHeight : 0 ≤ o.minTileHeight
  maxTileWidth : 0 ≤ o.maxTileWidth

/-- A column count that `maxColumns` allows. -/
def Allowed (o : LayoutOptions) (columns : ℕ) : Prop :=
  1 ≤ columns ∧ columns ≤ o.participantColumnLimit

/-- A column count leaves room for tiles. -/
def Roomy (o : LayoutOptions) (columns : ℕ) : Prop :=
  0 < o.availableWidth columns ∧ 0 < o.availableHeight columns

instance : Decidable (o.Roomy columns) := inferInstanceAs (Decidable (_ ∧ _))

/-- A layout holds every participant once, in rows that fit the stage, and
meets the minimum sizes when some column count does. -/
structure Consistent (o : LayoutOptions) (layout : ParticipantLayout) : Prop where
  length : layout.rowCounts.length = layout.rows
  bounds : ∀ count ∈ layout.rowCounts, 1 ≤ count ∧ count ≤ layout.columns
  sum : (layout.rowCounts.sum : ℚ) = o.count
  nonneg : 0 ≤ layout.tileWidth ∧ 0 ≤ layout.tileHeight
  ratio : layout.tileWidth = o.aspectRatio * layout.tileHeight
  fits : 0 < layout.tileWidth → 0 < layout.tileHeight →
    layout.columns * layout.tileWidth + o.gap * (layout.columns - 1) ≤ o.width ∧
      layout.rows * layout.tileHeight + o.gap * (layout.rows - 1) ≤ o.height
  minimum : (∃ columns, o.Allowed columns ∧
      o.minTileWidth ≤ o.tileWidth columns ∧ o.minTileHeight ≤ o.tileHeight columns) →
    o.minTileWidth ≤ layout.tileWidth ∧ o.minTileHeight ≤ layout.tileHeight

namespace Sound

variable (h : o.Sound)

include h

theorem participantCount_pos : 1 ≤ o.participantCount := by
  obtain ⟨n, hn, hcount⟩ := h.count
  rw [participantCount, hcount, Int.floor_natCast]
  omega

theorem participantCount_eq : (o.participantCount : ℚ) = o.count := by
  obtain ⟨n, -, hcount⟩ := h.count
  have hfloor : o.participantCount = n := by
    rw [participantCount, hcount, Int.floor_natCast]
    omega
  rw [hfloor, hcount]

theorem stageWidth_eq : o.stageWidth = o.width := max_eq_right h.width.le

theorem stageHeight_eq : o.stageHeight = o.height := max_eq_right h.height.le

/-- The early return is not taken. -/
theorem not_empty : ¬(o.participantCount = 0 ∨ o.stageWidth = 0 ∨ o.stageHeight = 0) := by
  have hcount := h.participantCount_pos
  have hwidth := h.width
  have hheight := h.height
  rw [h.stageWidth_eq, h.stageHeight_eq]
  intro hempty
  obtain hempty | hempty | hempty := hempty
  · omega
  · linarith
  · linarith

end Sound

/-! ## The rows of one column count -/

/-- Filling rows of `columns` from the front leaves no gaps. -/
theorem sum_rows (count columns rows : ℕ) :
    ((List.range rows).map fun row => min columns (count - row * columns)).sum =
      min count (rows * columns) := by
  induction rows with
  | zero => simp
  | succ rows ih =>
    rw [List.range_succ, List.map_append, List.sum_append, ih, List.map_singleton,
      List.sum_singleton, Nat.succ_mul]
    omega

theorem participantCount_le_rows (hcolumns : 1 ≤ columns) :
    o.participantCount ≤ o.rows columns * columns := by
  have hpos : (0 : ℚ) < columns := by exact_mod_cast hcolumns
  have hceil := Nat.le_ceil (o.participantCount / columns : ℚ)
  have hle : (o.participantCount : ℚ) ≤ o.rows columns * columns := (div_le_iff₀ hpos).mp hceil
  exact_mod_cast hle

/-- Every row but the last is full, and the last is not empty. -/
theorem lt_participantCount_of_lt_rows (hcolumns : 1 ≤ columns) {row : ℕ}
    (hrow : row < o.rows columns) : row * columns < o.participantCount := by
  have hpos : (0 : ℚ) < columns := by exact_mod_cast hcolumns
  have hlt : (row : ℚ) < o.participantCount / columns := Nat.lt_ceil.mp hrow
  have hmul : (row : ℚ) * columns < o.participantCount := (lt_div_iff₀ hpos).mp hlt
  exact_mod_cast hmul

theorem length_rowCounts : (o.rowCounts columns).length = o.rows columns := by
  rw [rowCounts, List.length_map, List.length_range]

theorem sum_rowCounts (hcolumns : 1 ≤ columns) :
    (o.rowCounts columns).sum = o.participantCount := by
  rw [rowCounts, sum_rows]
  exact min_eq_left (participantCount_le_rows hcolumns)

theorem rowCounts_bounds (hcolumns : 1 ≤ columns) :
    ∀ count ∈ o.rowCounts columns, 1 ≤ count ∧ count ≤ columns := by
  intro count hcount
  obtain ⟨row, hrow, rfl⟩ := List.mem_map.mp hcount
  have hlt := lt_participantCount_of_lt_rows hcolumns (List.mem_range.mp hrow)
  omega

/-! ## The tiles of one column count -/

theorem tileWidth_le_availableWidth : o.tileWidth columns ≤ o.availableWidth columns :=
  (min_le_left _ _).trans (min_le_left _ _)

theorem tileWidth_le_availableHeight :
    o.tileWidth columns ≤ o.availableHeight columns * o.aspectRatio :=
  (min_le_left _ _).trans (min_le_right _ _)

namespace Sound

variable (h : o.Sound)

include h

theorem tileWidth_eq : o.tileWidth columns = o.aspectRatio * o.tileHeight columns := by
  have hratio := h.aspectRatio
  rw [tileHeight]
  field_simp

theorem tileHeight_le_availableHeight : o.tileHeight columns ≤ o.availableHeight columns :=
  (div_le_iff₀ h.aspectRatio).mpr tileWidth_le_availableHeight

theorem tileWidth_nonneg (hroom : o.Roomy columns) : 0 ≤ o.tileWidth columns := by
  obtain ⟨hwidth, hheight⟩ := hroom
  exact le_min (le_min hwidth.le (mul_nonneg hheight.le h.aspectRatio.le)) h.maxTileWidth

theorem tileHeight_nonneg (hroom : o.Roomy columns) : 0 ≤ o.tileHeight columns :=
  div_nonneg (h.tileWidth_nonneg hroom) h.aspectRatio.le

theorem width_fits (hcolumns : 1 ≤ columns) :
    columns * o.tileWidth columns + o.gap * (columns - 1) ≤ o.width := by
  have hpos : (0 : ℚ) < columns := by exact_mod_cast hcolumns
  have hle : o.tileWidth columns ≤ (o.stageWidth - o.gap * (columns - 1)) / columns :=
    tileWidth_le_availableWidth
  rw [le_div_iff₀ hpos, h.stageWidth_eq] at hle
  linarith

theorem rows_pos (hcolumns : 1 ≤ columns) : 1 ≤ o.rows columns := by
  have hcount := h.participantCount_pos
  have hle := participantCount_le_rows (o := o) hcolumns
  by_contra hzero
  have hrows : o.rows columns = 0 := by omega
  rw [hrows] at hle
  omega

theorem height_fits (hcolumns : 1 ≤ columns) :
    o.rows columns * o.tileHeight columns + o.gap * (o.rows columns - 1) ≤ o.height := by
  have hpos : (0 : ℚ) < o.rows columns := by exact_mod_cast h.rows_pos hcolumns
  have hle : o.tileHeight columns ≤
      (o.stageHeight - o.gap * (o.rows columns - 1)) / o.rows columns :=
    h.tileHeight_le_availableHeight
  rw [le_div_iff₀ hpos, h.stageHeight_eq] at hle
  linarith

/-- A column count that meets a minimum above zero leaves room. -/
theorem roomy_of_pos (hpos : 0 < o.tileWidth columns) : o.Roomy columns := by
  constructor
  · exact hpos.trans_le tileWidth_le_availableWidth
  · have hmul : 0 < o.availableHeight columns * o.aspectRatio :=
      hpos.trans_le tileWidth_le_availableHeight
    exact (mul_pos_iff_of_pos_right h.aspectRatio).mp hmul

/-- The tiles of a column count are consistent but for the minimum. -/
theorem tiled_consistent (hcolumns : 1 ≤ columns) (hroom : o.Roomy columns)
    (hminimum : (∃ columns, o.Allowed columns ∧
        o.minTileWidth ≤ o.tileWidth columns ∧ o.minTileHeight ≤ o.tileHeight columns) →
      o.minTileWidth ≤ o.tileWidth columns ∧ o.minTileHeight ≤ o.tileHeight columns) :
    Consistent o (o.tiled columns).toParticipantLayout where
  length := length_rowCounts
  bounds := rowCounts_bounds hcolumns
  sum := by
    show ((o.rowCounts columns).sum : ℚ) = _
    rw [sum_rowCounts hcolumns, h.participantCount_eq]
  nonneg := ⟨h.tileWidth_nonneg hroom, h.tileHeight_nonneg hroom⟩
  ratio := h.tileWidth_eq
  fits _ _ := ⟨h.width_fits hcolumns, h.height_fits hcolumns⟩
  minimum := hminimum

end Sound

/-! ## The choice -/

theorem mem_candidates {c : LayoutCandidate} :
    c ∈ o.candidates ↔ ∃ columns, o.Allowed columns ∧ o.Roomy columns ∧ c = o.tiled columns := by
  simp only [candidates, List.mem_filterMap, List.mem_range'_1, candidate]
  constructor
  · intro hc
    obtain ⟨columns, hrange, hcandidate⟩ := hc
    split_ifs at hcandidate with hnarrow
    · obtain rfl := Option.some.inj hcandidate
      rw [not_or, not_le, not_le] at hnarrow
      exact ⟨columns, ⟨hrange.1, by omega⟩, hnarrow, rfl⟩
  · intro hc
    obtain ⟨columns, hallowed, hroom, rfl⟩ := hc
    refine ⟨columns, ⟨hallowed.1, ?_⟩, ?_⟩
    · have := hallowed.2
      omega
    · rw [if_neg]
      rw [not_or, not_le, not_le]
      exact hroom

theorem mem_usableCandidates {c : LayoutCandidate} :
    c ∈ o.usableCandidates ↔ c ∈ o.candidates ∧ c.belowMinimum = false := by
  rw [usableCandidates, List.mem_filter, Bool.not_eq_true']

theorem belowMinimum_eq_false_iff :
    o.belowMinimum columns = false ↔
      o.minTileWidth ≤ o.tileWidth columns ∧ o.minTileHeight ≤ o.tileHeight columns := by
  rw [belowMinimum, Bool.or_eq_false_iff, decide_eq_false_iff_not, decide_eq_false_iff_not,
    not_lt, not_lt]

theorem mem_balancedCandidate {c : LayoutCandidate} (hc : o.balancedCandidate = some c) :
    c ∈ o.usableCandidates := by
  unfold balancedCandidate at hc
  split_ifs at hc
  exact List.mem_of_find?_eq_some hc

theorem mem_rankedCandidates {c : LayoutCandidate} :
    c ∈ o.rankedCandidates ↔
      c ∈ if o.usableCandidates = [] then o.candidates else o.usableCandidates := by
  rw [rankedCandidates, List.mem_mergeSort]

theorem ranked_of_candidates (hsome : o.candidates ≠ []) :
    ∃ c, o.rankedCandidates.head? = some c := by
  have hlist : (if o.usableCandidates = [] then o.candidates else o.usableCandidates) ≠ [] := by
    split_ifs with husable
    · exact hsome
    · exact husable
  obtain ⟨c, hc⟩ := List.exists_mem_of_ne_nil _ hlist
  have hmem := mem_rankedCandidates.mpr hc
  cases hhead : o.rankedCandidates with
  | nil =>
    rw [hhead] at hmem
    cases hmem
  | cons first rest => exact ⟨first, rfl⟩

namespace Sound

variable (h : o.Sound)

include h

/-- Without a candidate the fallback is returned. -/
theorem layout_of_candidates_nil (hnone : o.candidates = []) :
    chooseParticipantLayout o = o.fallback := by
  have husable : o.usableCandidates = [] := by rw [usableCandidates, hnone, List.filter_nil]
  have hbalanced : o.balancedCandidate = none := by
    rw [balancedCandidate, husable, List.find?_nil, ite_self]
  have hranked : o.rankedCandidates = [] := by
    rw [rankedCandidates, husable, if_pos rfl, hnone, List.mergeSort_nil]
  rw [chooseParticipantLayout, if_neg h.not_empty, hbalanced, hranked]
  rfl

/-- Otherwise a candidate is, and one that meets the minimum if there is one. -/
theorem layout_of_candidates (hsome : o.candidates ≠ []) :
    ∃ c ∈ o.candidates, chooseParticipantLayout o = c.toParticipantLayout ∧
      (o.usableCandidates ≠ [] → c.belowMinimum = false) := by
  rw [chooseParticipantLayout, if_neg h.not_empty]
  cases hbalanced : o.balancedCandidate with
  | some c =>
    obtain ⟨hmem, hminimum⟩ := mem_usableCandidates.mp (mem_balancedCandidate hbalanced)
    exact ⟨c, hmem, rfl, fun _ => hminimum⟩
  | none =>
    obtain ⟨c, hc⟩ := ranked_of_candidates hsome
    rw [hc]
    have hmem := mem_rankedCandidates.mp (List.mem_of_head? hc)
    by_cases husable : o.usableCandidates = []
    · rw [if_pos husable] at hmem
      exact ⟨c, hmem, rfl, fun hne => absurd husable hne⟩
    · rw [if_neg husable] at hmem
      obtain ⟨hcandidate, hminimum⟩ := mem_usableCandidates.mp hmem
      exact ⟨c, hcandidate, rfl, fun _ => hminimum⟩

/-- Tiles without room meet a minimum only where there is none. -/
theorem minimum_le_zero (hroom : ¬o.Roomy columns)
    (hmeets : o.minTileWidth ≤ o.tileWidth columns ∧ o.minTileHeight ≤ o.tileHeight columns) :
    o.minTileWidth ≤ 0 ∧ o.minTileHeight ≤ 0 := by
  have hwidth : o.tileWidth columns ≤ 0 := by
    by_contra hpos
    exact hroom (h.roomy_of_pos (not_le.mp hpos))
  have hheight : o.tileHeight columns ≤ 0 := div_nonpos_of_nonpos_of_nonneg hwidth h.aspectRatio.le
  exact ⟨hmeets.1.trans hwidth, hmeets.2.trans hheight⟩

theorem consistent_of_candidates (hsome : o.candidates ≠ []) :
    Consistent o (chooseParticipantLayout o) := by
  obtain ⟨c, hc, hlayout, hminimum⟩ := h.layout_of_candidates hsome
  obtain ⟨columns, hallowed, hroom, rfl⟩ := mem_candidates.mp hc
  rw [hlayout]
  apply h.tiled_consistent hallowed.1 hroom
  intro hmeets
  obtain ⟨other, hother, hmeets⟩ := hmeets
  by_cases hotherRoom : o.Roomy other
  · -- the other column count is a usable candidate
    have husable : o.tiled other ∈ o.usableCandidates :=
      mem_usableCandidates.mpr ⟨mem_candidates.mpr ⟨other, hother, hotherRoom, rfl⟩,
        belowMinimum_eq_false_iff.mpr hmeets⟩
    exact belowMinimum_eq_false_iff.mp (hminimum (List.ne_nil_of_mem husable))
  · obtain ⟨hwidth, hheight⟩ := h.minimum_le_zero hotherRoom hmeets
    exact ⟨hwidth.trans (h.tileWidth_nonneg hroom), hheight.trans (h.tileHeight_nonneg hroom)⟩

/-- The fallback is a layout of one participant only. -/
theorem fallback_consistent_iff (hnone : o.candidates = []) :
    Consistent o o.fallback ↔ o.count = 1 := by
  constructor
  · intro hconsistent
    have hbounds := hconsistent.bounds o.participantCount (List.mem_singleton.mpr rfl)
    have hone : o.participantCount = 1 := le_antisymm hbounds.2 hbounds.1
    rw [← h.participantCount_eq, hone, Nat.cast_one]
  · intro hcount
    have hone : o.participantCount = 1 := by
      have heq := h.participantCount_eq
      rw [hcount] at heq
      exact_mod_cast heq
    refine ⟨?_, ?_, ?_, ⟨le_rfl, le_rfl⟩, (mul_zero _).symm, ?_, ?_⟩
    · rw [fallback, hone]
      rfl
    · intro count hmem
      rw [fallback, List.mem_singleton, hone] at hmem
      subst hmem
      exact ⟨le_rfl, le_rfl⟩
    · rw [fallback, List.sum_singleton, h.participantCount_eq]
    · intro hpos
      exact absurd hpos (lt_irrefl 0)
    · intro hmeets
      obtain ⟨columns, hallowed, hmeets⟩ := hmeets
      apply h.minimum_le_zero _ hmeets
      intro hroom
      have hmem := mem_candidates.mpr ⟨columns, hallowed, hroom, rfl⟩
      rw [hnone] at hmem
      cases hmem

end Sound

end LayoutOptions

open LayoutOptions in
/-- **Where the layout is consistent**: for one participant, and for more
exactly when some column count that `maxColumns` allows leaves room on the
stage. -/
theorem chooseParticipantLayout_consistent_iff {o : LayoutOptions} (h : o.Sound) :
    Consistent o (chooseParticipantLayout o) ↔
      o.count = 1 ∨ ∃ columns, o.Allowed columns ∧ o.Roomy columns := by
  by_cases hnone : o.candidates = []
  · have hroom : ¬∃ columns, o.Allowed columns ∧ o.Roomy columns := by
      intro hsome
      obtain ⟨columns, hallowed, hroom⟩ := hsome
      have hmem := mem_candidates.mpr ⟨columns, hallowed, hroom, rfl⟩
      rw [hnone] at hmem
      cases hmem
    rw [h.layout_of_candidates_nil hnone, h.fallback_consistent_iff hnone, or_iff_left hroom]
  · have hroom : ∃ columns, o.Allowed columns ∧ o.Roomy columns := by
      obtain ⟨c, hc⟩ := List.exists_mem_of_ne_nil _ hnone
      obtain ⟨columns, hallowed, hroom, -⟩ := mem_candidates.mp hc
      exact ⟨columns, hallowed, hroom⟩
    exact iff_of_true (h.consistent_of_candidates hnone) (Or.inr hroom)

namespace LayoutOptions

/-- Participants on a stage of a desktop's size. -/
def desktop (count : ℚ) : LayoutOptions where
  width := 1200
  height := 620
  count := count

theorem chooseParticipantLayout_consistent_desktop :
    Consistent (desktop 6) (chooseParticipantLayout (desktop 6)) :=
  (chooseParticipantLayout_consistent_iff
    ⟨⟨6, by decide, rfl⟩, by decide, by decide, by decide +kernel, by decide, by decide,
      by decide⟩).mpr (Or.inr ⟨3, ⟨by decide, by decide +kernel⟩, by decide +kernel⟩)

/-- Two participants in a pixel, which has no room for the gap between them. -/
def pixel : LayoutOptions where
  width := 1
  height := 1
  count := 2

theorem pixel_sound : pixel.Sound :=
  ⟨⟨2, by decide, rfl⟩, by decide, by decide, by decide +kernel, by decide, by decide, by decide⟩

/-- Two rows with one entry for both participants. -/
theorem not_chooseParticipantLayout_consistent_pixel :
    pixel.Sound ∧ chooseParticipantLayout pixel = ⟨1, 2, 0, 0, [2], false⟩ ∧
      ¬Consistent pixel (chooseParticipantLayout pixel) := by
  have hnone : pixel.candidates = [] := by decide +kernel
  have hlayout := pixel_sound.layout_of_candidates_nil hnone
  refine ⟨pixel_sound, hlayout.trans (by decide +kernel), ?_⟩
  rw [hlayout, pixel_sound.fallback_consistent_iff hnone]
  decide

end LayoutOptions

end SlowMeet.Client
