import SlowMeet.RateLimit.Budget

/-!
# Sweeping goes unnoticed

The limiter against the one that keeps every bucket. A bucket that was idle
for twice the time it takes to fill is full, and a missing bucket is made
anew, full.
-/

namespace SlowMeet.RateLimit

open Lib

/-! ## Full buckets -/

/-- The bucket is full by the time. -/
def Bucket.FullAt (b : Bucket) (rate burst now : ℚ) : Prop :=
  burst ≤ b.tokens + (now - b.last) * rate

/-- What every bucket meets at a time no call has passed. -/
structure Bucket.Valid (b : Bucket) (burst now : ℚ) : Prop where
  nonneg : 0 ≤ b.tokens
  le_burst : b.tokens ≤ burst
  last_le : b.last ≤ now

section Bucket

variable {b : Bucket} {rate burst now later : ℚ}

theorem Bucket.FullAt.mono (h : b.FullAt rate burst now) (hrate : 0 < rate) (hle : now ≤ later) :
    b.FullAt rate burst later := by
  have hgain : (now - b.last) * rate ≤ (later - b.last) * rate :=
    mul_le_mul_of_nonneg_right (by linarith) hrate.le
  unfold FullAt at *
  linarith

/-- Twice the time it takes to fill is enough. -/
theorem Bucket.Valid.fullAt (h : b.Valid burst now) (hrate : 0 < rate)
    (hidle : 2 * (burst / rate) < now - b.last) : b.FullAt rate burst now := by
  have hgain : 2 * (burst / rate) * rate < (now - b.last) * rate :=
    mul_lt_mul_of_pos_right hidle hrate
  have hfill : 2 * (burst / rate) * rate = 2 * burst := by
    rw [mul_assoc, div_mul_cancel₀ burst hrate.ne']
  have hnonneg := h.nonneg
  have hburst := h.le_burst
  unfold FullAt
  linarith

/-- A full bucket is refilled to a new one. -/
theorem Bucket.FullAt.refill (h : b.FullAt rate burst now) (hvalid : b.Valid burst now) :
    b.refill rate burst now = ⟨burst, now⟩ := by
  unfold FullAt at h
  unfold Bucket.refill
  by_cases helapsed : 0 < now - b.last
  · rw [if_pos helapsed, min_eq_right h]
  · have hnone : now - b.last = 0 := by
      have hlast := hvalid.last_le
      linarith
    rw [hnone, zero_mul, add_zero] at h
    rw [if_neg helapsed, le_antisymm hvalid.le_burst h]

theorem Bucket.Valid.refill (h : b.Valid burst now) (hrate : 0 ≤ rate) :
    (b.refill rate burst now).Valid burst now where
  nonneg := refill_nonneg hrate (h.nonneg.trans h.le_burst) h.nonneg
  le_burst := by
    unfold Bucket.refill
    dsimp only
    split
    · exact min_le_right _ _
    · exact h.le_burst
  last_le := le_refl now

theorem Bucket.Valid.mono (h : b.Valid burst now) (hle : now ≤ later) : b.Valid burst later :=
  ⟨h.nonneg, h.le_burst, h.last_le.trans hle⟩

end Bucket

namespace Limiter

/-! ## Calls -/

/-- What `AllowAttempt` does with the key's bucket. -/
def reserve (l : Limiter) (key : String) (now : ℚ) (b : Bucket) : Limiter × Bool :=
  let b := b.refill l.rate l.burst now
  if b.tokens < 1 then ({ l with buckets := l.buckets.insert key b }, false)
  else ({ l with buckets := l.buckets.insert key { b with tokens := b.tokens - 1 } }, true)

/-- `AllowAttempt` with `sweepLocked` removed. -/
def allowUnswept (l : Limiter) (key : String) (now : ℚ) : Limiter × Bool :=
  if key = "" then (l, false)
  else
    match l.bucket key now with
    | none => (l, false)
    | some b => l.reserve key now b

/-- The same, with room for every key. -/
def allowUnbounded (l : Limiter) (key : String) (now : ℚ) : Limiter × Bool :=
  if key = "" then (l, false)
  else l.reserve key now ((l.buckets.lookup key).getD ⟨l.burst, now⟩)

inductive Request
  | allow (key : String)
  | refund (key : String)
  deriving DecidableEq, Repr

section Calls

variable (allow : Limiter → String → ℚ → Limiter × Bool)

/-- One call, at its clock reading. -/
def serve (l : Limiter) (request : Request) (now : ℚ) : Limiter × Option Bool :=
  match request with
  | .allow key => ((allow l key now).1, some (allow l key now).2)
  | .refund key => (l.refundAttempt key now, none)

/-- What a sequence of calls returns. -/
def results (l : Limiter) : List (Request × ℚ) → List (Option Bool)
  | [] => []
  | (request, now) :: calls =>
    (l.serve allow request now).2 :: results (l.serve allow request now).1 calls

/-- The bucket map never reaches `maxBuckets`. -/
def roomy (l : Limiter) : List (Request × ℚ) → Bool
  | [] => l.buckets.size < maxBuckets
  | (request, now) :: calls =>
    l.buckets.size < maxBuckets && roomy (l.serve allow request now).1 calls

end Calls

/-- The clock readings never go back. -/
def ordered (current : ℚ) : List (Request × ℚ) → Bool
  | [] => true
  | (_, now) :: calls => current ≤ now && ordered now calls

/-! ## The simulation -/

section Simulation

variable {l u : Limiter} {key : String} {now later : ℚ}

/-- The buckets of one key: the same, or swept from the first and full in the
second. -/
def Alike (rate burst now : ℚ) (swept kept : Option Bucket) : Prop :=
  swept = kept ∨ swept = none ∧ ∃ b, kept = some b ∧ b.FullAt rate burst now

/-- The limiter `l` that sweeps and the limiter `u` that does not. -/
structure Simulates (l u : Limiter) (now : ℚ) : Prop where
  rate_pos : 0 < u.rate
  burst_pos : 0 < u.burst
  rate : l.rate = u.rate
  burst : l.burst = u.burst
  valid : ∀ key b, u.buckets.lookup key = some b → b.Valid u.burst now
  alike : ∀ key, Alike u.rate u.burst now (l.buckets.lookup key) (u.buckets.lookup key)

theorem simulates_new (failuresPerMinute burst : ℤ) (current : ℚ) :
    (new failuresPerMinute burst current).Simulates (new failuresPerMinute burst current) current where
  rate_pos := by
    unfold new
    dsimp only
    split
    · norm_num
    · rename_i hpos
      have hpos : (0 : ℚ) < failuresPerMinute := by exact_mod_cast not_le.mp hpos
      exact div_pos hpos (by norm_num)
  burst_pos := by
    unfold new
    dsimp only
    split
    · norm_num
    · rename_i hpos
      exact_mod_cast not_le.mp hpos
  rate := rfl
  burst := rfl
  valid := by
    intro key b hb
    simp [new] at hb
  alike := fun _ => Or.inl rfl

theorem Simulates.mono (h : l.Simulates u now) (hle : now ≤ later) : l.Simulates u later where
  rate_pos := h.rate_pos
  burst_pos := h.burst_pos
  rate := h.rate
  burst := h.burst
  valid := fun key b hb => (h.valid key b hb).mono hle
  alike := by
    intro key
    obtain hsame | ⟨hnone, b, hb, hfull⟩ := h.alike key
    · exact Or.inl hsame
    · exact Or.inr ⟨hnone, b, hb, hfull.mono h.rate_pos hle⟩

/-- A swept bucket was full. -/
theorem Simulates.sweep (h : l.Simulates u now) : (l.sweep now).Simulates u now := by
  obtain ⟨hrate, hburst, hlookup⟩ := System.sweep_eq l now
  refine ⟨h.rate_pos, h.burst_pos, hrate.trans h.rate, hburst.trans h.burst, h.valid, ?_⟩
  intro key
  obtain hkept | ⟨hswept, hidle⟩ := hlookup key
  · rw [hkept]
    exact h.alike key
  · rw [hswept]
    cases hl : l.buckets.lookup key with
    | none =>
      have halike := h.alike key
      rwa [hl] at halike
    | some b =>
      obtain hsame | ⟨hnone, -⟩ := h.alike key
      · have hb : u.buckets.lookup key = some b := hsame.symm.trans hl
        have hlong := hidle b hl
        rw [h.burst, h.rate] at hlong
        exact Or.inr ⟨rfl, b, hb, (h.valid key b hb).fullAt h.rate_pos hlong⟩
      · rw [hl] at hnone
        cases hnone

/-- Both charge the key's bucket alike. -/
theorem Simulates.insert (h : l.Simulates u now) (key : String) {b b' : Bucket} (hsame : b = b')
    (hb : b'.Valid u.burst now) :
    ({ l with buckets := l.buckets.insert key b } : Limiter).Simulates
      { u with buckets := u.buckets.insert key b' } now where
  rate_pos := h.rate_pos
  burst_pos := h.burst_pos
  rate := h.rate
  burst := h.burst
  valid := by
    intro key' c hc
    rw [GoMap.lookup_insert] at hc
    split at hc
    · obtain rfl := Option.some.inj hc
      exact hb
    · exact h.valid key' c hc
  alike := by
    intro key'
    rw [GoMap.lookup_insert, GoMap.lookup_insert, hsame]
    split
    · exact Or.inl rfl
    · exact h.alike key'

/-- A full bucket may be kept where the other one is missing. -/
theorem Simulates.fill (h : l.Simulates u now) (hl : l.buckets.lookup key = none) {b : Bucket}
    (hb : b.Valid u.burst now) (hfull : b.FullAt u.rate u.burst now) :
    l.Simulates { u with buckets := u.buckets.insert key b } now where
  rate_pos := h.rate_pos
  burst_pos := h.burst_pos
  rate := h.rate
  burst := h.burst
  valid := by
    intro key' c hc
    rw [GoMap.lookup_insert] at hc
    split at hc
    · obtain rfl := Option.some.inj hc
      exact hb
    · exact h.valid key' c hc
  alike := by
    intro key'
    rw [GoMap.lookup_insert]
    split
    · rename_i hkey
      rw [hkey]
      exact Or.inr ⟨hl, b, rfl, hfull⟩
    · exact h.alike key'

/-- Buckets that refill alike are reserved from alike. -/
theorem Simulates.reserve (h : l.Simulates u now) (key : String) {b b' : Bucket}
    (hrefill : b.refill u.rate u.burst now = b'.refill u.rate u.burst now)
    (hb : b'.Valid u.burst now) :
    (l.reserve key now b).1.Simulates (u.reserve key now b').1 now ∧
      (l.reserve key now b).2 = (u.reserve key now b').2 := by
  have hvalid : (b'.refill u.rate u.burst now).Valid u.burst now := hb.refill h.rate_pos.le
  have hsame : b.refill l.rate l.burst now = b'.refill u.rate u.burst now := by
    rw [h.rate, h.burst, hrefill]
  unfold Limiter.reserve
  rw [hsame]
  dsimp only
  split
  · exact ⟨h.insert key rfl hvalid, rfl⟩
  · rename_i htokens
    refine ⟨h.insert key rfl ⟨?_, ?_, hvalid.last_le⟩, rfl⟩
    · have htokens := not_lt.mp htokens
      dsimp only
      linarith
    · have hle := hvalid.le_burst
      dsimp only
      linarith

theorem size_sweep_le (l : Limiter) (now : ℚ) : (l.sweep now).buckets.size ≤ l.buckets.size := by
  unfold Limiter.sweep
  split
  · exact le_refl _
  · exact List.length_filter_le _ _

theorem bucket_of_lt (h : l.buckets.size < maxBuckets) :
    l.bucket key now = some ((l.buckets.lookup key).getD ⟨l.burst, now⟩) := by
  unfold Limiter.bucket
  cases hb : l.buckets.lookup key with
  | none => exact if_neg (not_le.mpr h)
  | some b => rfl

theorem allowAttempt_eq (hkey : key ≠ "") (h : l.buckets.size < maxBuckets) :
    l.allowAttempt key now =
      (l.sweep now).reserve key now (((l.sweep now).buckets.lookup key).getD ⟨(l.sweep now).burst, now⟩) := by
  have hroom := Nat.lt_of_le_of_lt (size_sweep_le l now) h
  unfold allowAttempt
  rw [if_neg hkey]
  dsimp only
  rw [bucket_of_lt hroom]
  rfl

theorem Simulates.allow (h : l.Simulates u now) (key : String)
    (hroom : l.buckets.size < maxBuckets) :
    (l.allowAttempt key now).1.Simulates (u.allowUnbounded key now).1 now ∧
      (l.allowAttempt key now).2 = (u.allowUnbounded key now).2 := by
  by_cases hkey : key = ""
  · subst hkey
    exact ⟨h, rfl⟩
  · have hsweep := h.sweep
    have hnew : Bucket.Valid ⟨u.burst, now⟩ u.burst now :=
      ⟨h.burst_pos.le, le_refl _, le_refl _⟩
    rw [allowAttempt_eq hkey hroom, allowUnbounded, if_neg hkey]
    obtain hsame | ⟨hnone, b, hb, hfull⟩ := hsweep.alike key
    · rw [hsame, hsweep.burst]
      refine hsweep.reserve key rfl ?_
      cases hb : u.buckets.lookup key with
      | none => exact hnew
      | some b => exact h.valid key b hb
    · rw [hnone, hb, hsweep.burst]
      refine hsweep.reserve key ?_ (h.valid key b hb)
      show Bucket.refill ⟨u.burst, now⟩ u.rate u.burst now = b.refill u.rate u.burst now
      rw [hfull.refill (h.valid key b hb)]
      simp [Bucket.refill]

theorem Simulates.refund (h : l.Simulates u now) (key : String) :
    (l.refundAttempt key now).Simulates (u.refundAttempt key now) now := by
  unfold refundAttempt
  by_cases hkey : key = ""
  · rw [if_pos hkey, if_pos hkey]
    exact h
  · rw [if_neg hkey, if_neg hkey]
    cases hu : u.buckets.lookup key with
    | none =>
      have hl : l.buckets.lookup key = none := by
        obtain hsame | ⟨hnone, -⟩ := h.alike key
        · exact hsame.trans hu
        · exact hnone
      rw [hl]
      exact h
    | some b =>
      have hvalid := h.valid key b hu
      have hrefilled : (b.refill u.rate u.burst now).Valid u.burst now :=
        hvalid.refill h.rate_pos.le
      have hrefunded : Bucket.Valid
          { b.refill u.rate u.burst now with
            tokens := min ((b.refill u.rate u.burst now).tokens + 1) u.burst } u.burst now := by
        refine ⟨le_min ?_ h.burst_pos.le, min_le_right _ _, hrefilled.last_le⟩
        have hnonneg := hrefilled.nonneg
        linarith
      obtain hsame | ⟨hnone, b', hb', hfull⟩ := h.alike key
      · rw [hsame, hu]
        exact h.insert key (by rw [h.rate, h.burst]) hrefunded
      · -- the refund of a full bucket leaves it full
        obtain rfl : b = b' := Option.some.inj (hu.symm.trans hb')
        rw [hnone]
        refine h.fill hnone hrefunded ?_
        rw [hfull.refill hvalid]
        unfold Bucket.FullAt
        dsimp only
        rw [min_eq_right (by linarith)]
        linarith

theorem Simulates.serve (h : l.Simulates u now) (request : Request)
    (hroom : l.buckets.size < maxBuckets) :
    (l.serve allowAttempt request now).1.Simulates (u.serve allowUnbounded request now).1 now ∧
      (l.serve allowAttempt request now).2 = (u.serve allowUnbounded request now).2 := by
  cases request with
  | allow key =>
    obtain ⟨hsimulates, hresult⟩ := h.allow key hroom
    exact ⟨hsimulates, congrArg some hresult⟩
  | refund key => exact ⟨h.refund key, rfl⟩

theorem Simulates.results {calls : List (Request × ℚ)} (h : l.Simulates u now)
    (hroom : l.roomy allowAttempt calls = true) (hordered : ordered now calls = true) :
    l.results allowAttempt calls = u.results allowUnbounded calls := by
  induction calls generalizing l u now with
  | nil => rfl
  | cons call calls ih =>
    obtain ⟨request, later⟩ := call
    simp only [roomy, ordered, Bool.and_eq_true, decide_eq_true_eq] at hroom hordered
    obtain ⟨hsimulates, hresult⟩ := (h.mono hordered.1).serve request hroom.1
    simp only [Limiter.results]
    rw [hresult, ih hsimulates hroom.2 hordered.2]

end Simulation

/-- Where there is room, the bound on the buckets denies nothing. -/
theorem allowUnswept_eq {l : Limiter} (h : l.buckets.size < maxBuckets) (key : String) (now : ℚ) :
    l.allowUnswept key now = l.allowUnbounded key now := by
  unfold allowUnswept allowUnbounded
  rw [bucket_of_lt h]

theorem results_unswept {l : Limiter} {calls : List (Request × ℚ)}
    (hroom : l.roomy allowUnswept calls = true) :
    l.results allowUnswept calls = l.results allowUnbounded calls := by
  induction calls generalizing l with
  | nil => rfl
  | cons call calls ih =>
    obtain ⟨request, now⟩ := call
    simp only [roomy, Bool.and_eq_true, decide_eq_true_eq] at hroom
    have hserve : l.serve allowUnswept request now = l.serve allowUnbounded request now := by
      cases request with
      | allow key => simp only [serve, allowUnswept_eq hroom.1]
      | refund key => rfl
    have hrest := ih hroom.2
    rw [hserve] at hrest
    simp only [results]
    rw [hserve, hrest]

/-- **Sweeping goes unnoticed**: while the map has room, the calls return what
they would if no bucket were ever swept. -/
theorem results_eq_of_roomy (failuresPerMinute burst : ℤ) (current : ℚ)
    (calls : List (Request × ℚ)) (hordered : ordered current calls = true)
    (hroom : (new failuresPerMinute burst current).roomy allowAttempt calls = true) :
    (new failuresPerMinute burst current).results allowAttempt calls =
        (new failuresPerMinute burst current).results allowUnbounded calls ∧
      ((new failuresPerMinute burst current).roomy allowUnswept calls = true →
        (new failuresPerMinute burst current).results allowAttempt calls =
          (new failuresPerMinute burst current).results allowUnswept calls) := by
  have hunbounded := (simulates_new failuresPerMinute burst current).results hroom hordered
  exact ⟨hunbounded, fun hunswept => hunbounded.trans (results_unswept hunswept).symm⟩

/-- Five minutes after its failures, a key's bucket is swept before it
is used again. -/
def sweptCalls : List (Request × ℚ) :=
  [(.allow "a", 0), (.allow "a", 0), (.allow "a", 0), (.refund "a", 1), (.allow "b", 299),
    (.refund "a", 299), (.allow "a", 300), (.allow "a", 300), (.allow "a", 300)]

theorem results_eq_of_roomy_swept :
    (new 6 2 0).results allowAttempt sweptCalls = (new 6 2 0).results allowUnswept sweptCalls :=
  (results_eq_of_roomy 6 2 0 sweptCalls (by decide +kernel) (by decide +kernel)).2
    (by decide +kernel)

end Limiter

end SlowMeet.RateLimit
