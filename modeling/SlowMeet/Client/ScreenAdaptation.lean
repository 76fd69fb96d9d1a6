import Mathlib.Data.Rat.Floor
import Mathlib.Tactic.Linarith
import SlowMeet.Lib.Lts

/-!
# The adaptation of a screen share

The controller of `web/js/screen-share-adaptation.js`, over exact rationals.
A step runs from one `await` to the next: `update` suspends in
`applyParameters`, a sample in `getStats` and, when it reduces the share, in
`applyParameters` once more.

The sender can measure; without `getStats` no sample starts. Updates are
counted as they begin, and a byte count carries the number of those begun
before its `getStats` call.
-/

namespace SlowMeet.Client

open Lib

/-- What the loop over the report reads of an entry; numbers that are not
finite are absent. -/
structure SenderStat where
  type : String
  kind : Option String := none
  mediaType : Option String := none
  bytesSent : Option ℚ := none
  timestamp : Option ℚ := none
  deriving DecidableEq, Repr

/-- `previousBytes` and `previousTimestamp`, which are set together, or the
values of `outbound`. -/
structure ByteCount where
  bytesSent : ℚ
  timestamp : ℚ
  /-- The updates begun before the `getStats` call. -/
  asked : Nat
  deriving DecidableEq, Repr

/-- Where the sample in progress is suspended. -/
inductive Sampling
  | idle
  /-- In `getStats`, with `sampleGeneration`. -/
  | gettingStats (sampleGeneration asked : Nat)
  /-- In `applyParameters`, with `outbound`. -/
  | applying (outbound : ByteCount)
  deriving DecidableEq, Repr

/-- The fields of the encoding that `applyParameters` sets. -/
structure Encoding where
  maxBitrate : Int
  maxFramerate : Int
  scaleResolutionDownBy : ℚ
  deriving DecidableEq, Repr

/-- A comparison of a measured bitrate with `maxBitrate`: its two byte
counts, by the updates before them, and the updates begun when it is made. -/
structure Comparison where
  previous : Nat
  current : Nat
  updates : Nat
  deriving DecidableEq, Repr

structure ScreenAdaptation where
  timer : Bool
  stopped : Bool
  maxBitrate : Int
  maxFrameRate : Int
  frameRate : Int
  resolutionScale : ℚ
  previous : Option ByteCount
  overLimitSamples : Nat
  sampling : Sampling
  generation : Nat
  /-- The encoding of the sender, once parameters were applied. -/
  encoding : Option Encoding
  /-- Updates suspended in `applyParameters`. -/
  suspended : Nat
  updates : Nat
  comparisons : List Comparison
  deriving DecidableEq

namespace ScreenAdaptation

def minimumFrameRate : Int := 5

def maximumResolutionScale : ℚ := 3

/-- `createScreenShareAdaptation`. -/
def new : ScreenAdaptation :=
  ⟨false, false, 0, 0, 0, 1, none, 0, .idle, 0, none, 0, 0, []⟩

variable (s : ScreenAdaptation)

def sampleInProgress : Bool := s.sampling ≠ .idle

/-- `applyParameters` up to its `await`. -/
def applyParameters : ScreenAdaptation :=
  if s.stopped then s
  else { s with encoding := some ⟨s.maxBitrate, s.frameRate, s.resolutionScale⟩ }

/-- `update` up to its `await`. -/
def update (bitrate fps : ℚ) : ScreenAdaptation :=
  if s.stopped then s
  else
    let s := { s with generation := s.generation + 1, updates := s.updates + 1 }
    let nextBitrate := max 1 ⌊bitrate⌋
    let nextFrameRate := max 1 ⌊fps⌋
    let s :=
      if nextBitrate = s.maxBitrate ∧ nextFrameRate = s.maxFrameRate then
        { s with previous := none }
      else
        { s with
          maxBitrate := nextBitrate, maxFrameRate := nextFrameRate, frameRate := nextFrameRate
          resolutionScale := 1, previous := none, overLimitSamples := 0 }
    { s.applyParameters with suspended := s.suspended + 1 }

/-- The end of `update`: `ensureSampling`. -/
def updated : ScreenAdaptation := { s with suspended := s.suspended - 1, timer := true }

/-- `sample` up to `getStats`; the timer calls it, and so may anyone. -/
def sample : ScreenAdaptation :=
  if s.stopped || s.sampleInProgress || s.maxBitrate ≤ 0 then s
  else { s with sampling := .gettingStats s.generation s.updates }

/-- An entry whose bytes are those of the share. -/
def outbound? (stat : SenderStat) : Option (ℚ × ℚ) :=
  if stat.type = "outbound-rtp" ∧ (stat.kind = some "video" ∨ stat.mediaType = some "video") then
    match stat.bytesSent, stat.timestamp with
    | some bytesSent, some timestamp => some (bytesSent, timestamp)
    | _, _ => none
  else none

/-- The last such entry of a report. -/
def outbound (asked : Nat) (stats : List SenderStat) : Option ByteCount :=
  (stats.filterMap outbound?).getLast?.map fun found => ⟨found.1, found.2, asked⟩

/-- The end of `sample`. -/
def record (outbound : ByteCount) : ScreenAdaptation :=
  { s with previous := some outbound, sampling := .idle }

/-- The reduction of an excessive share. -/
def reduce : ScreenAdaptation :=
  if minimumFrameRate < s.frameRate then
    { s with frameRate := max minimumFrameRate ⌊(s.frameRate : ℚ) * (8 / 10)⌋ }
  else if s.resolutionScale < maximumResolutionScale then
    { s with resolutionScale := min maximumResolutionScale (s.resolutionScale + 1 / 4) }
  else s

/-- The bits a second between two byte counts. -/
def bitrate (previous current : ByteCount) : ℚ :=
  (current.bytesSent - previous.bytesSent) * 8 * 1000 / (current.timestamp - previous.timestamp)

/-- The comparison with the budget, and the samples in a row that exceed it. -/
def compare (previous outbound : ByteCount) : ScreenAdaptation :=
  { s with
    overLimitSamples :=
      if (s.maxBitrate : ℚ) * (11 / 10) < bitrate previous outbound then s.overLimitSamples + 1
      else 0
    comparisons := s.comparisons ++ [⟨previous.asked, outbound.asked, s.updates⟩] }

/-- `sample` once the outbound entry is found, up to `applyParameters` or to
its end. -/
def measure (outbound : ByteCount) : ScreenAdaptation :=
  match s.previous with
  | none => s.record outbound
  | some previous =>
    if outbound.timestamp - previous.timestamp ≤ 0 then s.record outbound
    else
      let s := s.compare previous outbound
      if 2 ≤ s.overLimitSamples then
        { { s with overLimitSamples := 0 }.reduce.applyParameters with
          sampling := .applying outbound }
      else s.record outbound

/-- `sample` after `getStats`, which is rejected or answers a report. -/
def stats (sampleGeneration asked : Nat) (answer : Option (List SenderStat)) :
    ScreenAdaptation :=
  let idle := { s with sampling := .idle }
  match answer with
  | none => idle
  | some stats =>
    if s.stopped || sampleGeneration ≠ s.generation then idle
    else
      match outbound asked stats with
      | none => idle
      | some outbound => s.measure outbound

def stop : ScreenAdaptation :=
  { s with stopped := true, generation := s.generation + 1, timer := false }

inductive Label
  | update (bitrate fps : ℚ)
  | updated
  | sample
  | stats (answer : Option (List SenderStat))
  | applied
  | stop

def step : Label → Option ScreenAdaptation
  | .update bitrate fps => some (s.update bitrate fps)
  | .updated => if s.suspended = 0 then none else some s.updated
  | .sample => some s.sample
  | .stats answer =>
    match s.sampling with
    | .gettingStats sampleGeneration asked => some (s.stats sampleGeneration asked answer)
    | _ => none
  | .applied =>
    match s.sampling with
    | .applying outbound => some (s.record outbound)
    | _ => none
  | .stop => some s.stop

def lts : Lts ScreenAdaptation Label := Lts.ofStep new step

/-! ## What every run keeps -/

variable {s} {t : ScreenAdaptation}

/-- The frame rate and the scale are within the budget. -/
structure Bounded (s : ScreenAdaptation) : Prop where
  frameRate_ge : min minimumFrameRate s.maxFrameRate ≤ s.frameRate
  frameRate_le : s.frameRate ≤ s.maxFrameRate
  scale_ge : 1 ≤ s.resolutionScale
  scale_le : s.resolutionScale ≤ maximumResolutionScale

theorem bounded_new : new.Bounded where
  frameRate_ge := by decide
  frameRate_le := by decide
  scale_ge := le_rfl
  scale_le := by decide

/-- A step that leaves the three fields alone. -/
theorem Bounded.congr (h : s.Bounded) (hmax : t.maxFrameRate = s.maxFrameRate)
    (hrate : t.frameRate = s.frameRate) (hscale : t.resolutionScale = s.resolutionScale) :
    t.Bounded := by
  constructor
  · rw [hmax, hrate]
    exact h.frameRate_ge
  · rw [hmax, hrate]
    exact h.frameRate_le
  · rw [hscale]
    exact h.scale_ge
  · rw [hscale]
    exact h.scale_le

theorem applyParameters_eq :
    s.applyParameters = { s with encoding := s.applyParameters.encoding } := by
  unfold applyParameters
  split_ifs
  · rfl
  · rfl

theorem reduce_eq (s : ScreenAdaptation) :
    s.reduce =
      { s with
        frameRate := s.reduce.frameRate, resolutionScale := s.reduce.resolutionScale } := by
  unfold reduce
  split_ifs
  · rfl
  · rfl
  · rfl

theorem Bounded.reduce (h : s.Bounded) : s.reduce.Bounded := by
  unfold ScreenAdaptation.reduce
  have hge := h.frameRate_ge
  have hle := h.frameRate_le
  split_ifs with hrate hscale
  · -- the rate stays above the minimum and falls
    have hpos : (0 : ℚ) < s.frameRate := by
      have hfive : (5 : Int) < s.frameRate := hrate
      have hcast : (5 : ℚ) < s.frameRate := by exact_mod_cast hfive
      linarith
    have hfloor : ⌊(s.frameRate : ℚ) * (8 / 10)⌋ ≤ s.frameRate := by
      apply Int.floor_le_iff.mpr
      linarith
    refine ⟨?_, ?_, h.scale_ge, h.scale_le⟩
    · show min minimumFrameRate s.maxFrameRate ≤ max minimumFrameRate _
      exact (min_le_left _ _).trans (le_max_left _ _)
    · show max minimumFrameRate _ ≤ s.maxFrameRate
      exact max_le (hrate.le.trans hle) (hfloor.trans hle)
  · refine ⟨hge, hle, ?_, min_le_left _ _⟩
    have hscale_ge := h.scale_ge
    show 1 ≤ min maximumResolutionScale _
    apply le_min
    · decide
    · linarith
  · exact h

theorem Bounded.update (h : s.Bounded) (bitrate fps : ℚ) : (s.update bitrate fps).Bounded := by
  unfold ScreenAdaptation.update
  dsimp only
  split_ifs with hstopped hsame
  · exact h
  · rw [applyParameters_eq]
    exact h.congr rfl rfl rfl
  · rw [applyParameters_eq]
    exact ⟨min_le_right _ _, le_rfl, le_rfl, by show (1 : ℚ) ≤ 3; norm_num⟩

theorem Bounded.measure (h : s.Bounded) (outbound : ByteCount) :
    (s.measure outbound).Bounded := by
  unfold ScreenAdaptation.measure
  cases s.previous with
  | none => exact h.congr rfl rfl rfl
  | some previous =>
    dsimp only
    split_ifs
    · exact h.congr rfl rfl rfl
    · have hcompared : ({ s.compare previous outbound with overLimitSamples := 0 } :
          ScreenAdaptation).Bounded := h.congr rfl rfl rfl
      rw [applyParameters_eq]
      exact hcompared.reduce.congr rfl rfl rfl
    · exact h.congr rfl rfl rfl

theorem Bounded.stats (h : s.Bounded) (sampleGeneration asked : Nat)
    (answer : Option (List SenderStat)) : (s.stats sampleGeneration asked answer).Bounded := by
  unfold ScreenAdaptation.stats
  cases answer with
  | none => exact h.congr rfl rfl rfl
  | some stats =>
    dsimp only
    split_ifs
    · exact h.congr rfl rfl rfl
    · cases outbound asked stats with
      | none => exact h.congr rfl rfl rfl
      | some outbound => exact h.measure outbound

theorem Bounded.sample (h : s.Bounded) : s.sample.Bounded := by
  unfold ScreenAdaptation.sample
  split_ifs
  · exact h
  · exact h.congr rfl rfl rfl

/-- What a step that `step` allows does. -/
theorem stats_of_step {answer : Option (List SenderStat)} (hstep : s.step (.stats answer) = some t) :
    ∃ sampleGeneration asked, s.sampling = .gettingStats sampleGeneration asked ∧
      t = s.stats sampleGeneration asked answer := by
  dsimp only [step] at hstep
  split at hstep
  · rename_i sampleGeneration asked hsampling
    exact ⟨sampleGeneration, asked, hsampling, (Option.some.inj hstep).symm⟩
  · cases hstep

theorem record_of_step (hstep : s.step .applied = some t) :
    ∃ outbound, s.sampling = .applying outbound ∧ t = s.record outbound := by
  dsimp only [step] at hstep
  split at hstep
  · rename_i outbound hsampling
    exact ⟨outbound, hsampling, (Option.some.inj hstep).symm⟩
  · cases hstep

theorem updated_of_step (hstep : s.step .updated = some t) : t = s.updated := by
  dsimp only [step] at hstep
  split_ifs at hstep
  exact (Option.some.inj hstep).symm

theorem Bounded.step (h : s.Bounded) {l : Label} (hstep : s.step l = some t) : t.Bounded := by
  cases l with
  | update bitrate fps =>
    obtain rfl := Option.some.inj hstep
    exact h.update bitrate fps
  | updated =>
    obtain rfl := updated_of_step hstep
    exact h.congr rfl rfl rfl
  | sample =>
    obtain rfl := Option.some.inj hstep
    exact h.sample
  | stats answer =>
    obtain ⟨sampleGeneration, asked, -, rfl⟩ := stats_of_step hstep
    exact h.stats sampleGeneration asked answer
  | applied =>
    obtain ⟨outbound, -, rfl⟩ := record_of_step hstep
    exact h.congr rfl rfl rfl
  | stop =>
    obtain rfl := Option.some.inj hstep
    exact h.congr rfl rfl rfl

theorem bounded_of_reachable {ok : ScreenAdaptation → Label → Prop} (h : lts.Reachable ok s) :
    s.Bounded :=
  h.invariant_ofStep bounded_new fun _ _ _ hb _ hstep => hb.step hstep

/-! ## After `stop` -/

/-- A stopped controller keeps what it has. -/
structure Frozen (s t : ScreenAdaptation) : Prop where
  stopped : t.stopped = true
  frameRate : t.frameRate = s.frameRate
  resolutionScale : t.resolutionScale = s.resolutionScale

theorem frozen_step (hstopped : s.stopped = true) {l : Label} (hstep : s.step l = some t) :
    Frozen s t := by
  cases l with
  | update bitrate fps =>
    obtain rfl := Option.some.inj hstep
    rw [update, if_pos hstopped]
    exact ⟨hstopped, rfl, rfl⟩
  | updated =>
    obtain rfl := updated_of_step hstep
    exact ⟨hstopped, rfl, rfl⟩
  | sample =>
    obtain rfl := Option.some.inj hstep
    rw [sample, if_pos (by simp [hstopped])]
    exact ⟨hstopped, rfl, rfl⟩
  | stats answer =>
    obtain ⟨sampleGeneration, asked, -, rfl⟩ := stats_of_step hstep
    unfold stats
    cases answer with
    | none => exact ⟨hstopped, rfl, rfl⟩
    | some stats =>
      dsimp only
      rw [if_pos (by simp [hstopped])]
      exact ⟨hstopped, rfl, rfl⟩
  | applied =>
    obtain ⟨outbound, -, rfl⟩ := record_of_step hstep
    exact ⟨hstopped, rfl, rfl⟩
  | stop =>
    obtain rfl := Option.some.inj hstep
    exact ⟨rfl, rfl, rfl⟩

theorem frozen_of_run (hstopped : s.stopped = true) {ok : ScreenAdaptation → Label → Prop}
    (h : lts.Run ok s t) : Frozen s t := by
  induction h with
  | refl => exact ⟨hstopped, rfl, rfl⟩
  | snoc _ _ hstep ih =>
    have hnext := frozen_step ih.stopped hstep
    exact ⟨hnext.stopped, hnext.frameRate.trans ih.frameRate,
      hnext.resolutionScale.trans ih.resolutionScale⟩

/-! ## The byte counts of a comparison -/

/-- Both byte counts were asked for after the latest update. -/
def Comparison.Current (c : Comparison) : Prop := c.previous = c.updates ∧ c.current = c.updates

/-- No update begins while a sample is suspended in `applyParameters`. -/
def UpdatesApart (s : ScreenAdaptation) (l : Label) : Prop :=
  ∀ bitrate fps, l = .update bitrate fps → s.stopped = false →
    ∀ outbound, s.sampling ≠ .applying outbound

/-- The byte counts at hand are those of the latest update. -/
structure Fresh (s : ScreenAdaptation) : Prop where
  compared : ∀ c ∈ s.comparisons, Comparison.Current c
  baseline : ∀ previous, s.previous = some previous → previous.asked = s.updates
  applying : ∀ outbound, s.sampling = .applying outbound → outbound.asked = s.updates
  asked : ∀ sampleGeneration asked, s.sampling = .gettingStats sampleGeneration asked →
    sampleGeneration ≤ s.generation ∧ (sampleGeneration = s.generation → asked = s.updates)

theorem fresh_new : new.Fresh where
  compared _ hc := absurd hc List.not_mem_nil
  baseline _ h := by cases h
  applying _ h := by cases h
  asked _ _ h := by cases h

namespace Fresh

variable (h : s.Fresh)

include h

/-- A step that only ends the sample. -/
theorem idle : Fresh { s with sampling := .idle } where
  compared := h.compared
  baseline := h.baseline
  applying _ hidle := by cases hidle
  asked _ _ hidle := by cases hidle

theorem record {outbound : ByteCount} (hasked : outbound.asked = s.updates) :
    (s.record outbound).Fresh where
  compared := h.compared
  baseline previous hprevious := by
    obtain rfl := Option.some.inj hprevious
    exact hasked
  applying _ hidle := by cases hidle
  asked _ _ hidle := by cases hidle

theorem update (bitrate fps : ℚ)
    (hapart : s.stopped = false → ∀ outbound, s.sampling ≠ .applying outbound) :
    (s.update bitrate fps).Fresh := by
  cases hstopped : s.stopped with
  | true =>
    rw [ScreenAdaptation.update, if_pos hstopped]
    exact h
  | false =>
    -- the generation of a sample in `getStats` is now an older one
    have hasked : ∀ sampleGeneration asked, s.sampling = .gettingStats sampleGeneration asked →
        sampleGeneration ≤ s.generation + 1 ∧
          (sampleGeneration = s.generation + 1 → asked = s.updates + 1) := by
      intro sampleGeneration asked hsampling
      have hle := (h.asked sampleGeneration asked hsampling).1
      constructor
      · omega
      · omega
    have happlying : ∀ outbound, s.sampling = .applying outbound →
        outbound.asked = s.updates + 1 := by
      intro outbound hsampling
      exact absurd hsampling (hapart hstopped outbound)
    have hcleared : ∀ previous, (none : Option ByteCount) = some previous →
        previous.asked = s.updates + 1 := by
      intro _ hnone
      cases hnone
    unfold ScreenAdaptation.update
    dsimp only
    rw [if_neg (by rw [hstopped]; exact Bool.false_ne_true), applyParameters_eq]
    split_ifs
    · exact ⟨h.compared, hcleared, happlying, hasked⟩
    · exact ⟨h.compared, hcleared, happlying, hasked⟩

theorem compare {previous outbound : ByteCount} (hprevious : s.previous = some previous)
    (hasked : outbound.asked = s.updates) : (s.compare previous outbound).Fresh where
  compared c hc := by
    obtain hold | hnew := List.mem_append.mp hc
    · exact h.compared c hold
    · obtain rfl := List.mem_singleton.mp hnew
      exact ⟨h.baseline previous hprevious, hasked⟩
  baseline := h.baseline
  applying := h.applying
  asked := h.asked

theorem measure {outbound : ByteCount} (hasked : outbound.asked = s.updates) :
    (s.measure outbound).Fresh := by
  unfold ScreenAdaptation.measure
  cases hprevious : s.previous with
  | none => exact h.record hasked
  | some previous =>
    dsimp only
    have hcompared := h.compare hprevious hasked
    split_ifs
    · exact h.record hasked
    · rw [applyParameters_eq, reduce_eq]
      -- the sample is suspended again, with the byte count it has
      constructor
      · exact hcompared.compared
      · exact hcompared.baseline
      · intro other happlying
        obtain rfl := Sampling.applying.inj happlying
        exact hasked
      · intro _ _ hstats
        cases hstats
    · exact hcompared.record hasked

theorem stats {sampleGeneration asked : Nat}
    (hsampling : s.sampling = .gettingStats sampleGeneration asked)
    (answer : Option (List SenderStat)) : (s.stats sampleGeneration asked answer).Fresh := by
  unfold ScreenAdaptation.stats
  cases answer with
  | none => exact h.idle
  | some stats =>
    dsimp only
    split_ifs with hstale
    · exact h.idle
    · cases houtbound : outbound asked stats with
      | none => exact h.idle
      | some found =>
        simp only [Bool.or_eq_true, decide_eq_true_eq, not_or, ne_eq, not_not] at hstale
        have hasked := (h.asked sampleGeneration asked hsampling).2 hstale.2
        have hfound : found.asked = asked := by
          obtain ⟨_, -, rfl⟩ := Option.map_eq_some_iff.mp houtbound
          rfl
        exact h.measure (hfound.trans hasked)

theorem sample : s.sample.Fresh := by
  unfold ScreenAdaptation.sample
  split_ifs
  · exact h
  · constructor
    · exact h.compared
    · exact h.baseline
    · intro _ happlying
      cases happlying
    · intro sampleGeneration asked hstats
      cases hstats
      exact ⟨le_rfl, fun _ => rfl⟩

theorem step {l : Label} (hapart : s.UpdatesApart l) (hstep : s.step l = some t) : t.Fresh := by
  cases l with
  | update bitrate fps =>
    obtain rfl := Option.some.inj hstep
    exact h.update bitrate fps (hapart bitrate fps rfl)
  | updated =>
    obtain rfl := updated_of_step hstep
    exact ⟨h.compared, h.baseline, h.applying, h.asked⟩
  | sample =>
    obtain rfl := Option.some.inj hstep
    exact h.sample
  | stats answer =>
    obtain ⟨sampleGeneration, asked, hsampling, rfl⟩ := stats_of_step hstep
    exact h.stats hsampling answer
  | applied =>
    obtain ⟨outbound, hsampling, rfl⟩ := record_of_step hstep
    exact h.record (h.applying outbound hsampling)
  | stop =>
    obtain rfl := Option.some.inj hstep
    refine ⟨h.compared, h.baseline, h.applying, ?_⟩
    intro sampleGeneration asked hsampling
    have hle := (h.asked sampleGeneration asked hsampling).1
    show sampleGeneration ≤ s.generation + 1 ∧ (sampleGeneration = s.generation + 1 → _)
    constructor
    · omega
    · omega

end Fresh

/-- **No comparison acts on a baseline from before the last update**, in runs
whose updates keep apart from a sample's `applyParameters`. In every run the
frame rate and the scale stay within the budget, and a stopped controller
keeps both. -/
theorem adapts_of_updatesApart (h : lts.Reachable UpdatesApart s) :
    s.Bounded ∧ (∀ c ∈ s.comparisons, Comparison.Current c) ∧
      (s.stopped = true → ∀ t, lts.Run Lts.Any s t →
        t.frameRate = s.frameRate ∧ t.resolutionScale = s.resolutionScale) := by
  have hfresh : s.Fresh :=
    h.invariant_ofStep fresh_new fun _ _ _ hf hok hstep => hf.step hok hstep
  refine ⟨bounded_of_reachable h, hfresh.compared, ?_⟩
  intro hstopped t hrun
  have hfrozen := frozen_of_run hstopped hrun
  exact ⟨hfrozen.frameRate, hfrozen.resolutionScale⟩

/-! ## Runs -/

/-- A report with one byte count of the share. -/
def report (bytesSent timestamp : ℚ) : List SenderStat :=
  [{ type := "outbound-rtp", kind := some "video", bytesSent := some bytesSent
     timestamp := some timestamp }]

/-- A sample from its tick to the end of `getStats`. -/
def sampled (bytesSent timestamp : ℚ) : List Label :=
  [.sample, .stats (some (report bytesSent timestamp))]

/-- A share that exceeds 1 Mbit a second in two samples. -/
def excessive : List Label :=
  [.update 1000000 30, .updated] ++ sampled 0 0 ++ sampled 1000000 5000 ++ sampled 2000000 10000

/-- `UpdatesApart`, as a check. -/
def apart (s : ScreenAdaptation) : Label → Bool
  | .update _ _ =>
    match s.sampling with
    | .applying _ => s.stopped
    | _ => true
  | _ => true

theorem updatesApart_of_apart {l : Label} (h : s.apart l = true) : s.UpdatesApart l := by
  intro bitrate fps heq hopen outbound hsampling
  subst heq
  simp only [apart, hsampling] at h
  rw [hopen] at h
  cases h

theorem adapts_of_updatesApart_excessive :
    ∃ s : ScreenAdaptation, s.frameRate = 24 ∧ s.comparisons = [⟨1, 1, 1⟩, ⟨1, 1, 1⟩] ∧
      s.Bounded ∧ (∀ c ∈ s.comparisons, Comparison.Current c) ∧
      (s.stopped = true → ∀ t, lts.Run Lts.Any s t →
        t.frameRate = s.frameRate ∧ t.resolutionScale = s.resolutionScale) := by
  obtain ⟨s, hs, hstate⟩ := Lts.exists_reachable_of_execWhen apart step new excessive
    (fun s => (s.frameRate, s.comparisons)) (24, [⟨1, 1, 1⟩, ⟨1, 1, 1⟩]) (by decide +kernel)
  obtain ⟨hrate, hcomparisons⟩ := Prod.mk.inj hstate
  exact ⟨s, hrate, hcomparisons,
    adapts_of_updatesApart (hs.mono fun _ _ => updatesApart_of_apart)⟩

/-- An update that finds the sample in `applyParameters`: the sample then
writes its old byte count back, and the next one is compared with it. -/
theorem not_current_of_overtakingUpdate :
    ∃ s : ScreenAdaptation, lts.Reachable Lts.Any s ∧
      ¬∀ c ∈ s.comparisons, Comparison.Current c := by
  obtain ⟨s, hs, hlast⟩ := Lts.exists_reachable_of_exec Lts.Any step new
    (excessive ++ [.update 500000 30, .updated, .applied] ++ sampled 2500000 15000)
    (fun s => s.comparisons.getLast?) (some ⟨1, 2, 2⟩) (fun _ _ _ => trivial) (by decide +kernel)
  refine ⟨s, hs, ?_⟩
  intro hcurrent
  have hstale := (hcurrent ⟨1, 2, 2⟩ (List.mem_of_getLast? hlast)).1
  cases hstale

end ScreenAdaptation

end SlowMeet.Client
