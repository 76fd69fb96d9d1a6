import Mathlib.Algebra.Order.Field.Rat
import Mathlib.Tactic.Linarith
import SlowMeet.Lib.Lts
import SlowMeet.Lib.Streak
import SlowMeet.Media.Router

/-!
# The automatic quality of the page

The decisions of `web/js/adaptation-policy.js` and the part of
`web/js/app.js` that acts on them: each sample of the connection may move the
automatic profile by a level, the camera layer of the subscriptions by one,
and may pause or resume the outgoing video.

`updateDiagnostics` runs one sample at a time, but a sample waits for
`applyProfile` after it moved the level and for `setVideoSending` after it
paused or resumed, and everything else the page does may happen meanwhile.
-/

namespace SlowMeet.Client

open Lib
open Media (CameraLayer)

/-! ## The policy -/

/-- What a sample measures; numbers that are not finite are absent. -/
structure Sample where
  rttMs : Option ℚ := none
  packetLoss : Option ℚ := none
  jitterMs : Option ℚ := none
  availableOutgoingKbps : Option ℚ := none
  cameraPacketLossPct : Option ℚ := none
  cameraDroppedFramesPct : Option ℚ := none
  deriving DecidableEq, Repr

/-- The answer of `classifyNetworkSample`. -/
structure NetworkCondition where
  poor : Bool
  critical : Bool
  good : Bool
  deriving DecidableEq, Repr

def isBelowBitrate (value threshold : ℚ) : Bool := decide (0 ≤ value) && decide (value < threshold)

/-- A measurement that is known: `isFinite(value) && value >= 0`. -/
def known (value : Option ℚ) : Option ℚ := value.filter fun value => decide (0 ≤ value)

/-- The known capacity: zero while the bandwidth estimate is warming up. -/
def knownCapacity (m : Sample) : Option ℚ :=
  m.availableOutgoingKbps.filter fun value => decide (0 < value)

def isPoor (m : Sample) : Bool :=
  (known m.rttMs).any (fun rtt => decide (250 < rtt)) ||
    (known m.packetLoss).any (fun loss => decide (5 < loss)) ||
    (known m.jitterMs).any (fun jitter => decide (50 < jitter)) ||
    (knownCapacity m).any (fun capacity => isBelowBitrate capacity 220)

def isCritical (m : Sample) : Bool :=
  (known m.rttMs).any (fun rtt => decide (500 < rtt)) ||
    (known m.packetLoss).any (fun loss => decide (10 < loss)) ||
    (known m.jitterMs).any (fun jitter => decide (120 < jitter))

def hasSignal (m : Sample) : Bool :=
  (known m.rttMs).isSome || (known m.packetLoss).isSome || (known m.jitterMs).isSome ||
    (knownCapacity m).isSome

def isGood (m : Sample) : Bool :=
  hasSignal m && !isPoor m && !isCritical m &&
    (known m.rttMs).all (fun rtt => decide (rtt < 120)) &&
    (known m.packetLoss).all (fun loss => decide (loss < 1)) &&
    (known m.jitterMs).all (fun jitter => decide (jitter < 30)) &&
    (knownCapacity m).all (fun capacity => decide (350 ≤ capacity))

def classifyNetworkSample (m : Sample) : NetworkCondition := ⟨isPoor m, isCritical m, isGood m⟩

@[simp] theorem poor_classifyNetworkSample (m : Sample) :
    (classifyNetworkSample m).poor = isPoor m := rfl

@[simp] theorem critical_classifyNetworkSample (m : Sample) :
    (classifyNetworkSample m).critical = isCritical m := rfl

@[simp] theorem good_classifyNetworkSample (m : Sample) :
    (classifyNetworkSample m).good = isGood m := rfl

/-- `transition.reset`. -/
inductive Reset
  | poor
  | good
  deriving DecidableEq, Repr

/-- `chooseAdaptationLevel`. -/
def chooseAdaptationLevel (level poorSamples goodSamples profileCount : Nat) :
    Nat × Option Reset :=
  if 2 ≤ poorSamples ∧ 0 < level then (level - 1, some .poor)
  else if 5 ≤ goodSamples ∧ level < profileCount - 1 then (level + 1, some .good)
  else (level, none)

def shouldRecoverVideo (goodSamples : Nat) (isGood : Bool) : Bool :=
  isGood && decide (5 ≤ goodSamples)

def shouldPauseVideo (isAutomaticProfile : Bool) (adaptationLevel criticalSamples : Nat) : Bool :=
  decide (3 ≤ criticalSamples) && (!isAutomaticProfile || decide (adaptationLevel = 0))

/-- The layer before one in `layers`, and the one after it. -/
def lowerLayer : CameraLayer → CameraLayer
  | .low => .low
  | .medium => .low
  | .high => .medium

def higherLayer : CameraLayer → CameraLayer
  | .low => .medium
  | .medium => .high
  | .high => .high

/-- The measurements that `chooseCameraLayer` keeps. -/
def layerMeasurements (m : Sample) : List ℚ :=
  [known m.cameraPacketLossPct, known m.cameraDroppedFramesPct].reduceOption

def layerPoor (m : Sample) : Bool := (layerMeasurements m).any fun value => decide (5 ≤ value)

def layerGood (m : Sample) : Bool :=
  !(layerMeasurements m).isEmpty && (layerMeasurements m).all fun value => decide (value < 1)

/-- The answer of `chooseCameraLayer`. -/
structure LayerDecision where
  layer : CameraLayer
  poorSamples : Nat
  goodSamples : Nat
  deriving DecidableEq, Repr

def chooseCameraLayer (layer : CameraLayer) (poorSamples goodSamples : Nat) (m : Sample) :
    LayerDecision :=
  if layerPoor m = true then
    if 2 ≤ poorSamples + 1 then ⟨lowerLayer layer, 0, 0⟩ else ⟨layer, poorSamples + 1, 0⟩
  else if layerGood m = true then
    if 5 ≤ goodSamples + 1 then ⟨higherLayer layer, 0, 0⟩ else ⟨layer, 0, goodSamples + 1⟩
  else ⟨layer, 0, 0⟩

/-! ## The page -/

/-- The entries of `profiles`, in their order. -/
inductive ProfileName
  | verySlow
  | slow
  | normal
  | high
  | veryGood
  | ultra
  deriving DecidableEq, Repr

def profiles : List ProfileName := [.verySlow, .slow, .normal, .high, .veryGood, .ultra]

def automaticProfileCount : Nat := profiles.idxOf .veryGood

/-- `profile.value`. -/
inductive ProfileValue
  | auto
  | named (name : ProfileName)
  deriving DecidableEq, Repr

/-- Where the sample in progress waits. -/
inductive Diagnosing
  | idle
  /-- In `applyProfile`, the level having moved. -/
  | applying (m : Sample)
  /-- In `setVideoSending`. -/
  | sending
  deriving DecidableEq, Repr

/-- The sample that waits in `applyProfile` has yet to decide the layer. -/
def Diagnosing.pending : Diagnosing → Nat
  | .applying _ => 1
  | _ => 0

/-- From `sinceLevel` on, the fields are not of the page: the samples since the
level or the profile last changed, since a pause and since a pause or a
resumption, the latest first, and how often the samples moved something. -/
structure Adaptation where
  profile : ProfileValue
  adaptationLevel : Nat
  poorSamples : Nat
  goodSamples : Nat
  criticalSamples : Nat
  recoverySamples : Nat
  cameraLayer : CameraLayer
  cameraLayerPoorSamples : Nat
  cameraLayerGoodSamples : Nat
  simulcastEnabled : Bool
  videoSuspended : Bool
  videoSuspendedAutomatically : Bool
  audioOnly : Bool
  diagnosing : Diagnosing
  sinceLevel : List Sample
  sincePause : List Sample
  sinceSwitch : List Sample
  samples : Nat
  drops : Nat
  rises : Nat
  layerDrops : Nat
  layerRises : Nat
  pauses : Nat
  resumes : Nat
  deriving DecidableEq

namespace Adaptation

/-- The page as it is loaded, with the profile the select starts at. -/
def new (profile : ProfileValue) (audioOnly : Bool) : Adaptation where
  profile := profile
  adaptationLevel := 2
  poorSamples := 0
  goodSamples := 0
  criticalSamples := 0
  recoverySamples := 0
  cameraLayer := .medium
  cameraLayerPoorSamples := 0
  cameraLayerGoodSamples := 0
  simulcastEnabled := false
  videoSuspended := false
  videoSuspendedAutomatically := false
  audioOnly := audioOnly
  diagnosing := .idle
  sinceLevel := []
  sincePause := []
  sinceSwitch := []
  samples := 0
  drops := 0
  rises := 0
  layerDrops := 0
  layerRises := 0
  pauses := 0
  resumes := 0

variable (s : Adaptation)

/-- `setVideoSending` up to its first `await`. -/
def setVideoSending (enabled automatic : Bool) : Adaptation :=
  { s with
    videoSuspended := !(enabled && !s.audioOnly)
    videoSuspendedAutomatically := !(enabled && !s.audioOnly) && automatic && !s.audioOnly }

/-- The sample's own counters. -/
def count (m : Sample) : Adaptation :=
  { s with
    criticalSamples :=
      if (classifyNetworkSample m).critical = true then s.criticalSamples + 1 else 0
    recoverySamples := if (classifyNetworkSample m).good = true then s.recoverySamples + 1 else 0
    sincePause := m :: s.sincePause
    sinceSwitch := m :: s.sinceSwitch
    samples := s.samples + 1 }

/-- The counters of the automatic profile. -/
def countAutomatic (m : Sample) : Adaptation :=
  { s with
    poorSamples := if (classifyNetworkSample m).poor = true then s.poorSamples + 1 else 0
    goodSamples := if (classifyNetworkSample m).good = true then s.goodSamples + 1 else 0
    sinceLevel := m :: s.sinceLevel }

/-- `setCameraLayer`, as far as it concerns the layer. -/
def setCameraLayer (layer : CameraLayer) : Adaptation :=
  if s.simulcastEnabled = true then { s with cameraLayer := layer } else s

def layerDecision (m : Sample) : LayerDecision :=
  chooseCameraLayer s.cameraLayer s.cameraLayerPoorSamples s.cameraLayerGoodSamples m

/-- The camera layer of a sample. -/
def adaptLayer (m : Sample) : Adaptation :=
  if s.simulcastEnabled = true then
    { s with
      cameraLayerPoorSamples := (s.layerDecision m).poorSamples
      cameraLayerGoodSamples := (s.layerDecision m).goodSamples
      layerDrops :=
        if (s.layerDecision m).layer ≠ s.cameraLayer ∧ layerPoor m = true then s.layerDrops + 1
        else s.layerDrops
      layerRises :=
        if (s.layerDecision m).layer ≠ s.cameraLayer ∧ layerPoor m = false then s.layerRises + 1
        else s.layerRises }.setCameraLayer (s.layerDecision m).layer
  else s

/-- The end of a sample: it may pause the video or resume it. -/
def switchVideo (m : Sample) : Adaptation :=
  if shouldPauseVideo (decide (s.profile = .auto)) s.adaptationLevel s.criticalSamples = true then
    if s.videoSuspended = true then
      { s with
        criticalSamples := 0, recoverySamples := 0, sincePause := [], sinceSwitch := []
        diagnosing := .idle }
    else
      { s with
        criticalSamples := 0, recoverySamples := 0, sincePause := [], sinceSwitch := []
        pauses := s.pauses + 1, diagnosing := .sending }.setVideoSending false true
  else if (!(classifyNetworkSample m).critical && s.videoSuspended &&
      shouldRecoverVideo s.recoverySamples (classifyNetworkSample m).good) = true then
    { s with
      recoverySamples := 0, sinceSwitch := []
      resumes := s.resumes + 1, diagnosing := .sending }.setVideoSending true false
  else { s with diagnosing := .idle }

/-- A sample after it has settled the level. -/
def finish (m : Sample) : Adaptation := (s.adaptLayer m).switchVideo m

/-- `chooseAdaptationLevel` after a sample was counted. -/
def transition : Nat × Option Reset :=
  chooseAdaptationLevel s.adaptationLevel s.poorSamples s.goodSamples automaticProfileCount

/-- The level of a counted sample: when it moves, the sample waits. -/
def adapt (m : Sample) : Adaptation :=
  match s.transition.2 with
  | some .poor =>
    { s with
      adaptationLevel := s.transition.1, poorSamples := 0, sinceLevel := []
      drops := s.drops + 1, diagnosing := .applying m }
  | some .good =>
    { s with
      adaptationLevel := s.transition.1, goodSamples := 0, sinceLevel := []
      rises := s.rises + 1, diagnosing := .applying m }
  | none => s.finish m

/-- `runDiagnosticsUpdate` once its report is there, up to its first
`await`. -/
def sample (m : Sample) : Adaptation :=
  if s.profile = .auto then ((s.count m).countAutomatic m).adapt m
  else (s.count m).finish m

/-- The `change` of the profile select, up to its `await`. -/
def chooseProfile (profile : ProfileValue) : Adaptation :=
  { s with
    profile := profile
    adaptationLevel :=
      match profile with
      | .auto => min s.adaptationLevel (automaticProfileCount - 1)
      | .named name => profiles.idxOf name
    poorSamples := 0, goodSamples := 0, sinceLevel := [] }

def resetMediaConnection : Adaptation :=
  { s with
    cameraLayerPoorSamples := 0, cameraLayerGoodSamples := 0
    criticalSamples := 0, recoverySamples := 0
    sincePause := [], sinceSwitch := []
    videoSuspended := s.videoSuspended || s.audioOnly
    videoSuspendedAutomatically := s.videoSuspendedAutomatically && !s.audioOnly }

/-- The handler of `leave`. -/
def leave (audioOnlyPreference : Bool) : Adaptation :=
  { s with
    criticalSamples := 0, recoverySamples := 0, sincePause := [], sinceSwitch := []
    videoSuspended := false, videoSuspendedAutomatically := false
    adaptationLevel := 2, poorSamples := 0, goodSamples := 0, sinceLevel := []
    cameraLayer := .medium, cameraLayerPoorSamples := 0, cameraLayerGoodSamples := 0
    profile := .auto, audioOnly := audioOnlyPreference }

inductive Label
  | sample (m : Sample)
  /-- `applyProfile` has settled. -/
  | applied
  /-- `setVideoSending` has settled. -/
  | sent
  | chooseProfile (profile : ProfileValue)
  /-- The server's default, when no profile was stored. -/
  | serverDefault (name : ProfileName)
  /-- The other callers of `setVideoSending`. -/
  | setVideoSending (enabled automatic : Bool)
  | setAudioOnly (checked : Bool)
  /-- `refreshICEConfig`. -/
  | setSimulcast (enabled : Bool)
  | resetMediaConnection
  | leave (audioOnlyPreference : Bool)

def step : Label → Option Adaptation
  | .sample m => if s.diagnosing = .idle then some (s.sample m) else none
  | .applied =>
    match s.diagnosing with
    | .applying m => some (s.finish m)
    | _ => none
  | .sent => if s.diagnosing = .sending then some { s with diagnosing := .idle } else none
  | .chooseProfile profile => some (s.chooseProfile profile)
  | .serverDefault name => some { s with profile := .named name }
  | .setVideoSending enabled automatic => some (s.setVideoSending enabled automatic)
  | .setAudioOnly checked => some { s with audioOnly := checked }
  | .setSimulcast enabled => some { s with simulcastEnabled := enabled }
  | .resetMediaConnection => some s.resetMediaConnection
  | .leave audioOnlyPreference => some (s.leave audioOnlyPreference)

def lts (profile : ProfileValue) (audioOnly : Bool) : Lts Adaptation Label :=
  Lts.ofStep (new profile audioOnly) step

/-! ## What the samples exclude -/

theorem isGood_of_isPoor {m : Sample} (h : isPoor m = true) : isGood m = false := by
  unfold isGood
  rw [h]
  simp

theorem isGood_of_isCritical {m : Sample} (h : isCritical m = true) : isGood m = false := by
  unfold isGood
  rw [h]
  simp

theorem automaticProfileCount_eq : automaticProfileCount = 4 := rfl

/-! ## What a sample does -/

variable {s} {t : Adaptation} {m : Sample}

/-- The level and its counters are those of another state. -/
structure SameLevel (t s : Adaptation) : Prop where
  profile : t.profile = s.profile
  adaptationLevel : t.adaptationLevel = s.adaptationLevel
  poorSamples : t.poorSamples = s.poorSamples
  goodSamples : t.goodSamples = s.goodSamples
  sinceLevel : t.sinceLevel = s.sinceLevel
  samples : t.samples = s.samples
  drops : t.drops = s.drops
  rises : t.rises = s.rises

theorem SameLevel.trans {u : Adaptation} (h : SameLevel u t) (h' : SameLevel t s) :
    SameLevel u s where
  profile := h.profile.trans h'.profile
  adaptationLevel := h.adaptationLevel.trans h'.adaptationLevel
  poorSamples := h.poorSamples.trans h'.poorSamples
  goodSamples := h.goodSamples.trans h'.goodSamples
  sinceLevel := h.sinceLevel.trans h'.sinceLevel
  samples := h.samples.trans h'.samples
  drops := h.drops.trans h'.drops
  rises := h.rises.trans h'.rises

/-- The video and its counters are those of another state. -/
structure SameVideo (t s : Adaptation) : Prop where
  criticalSamples : t.criticalSamples = s.criticalSamples
  recoverySamples : t.recoverySamples = s.recoverySamples
  videoSuspended : t.videoSuspended = s.videoSuspended
  audioOnly : t.audioOnly = s.audioOnly
  sincePause : t.sincePause = s.sincePause
  sinceSwitch : t.sinceSwitch = s.sinceSwitch
  pauses : t.pauses = s.pauses
  resumes : t.resumes = s.resumes

theorem SameVideo.trans {u : Adaptation} (h : SameVideo u t) (h' : SameVideo t s) :
    SameVideo u s where
  criticalSamples := h.criticalSamples.trans h'.criticalSamples
  recoverySamples := h.recoverySamples.trans h'.recoverySamples
  videoSuspended := h.videoSuspended.trans h'.videoSuspended
  audioOnly := h.audioOnly.trans h'.audioOnly
  sincePause := h.sincePause.trans h'.sincePause
  sinceSwitch := h.sinceSwitch.trans h'.sinceSwitch
  pauses := h.pauses.trans h'.pauses
  resumes := h.resumes.trans h'.resumes

theorem same_setCameraLayer (layer : CameraLayer) :
    SameLevel (s.setCameraLayer layer) s ∧ SameVideo (s.setCameraLayer layer) s := by
  unfold setCameraLayer
  split_ifs
  · exact ⟨⟨rfl, rfl, rfl, rfl, rfl, rfl, rfl, rfl⟩, ⟨rfl, rfl, rfl, rfl, rfl, rfl, rfl, rfl⟩⟩
  · exact ⟨⟨rfl, rfl, rfl, rfl, rfl, rfl, rfl, rfl⟩, ⟨rfl, rfl, rfl, rfl, rfl, rfl, rfl, rfl⟩⟩

theorem same_adaptLayer (m : Sample) :
    SameLevel (s.adaptLayer m) s ∧ SameVideo (s.adaptLayer m) s := by
  unfold adaptLayer
  by_cases hsimulcast : s.simulcastEnabled = true
  · rw [if_pos hsimulcast]
    exact ⟨(same_setCameraLayer _).1.trans ⟨rfl, rfl, rfl, rfl, rfl, rfl, rfl, rfl⟩,
      (same_setCameraLayer _).2.trans ⟨rfl, rfl, rfl, rfl, rfl, rfl, rfl, rfl⟩⟩
  · rw [if_neg hsimulcast]
    exact ⟨⟨rfl, rfl, rfl, rfl, rfl, rfl, rfl, rfl⟩, ⟨rfl, rfl, rfl, rfl, rfl, rfl, rfl, rfl⟩⟩

theorem sameLevel_switchVideo (m : Sample) : SameLevel (s.switchVideo m) s := by
  unfold switchVideo setVideoSending
  split_ifs
  · exact ⟨rfl, rfl, rfl, rfl, rfl, rfl, rfl, rfl⟩
  · exact ⟨rfl, rfl, rfl, rfl, rfl, rfl, rfl, rfl⟩
  · exact ⟨rfl, rfl, rfl, rfl, rfl, rfl, rfl, rfl⟩
  · exact ⟨rfl, rfl, rfl, rfl, rfl, rfl, rfl, rfl⟩

/-- Once the level is settled, a sample leaves it alone. -/
theorem sameLevel_finish (m : Sample) : SameLevel (s.finish m) s :=
  (sameLevel_switchVideo m).trans (same_adaptLayer m).1

/-! ## The counters and the samples -/

/-- The counters are the streaks of the samples they stand for, and the level
of the automatic profile is an automatic one. -/
structure Counted (s : Adaptation) : Prop where
  poor : s.poorSamples = streak isPoor s.sinceLevel
  good : s.goodSamples = streak isGood s.sinceLevel
  critical : s.criticalSamples = streak isCritical s.sincePause
  recovery : s.recoverySamples = streak isGood s.sinceSwitch
  level : s.profile = .auto → s.adaptationLevel < automaticProfileCount

theorem counted_new {profile : ProfileValue} {audioOnly : Bool} :
    (new profile audioOnly).Counted :=
  ⟨rfl, rfl, rfl, rfl, fun _ => by show 2 < 4; omega⟩

theorem Counted.count (h : s.Counted) (m : Sample) : (s.count m).Counted where
  poor := h.poor
  good := h.good
  critical := by
    show (if isCritical m = true then _ else _) = streak isCritical (m :: s.sincePause)
    rw [streak_cons, h.critical]
  recovery := by
    show (if isGood m = true then _ else _) = streak isGood (m :: s.sinceSwitch)
    rw [streak_cons, h.recovery]
  level := h.level

theorem Counted.countAutomatic (h : s.Counted) (m : Sample) : (s.countAutomatic m).Counted where
  poor := by
    show (if isPoor m = true then _ else _) = streak isPoor (m :: s.sinceLevel)
    rw [streak_cons, h.poor]
  good := by
    show (if isGood m = true then _ else _) = streak isGood (m :: s.sinceLevel)
    rw [streak_cons, h.good]
  critical := h.critical
  recovery := h.recovery
  level := h.level

theorem Counted.adaptLayer (h : s.Counted) (m : Sample) : (s.adaptLayer m).Counted := by
  obtain ⟨hlevel, hvideo⟩ : SameLevel (s.adaptLayer m) s ∧ SameVideo (s.adaptLayer m) s :=
    same_adaptLayer m
  constructor
  · rw [hlevel.poorSamples, hlevel.sinceLevel, h.poor]
  · rw [hlevel.goodSamples, hlevel.sinceLevel, h.good]
  · rw [hvideo.criticalSamples, hvideo.sincePause, h.critical]
  · rw [hvideo.recoverySamples, hvideo.sinceSwitch, h.recovery]
  · rw [hlevel.profile, hlevel.adaptationLevel]
    exact h.level

theorem Counted.switchVideo (h : s.Counted) (m : Sample) : (s.switchVideo m).Counted := by
  unfold Adaptation.switchVideo
  split_ifs
  · exact ⟨h.poor, h.good, rfl, rfl, h.level⟩
  · exact ⟨h.poor, h.good, rfl, rfl, h.level⟩
  · exact ⟨h.poor, h.good, h.critical, rfl, h.level⟩
  · exact ⟨h.poor, h.good, h.critical, h.recovery, h.level⟩

theorem Counted.finish (h : s.Counted) (m : Sample) : (s.finish m).Counted :=
  (h.adaptLayer m).switchVideo m

/-- What `chooseAdaptationLevel` answers, and when. -/
theorem transition_cases (s : Adaptation) :
    (2 ≤ s.poorSamples ∧ 0 < s.adaptationLevel ∧
        s.transition = (s.adaptationLevel - 1, some .poor)) ∨
      (¬(2 ≤ s.poorSamples ∧ 0 < s.adaptationLevel) ∧
        (5 ≤ s.goodSamples ∧ s.adaptationLevel < automaticProfileCount - 1) ∧
          s.transition = (s.adaptationLevel + 1, some .good)) ∨
      (¬(2 ≤ s.poorSamples ∧ 0 < s.adaptationLevel) ∧
        ¬(5 ≤ s.goodSamples ∧ s.adaptationLevel < automaticProfileCount - 1) ∧
          s.transition = (s.adaptationLevel, none)) := by
  unfold transition chooseAdaptationLevel
  by_cases hpoor : 2 ≤ s.poorSamples ∧ 0 < s.adaptationLevel
  · left
    exact ⟨hpoor.1, hpoor.2, if_pos hpoor⟩
  · right
    rw [if_neg hpoor]
    by_cases hgood : 5 ≤ s.goodSamples ∧ s.adaptationLevel < automaticProfileCount - 1
    · left
      exact ⟨hpoor, hgood, if_pos hgood⟩
    · right
      exact ⟨hpoor, hgood, if_neg hgood⟩

/-- The three ends of `adapt`. -/
theorem adapt_cases (s : Adaptation) (m : Sample) :
    (2 ≤ s.poorSamples ∧ 0 < s.adaptationLevel ∧
        s.adapt m =
          { s with
            adaptationLevel := s.adaptationLevel - 1, poorSamples := 0, sinceLevel := []
            drops := s.drops + 1, diagnosing := .applying m }) ∨
      (¬(2 ≤ s.poorSamples ∧ 0 < s.adaptationLevel) ∧
        (5 ≤ s.goodSamples ∧ s.adaptationLevel < automaticProfileCount - 1) ∧
          s.adapt m =
            { s with
              adaptationLevel := s.adaptationLevel + 1, goodSamples := 0, sinceLevel := []
              rises := s.rises + 1, diagnosing := .applying m }) ∨
      (¬(2 ≤ s.poorSamples ∧ 0 < s.adaptationLevel) ∧
        ¬(5 ≤ s.goodSamples ∧ s.adaptationLevel < automaticProfileCount - 1) ∧
          s.adapt m = s.finish m) := by
  unfold adapt
  obtain ⟨hpoor, hlevel, ht⟩ | ⟨hpoor, hgood, ht⟩ | ⟨hpoor, hgood, ht⟩ := s.transition_cases
  · left
    rw [ht]
    exact ⟨hpoor, hlevel, rfl⟩
  · right
    left
    rw [ht]
    exact ⟨hpoor, hgood, rfl⟩
  · right
    right
    rw [ht]
    exact ⟨hpoor, hgood, rfl⟩

theorem Counted.adapt (h : s.Counted) (hauto : s.profile = .auto) (m : Sample) :
    (s.adapt m).Counted := by
  have hlevel := h.level hauto
  obtain ⟨hpoor, hpos, he⟩ | ⟨-, hgood, he⟩ | ⟨-, -, he⟩ := s.adapt_cases m
  · -- a drop: the samples were poor, so that none of them counts as good
    rw [he]
    refine ⟨rfl, ?_, h.critical, h.recovery, fun _ => ?_⟩
    · show s.goodSamples = 0
      rw [h.good]
      apply streak_eq_zero_of (p := isPoor) fun _ => isGood_of_isPoor
      rw [← h.poor]
      omega
    · show s.adaptationLevel - 1 < automaticProfileCount
      omega
  · rw [he]
    refine ⟨?_, rfl, h.critical, h.recovery, fun _ => ?_⟩
    · show s.poorSamples = 0
      by_contra hne
      rw [h.poor] at hne
      have hzero := streak_eq_zero_of (q := isGood) (fun _ => isGood_of_isPoor) hne
      rw [← h.good] at hzero
      omega
    · show s.adaptationLevel + 1 < automaticProfileCount
      omega
  · rw [he]
    exact h.finish m

theorem Counted.sample (h : s.Counted) (m : Sample) : (s.sample m).Counted := by
  unfold Adaptation.sample
  split_ifs with hauto
  · exact ((h.count m).countAutomatic m).adapt hauto m
  · exact (h.count m).finish m

theorem Counted.chooseProfile (h : s.Counted) (profile : ProfileValue) :
    (s.chooseProfile profile).Counted := by
  refine ⟨rfl, rfl, h.critical, h.recovery, fun hauto => ?_⟩
  obtain rfl : profile = .auto := hauto
  show min s.adaptationLevel (automaticProfileCount - 1) < automaticProfileCount
  rw [automaticProfileCount_eq]
  omega

theorem Counted.step {l : Label} (h : s.Counted) (hstep : s.step l = some t) : t.Counted := by
  cases l with
  | sample m =>
    simp only [Adaptation.step, Option.ite_none_right_eq_some, Option.some.injEq] at hstep
    rw [← hstep.2]
    exact h.sample m
  | applied =>
    simp only [Adaptation.step] at hstep
    cases hm : s.diagnosing with
    | idle => simp [hm] at hstep
    | sending => simp [hm] at hstep
    | applying m =>
      simp only [hm, Option.some.injEq] at hstep
      rw [← hstep]
      exact h.finish m
  | sent =>
    simp only [Adaptation.step, Option.ite_none_right_eq_some, Option.some.injEq] at hstep
    rw [← hstep.2]
    exact ⟨h.poor, h.good, h.critical, h.recovery, h.level⟩
  | chooseProfile profile =>
    cases hstep
    exact h.chooseProfile profile
  | serverDefault name =>
    cases hstep
    exact ⟨h.poor, h.good, h.critical, h.recovery, fun hauto => by cases hauto⟩
  | setVideoSending enabled automatic =>
    cases hstep
    exact ⟨h.poor, h.good, h.critical, h.recovery, h.level⟩
  | setAudioOnly checked =>
    cases hstep
    exact ⟨h.poor, h.good, h.critical, h.recovery, h.level⟩
  | setSimulcast enabled =>
    cases hstep
    exact ⟨h.poor, h.good, h.critical, h.recovery, h.level⟩
  | resetMediaConnection =>
    cases hstep
    exact ⟨h.poor, h.good, rfl, rfl, h.level⟩
  | leave audioOnlyPreference =>
    cases hstep
    exact ⟨rfl, rfl, rfl, rfl, fun _ => by show 2 < 4; omega⟩

theorem counted_of_reachable {profile : ProfileValue} {audioOnly : Bool}
    (hr : (lts profile audioOnly).Reachable Lts.Any s) : s.Counted :=
  hr.invariant_ofStep counted_new fun _ _ _ h _ hstep => h.step hstep

/-! ## The level -/

/-- Every step but a sample of the automatic profile, a choice and `leave`
keeps the level. -/
theorem adaptationLevel_step {l : Label} (hstep : s.step l = some t)
    (hmoved : t.adaptationLevel ≠ s.adaptationLevel) :
    (∃ m, l = .sample m ∧ s.profile = .auto) ∨ (∃ profile, l = .chooseProfile profile) ∨
      ∃ audioOnlyPreference, l = .leave audioOnlyPreference := by
  cases l with
  | sample m =>
    left
    refine ⟨m, rfl, ?_⟩
    simp only [step, Option.ite_none_right_eq_some, Option.some.injEq] at hstep
    by_contra hnamed
    apply hmoved
    rw [← hstep.2, sample, if_neg hnamed]
    exact (sameLevel_finish m).adaptationLevel
  | applied =>
    simp only [step] at hstep
    cases hm : s.diagnosing with
    | idle => simp [hm] at hstep
    | sending => simp [hm] at hstep
    | applying m =>
      simp only [hm, Option.some.injEq] at hstep
      apply absurd _ hmoved
      rw [← hstep]
      exact (sameLevel_finish m).adaptationLevel
  | sent =>
    simp only [step, Option.ite_none_right_eq_some, Option.some.injEq] at hstep
    rw [← hstep.2] at hmoved
    exact absurd rfl hmoved
  | chooseProfile profile => exact Or.inr (Or.inl ⟨profile, rfl⟩)
  | serverDefault name =>
    cases hstep
    exact absurd rfl hmoved
  | setVideoSending enabled automatic =>
    cases hstep
    exact absurd rfl hmoved
  | setAudioOnly checked =>
    cases hstep
    exact absurd rfl hmoved
  | setSimulcast enabled =>
    cases hstep
    exact absurd rfl hmoved
  | resetMediaConnection =>
    cases hstep
    exact absurd rfl hmoved
  | leave audioOnlyPreference => exact Or.inr (Or.inr ⟨audioOnlyPreference, rfl⟩)

/-- The level after a sample of the automatic profile. -/
theorem adaptationLevel_sample (h : s.Counted) (hauto : s.profile = .auto) (m : Sample) :
    (s.sample m).adaptationLevel =
      if 2 ≤ streak isPoor (m :: s.sinceLevel) ∧ 0 < s.adaptationLevel then s.adaptationLevel - 1
      else if 5 ≤ streak isGood (m :: s.sinceLevel) ∧
        s.adaptationLevel + 1 < automaticProfileCount then s.adaptationLevel + 1
      else s.adaptationLevel := by
  have hc := (h.count m).countAutomatic m
  have hpoor : ((s.count m).countAutomatic m).poorSamples = streak isPoor (m :: s.sinceLevel) :=
    hc.poor
  have hgood : ((s.count m).countAutomatic m).goodSamples = streak isGood (m :: s.sinceLevel) :=
    hc.good
  have hlevel : ((s.count m).countAutomatic m).adaptationLevel = s.adaptationLevel := rfl
  rw [sample, if_pos hauto, ← hpoor, ← hgood, ← hlevel]
  obtain ⟨hp, hpos, he⟩ | ⟨hp, hg, he⟩ | ⟨hp, hg, he⟩ :=
    ((s.count m).countAutomatic m).adapt_cases m
  · rw [he, if_pos ⟨hp, hpos⟩]
  · rw [he, if_neg hp, if_pos (by omega)]
  · rw [he, if_neg hp, if_neg (by omega)]
    exact (sameLevel_finish m).adaptationLevel

/-- **The automatic level has hysteresis.** In every state the page reaches
the automatic profile is one of the first four, and the next sample moves it
exactly when it is the second poor one or the fifth good one in a row since
the profile last changed: down a level, unless it is the lowest, or up a
level, unless it is the highest automatic one. Apart from samples only a
choice of the profile and `leave` move the level. -/
theorem adaptationLevel_moves {profile : ProfileValue} {audioOnly : Bool}
    (hr : (lts profile audioOnly).Reachable Lts.Any s) :
    (s.profile = .auto → s.adaptationLevel < automaticProfileCount) ∧
      (∀ m t, s.step (.sample m) = some t → s.profile = .auto →
        t.adaptationLevel =
          if 2 ≤ streak isPoor (m :: s.sinceLevel) ∧ 0 < s.adaptationLevel then
            s.adaptationLevel - 1
          else if 5 ≤ streak isGood (m :: s.sinceLevel) ∧
            s.adaptationLevel + 1 < automaticProfileCount then s.adaptationLevel + 1
          else s.adaptationLevel) ∧
      ∀ l t, s.step l = some t → t.adaptationLevel ≠ s.adaptationLevel →
        (∃ m, l = .sample m ∧ s.profile = .auto) ∨ (∃ profile, l = .chooseProfile profile) ∨
          ∃ audioOnlyPreference, l = .leave audioOnlyPreference := by
  have hcounted := counted_of_reachable hr
  refine ⟨hcounted.level, ?_, fun l t => adaptationLevel_step⟩
  intro m t hstep hauto
  simp only [step, Option.ite_none_right_eq_some, Option.some.injEq] at hstep
  rw [← hstep.2]
  exact adaptationLevel_sample hcounted hauto m

/-- A connection with a round trip of so many milliseconds. -/
def ofRtt (rttMs : ℚ) : Sample := { rttMs := some rttMs }

/-- After one poor sample a second one drops the level. -/
theorem adaptationLevel_moves_dropped :
    ∃ s t : Adaptation, s.sinceLevel = [ofRtt 300] ∧ s.step (.sample (ofRtt 300)) = some t ∧
      s.adaptationLevel < automaticProfileCount ∧ t.adaptationLevel = s.adaptationLevel - 1 := by
  obtain ⟨s, hs, hstate⟩ := Lts.exists_reachable_of_exec Lts.Any step (new .auto false)
    [.sample (ofRtt 300)] (fun s => (s.profile, s.sinceLevel, s.diagnosing, s.adaptationLevel))
    (.auto, [ofRtt 300], .idle, 2) (fun _ _ _ => trivial) (by decide +kernel)
  obtain ⟨hauto, hsince, hidle, hlevel⟩ :
      s.profile = .auto ∧ s.sinceLevel = [ofRtt 300] ∧ s.diagnosing = .idle ∧
        s.adaptationLevel = 2 := by
    simpa using hstate
  have hmoves := adaptationLevel_moves hs
  have hstep : s.step (.sample (ofRtt 300)) = some (s.sample (ofRtt 300)) := if_pos hidle
  refine ⟨s, s.sample (ofRtt 300), hsince, hstep, hmoves.1 hauto, ?_⟩
  rw [hmoves.2.1 _ _ hstep hauto, hsince, hlevel]
  decide +kernel

/-! ## No flapping -/

/-- What the moves of the camera layer and its counters amount to. -/
def layerCost (s : Adaptation) : Nat :=
  2 * s.layerDrops + 5 * s.layerRises + s.cameraLayerPoorSamples + s.cameraLayerGoodSamples

/-- Every move was paid for by the samples it took, and `spare` of them have
yet to decide the layer. -/
structure Paced (spare : Nat) (s : Adaptation) : Prop where
  level : 2 * s.drops + 5 * s.rises + s.poorSamples + s.goodSamples ≤ s.samples
  layer : s.layerCost + spare ≤ s.samples
  video : 3 * s.pauses + 5 * s.resumes + s.criticalSamples + s.recoverySamples ≤ s.samples

theorem paced_new {profile : ProfileValue} {audioOnly : Bool} :
    Paced 0 (new profile audioOnly) :=
  ⟨Nat.le_refl _, Nat.le_refl _, Nat.le_refl _⟩

/-- A sample adds itself to one of two counters at most. -/
theorem count_le {p q : Sample → Bool} (h : p m = true → q m = false) (a b : Nat) :
    (if p m = true then a + 1 else 0) + (if q m = true then b + 1 else 0) ≤ a + b + 1 := by
  cases hp : p m with
  | false =>
    cases q m with
    | false => simp
    | true => simp
  | true =>
    rw [h hp]
    simp

theorem chooseCameraLayer_cases (layer : CameraLayer) (poorSamples goodSamples : Nat)
    (m : Sample) :
    (layerPoor m = true ∧
        (2 ≤ poorSamples + 1 ∧
            chooseCameraLayer layer poorSamples goodSamples m = ⟨lowerLayer layer, 0, 0⟩ ∨
          chooseCameraLayer layer poorSamples goodSamples m = ⟨layer, poorSamples + 1, 0⟩)) ∨
      (layerPoor m = false ∧
        (5 ≤ goodSamples + 1 ∧
            chooseCameraLayer layer poorSamples goodSamples m = ⟨higherLayer layer, 0, 0⟩ ∨
          chooseCameraLayer layer poorSamples goodSamples m = ⟨layer, 0, goodSamples + 1⟩ ∨
          chooseCameraLayer layer poorSamples goodSamples m = ⟨layer, 0, 0⟩)) := by
  unfold chooseCameraLayer
  cases hpoor : layerPoor m with
  | true =>
    left
    refine ⟨rfl, ?_⟩
    rw [if_pos rfl]
    by_cases htwo : 2 ≤ poorSamples + 1
    · exact Or.inl ⟨htwo, if_pos htwo⟩
    · exact Or.inr (if_neg htwo)
  | false =>
    right
    refine ⟨rfl, ?_⟩
    rw [if_neg Bool.false_ne_true]
    by_cases hgood : layerGood m = true
    · rw [if_pos hgood]
      by_cases hfive : 5 ≤ goodSamples + 1
      · exact Or.inl ⟨hfive, if_pos hfive⟩
      · exact Or.inr (Or.inl (if_neg hfive))
    · rw [if_neg hgood]
      exact Or.inr (Or.inr rfl)

theorem layerCost_setCameraLayer (layer : CameraLayer) :
    (s.setCameraLayer layer).layerCost = s.layerCost := by
  unfold setCameraLayer
  split_ifs
  · rfl
  · rfl

/-- A sample raises the cost of the layer by one at most: a move empties the
counter that had reached its threshold. -/
theorem layerCost_adaptLayer (s : Adaptation) (m : Sample) :
    (s.adaptLayer m).layerCost ≤ s.layerCost + 1 := by
  unfold adaptLayer
  by_cases hsimulcast : s.simulcastEnabled = true
  · rw [if_pos hsimulcast, layerCost_setCameraLayer]
    unfold layerCost layerDecision
    obtain ⟨hpoor, ⟨htwo, hd⟩ | hd⟩ | ⟨hpoor, ⟨hfive, hd⟩ | hd | hd⟩ :=
      chooseCameraLayer_cases s.cameraLayer s.cameraLayerPoorSamples s.cameraLayerGoodSamples m
    · simp only [hd, hpoor, and_true, reduceCtorEq, and_false, if_false]
      split_ifs
      · omega
      · omega
    · simp only [hd, hpoor, ne_eq, not_true, false_and, if_false]
      omega
    · simp only [hd, hpoor, and_true, reduceCtorEq, and_false, if_false]
      split_ifs
      · omega
      · omega
    · simp only [hd, ne_eq, not_true, false_and, if_false]
      omega
    · simp only [hd, ne_eq, not_true, false_and, if_false]
      omega
  · rw [if_neg hsimulcast]
    omega

theorem Paced.adaptLayer (h : Paced 1 s) (m : Sample) : Paced 0 (s.adaptLayer m) := by
  obtain ⟨hlevel, hvideo⟩ : SameLevel (s.adaptLayer m) s ∧ SameVideo (s.adaptLayer m) s :=
    same_adaptLayer m
  have hcost := layerCost_adaptLayer s m
  have hspare := h.layer
  constructor
  · rw [hlevel.drops, hlevel.rises, hlevel.poorSamples, hlevel.goodSamples, hlevel.samples]
    exact h.level
  · rw [hlevel.samples]
    omega
  · rw [hvideo.pauses, hvideo.resumes, hvideo.criticalSamples, hvideo.recoverySamples,
      hlevel.samples]
    exact h.video

theorem Paced.switchVideo (h : Paced 0 s) (m : Sample) : Paced 0 (s.switchVideo m) := by
  have hvideo := h.video
  unfold Adaptation.switchVideo shouldPauseVideo shouldRecoverVideo
  split_ifs with hpause hsuspended hrecover
  · refine ⟨h.level, h.layer, ?_⟩
    show 3 * s.pauses + 5 * s.resumes + 0 + 0 ≤ s.samples
    omega
  · -- the three critical samples of a pause
    refine ⟨h.level, h.layer, ?_⟩
    simp only [Bool.and_eq_true, decide_eq_true_eq] at hpause
    show 3 * (s.pauses + 1) + 5 * s.resumes + 0 + 0 ≤ s.samples
    omega
  · -- the five good samples of a resumption
    refine ⟨h.level, h.layer, ?_⟩
    simp only [Bool.and_eq_true, decide_eq_true_eq] at hrecover
    show 3 * s.pauses + 5 * (s.resumes + 1) + s.criticalSamples + 0 ≤ s.samples
    omega
  · exact ⟨h.level, h.layer, hvideo⟩

theorem Paced.finish (h : Paced 1 s) (m : Sample) : Paced 0 (s.finish m) :=
  (h.adaptLayer m).switchVideo m

theorem pending_finish (s : Adaptation) (m : Sample) : (s.finish m).diagnosing.pending = 0 := by
  unfold finish switchVideo
  split_ifs
  · rfl
  · rfl
  · rfl
  · rfl

theorem Paced.count (h : Paced 0 s) (m : Sample) : Paced 1 (s.count m) := by
  have hlevel := h.level
  have hlayer := h.layer
  have hvideo := h.video
  refine ⟨?_, Nat.succ_le_succ h.layer, ?_⟩
  · show 2 * s.drops + 5 * s.rises + s.poorSamples + s.goodSamples ≤ s.samples + 1
    omega
  · have hcount := count_le (p := isCritical) (m := m) isGood_of_isCritical s.criticalSamples
      s.recoverySamples
    show 3 * s.pauses + 5 * s.resumes + (if isCritical m = true then s.criticalSamples + 1 else 0) +
      (if isGood m = true then s.recoverySamples + 1 else 0) ≤ s.samples + 1
    omega

/-- The counters of the level share the sample that was counted. -/
theorem Paced.countAutomatic (h : Paced 0 s) (m : Sample) :
    Paced 1 ((s.count m).countAutomatic m) := by
  have hlevel := h.level
  refine ⟨?_, (h.count m).layer, (h.count m).video⟩
  have hcount := count_le (p := isPoor) (m := m) isGood_of_isPoor s.poorSamples s.goodSamples
  show 2 * s.drops + 5 * s.rises + (if isPoor m = true then s.poorSamples + 1 else 0) +
    (if isGood m = true then s.goodSamples + 1 else 0) ≤ s.samples + 1
  omega

theorem Paced.adapt (h : Paced 1 s) (m : Sample) :
    Paced (s.adapt m).diagnosing.pending (s.adapt m) := by
  have hlevel := h.level
  obtain ⟨hpoor, -, he⟩ | ⟨-, hgood, he⟩ | ⟨-, -, he⟩ := s.adapt_cases m
  · rw [he]
    refine ⟨?_, h.layer, h.video⟩
    show 2 * (s.drops + 1) + 5 * s.rises + 0 + s.goodSamples ≤ s.samples
    omega
  · rw [he]
    refine ⟨?_, h.layer, h.video⟩
    show 2 * s.drops + 5 * (s.rises + 1) + s.poorSamples + 0 ≤ s.samples
    omega
  · rw [he, pending_finish]
    exact h.finish m

/-- A sample begins when none is in progress. -/
theorem Paced.sample (h : Paced 0 s) (m : Sample) :
    Paced (s.sample m).diagnosing.pending (s.sample m) := by
  unfold Adaptation.sample
  split_ifs
  · exact (h.countAutomatic m).adapt m
  · rw [pending_finish]
    exact (h.count m).finish m

theorem Paced.step {l : Label} (h : Paced s.diagnosing.pending s) (hstep : s.step l = some t) :
    Paced t.diagnosing.pending t := by
  have hlevel := h.level
  have hlayer := h.layer
  have hvideo := h.video
  cases l with
  | sample m =>
    simp only [Adaptation.step, Option.ite_none_right_eq_some, Option.some.injEq] at hstep
    obtain ⟨hidle, rfl⟩ := hstep
    rw [hidle] at h
    exact h.sample m
  | applied =>
    simp only [Adaptation.step] at hstep
    cases hm : s.diagnosing with
    | idle => simp [hm] at hstep
    | sending => simp [hm] at hstep
    | applying m =>
      simp only [hm, Option.some.injEq] at hstep
      rw [hm] at h
      rw [← hstep, pending_finish]
      exact h.finish m
  | sent =>
    simp only [Adaptation.step, Option.ite_none_right_eq_some, Option.some.injEq] at hstep
    obtain ⟨hsending, rfl⟩ := hstep
    rw [hsending] at h
    exact ⟨h.level, h.layer, h.video⟩
  | chooseProfile profile =>
    cases hstep
    refine ⟨?_, h.layer, h.video⟩
    show 2 * s.drops + 5 * s.rises + 0 + 0 ≤ s.samples
    omega
  | serverDefault name =>
    cases hstep
    exact ⟨h.level, h.layer, h.video⟩
  | setVideoSending enabled automatic =>
    cases hstep
    exact ⟨h.level, h.layer, h.video⟩
  | setAudioOnly checked =>
    cases hstep
    exact ⟨h.level, h.layer, h.video⟩
  | setSimulcast enabled =>
    cases hstep
    exact ⟨h.level, h.layer, h.video⟩
  | resetMediaConnection =>
    cases hstep
    unfold layerCost at hlayer
    refine ⟨h.level, ?_, ?_⟩
    · show 2 * s.layerDrops + 5 * s.layerRises + 0 + 0 + s.diagnosing.pending ≤ s.samples
      omega
    · show 3 * s.pauses + 5 * s.resumes + 0 + 0 ≤ s.samples
      omega
  | leave audioOnlyPreference =>
    cases hstep
    unfold layerCost at hlayer
    refine ⟨?_, ?_, ?_⟩
    · show 2 * s.drops + 5 * s.rises + 0 + 0 ≤ s.samples
      omega
    · show 2 * s.layerDrops + 5 * s.layerRises + 0 + 0 + s.diagnosing.pending ≤ s.samples
      omega
    · show 3 * s.pauses + 5 * s.resumes + 0 + 0 ≤ s.samples
      omega

/-- **Nothing flaps.** Over a whole run, whatever the page does meanwhile, two
samples are spent on every drop of the automatic level and five on every rise,
as many on those of the camera layer, and three on every automatic pause of
the video and five on every resumption. -/
theorem moves_le_samples {profile : ProfileValue} {audioOnly : Bool}
    (hr : (lts profile audioOnly).Reachable Lts.Any s) :
    2 * s.drops + 5 * s.rises ≤ s.samples ∧
      2 * s.layerDrops + 5 * s.layerRises ≤ s.samples ∧
      3 * s.pauses + 5 * s.resumes ≤ s.samples := by
  have h : Paced s.diagnosing.pending s :=
    hr.invariant_ofStep (I := fun s => Paced s.diagnosing.pending s) paced_new
      fun _ _ _ h _ hstep => h.step hstep
  have hlevel := h.level
  have hlayer := h.layer
  have hvideo := h.video
  unfold layerCost at hlayer
  refine ⟨?_, ?_, ?_⟩
  · omega
  · omega
  · omega

/-- A dropped level whose sample goes on, two more drops and a pause. -/
def deteriorating : List Label :=
  [.sample (ofRtt 600), .sample (ofRtt 600), .applied, .sample (ofRtt 300), .sample (ofRtt 600),
    .applied, .sample (ofRtt 600), .sample (ofRtt 600)]

theorem moves_le_samples_deteriorating :
    ∃ s : Adaptation, (s.drops, s.pauses, s.samples) = (2, 1, 6) ∧
      2 * s.drops + 5 * s.rises ≤ s.samples ∧
        2 * s.layerDrops + 5 * s.layerRises ≤ s.samples ∧
          3 * s.pauses + 5 * s.resumes ≤ s.samples := by
  obtain ⟨s, hs, hstate⟩ := Lts.exists_reachable_of_exec Lts.Any step (new .auto false)
    deteriorating (fun s => (s.drops, s.pauses, s.samples)) (2, 1, 6) (fun _ _ _ => trivial)
    (by decide +kernel)
  exact ⟨s, hstate, moves_le_samples hs⟩

/-! ## Pauses and resumptions -/

/-- The samples since a pause, or since a pause or a resumption, begin with
the one that waits. -/
def Waiting (s : Adaptation) : Prop :=
  ∀ m, s.diagnosing = .applying m →
    (∀ a, s.sincePause.head? = some a → a = m) ∧ ∀ a, s.sinceSwitch.head? = some a → a = m

theorem waiting_of_not_applying (h : ∀ m, s.diagnosing ≠ .applying m) : s.Waiting :=
  fun m hm => absurd hm (h m)

theorem waiting_of_forgotten (hpause : s.sincePause = []) (hswitch : s.sinceSwitch = []) :
    s.Waiting := by
  intro m _
  rw [hpause, hswitch]
  constructor
  · intro a ha
    cases ha
  · intro a ha
    cases ha

theorem diagnosing_finish (s : Adaptation) (m m' : Sample) :
    (s.finish m).diagnosing ≠ .applying m' := by
  intro h
  have hpending := pending_finish s m
  rw [h] at hpending
  cases hpending

theorem Waiting.adapt (hpause : ∀ a, s.sincePause.head? = some a → a = m)
    (hswitch : ∀ a, s.sinceSwitch.head? = some a → a = m) : (s.adapt m).Waiting := by
  obtain ⟨-, -, he⟩ | ⟨-, -, he⟩ | ⟨-, -, he⟩ := s.adapt_cases m
  · rw [he]
    intro m' hm
    obtain rfl : m = m' := by simpa using hm
    exact ⟨hpause, hswitch⟩
  · rw [he]
    intro m' hm
    obtain rfl : m = m' := by simpa using hm
    exact ⟨hpause, hswitch⟩
  · rw [he]
    exact waiting_of_not_applying (diagnosing_finish s m)

theorem Waiting.step {l : Label} (h : s.Waiting) (hstep : s.step l = some t) : t.Waiting := by
  cases l with
  | sample m =>
    simp only [Adaptation.step, Option.ite_none_right_eq_some, Option.some.injEq] at hstep
    rw [← hstep.2, Adaptation.sample]
    split_ifs
    · apply Waiting.adapt
      · intro a ha
        exact (Option.some.inj ha).symm
      · intro a ha
        exact (Option.some.inj ha).symm
    · exact waiting_of_not_applying (diagnosing_finish _ m)
  | applied =>
    simp only [Adaptation.step] at hstep
    cases hm : s.diagnosing with
    | idle => simp [hm] at hstep
    | sending => simp [hm] at hstep
    | applying m =>
      simp only [hm, Option.some.injEq] at hstep
      rw [← hstep]
      exact waiting_of_not_applying (diagnosing_finish _ m)
  | sent =>
    simp only [Adaptation.step, Option.ite_none_right_eq_some, Option.some.injEq] at hstep
    rw [← hstep.2]
    exact waiting_of_not_applying fun m hm => by cases hm
  | chooseProfile profile =>
    cases hstep
    exact h
  | serverDefault name =>
    cases hstep
    exact h
  | setVideoSending enabled automatic =>
    cases hstep
    exact h
  | setAudioOnly checked =>
    cases hstep
    exact h
  | setSimulcast enabled =>
    cases hstep
    exact h
  | resetMediaConnection =>
    cases hstep
    exact waiting_of_forgotten rfl rfl
  | leave audioOnlyPreference =>
    cases hstep
    exact waiting_of_forgotten rfl rfl

theorem waiting_of_reachable {profile : ProfileValue} {audioOnly : Bool}
    (hr : (lts profile audioOnly).Reachable Lts.Any s) : s.Waiting :=
  hr.invariant_ofStep (waiting_of_forgotten rfl rfl) fun _ _ _ h _ hstep => h.step hstep

/-- A streak that began with the sample in progress ends with it too. -/
theorem latest_of_streak {p : Sample → Bool} {history : List Sample}
    (hhead : ∀ a, history.head? = some a → a = m) (h : streak p history ≠ 0) : p m = true := by
  cases history with
  | nil => exact absurd rfl h
  | cons a rest =>
    obtain rfl := hhead a rfl
    by_contra hp
    rw [streak_cons, if_neg hp] at h
    exact h rfl

theorem switchVideo_videoSuspended (h : s.Counted)
    (hpause : ∀ a, s.sincePause.head? = some a → a = m)
    (hswitch : ∀ a, s.sinceSwitch.head? = some a → a = m) :
    (s.videoSuspended = false →
        ((s.switchVideo m).videoSuspended = true ↔
          3 ≤ streak isCritical s.sincePause ∧ (s.profile = .auto → s.adaptationLevel = 0))) ∧
      (s.videoSuspended = true →
        ((s.switchVideo m).videoSuspended = false ↔
          s.audioOnly = false ∧ 5 ≤ streak isGood s.sinceSwitch)) := by
  have hshould : shouldPauseVideo (decide (s.profile = .auto)) s.adaptationLevel
      s.criticalSamples = true ↔
      3 ≤ streak isCritical s.sincePause ∧ (s.profile = .auto → s.adaptationLevel = 0) := by
    unfold shouldPauseVideo
    rw [h.critical]
    by_cases hauto : s.profile = .auto
    · simp [hauto]
    · simp [hauto]
  rw [← hshould, ← h.recovery]
  unfold switchVideo
  constructor
  · intro hsending
    by_cases hpauses : shouldPauseVideo (decide (s.profile = .auto)) s.adaptationLevel
        s.criticalSamples = true
    · rw [if_pos hpauses, if_neg (by rw [hsending]; decide)]
      simp [setVideoSending, hpauses]
    · rw [if_neg hpauses, hsending]
      simp [hpauses]
  · intro hsuspended
    by_cases hpauses : shouldPauseVideo (decide (s.profile = .auto)) s.adaptationLevel
        s.criticalSamples = true
    · -- the sample is critical, so that no streak of good ones includes it
      have hthree := (hshould.mp hpauses).1
      have hcritical : isCritical m = true := by
        apply latest_of_streak hpause
        omega
      rw [if_pos hpauses, if_pos hsuspended]
      constructor
      · intro hfalse
        exact absurd (hsuspended.symm.trans hfalse) (by decide)
      · intro hgood
        have hm : isGood m = true := by
          apply latest_of_streak hswitch
          rw [← h.recovery]
          omega
        rw [isGood_of_isCritical hcritical] at hm
        cases hm
    · rw [if_neg hpauses]
      by_cases hrecovers : 5 ≤ s.recoverySamples
      · have hm : isGood m = true := by
          apply latest_of_streak hswitch
          rw [← h.recovery]
          omega
        have hcritical : isCritical m = false := by
          by_contra hne
          rw [isGood_of_isCritical (Bool.not_eq_false _ ▸ hne)] at hm
          cases hm
        rw [if_pos (by simp [hcritical, hsuspended, shouldRecoverVideo, hm, hrecovers])]
        simp [setVideoSending, hrecovers]
      · rw [if_neg (by simp [shouldRecoverVideo, hrecovers])]
        simp [hsuspended, hrecovers]

theorem finish_videoSuspended (h : s.Counted)
    (hpause : ∀ a, s.sincePause.head? = some a → a = m)
    (hswitch : ∀ a, s.sinceSwitch.head? = some a → a = m) :
    (s.videoSuspended = false →
        ((s.finish m).videoSuspended = true ↔
          3 ≤ streak isCritical s.sincePause ∧ (s.profile = .auto → s.adaptationLevel = 0))) ∧
      (s.videoSuspended = true →
        ((s.finish m).videoSuspended = false ↔
          s.audioOnly = false ∧ 5 ≤ streak isGood s.sinceSwitch)) := by
  obtain ⟨hlevel, hvideo⟩ : SameLevel (s.adaptLayer m) s ∧ SameVideo (s.adaptLayer m) s :=
    same_adaptLayer m
  rw [← hvideo.sincePause] at hpause
  rw [← hvideo.sinceSwitch] at hswitch
  have hswitched := switchVideo_videoSuspended (h.adaptLayer m) hpause hswitch
  rw [hvideo.videoSuspended, hvideo.sincePause, hvideo.sinceSwitch, hvideo.audioOnly,
    hlevel.profile, hlevel.adaptationLevel] at hswitched
  exact hswitched

/-- The sample of a step, which joins those before it. -/
def observed : Label → List Sample
  | .sample m => [m]
  | _ => []

/-- **When a sample pauses the video and when it resumes it.** In every state
the page reaches, a sample that comes to its end pauses the video that is sent
exactly when three critical samples in a row have passed since a pause, the
media connection or the meeting began, and the profile is a chosen one or at
its lowest level. It resumes a suspended video exactly when five good ones in
a row have passed since a pause or a resumption, unless the page is audio
only. -/
theorem videoSuspended_switches {profile : ProfileValue} {audioOnly : Bool}
    (hr : (lts profile audioOnly).Reachable Lts.Any s) {l : Label} (hstep : s.step l = some t)
    (hl : (∃ m, l = .sample m) ∨ l = .applied) (hended : ∀ m, t.diagnosing ≠ .applying m) :
    (s.videoSuspended = false →
        (t.videoSuspended = true ↔
          3 ≤ streak isCritical (observed l ++ s.sincePause) ∧
            (s.profile = .auto → s.adaptationLevel = 0))) ∧
      (s.videoSuspended = true →
        (t.videoSuspended = false ↔
          s.audioOnly = false ∧ 5 ≤ streak isGood (observed l ++ s.sinceSwitch))) := by
  have hcounted := counted_of_reachable hr
  obtain ⟨m, rfl⟩ | rfl := hl
  · simp only [step, Option.ite_none_right_eq_some, Option.some.injEq] at hstep
    obtain ⟨-, rfl⟩ := hstep
    have hnew : ∀ (history : List Sample) (a : Sample), (m :: history).head? = some a → a = m :=
      fun _ a ha => (Option.some.inj ha).symm
    unfold sample at hended ⊢
    by_cases hauto : s.profile = .auto
    · rw [if_pos hauto] at hended ⊢
      obtain ⟨-, -, he⟩ | ⟨-, -, he⟩ | ⟨-, -, he⟩ :=
        ((s.count m).countAutomatic m).adapt_cases m
      · rw [he] at hended
        exact absurd rfl (hended m)
      · rw [he] at hended
        exact absurd rfl (hended m)
      · rw [he]
        exact finish_videoSuspended ((hcounted.count m).countAutomatic m) (hnew _) (hnew _)
    · rw [if_neg hauto]
      exact finish_videoSuspended (hcounted.count m) (hnew _) (hnew _)
  · simp only [step] at hstep
    cases hm : s.diagnosing with
    | idle => simp [hm] at hstep
    | sending => simp [hm] at hstep
    | applying m =>
      simp only [hm, Option.some.injEq] at hstep
      obtain ⟨hpause, hswitch⟩ := waiting_of_reachable hr m hm
      rw [← hstep]
      exact finish_videoSuspended hcounted hpause hswitch

/-- The last sample before the pause: the level is the lowest and the sample
is the third critical one. -/
theorem videoSuspended_switches_paused :
    ∃ s t : Adaptation, s.videoSuspended = false ∧ s.adaptationLevel = 0 ∧
      s.step (.sample (ofRtt 600)) = some t ∧ t.videoSuspended = true := by
  obtain ⟨s, hs, hstate⟩ := Lts.exists_reachable_of_exec Lts.Any step (new .auto false)
    deteriorating.dropLast
    (fun s => (s.videoSuspended, s.adaptationLevel, s.diagnosing, s.sincePause.take 2,
      (s.sample (ofRtt 600)).diagnosing))
    (false, 0, .idle, [ofRtt 600, ofRtt 600], .sending) (fun _ _ _ => trivial) (by decide +kernel)
  obtain ⟨hsending, hlevel, hidle, hsince, hended⟩ :
      s.videoSuspended = false ∧ s.adaptationLevel = 0 ∧ s.diagnosing = .idle ∧
        s.sincePause.take 2 = [ofRtt 600, ofRtt 600] ∧
          (s.sample (ofRtt 600)).diagnosing = .sending := by
    simpa using hstate
  have hstep : s.step (.sample (ofRtt 600)) = some (s.sample (ofRtt 600)) := if_pos hidle
  have hswitches := videoSuspended_switches hs hstep (Or.inl ⟨_, rfl⟩)
    fun m hm => by rw [hended] at hm; cases hm
  refine ⟨s, s.sample (ofRtt 600), hsending, hlevel, hstep, (hswitches.1 hsending).mpr ⟨?_, ?_⟩⟩
  · obtain ⟨rest, hrest⟩ : ∃ rest, s.sincePause = [ofRtt 600, ofRtt 600] ++ rest :=
      ⟨s.sincePause.drop 2, by rw [← hsince, List.take_append_drop]⟩
    have hcritical : isCritical (ofRtt 600) = true := by decide +kernel
    rw [hrest]
    show 3 ≤ streak isCritical (ofRtt 600 :: ofRtt 600 :: ofRtt 600 :: rest)
    rw [streak_cons_of hcritical, streak_cons_of hcritical, streak_cons_of hcritical]
    omega
  · intro _
    exact hlevel

end Adaptation

end SlowMeet.Client
