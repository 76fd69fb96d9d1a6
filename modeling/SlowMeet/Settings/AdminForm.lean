import SlowMeet.Settings.Store

/-!
# The admin form

`validateSettings` of `web/js/admin-utils.js`, which the admin page runs
before it posts its settings, beside `updatedConfig`, which decides them on
the server.

The form's bounds have no caps on the bitrates, and it looks a quality up
with `in`, which also finds what every object inherits. Elsewhere the two
encode the same rules.
-/

namespace SlowMeet.Settings

/-- What `collectSettings` answers and the page posts. -/
structure FormValues where
  maxParticipants : Int
  defaultVideoQuality : String
  maxVideoQuality : String
  maxVideoBitrate : Int
  maxVideoFPS : Int
  maxAudioBitrate : Int
  screenShareEnabled : Bool
  retainChatHistory : Bool
  enabledConnectionMethods : List String
  deriving DecidableEq, Repr

/-- The update the server decodes from the posted settings. -/
def FormValues.update (values : FormValues) : AdminUpdate where
  maxParticipants := some values.maxParticipants
  defaultVideoQuality := some values.defaultVideoQuality
  maxVideoQuality := some values.maxVideoQuality
  maxVideoBitrate := some values.maxVideoBitrate
  maxVideoFPS := some values.maxVideoFPS
  maxAudioBitrate := some values.maxAudioBitrate
  screenShare := some values.screenShareEnabled
  retainChatHistory := some values.retainChatHistory
  enabledConnectionMethods := some values.enabledConnectionMethods

/-- The parameter `defaults`; a missing number converts to `NaN`. -/
structure FormDefaults where
  defaultVideoFPS : Option Int := none
  defaultAudioBitrate : Option Int := none

/-- The two defaults `/admin/config` answers. -/
def Config.formDefaults (cfg : Config) : FormDefaults where
  defaultVideoFPS := some cfg.defaultVideoFPS
  defaultAudioBitrate := some cfg.defaultAudioBitrate

/-- The errors of `validateSettings`, under the fields they name. -/
structure FormErrors where
  maxParticipants : Option String := none
  defaultVideoQuality : Option String := none
  maxVideoQuality : Option String := none
  maxVideoBitrate : Option String := none
  maxVideoFPS : Option String := none
  maxAudioBitrate : Option String := none
  deriving DecidableEq, Repr

theorem FormErrors.eq_none_iff (errors : FormErrors) :
    errors = {} ↔ errors.maxParticipants = none ∧ errors.defaultVideoQuality = none ∧
      errors.maxVideoQuality = none ∧ errors.maxVideoBitrate = none ∧
      errors.maxVideoFPS = none ∧ errors.maxAudioBitrate = none := by
  cases errors
  rw [FormErrors.mk.injEq]

/-! ## The lookup in `qualityRank` -/

/-- What an expression `qualityRank[quality]` reads. -/
inductive Rank
  | number (rank : Int)
  /-- A function or an object, by the text it is compared as. -/
  | inherited (text : String)
  deriving DecidableEq, Repr

/-- The operator `>`. A number and a text compare as with `NaN`. -/
def Rank.exceeds : Rank → Rank → Bool
  | .number a, .number b => decide (b < a)
  | .inherited a, .inherited b => decide (b < a)
  | _, _ => false

/-- The own properties of `qualityRank`. -/
def ownRanks : List (String × Int) :=
  [("low", 0), ("medium", 1), ("high", 2), ("very-good", 3), ("ultra", 4)]

/-- The properties of `Object.prototype`, which the operator `in` finds in
every object. -/
def inheritedProperties : List (String × String) :=
  [("constructor", "function Object() \x7b [native code] \x7d"),
    ("__defineGetter__", "function __defineGetter__() \x7b [native code] \x7d"),
    ("__defineSetter__", "function __defineSetter__() \x7b [native code] \x7d"),
    ("hasOwnProperty", "function hasOwnProperty() \x7b [native code] \x7d"),
    ("__lookupGetter__", "function __lookupGetter__() \x7b [native code] \x7d"),
    ("__lookupSetter__", "function __lookupSetter__() \x7b [native code] \x7d"),
    ("isPrototypeOf", "function isPrototypeOf() \x7b [native code] \x7d"),
    ("propertyIsEnumerable", "function propertyIsEnumerable() \x7b [native code] \x7d"),
    ("toString", "function toString() \x7b [native code] \x7d"),
    ("valueOf", "function valueOf() \x7b [native code] \x7d"),
    ("__proto__", "[object Object]"),
    ("toLocaleString", "function toLocaleString() \x7b [native code] \x7d")]

/-- `qualityRank[quality]`, and `none` when `quality in qualityRank` is
false. -/
def qualityRank (quality : String) : Option Rank :=
  match ownRanks.lookup quality with
  | some rank => some (.number rank)
  | none => (inheritedProperties.lookup quality).map .inherited

/-! ## The checks of the form -/

/-- The branches that both frame-rate and bitrate limits go through: a value
outside its own range, then a value below a known default. -/
def checkLimit (bad : Bool) (value : Int) (default : Option Int) (range : String)
    (below : Int → String) : Option String :=
  if bad then some range
  else
    match default with
    | some default => if value < default then some (below default) else none
    | none => none

def validateSettings (values : FormValues) (defaults : FormDefaults) : FormErrors where
  maxParticipants :=
    if values.maxParticipants < 1 ∨ values.maxParticipants > 100 then
      some "Maximum participants must be a whole number from 1 to 100."
    else none
  defaultVideoQuality :=
    match qualityRank values.defaultVideoQuality, qualityRank values.maxVideoQuality with
    | none, _ => some "Choose a supported default video quality."
    | some _, none => none
    | some default, some max =>
      if default.exceeds max then some "Default quality cannot exceed the maximum quality."
      else none
  maxVideoQuality :=
    match qualityRank values.maxVideoQuality with
    | none => some "Choose a supported maximum video quality."
    | some _ => none
  maxVideoBitrate :=
    if values.maxVideoBitrate < 1 then some "Maximum video bitrate must be positive." else none
  maxVideoFPS :=
    checkLimit (values.maxVideoFPS < 1 || values.maxVideoFPS > 60) values.maxVideoFPS
      defaults.defaultVideoFPS "Maximum video FPS must be a whole number from 1 to 60."
      fun default => "Maximum video FPS cannot be below the default of " ++ toString default ++
        " FPS."
  maxAudioBitrate :=
    checkLimit (values.maxAudioBitrate < 1) values.maxAudioBitrate
      defaults.defaultAudioBitrate "Maximum audio bitrate must be positive."
      fun _ => "Maximum audio bitrate cannot be below the default audio bitrate."

/-! ## What the two sides check -/

theorem failIf_eq_ok_iff {bad : Bool} {message : String} :
    failIf bad message = .ok () ↔ bad = false := by
  constructor
  · exact failIf_eq_ok
  · intro h
    subst h
    rfl

/-- A check followed by others passes when all do. -/
theorem then_eq_ok_iff {first : Except String Unit} {rest : Unit → Except String Unit} :
    (first >>= rest) = .ok () ↔ first = .ok () ∧ rest () = .ok () := by
  cases first with
  | error message =>
    constructor
    · intro h
      cases h
    · intro h
      cases h.1
  | ok checked =>
    constructor
    · intro h
      exact ⟨rfl, h⟩
    · intro h
      exact h.2

/-- A valid configuration's defaults are within the ranges of the form. -/
theorem Config.defaults_pos {go : Stdlib} (cfg : Config) (h : cfg.validate go = .ok ()) :
    1 ≤ cfg.defaultVideoFPS ∧ 1 ≤ cfg.defaultAudioBitrate := by
  unfold validate validateLimits at h
  simp only [then_eq_ok_iff, failIf_eq_ok_iff, Bool.or_eq_false_iff, decide_eq_false_iff_not,
    gt_iff_lt] at h
  obtain ⟨-, -, ⟨-, -, hfps, -, haudio, -⟩, -⟩ := h
  omega

namespace FormValues

open Deployment (sampleEnvironment sampleStdlib)

variable {go : Stdlib} {cfg : Config} {values : FormValues}

/-- The bounds that both sides check. -/
def InRange (cfg : Config) (values : FormValues) : Prop :=
  (1 ≤ values.maxParticipants ∧ values.maxParticipants ≤ maxAllowedParticipants) ∧
    1 ≤ values.maxVideoBitrate ∧
    (cfg.defaultVideoFPS ≤ values.maxVideoFPS ∧ values.maxVideoFPS ≤ 60) ∧
    cfg.defaultAudioBitrate ≤ values.maxAudioBitrate

/-- The caps, which the server alone checks. -/
def Capped (values : FormValues) : Prop :=
  values.maxVideoBitrate ≤ maxVideoBitrateCap ∧ values.maxAudioBitrate ≤ maxAudioBitrateCap

/-- The server knows every method, none twice. -/
def KnownMethods (values : FormValues) : Prop :=
  (∀ method ∈ values.enabledConnectionMethods, method ∈ connectionMethods) ∧
    values.enabledConnectionMethods.Nodup

/-- The form finds both qualities, the default not above the maximum. -/
def ranked (values : FormValues) : Bool :=
  match qualityRank values.defaultVideoQuality, qualityRank values.maxVideoQuality with
  | some default, some max => !default.exceeds max
  | _, _ => false

/-- The server's view of the qualities: an empty maximum is the highest. -/
def Ordered (values : FormValues) : Prop :=
  values.defaultVideoQuality ∈ videoQualities ∧
    (values.maxVideoQuality = "" ∨
      values.maxVideoQuality ∈ videoQualities ∧
        videoQualityRank values.defaultVideoQuality ≤ videoQualityRank values.maxVideoQuality)

/-- **The settings the two sides part on**: within the shared bounds, the
form takes a bitrate over its cap, an inherited name for a quality or an
unknown or repeated method, and only the server takes an empty maximum
quality. -/
def Parted (cfg : Config) (values : FormValues) : Prop :=
  values.InRange cfg ∧
    ((values.ranked = true ∧
        ¬(values.Capped ∧ values.KnownMethods ∧ values.defaultVideoQuality ∈ videoQualities ∧
          values.maxVideoQuality ∈ videoQualities)) ∨
      (values.Capped ∧ values.KnownMethods ∧ values.defaultVideoQuality ∈ videoQualities ∧
        values.maxVideoQuality = ""))

instance : Decidable (values.InRange cfg) :=
  inferInstanceAs (Decidable ((_ ∧ _) ∧ _ ∧ (_ ∧ _) ∧ _))

instance : Decidable values.Capped := inferInstanceAs (Decidable (_ ∧ _))

instance : Decidable values.KnownMethods := inferInstanceAs (Decidable (_ ∧ _))

instance : Decidable (values.Parted cfg) := inferInstanceAs (Decidable (_ ∧ (_ ∨ _)))

/-! ## The server -/

theorem checkConnectionMethods_eq_ok_iff {seen methods : List String} :
    checkConnectionMethods go seen methods = .ok () ↔
      (∀ method ∈ methods, method ∈ connectionMethods ∧ method ∉ seen) ∧ methods.Nodup := by
  -- `seen` grows along the list
  induction methods generalizing seen with
  | nil =>
    constructor
    · intro _
      exact ⟨fun _ h => absurd h List.not_mem_nil, List.nodup_nil⟩
    · intro _
      rfl
  | cons method rest ih =>
    rw [checkConnectionMethods, then_eq_ok_iff, then_eq_ok_iff, failIf_eq_ok_iff, failIf_eq_ok_iff,
      ih, List.nodup_cons, List.forall_mem_cons]
    simp only [Bool.not_eq_false', List.contains_eq_mem, decide_eq_true_eq,
      decide_eq_false_iff_not, List.mem_cons, not_or]
    constructor
    · intro h
      obtain ⟨hknown, hfresh, hrest, hnodup⟩ := h
      refine ⟨⟨⟨hknown, hfresh⟩, fun m hm => ⟨(hrest m hm).1, (hrest m hm).2.2⟩⟩, ?_, hnodup⟩
      intro hmem
      exact (hrest method hmem).2.1 rfl
    · intro h
      obtain ⟨⟨⟨hknown, hfresh⟩, hrest⟩, hnew, hnodup⟩ := h
      refine ⟨hknown, hfresh, fun m hm => ⟨(hrest m hm).1, ?_, (hrest m hm).2⟩, hnodup⟩
      intro heq
      exact hnew (heq ▸ hm)

theorem knownMethods_iff :
    checkConnectionMethods go [] values.enabledConnectionMethods = .ok () ↔
      values.KnownMethods := by
  rw [checkConnectionMethods_eq_ok_iff, KnownMethods]
  constructor
  · intro h
    exact ⟨fun m hm => (h.1 m hm).1, h.2⟩
  · intro h
    exact ⟨fun m hm => ⟨h.1 m hm, List.not_mem_nil⟩, h.2⟩

/-- The methods of `collectSettings` are the checked boxes of the form, so
the server knows them. -/
theorem knownMethods_of_checked {checked : String → Bool}
    (h : values.enabledConnectionMethods = connectionMethods.filter checked) :
    values.KnownMethods := by
  rw [KnownMethods, h]
  exact ⟨fun _ hm => List.mem_of_mem_filter hm, List.Nodup.filter checked (by decide)⟩

/-- An update leaves the ports, the servers and the timeouts as they were, and
their checks pass as they did. -/
theorem validateLimits_iff (h : cfg.validateLimits go = .ok ()) :
    (values.update.apply cfg).validateLimits go = .ok () ↔
      values.InRange cfg ∧ values.Capped := by
  unfold Config.validateLimits at h ⊢
  dsimp +instances only [AdminUpdate.apply, update, Option.getD_some]
  simp only [then_eq_ok_iff, failIf_eq_ok_iff, Bool.or_eq_false_iff, decide_eq_false_iff_not,
    gt_iff_lt] at h ⊢
  obtain ⟨hports, -, hfps, -, haudio, -, hstun, hturn, htimeout, httl⟩ := h
  rw [InRange, Capped]
  constructor
  · intro hnext
    obtain ⟨-, hseats, -, hframes, haudio', hvideo, -⟩ := hnext
    omega
  · intro hnext
    refine ⟨hports, ?_, hfps, ?_, ?_, ?_, hstun, hturn, htimeout, httl⟩ <;> omega

/-- The server's checks of the qualities, with the log level as it was. -/
theorem validateQualities_iff (h : cfg.validateQualities = .ok ()) :
    (values.update.apply cfg).validateQualities = .ok () ↔ values.Ordered := by
  unfold Config.validateQualities at h ⊢
  dsimp +instances only [AdminUpdate.apply, update, Option.getD_some]
  simp only [then_eq_ok_iff, failIf_eq_ok_iff, Bool.not_eq_false', List.contains_eq_mem,
    decide_eq_true_eq, decide_eq_false_iff_not, gt_iff_lt, not_lt] at h ⊢
  obtain ⟨-, -, -, -, hlevel⟩ := h
  have hnonempty : "" ∉ videoQualities := by decide
  rw [Ordered]
  by_cases hempty : values.maxVideoQuality = ""
  · -- nothing ranks above the quality an empty maximum stands for
    have htop : videoQualityRank values.defaultVideoQuality ≤ videoQualityRank "ultra" := by
      show _ ≤ 4
      unfold videoQualityRank
      split_ifs <;> omega
    rw [if_pos hempty]
    constructor
    · intro hnext
      exact ⟨hnext.2.1, Or.inl hempty⟩
    · intro hnext
      exact ⟨fun hdefault => hnonempty (hdefault ▸ hnext.1), hnext.1, by decide, htop, hlevel⟩
  · rw [if_neg hempty]
    constructor
    · intro hnext
      exact ⟨hnext.2.1, Or.inr ⟨hnext.2.2.1, hnext.2.2.2.1⟩⟩
    · intro hnext
      obtain ⟨hdefault, hmax⟩ := hnext
      obtain ⟨hknown, hle⟩ := hmax.resolve_left hempty
      exact ⟨fun heq => hnonempty (heq ▸ hdefault), hdefault, hknown, hle, hlevel⟩

/-- **What the server accepts**, on a valid configuration. -/
theorem updatedConfig_iff (hcfg : cfg.validate go = .ok ()) :
    (∃ next, updatedConfig go cfg values.update = .ok next) ↔
      (values.InRange cfg ∧ values.Capped) ∧ values.KnownMethods ∧ values.Ordered := by
  have hvalid : (∃ next, updatedConfig go cfg values.update = .ok next) ↔
      (values.update.apply cfg).validate go = .ok () := by
    constructor
    · intro h
      obtain ⟨next, hnext⟩ := h
      obtain ⟨rfl, hnext⟩ := updatedConfig_eq_ok.mp hnext
      exact hnext
    · intro h
      exact ⟨_, updatedConfig_eq_ok.mpr ⟨rfl, h⟩⟩
  unfold Config.validate at hcfg hvalid
  simp only [then_eq_ok_iff] at hcfg hvalid
  obtain ⟨hnetwork, -, hlimits, hqualities⟩ := hcfg
  rw [hvalid, validateLimits_iff hlimits, validateQualities_iff hqualities]
  constructor
  · intro h
    exact ⟨h.2.2.1, knownMethods_iff.mp h.2.1, h.2.2.2⟩
  · intro h
    exact ⟨hnetwork, knownMethods_iff.mpr h.2.1, h.1, h.2.2⟩

/-! ## The form -/

theorem checkLimit_eq_none_iff {bad : Bool} {value default : Int} {range : String}
    {below : Int → String} :
    checkLimit bad value (some default) range below = none ↔ bad = false ∧ default ≤ value := by
  unfold checkLimit
  cases bad with
  | true =>
    constructor
    · intro h
      cases h
    · intro h
      cases h.1
  | false =>
    by_cases hbelow : value < default
    · simp only [Bool.false_eq_true, if_false, if_pos hbelow, reduceCtorEq, true_and, false_iff]
      omega
    · simp only [Bool.false_eq_true, if_false, if_neg hbelow, true_and, true_iff]
      omega

/-- The form has no error on a quality exactly when it ranks both. -/
theorem qualityErrors_iff {defaults : FormDefaults} :
    ((validateSettings values defaults).defaultVideoQuality = none ∧
        (validateSettings values defaults).maxVideoQuality = none) ↔ values.ranked = true := by
  unfold validateSettings ranked
  cases qualityRank values.defaultVideoQuality with
  | none => simp
  | some default =>
    cases qualityRank values.maxVideoQuality with
    | none => simp
    | some max => cases hexceeds : default.exceeds max <;> simp [hexceeds]

/-- **What the form accepts**, with the defaults of a valid configuration. -/
theorem validateSettings_iff (hcfg : cfg.validate go = .ok ()) :
    validateSettings values cfg.formDefaults = {} ↔
      values.InRange cfg ∧ values.ranked = true := by
  obtain ⟨hfps, haudio⟩ := cfg.defaults_pos hcfg
  have hlimits : ((validateSettings values cfg.formDefaults).maxParticipants = none ∧
      (validateSettings values cfg.formDefaults).maxVideoBitrate = none ∧
      (validateSettings values cfg.formDefaults).maxVideoFPS = none ∧
      (validateSettings values cfg.formDefaults).maxAudioBitrate = none) ↔
        values.InRange cfg := by
    simp only [validateSettings, Config.formDefaults, checkLimit_eq_none_iff, InRange,
      maxAllowedParticipants, ite_eq_right_iff, reduceCtorEq, imp_false, Bool.or_eq_false_iff,
      decide_eq_false_iff_not]
    omega
  rw [FormErrors.eq_none_iff, ← hlimits, ← qualityErrors_iff]
  constructor
  · intro h
    obtain ⟨hseats, hdefault, hmax, hvideo, hframes, hsound⟩ := h
    exact ⟨⟨hseats, hvideo, hframes, hsound⟩, hdefault, hmax⟩
  · intro h
    obtain ⟨⟨hseats, hvideo, hframes, hsound⟩, hdefault, hmax⟩ := h
    exact ⟨hseats, hdefault, hmax, hvideo, hframes, hsound⟩

/-! ## Where the two agree -/

/-- On the server's qualities the form's lookup reads the server's rank. -/
theorem qualityRank_of_mem {quality : String} (h : quality ∈ videoQualities) :
    qualityRank quality = some (.number (videoQualityRank quality)) := by
  simp only [videoQualities, List.mem_cons, List.not_mem_nil, or_false] at h
  obtain rfl | rfl | rfl | rfl | rfl := h <;> decide

theorem ranked_iff_of_mem (hdefault : values.defaultVideoQuality ∈ videoQualities)
    (hmax : values.maxVideoQuality ∈ videoQualities) :
    values.ranked = true ↔
      videoQualityRank values.defaultVideoQuality ≤ videoQualityRank values.maxVideoQuality := by
  rw [ranked, qualityRank_of_mem hdefault, qualityRank_of_mem hmax]
  simp [Rank.exceeds]

theorem ranked_of_empty (h : values.maxVideoQuality = "") : values.ranked = false := by
  have hmissing : qualityRank "" = none := by decide
  rw [ranked, h, hmissing]
  cases qualityRank values.defaultVideoQuality with
  | none => rfl
  | some default => rfl

/-- **Where the form and the server agree**: for every valid configuration,
the form reports no errors exactly when the server accepts the update,
unless the settings are of the kind the two part on. -/
theorem validateSettings_agrees_iff (hcfg : cfg.validate go = .ok ()) :
    (validateSettings values cfg.formDefaults = {} ↔
        ∃ next, updatedConfig go cfg values.update = .ok next) ↔
      ¬values.Parted cfg := by
  rw [validateSettings_iff hcfg, updatedConfig_iff hcfg, Parted]
  have hempty : "" ∉ videoQualities := by decide
  by_cases hranked : values.ranked = true
  · -- the form takes the qualities, so the maximum is not empty
    have hmax : values.maxVideoQuality ≠ "" := by
      intro h
      rw [ranked_of_empty h] at hranked
      cases hranked
    have hordered : values.Ordered ↔ values.defaultVideoQuality ∈ videoQualities ∧
        values.maxVideoQuality ∈ videoQualities := by
      rw [Ordered]
      constructor
      · intro h
        exact ⟨h.1, (h.2.resolve_left hmax).1⟩
      · intro h
        exact ⟨h.1, Or.inr ⟨h.2, (ranked_iff_of_mem h.1 h.2).mp hranked⟩⟩
    rw [hordered]
    tauto
  · have hordered : values.Ordered ↔ values.defaultVideoQuality ∈ videoQualities ∧
        values.maxVideoQuality = "" := by
      rw [Ordered]
      constructor
      · intro h
        obtain ⟨hdefault, hmax | ⟨hmax, hle⟩⟩ := h
        · exact ⟨hdefault, hmax⟩
        · exact absurd ((ranked_iff_of_mem hdefault hmax).mpr hle) hranked
      · intro h
        exact ⟨h.1, Or.inl h.2⟩
    rw [hordered]
    tauto

/-- The form as `sampleEnvironment` fills it, with a bitrate to be typed. -/
def sample (maxVideoBitrate : Int) : FormValues where
  maxParticipants := 5
  defaultVideoQuality := "low"
  maxVideoQuality := "ultra"
  maxVideoBitrate := maxVideoBitrate
  maxVideoFPS := 60
  maxAudioBitrate := 96000
  screenShareEnabled := true
  retainChatHistory := false
  enabledConnectionMethods := connectionMethods

theorem validateSettings_agrees_sample :
    validateSettings (sample 3000000) sampleEnvironment.formDefaults = {} ↔
      ∃ next, updatedConfig sampleStdlib sampleEnvironment (sample 3000000).update = .ok next :=
  (validateSettings_agrees_iff rfl).mpr (by decide)

/-- 20001 kbps pass the form, and the server's cap is 20000. -/
theorem not_validateSettings_agrees_uncapped :
    sampleEnvironment.validate sampleStdlib = .ok () ∧
      ¬(validateSettings (sample 20001000) sampleEnvironment.formDefaults = {} ↔
        ∃ next, updatedConfig sampleStdlib sampleEnvironment (sample 20001000).update =
          .ok next) := by
  refine ⟨rfl, fun h => ?_⟩
  obtain ⟨next, hnext⟩ := h.mp (by decide)
  have hrejected : (updatedConfig sampleStdlib sampleEnvironment
      (sample 20001000).update).toOption = none := by decide +kernel
  rw [hnext] at hrejected
  cases hrejected

end FormValues

end SlowMeet.Settings
