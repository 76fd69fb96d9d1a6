import SlowMeet.Meeting

/-!
# The configuration

`internal/config/config.go`: the configuration record, `Validate`, the
effective values of the two settings that have an unset form, and
`LoadFromEnv`.

A Go `nil` slice is `none` where the source tells it from the empty one
(`EnabledConnectionMethods`) and the empty list elsewhere. Durations are
nanoseconds.
-/

namespace SlowMeet.Settings

/-! ## Data -/

/-- The fields of a `url.URL` that `validICEServerURL` reads. -/
structure URL where
  scheme : String
  host : String
  /-- `Opaque`. -/
  opaquePart : String
  deriving DecidableEq, Repr

/-- The parsers and the quoting of Go's standard library that the package
calls. Nothing below depends on what they answer. -/
structure Stdlib where
  /-- `net.ParseIP` answers an address. -/
  parseIP : String → Bool
  /-- `net.ParseCIDR` answers a network. -/
  parseCIDR : String → Bool
  /-- `url.Parse`. -/
  parseURL : String → Option URL
  /-- `strconv.Atoi`. -/
  atoi : String → Except String Int
  /-- `strconv.ParseBool`. -/
  parseBool : String → Except String Bool
  /-- The verb `%q`. -/
  quote : String → String

/-- `Config`. -/
structure Config where
  appName : String
  appEnv : String
  httpAddr : String
  configFile : String
  meetingPassword : String
  adminPassword : String
  stunServers : List String
  turnURL : String
  turnURLs : List String
  turnUsername : String
  turnPassword : String
  turnSharedSecret : String
  turnCredentialTTL : Int
  iceIPv4Only : Bool
  iceTransportPolicy : String
  enabledConnectionMethods : Option (List String)
  simulcastEnabled : Bool
  iceUDPPortMin : Int
  iceUDPPortMax : Int
  icePublicIP : String
  trustedProxyCIDRs : List String
  maxParticipants : Int
  defaultVideoQuality : String
  maxVideoQuality : String
  defaultVideoFPS : Int
  maxVideoFPS : Int
  defaultAudioBitrate : Int
  maxVideoBitrate : Int
  maxAudioBitrate : Int
  enableScreenShare : Bool
  retainChatHistory : Bool
  reconnectTimeout : Int
  logLevel : String
  deriving DecidableEq, Repr

def maxAllowedParticipants : Int := 100

def maxVideoBitrateCap : Int := 20000000

def maxAudioBitrateCap : Int := 512000

def second : Int := 1000000000

def minute : Int := 60 * second

def hour : Int := 60 * minute

/-- The methods `Validate` accepts, which an unset list stands for. -/
def connectionMethods : List String := ["direct", "turn-udp", "turn-tcp", "turn-tls"]

/-- The qualities `Validate` accepts. -/
def videoQualities : List String := ["low", "medium", "high", "very-good", "ultra"]

/-! ## Strings -/

/-- `strings.TrimSpace`. -/
def trim (s : String) : String := String.ofList (trimSpace s.toList)

/-- `strings.ContainsAny`. -/
def containsAny (s chars : String) : Bool := s.toList.any fun c => chars.toList.contains c

def splitCSV (value : String) : List String :=
  ((value.splitOn ",").map trim).filter fun item => item != ""

/-! ## Validation -/

/-- Report `message` when `bad` holds. -/
def failIf (bad : Bool) (message : String) : Except String Unit :=
  if bad then throw message else pure ()

def validICEServerURL (go : Stdlib) (server : String) (schemes : List String) : Bool :=
  match go.parseURL (trim server) with
  | none => false
  | some parsed =>
    if parsed.scheme = "" then false
    else if parsed.host = "" ∧ parsed.opaquePart = "" then false
    else if containsAny (parsed.host ++ parsed.opaquePart) " \t\r\n" then false
    else schemes.contains parsed.scheme

def videoQualityRank (quality : String) : Nat :=
  if quality = "medium" then 1
  else if quality = "high" then 2
  else if quality = "very-good" then 3
  else if quality = "ultra" then 4
  else 0

/-- The loop of `Validate` over the connection methods; `seen` is
`seenConnectionMethods`. -/
def checkConnectionMethods (go : Stdlib) (seen : List String) :
    List String → Except String Unit
  | [] => pure ()
  | method :: rest => do
    failIf (!connectionMethods.contains method)
      ("enabled connection method " ++ go.quote method ++ " is invalid")
    failIf (seen.contains method)
      ("enabled connection method " ++ go.quote method ++ " is duplicated")
    checkConnectionMethods go (method :: seen) rest

/-- A computation that succeeds had its first part succeed. -/
theorem bind_eq_ok {α β : Type} {x : Except String α} {f : α → Except String β} {b : β}
    (h : (x >>= f) = .ok b) : ∃ a, x = .ok a ∧ f a = .ok b := by
  cases x with
  | error e => cases h
  | ok a => exact ⟨a, rfl, h⟩

theorem failIf_eq_ok {bad : Bool} {message : String} (h : failIf bad message = .ok ()) :
    bad = false := by
  cases bad with
  | false => rfl
  | true => cases h

namespace Config

variable (c : Config)

def effectiveMaxVideoQuality : String :=
  if c.maxVideoQuality = "" then "ultra" else c.maxVideoQuality

def effectiveEnabledConnectionMethods : List String :=
  match c.enabledConnectionMethods with
  | some methods => methods
  | none => connectionMethods

def effectiveTURNURLs : List String :=
  if c.turnURLs ≠ [] then c.turnURLs
  else if c.turnURL ≠ "" then [c.turnURL]
  else []

/-- The checks of `Validate` up to the connection methods. -/
def validateNetwork (go : Stdlib) : Except String Unit := do
  failIf (c.httpAddr = "") "HTTP_ADDR must not be empty"
  failIf (c.icePublicIP ≠ "" && !go.parseIP c.icePublicIP)
    "ICE_PUBLIC_IP must be a valid IP address"
  c.trustedProxyCIDRs.forM fun cidr =>
    failIf (!go.parseCIDR (trim cidr))
      ("TRUSTED_PROXY_CIDRS entry " ++ go.quote cidr ++ " must be a valid CIDR")
  failIf (c.iceTransportPolicy ≠ "" && c.iceTransportPolicy ≠ "all" &&
      c.iceTransportPolicy ≠ "relay")
    "ICE_TRANSPORT_POLICY must be all or relay"

/-- The checks of `Validate` between the connection methods and the
qualities. -/
def validateLimits (go : Stdlib) : Except String Unit := do
  failIf ((c.iceUDPPortMin = 0) ≠ (c.iceUDPPortMax = 0) ||
      (c.iceUDPPortMin ≠ 0 &&
        (c.iceUDPPortMin < 1 || c.iceUDPPortMin > 65535 ||
          c.iceUDPPortMax < 1 || c.iceUDPPortMax > 65535 ||
          c.iceUDPPortMin > c.iceUDPPortMax)))
    "ICE UDP port range must be between 1 and 65535 with minimum <= maximum"
  failIf (c.maxParticipants < 1 || c.maxParticipants > maxAllowedParticipants)
    ("MAX_PARTICIPANTS must be between 1 and " ++ toString maxAllowedParticipants)
  failIf (c.defaultVideoFPS < 1 || c.defaultVideoFPS > 60)
    "DEFAULT_VIDEO_FPS must be between 1 and 60"
  failIf (c.maxVideoFPS < c.defaultVideoFPS || c.maxVideoFPS > 60)
    "MAX_VIDEO_FPS must be between DEFAULT_VIDEO_FPS and 60"
  failIf (c.defaultAudioBitrate < 1 || c.maxAudioBitrate < c.defaultAudioBitrate ||
      c.maxAudioBitrate > maxAudioBitrateCap)
    ("audio bitrates must be between 1 and " ++ toString maxAudioBitrateCap ++
      " bps with default <= max")
  failIf (c.maxVideoBitrate < 1 || c.maxVideoBitrate > maxVideoBitrateCap)
    ("MAX_VIDEO_BITRATE must be between 1 and " ++ toString maxVideoBitrateCap ++ " bps")
  c.stunServers.forM fun server =>
    failIf (!validICEServerURL go server ["stun"])
      ("STUN_SERVERS entries must be stun: URLs, got " ++ go.quote server)
  (c.turnURLs ++ [c.turnURL]).forM fun server =>
    failIf (server ≠ "" && !validICEServerURL go server ["turn", "turns"])
      ("TURN URLs must be turn: or turns: URLs, got " ++ go.quote server)
  failIf (c.reconnectTimeout < 0 || c.reconnectTimeout > 10 * minute)
    "RECONNECT_TIMEOUT_SECONDS must be between 0 and 600"
  failIf (c.turnCredentialTTL ≠ 0 &&
      (c.turnCredentialTTL < minute || c.turnCredentialTTL > 7 * 24 * hour))
    "TURN_CREDENTIAL_TTL_SECONDS must be between 60 and 604800"

/-- The checks of `Validate` from the qualities on. -/
def validateQualities : Except String Unit := do
  failIf (c.defaultVideoQuality = "") "DEFAULT_VIDEO_QUALITY must not be empty"
  failIf (!videoQualities.contains c.defaultVideoQuality)
    "DEFAULT_VIDEO_QUALITY must be one of low, medium, high, very-good, or ultra"
  let maxVideoQuality := if c.maxVideoQuality = "" then "ultra" else c.maxVideoQuality
  failIf (!videoQualities.contains maxVideoQuality)
    "MAX_VIDEO_QUALITY must be one of low, medium, high, very-good, or ultra"
  failIf (videoQualityRank c.defaultVideoQuality > videoQualityRank maxVideoQuality)
    "DEFAULT_VIDEO_QUALITY must not exceed MAX_VIDEO_QUALITY"
  failIf (c.logLevel ≠ "" && c.logLevel ≠ "info" && c.logLevel ≠ "debug")
    "LOG_LEVEL must be info or debug"

/-- `Validate`, in the order of its checks. -/
def validate (go : Stdlib) : Except String Unit := do
  c.validateNetwork go
  checkConnectionMethods go [] (c.enabledConnectionMethods.getD [])
  c.validateLimits go
  c.validateQualities

/-- The configuration with its two unset forms spelled out: two
configurations agree through the effective values when these are equal. -/
def effective : Config :=
  { c with
    maxVideoQuality := c.effectiveMaxVideoQuality
    enabledConnectionMethods := some c.effectiveEnabledConnectionMethods }

/-- Every connection method the source knows passes its own check. -/
theorem checkConnectionMethods_connectionMethods (go : Stdlib) :
    checkConnectionMethods go [] connectionMethods = .ok () := rfl

theorem effective_maxVideoQuality :
    (if c.effective.maxVideoQuality = "" then "ultra" else c.effective.maxVideoQuality) =
      if c.maxVideoQuality = "" then "ultra" else c.maxVideoQuality := by
  show (if c.effectiveMaxVideoQuality = "" then _ else c.effectiveMaxVideoQuality) = _
  by_cases h : c.maxVideoQuality = ""
  · simp [effectiveMaxVideoQuality, h]
  · simp [effectiveMaxVideoQuality, h]

/-- **`Validate` reads the effective values**: spelling the unset forms out
changes no verdict and no message. -/
theorem validate_effective (go : Stdlib) : c.effective.validate go = c.validate go := by
  have hmethods : checkConnectionMethods go [] (c.effective.enabledConnectionMethods.getD []) =
      checkConnectionMethods go [] (c.enabledConnectionMethods.getD []) := by
    show checkConnectionMethods go [] c.effectiveEnabledConnectionMethods = _
    cases hset : c.enabledConnectionMethods with
    | none =>
      rw [effectiveEnabledConnectionMethods, hset]
      exact checkConnectionMethods_connectionMethods go
    | some methods =>
      rw [effectiveEnabledConnectionMethods, hset]
      rfl
  have hqualities : c.effective.validateQualities = c.validateQualities := by
    simp only [validateQualities, effective_maxVideoQuality]
    rfl
  simp only [validate, hmethods, hqualities]
  rfl

/-- What `Validate` promises the meeting. -/
theorem maxParticipants_pos {go : Stdlib} (h : c.validate go = .ok ()) : 0 < c.maxParticipants := by
  unfold validate validateLimits at h
  obtain ⟨⟨⟩, -, h⟩ := bind_eq_ok h
  obtain ⟨⟨⟩, -, h⟩ := bind_eq_ok h
  obtain ⟨⟨⟩, hlimits, -⟩ := bind_eq_ok h
  obtain ⟨⟨⟩, -, hlimits⟩ := bind_eq_ok hlimits
  obtain ⟨⟨⟩, hseats, -⟩ := bind_eq_ok hlimits
  have hrange := failIf_eq_ok hseats
  simp only [Bool.or_eq_false_iff, decide_eq_false_iff_not] at hrange
  omega

theorem effective_effective : c.effective.effective = c.effective := by
  have hquality : c.effective.effectiveMaxVideoQuality = c.effectiveMaxVideoQuality :=
    c.effective_maxVideoQuality
  show { c.effective with
    maxVideoQuality := c.effective.effectiveMaxVideoQuality
    enabledConnectionMethods := some c.effectiveEnabledConnectionMethods } = c.effective
  rw [hquality]
  rfl

end Config

/-! ## The environment -/

/-- `os.Getenv`. -/
abbrev Environment := String → String

def envString (env : Environment) (key fallback : String) : String :=
  if env key ≠ "" then env key else fallback

def envInt (go : Stdlib) (env : Environment) (key : String) (fallback : Int) :
    Except String Int :=
  if env key = "" then .ok fallback
  else (go.atoi (env key)).mapError fun err => key ++ " must be an integer: " ++ err

def envBool (go : Stdlib) (env : Environment) (key : String) (fallback : Bool) :
    Except String Bool :=
  if env key = "" then .ok fallback
  else (go.parseBool (env key)).mapError fun err => key ++ " must be a boolean: " ++ err

/-- `time.Duration(n) * time.Second`, which wraps in 64 bits. -/
def inSeconds (n : Int) : Int := (n * second).bmod 0x10000000000000000

def loadFromEnv (go : Stdlib) (env : Environment) : Except String Config := do
  let maxParticipants ← envInt go env "MAX_PARTICIPANTS" 5
  let defaultVideoFPS ← envInt go env "DEFAULT_VIDEO_FPS" 15
  let maxVideoFPS ← envInt go env "MAX_VIDEO_FPS" 60
  let defaultAudioBitrate ← envInt go env "DEFAULT_AUDIO_BITRATE" 32000
  let maxVideoBitrate ← envInt go env "MAX_VIDEO_BITRATE" 3000000
  let maxAudioBitrate ← envInt go env "MAX_AUDIO_BITRATE" 96000
  let enableScreenShare ← envBool go env "ENABLE_SCREEN_SHARE" true
  let reconnectSeconds ← envInt go env "RECONNECT_TIMEOUT_SECONDS" 30
  let iceUDPPortMin ← envInt go env "ICE_UDP_PORT_MIN" 50000
  let iceUDPPortMax ← envInt go env "ICE_UDP_PORT_MAX" 50100
  let turnCredentialTTLSeconds ← envInt go env "TURN_CREDENTIAL_TTL_SECONDS" 86400
  let iceIPv4Only ← envBool go env "ICE_IPV4_ONLY" true
  let simulcastEnabled ← envBool go env "SIMULCAST_ENABLED" false
  let cfg : Config :=
    { appName := envString env "APP_NAME" "SlowMeet"
      appEnv := envString env "APP_ENV" "production"
      httpAddr := envString env "HTTP_ADDR" ":8080"
      configFile := envString env "CONFIG_FILE" "config.json"
      meetingPassword := env "MEETING_PASSWORD"
      adminPassword := env "ADMIN_PASSWORD"
      stunServers := splitCSV (env "STUN_SERVERS")
      turnURL := env "TURN_URL"
      turnURLs := splitCSV (env "TURN_URLS")
      turnUsername := env "TURN_USERNAME"
      turnPassword := env "TURN_PASSWORD"
      turnSharedSecret := env "TURN_SHARED_SECRET"
      turnCredentialTTL := inSeconds turnCredentialTTLSeconds
      iceIPv4Only := iceIPv4Only
      iceTransportPolicy := envString env "ICE_TRANSPORT_POLICY" "all"
      enabledConnectionMethods := none
      simulcastEnabled := simulcastEnabled
      iceUDPPortMin := iceUDPPortMin
      iceUDPPortMax := iceUDPPortMax
      icePublicIP := env "ICE_PUBLIC_IP"
      trustedProxyCIDRs := splitCSV (env "TRUSTED_PROXY_CIDRS")
      maxParticipants := maxParticipants
      defaultVideoQuality := envString env "DEFAULT_VIDEO_QUALITY" "low"
      maxVideoQuality := envString env "MAX_VIDEO_QUALITY" "ultra"
      defaultVideoFPS := defaultVideoFPS
      maxVideoFPS := maxVideoFPS
      defaultAudioBitrate := defaultAudioBitrate
      maxVideoBitrate := maxVideoBitrate
      maxAudioBitrate := maxAudioBitrate
      enableScreenShare := enableScreenShare
      retainChatHistory := false
      reconnectTimeout := inSeconds reconnectSeconds
      logLevel := envString env "LOG_LEVEL" "info" }
  cfg.validate go
  return cfg

theorem envString_ne_empty (env : Environment) (key : String) {fallback : String}
    (h : fallback ≠ "") : envString env key fallback ≠ "" := by
  rw [envString]
  split
  · assumption
  · exact h

/-- **What the environment promises**: a valid configuration with a file to
persist to. -/
theorem loadFromEnv_valid {go : Stdlib} {env : Environment} {cfg : Config}
    (h : loadFromEnv go env = .ok cfg) : cfg.validate go = .ok () ∧ cfg.configFile ≠ "" := by
  unfold loadFromEnv at h
  -- the thirteen variables with a number or a boolean
  iterate 13 obtain ⟨_, -, h⟩ := bind_eq_ok h
  obtain ⟨⟨⟩, hvalid, h⟩ := bind_eq_ok h
  cases h
  exact ⟨hvalid, envString_ne_empty env "CONFIG_FILE" (by decide)⟩

end SlowMeet.Settings
