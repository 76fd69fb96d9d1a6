import SlowMeet.Lib.Lts
import SlowMeet.Settings.Config

/-!
# The settings store

`internal/config/store.go`: the store publishes one configuration, an admin
update replaces it once the new one is valid and persisted, and a restart
reads the persisted settings back on top of the environment.

`Update` holds `updateMu` throughout, so updates follow one another.
`cloneConfig` copies slices and is the identity on values.
-/

namespace SlowMeet.Settings

open Lib

/-- `AdminUpdate`: a nil pointer is `none`. -/
structure AdminUpdate where
  maxParticipants : Option Int := none
  defaultVideoQuality : Option String := none
  maxVideoQuality : Option String := none
  maxVideoBitrate : Option Int := none
  maxVideoFPS : Option Int := none
  maxAudioBitrate : Option Int := none
  screenShare : Option Bool := none
  retainChatHistory : Option Bool := none
  enabledConnectionMethods : Option (List String) := none
  deriving DecidableEq, Repr

/-- The persisted file as the decoder reads it: an update, with the keys the
strict decoder does not know, or nothing a decoder accepts. -/
inductive Contents
  | settings (update : AdminUpdate) (unknownKeys : List String)
  | malformed (err : String)
  deriving DecidableEq, Repr

/-- What `os.ReadFile` finds at the store's path. -/
inductive Disk
  | notExist
  | unreadable (err : String)
  | file (contents : Contents)
  deriving DecidableEq, Repr

structure Store where
  cfg : Config
  path : String
  deriving DecidableEq, Repr

/-! ## Updates -/

/-- The assignments of `updatedConfig`. -/
def AdminUpdate.apply (update : AdminUpdate) (current : Config) : Config :=
  { current with
    maxParticipants := update.maxParticipants.getD current.maxParticipants
    defaultVideoQuality := update.defaultVideoQuality.getD current.defaultVideoQuality
    maxVideoQuality := update.maxVideoQuality.getD current.maxVideoQuality
    maxVideoBitrate := update.maxVideoBitrate.getD current.maxVideoBitrate
    maxVideoFPS := update.maxVideoFPS.getD current.maxVideoFPS
    maxAudioBitrate := update.maxAudioBitrate.getD current.maxAudioBitrate
    enableScreenShare := update.screenShare.getD current.enableScreenShare
    retainChatHistory := update.retainChatHistory.getD current.retainChatHistory
    enabledConnectionMethods :=
      match update.enabledConnectionMethods with
      | some methods => some methods
      | none => current.enabledConnectionMethods }

def updatedConfig (go : Stdlib) (current : Config) (update : AdminUpdate) :
    Except String Config := do
  let next := update.apply current
  next.validate go
  return next

/-- What the system calls of one `persist` answer; the directory's `Sync` is
best effort and its answer is not read. -/
structure PersistCalls where
  marshalIndent : Except String Unit
  mkdirAll : Except String Unit
  createTemp : Except String Unit
  chmod : Except String Unit
  write : Except String Unit
  sync : Except String Unit
  close : Except String Unit
  rename : Except String Unit

/-- No call fails. -/
def PersistCalls.succeed : PersistCalls :=
  ⟨pure (), pure (), pure (), pure (), pure (), pure (), pure (), pure ()⟩

/-- The record `persist` marshals. -/
def persisted (cfg : Config) : AdminUpdate where
  maxParticipants := some cfg.maxParticipants
  defaultVideoQuality := some cfg.defaultVideoQuality
  maxVideoQuality := some cfg.effectiveMaxVideoQuality
  maxVideoBitrate := some cfg.maxVideoBitrate
  maxVideoFPS := some cfg.maxVideoFPS
  maxAudioBitrate := some cfg.maxAudioBitrate
  screenShare := some cfg.enableScreenShare
  retainChatHistory := some cfg.retainChatHistory
  enabledConnectionMethods := some cfg.effectiveEnabledConnectionMethods

/-- `persist`, with the file it leaves. Only the rename touches the file at
the path; it is the last call that can fail. -/
def persist (calls : PersistCalls) (cfg : Config) (path : String) (disk : Disk) :
    Except String Unit × Disk :=
  if path = "" then (pure (), disk)
  else
    let outcome : Except String Unit := do
      calls.marshalIndent
      calls.mkdirAll
      calls.createTemp
      calls.chmod
      calls.write
      calls.sync
      calls.close
      calls.rename
    match outcome with
    | .error err => (.error err, disk)
    | .ok () => (pure (), .file (.settings (persisted cfg) []))

namespace Store

/-- `NewStore`. -/
def newStore (cfg : Config) : Store := ⟨cfg, cfg.configFile⟩

/-- `Store.apply`. -/
def apply (go : Stdlib) (s : Store) (update : AdminUpdate) : Except String Store := do
  let next ← updatedConfig go s.cfg update
  return { s with cfg := next }

/-- `LoadStore`. Unknown keys are logged and dropped. -/
def loadStore (go : Stdlib) (cfg : Config) (disk : Disk) : Except String Store :=
  let store := newStore cfg
  if store.path = "" then .ok store
  else
    match disk with
    | .notExist => .ok store
    | .unreadable err => .error err
    | .file (.malformed err) => .error err
    | .file (.settings update _) => store.apply go update

def snapshot (s : Store) : Config := s.cfg

/-- `Store.Update`: its answer, the store and the file afterwards. -/
def update (go : Stdlib) (s : Store) (disk : Disk) (update : AdminUpdate)
    (calls : PersistCalls) : Except String Unit × Store × Disk :=
  match updatedConfig go s.cfg update with
  | .error err => (.error err, s, disk)
  | .ok next =>
    match persist calls next s.path disk with
    | (.error err, disk) => (.error err, s, disk)
    | (.ok (), disk) => (.ok (), { s with cfg := next }, disk)

end Store

/-! ## What one call does -/

variable {go : Stdlib} {env cfg next : Config} {u : AdminUpdate}

theorem updatedConfig_eq_ok :
    updatedConfig go cfg u = .ok next ↔ next = u.apply cfg ∧ next.validate go = .ok () := by
  constructor
  · intro h
    obtain ⟨⟨⟩, hvalid, hnext⟩ := bind_eq_ok h
    cases hnext
    exact ⟨rfl, hvalid⟩
  · rintro ⟨rfl, hvalid⟩
    show (u.apply cfg).validate go >>= _ = _
    rw [hvalid]
    rfl

/-- A failed `persist` leaves the file as it was, a successful one leaves
the settings of the configuration. -/
theorem persist_cases (calls : PersistCalls) (cfg : Config) {path : String} (disk : Disk)
    (hpath : path ≠ "") :
    (∃ err, persist calls cfg path disk = (.error err, disk)) ∨
      persist calls cfg path disk = (.ok (), .file (.settings (persisted cfg) [])) := by
  rw [persist, if_neg hpath]
  dsimp only
  split
  · rename_i err _
    exact Or.inl ⟨err, rfl⟩
  · exact Or.inr rfl

/-- Every update keeps what the environment alone decides. -/
def Config.OnEnvironment (env cfg : Config) : Prop := (persisted cfg).apply env = cfg.effective

theorem Config.OnEnvironment.refl (env : Config) : env.OnEnvironment env := rfl

theorem Config.OnEnvironment.apply (h : env.OnEnvironment cfg) (u : AdminUpdate) :
    env.OnEnvironment (u.apply cfg) := by
  simp only [OnEnvironment, AdminUpdate.apply, persisted, Config.effective, Option.getD_some,
    Config.mk.injEq, true_and] at h ⊢
  exact h

/-- **What `Store.Update` does**: nothing on any failure, otherwise it
publishes the updated configuration and the file holds its settings. -/
theorem Store.update_cases (go : Stdlib) (s : Store) (disk : Disk) (u : AdminUpdate) (calls : PersistCalls) :
    (∃ err, s.update go disk u calls = (.error err, s, disk)) ∨
      (u.apply s.cfg).validate go = .ok () ∧ ∃ disk',
        s.update go disk u calls = (.ok (), { s with cfg := u.apply s.cfg }, disk') ∧
          (s.path = "" ∨ disk' = .file (.settings (persisted (u.apply s.cfg)) [])) := by
  rw [Store.update]
  cases hnext : updatedConfig go s.cfg u with
  | error err => exact Or.inl ⟨err, rfl⟩
  | ok next =>
    obtain ⟨rfl, hvalid⟩ := updatedConfig_eq_ok.mp hnext
    by_cases hpath : s.path = ""
    · refine Or.inr ⟨hvalid, disk, ?_, Or.inl hpath⟩
      simp only [persist, if_pos hpath]
      rfl
    · obtain ⟨err, hp⟩ | hp := persist_cases calls (u.apply s.cfg) disk hpath
      · exact Or.inl ⟨err, by simp only [hp]⟩
      · exact Or.inr ⟨hvalid, _, by simp only [hp], Or.inr rfl⟩

theorem Store.loadStore_of_no_path (h : env.configFile = "") (disk : Disk) :
    Store.loadStore go env disk = .ok (Store.newStore env) := if_pos h

theorem Store.loadStore_file (h : env.configFile ≠ "") (u : AdminUpdate)
    (unknownKeys : List String) :
    Store.loadStore go env (.file (.settings u unknownKeys)) =
      (Store.newStore env).apply go u := if_neg h

/-- A loaded store publishes the environment or an update of it. -/
theorem Store.loadStore_cases {disk : Disk} {s : Store}
    (h : Store.loadStore go env disk = .ok s) :
    s = Store.newStore env ∨
      ∃ u : AdminUpdate, s = { Store.newStore env with cfg := u.apply env } ∧
        (u.apply env).validate go = .ok () := by
  unfold Store.loadStore at h
  dsimp only at h
  split at h
  · exact Or.inl (Except.ok.inj h).symm
  · split at h
    · exact Or.inl (Except.ok.inj h).symm
    · cases h
    · cases h
    · rename_i u _
      obtain ⟨next, hnext, hs⟩ := bind_eq_ok h
      obtain ⟨rfl, hvalid⟩ := updatedConfig_eq_ok.mp hnext
      exact Or.inr ⟨u, (Except.ok.inj hs).symm, hvalid⟩

/-- **What a restart reads back**: the settings `persist` wrote for a valid
configuration load on the same environment, and give its effective form. -/
theorem Store.loadStore_persisted (hvalid : cfg.validate go = .ok ())
    (henv : env.OnEnvironment cfg) (hfile : env.configFile ≠ "") (unknownKeys : List String) :
    Store.loadStore go env (.file (.settings (persisted cfg) unknownKeys)) =
      .ok { Store.newStore env with cfg := cfg.effective } := by
  have hnext : updatedConfig go env (persisted cfg) = .ok cfg.effective := by
    refine updatedConfig_eq_ok.mpr ⟨henv.symm, ?_⟩
    rw [Config.validate_effective]
    exact hvalid
  rw [Store.loadStore_file hfile]
  show updatedConfig go env (persisted cfg) >>= _ = _
  rw [hnext]
  rfl

/-! ## Runs -/

/-- A store, the file at its path, and every configuration it has published
so far. -/
structure Deployment where
  store : Store
  disk : Disk
  published : List Config

namespace Deployment

/-- The store a start of the server loads, over the file it finds. -/
def start (store : Store) (disk : Disk) : Deployment := ⟨store, disk, [store.snapshot]⟩

/-- One `Store.Update`: accepted, rejected by validation or not persisted,
as the update and the answers of its system calls decide. -/
def step (go : Stdlib) (d : Deployment) (l : AdminUpdate × PersistCalls) : Option Deployment :=
  let (_, store, disk) := d.store.update go d.disk l.1 l.2
  some ⟨store, disk, d.published ++ [store.snapshot]⟩

/-- Every finite sequence of updates. -/
def lts (go : Stdlib) (store : Store) (disk : Disk) :
    Lts Deployment (AdminUpdate × PersistCalls) :=
  Lts.ofStep (start store disk) (step go)

/-- The file holds the store's settings: loading it on the environment
succeeds and gives the store's configuration, up to its unset forms. -/
def Saved (go : Stdlib) (env : Config) (d : Deployment) : Prop :=
  ∃ reloaded, Store.loadStore go env d.disk = .ok reloaded ∧
    (env.configFile ≠ "" → reloaded.snapshot.effective = d.store.snapshot.effective)

/-- What every update keeps. -/
structure Kept (go : Stdlib) (env : Config) (d : Deployment) : Prop where
  path : d.store.path = env.configFile
  onEnvironment : env.OnEnvironment d.store.cfg
  valid : ∀ cfg ∈ d.published, cfg.validate go = .ok ()
  current : d.store.cfg ∈ d.published
  saved : d.Saved go env

theorem kept_start {store : Store} {disk : Disk} (hvalid : env.validate go = .ok ())
    (hload : Store.loadStore go env disk = .ok store) : Kept go env (start store disk) := by
  have hsaved : Saved go env (start store disk) := ⟨store, hload, fun _ => rfl⟩
  obtain rfl | ⟨u, rfl, hu⟩ := Store.loadStore_cases hload
  · refine ⟨rfl, .refl env, ?_, List.mem_cons_self, hsaved⟩
    intro cfg hcfg
    obtain rfl := List.mem_singleton.mp hcfg
    exact hvalid
  · refine ⟨rfl, (Config.OnEnvironment.refl env).apply u, ?_, List.mem_cons_self, hsaved⟩
    intro cfg hcfg
    obtain rfl := List.mem_singleton.mp hcfg
    exact hu

/-- One update, accepted or not, keeps the file in step with the store. -/
theorem kept_step {d t : Deployment} {l : AdminUpdate × PersistCalls} (h : Kept go env d)
    (hstep : step go d l = some t) : Kept go env t := by
  obtain ⟨u, calls⟩ := l
  obtain ⟨err, hu⟩ | ⟨hvalid, disk', hu, hdisk⟩ := d.store.update_cases go d.disk u calls
  · -- rejected or not persisted: store and file are as before
    simp only [step, hu, Option.some.injEq] at hstep
    subst hstep
    refine ⟨h.path, h.onEnvironment, ?_, List.mem_append_left _ h.current, h.saved⟩
    intro cfg hcfg
    obtain hold | hnew := List.mem_append.mp hcfg
    · exact h.valid cfg hold
    · obtain rfl := List.mem_singleton.mp hnew
      exact h.valid _ h.current
  · simp only [step, hu, Option.some.injEq] at hstep
    subst hstep
    have henv : env.OnEnvironment (u.apply d.store.cfg) := h.onEnvironment.apply u
    refine ⟨h.path, henv, ?_, List.mem_append_right _ List.mem_cons_self, ?_⟩
    · intro cfg hcfg
      obtain hold | hnew := List.mem_append.mp hcfg
      · exact h.valid cfg hold
      · obtain rfl := List.mem_singleton.mp hnew
        exact hvalid
    · by_cases hfile : env.configFile = ""
      · exact ⟨Store.newStore env, Store.loadStore_of_no_path hfile _,
          fun hne => absurd hfile hne⟩
      · obtain hpath | rfl := hdisk
        · exact absurd (h.path ▸ hpath) hfile
        · refine ⟨_, Store.loadStore_persisted hvalid henv hfile [], fun _ => ?_⟩
          exact Config.effective_effective _

/-- **Persisted settings round-trip**: after any sequence of updates,
whichever of them were accepted, rejected or not persisted, a restart on the
same environment succeeds and reads the store's configuration back, and
every configuration the store published is valid. -/
theorem settings_roundTrip {store : Store} {disk : Disk} {d : Deployment}
    (hvalid : env.validate go = .ok ()) (hload : Store.loadStore go env disk = .ok store)
    (h : (lts go store disk).Reachable Lts.Any d) :
    d.Saved go env ∧ ∀ cfg ∈ d.published, cfg.validate go = .ok () := by
  have hkept : Kept go env d :=
    Lts.Reachable.invariant_ofStep (kept_start hvalid hload)
      (fun _ _ _ hi _ hstep => kept_step hi hstep) h
  exact ⟨hkept.saved, hkept.valid⟩

/-- The standard library on the one URL of the session below. -/
def sampleStdlib : Stdlib where
  parseIP _ := false
  parseCIDR _ := false
  parseURL url :=
    if url = "stun:stun.local:3478" then some ⟨"stun", "", "stun.local:3478"⟩ else none
  atoi value := .error ("strconv.Atoi: parsing " ++ value ++ ": invalid syntax")
  parseBool value := .error ("strconv.ParseBool: parsing " ++ value ++ ": invalid syntax")
  quote value := value

/-- The defaults of `LoadFromEnv` with one STUN server. -/
def sampleEnvironment : Config where
  appName := "SlowMeet"
  appEnv := "production"
  httpAddr := ":8080"
  configFile := "config.json"
  meetingPassword := ""
  adminPassword := "admin"
  stunServers := ["stun:stun.local:3478"]
  turnURL := ""
  turnURLs := []
  turnUsername := ""
  turnPassword := ""
  turnSharedSecret := ""
  turnCredentialTTL := 86400 * second
  iceIPv4Only := true
  iceTransportPolicy := "all"
  enabledConnectionMethods := none
  simulcastEnabled := false
  iceUDPPortMin := 50000
  iceUDPPortMax := 50100
  icePublicIP := ""
  trustedProxyCIDRs := []
  maxParticipants := 5
  defaultVideoQuality := "low"
  maxVideoQuality := "ultra"
  defaultVideoFPS := 15
  maxVideoFPS := 60
  defaultAudioBitrate := 32000
  maxVideoBitrate := 3000000
  maxAudioBitrate := 96000
  enableScreenShare := true
  retainChatHistory := false
  reconnectTimeout := 30 * second
  logLevel := "info"

/-- An accepted update with an empty method list, one that validation
rejects and one that is not persisted. -/
def sampleUpdates : List (AdminUpdate × PersistCalls) :=
  [({ maxParticipants := some 8, enabledConnectionMethods := some [] }, .succeed),
    ({ maxVideoQuality := some "4k" }, .succeed),
    ({ maxParticipants := some 9 }, { PersistCalls.succeed with rename := .error "busy" })]

/-- The three updates leave eight seats, in the store and after a restart. -/
theorem settings_roundTrip_sample :
    ∃ d : Deployment, d.store.snapshot.maxParticipants = 8 ∧
      d.Saved sampleStdlib sampleEnvironment ∧
      ∀ cfg ∈ d.published, cfg.validate sampleStdlib = .ok () := by
  obtain ⟨d, hd, hseats⟩ := Lts.exists_reachable_of_exec Lts.Any (step sampleStdlib)
    (start (Store.newStore sampleEnvironment) .notExist) sampleUpdates
    (fun d => d.store.snapshot.maxParticipants) 8 (fun _ _ _ => trivial) (by decide +kernel)
  have hload : Store.loadStore sampleStdlib sampleEnvironment .notExist =
      .ok (Store.newStore sampleEnvironment) := rfl
  exact ⟨d, hseats, settings_roundTrip rfl hload hd⟩

end Deployment

end SlowMeet.Settings
