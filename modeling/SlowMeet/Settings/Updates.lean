import Mathlib.Data.Finset.Basic
import SlowMeet.Lib.Replicas
import SlowMeet.Media.Limits
import SlowMeet.Settings.Store

/-!
# Admin updates on their way to the running system

The POST handler of `/admin/config` in `internal/httpserver/server.go`:
`Store.Update`, `Snapshot`, `SetMaxParticipants` and `BroadcastConfig` with
`Router.SetLimits` and the `config_update` fan-out. The store serialises the
updates; each handler then applies its own snapshot in steps of its own.

The sections of `BroadcastConfig` that release a disabled screen share and
clear the chat history read and write nothing of this state; the hub's model
has them. A broadcast holds only the read lock, so two of them may pass each
other between two clients: each client is told in a step of its own.
-/

namespace SlowMeet.Settings

open Lib Media
open Deployment (sampleEnvironment sampleStdlib)

abbrev ClientId := Nat

/-- A request to `/admin/config`. -/
abbrev HandlerId := Nat

/-- A `config_update` message. -/
structure ConfigUpdate where
  maxVideoBitrate : Int
  maxVideoFPS : Int
  maxAudioBitrate : Int
  maxVideoQuality : String
  screenShareEnabled : Bool
  retainChatHistory : Bool
  deriving DecidableEq, Repr

namespace Config

/-- What `BroadcastConfig` tells the room. -/
def toUpdate (cfg : Config) : ConfigUpdate where
  maxVideoBitrate := cfg.maxVideoBitrate
  maxVideoFPS := cfg.maxVideoFPS
  maxAudioBitrate := cfg.maxAudioBitrate
  maxVideoQuality := cfg.effectiveMaxVideoQuality
  screenShareEnabled := cfg.enableScreenShare
  retainChatHistory := cfg.retainChatHistory

/-- What `BroadcastConfig` gives the router. -/
def limits (cfg : Config) : Limits where
  maxAudioBitrate := cfg.maxAudioBitrate
  maxVideoBitrate := cfg.maxVideoBitrate
  maxVideoFPS := cfg.maxVideoFPS

end Config

/-- Where a handler stands. A snapshot carries the number of the update that
published it. -/
inductive Phase
  | idle
  | snapshotting
  | limiting (snapshot : Version Config)
  | capping (snapshot : Version Config)
  /-- In `SetLimits`, after its locked section. -/
  | shaping (snapshot : Version Config)
  /-- In the broadcast, with the clients it has still to tell. -/
  | announcing (snapshot : Version Config) (left : Finset ClientId)
  deriving DecidableEq

/-- What a handler writes its snapshot to. -/
inductive Component
  | capacity
  | limits
  | rate (ref : Nat)
  | frames (ref : Nat)
  | told (c : ClientId)
  deriving DecidableEq

structure Server where
  store : Store
  disk : Disk
  meeting : Meeting
  shaper : Shaper
  /-- The registered publications. -/
  pubs : List PublicationInfo
  /-- The admitted clients. -/
  roomMembers : Finset ClientId
  /-- The `config_update` messages written to each client. -/
  sent : ClientId → List ConfigUpdate
  handler : HandlerId → Phase
  /-- The number of updates the store has published. -/
  stored : Nat
  /-- A history variable, which no section reads: the snapshot each
  component was last written from. -/
  copy : Component → Version Config

namespace Server

/-- The stored configuration under its number. -/
def current (s : Server) : Version Config := ⟨s.stored, s.store.snapshot⟩

def goto (s : Server) (a : HandlerId) (phase : Phase) : Server :=
  { s with handler := Function.update s.handler a phase }

/-! ## Sections -/

/-- `Store.Update`. A rejected or unpersisted update ends the request. -/
def update (go : Stdlib) (s : Server) (a : HandlerId) (u : AdminUpdate) (calls : PersistCalls) :
    Option Server :=
  match s.handler a with
  | .idle =>
    match s.store.update go s.disk u calls with
    | (.ok (), store, disk) =>
      some ({ s with store, disk, stored := s.stored + 1 }.goto a .snapshotting)
    | (.error _, store, disk) => some { s with store, disk }
  | _ => none

/-- The next section of a handler that is neither updating limiters nor
telling clients. -/
def run (s : Server) (a : HandlerId) : Option Server :=
  match s.handler a with
  | .idle => none
  | .snapshotting => some (s.goto a (.limiting s.current))
  | .limiting p =>
    some ({ s with meeting := s.meeting.setMaxParticipants p.value.maxParticipants.toNat }.goto a
      (.capping p))
  | .capping p =>
    some ({ s with shaper := s.shaper.setLimits a p.value.limits s.pubs }.goto a (.shaping p))
  | .shaping p =>
    if s.shaper.updates.all fun u => u.call ≠ a then some (s.goto a (.announcing p s.roomMembers))
    else none
  | .announcing _ left => if left = ∅ then some (s.goto a .idle) else none

/-- One limiter call of a `SetLimits` in progress. -/
def limiter (s : Server) (index : Nat) : Option Server :=
  (s.shaper.update index).map fun shaper => { s with shaper }

/-- The broadcast reaches one client. -/
def tell (s : Server) (a : HandlerId) (c : ClientId) : Option Server :=
  match s.handler a with
  | .announcing p left =>
    if c ∈ left then
      some ({ s with sent := Function.update s.sent c (s.sent c ++ [p.value.toUpdate]) }.goto a
        (.announcing p (left.erase c)))
    else none
  | _ => none

inductive Label
  | update (a : HandlerId) (u : AdminUpdate) (calls : PersistCalls)
  | run (a : HandlerId)
  | limiter (index : Nat)
  | tell (a : HandlerId) (c : ClientId)

/-- What a section writes a snapshot to. -/
def writes (s : Server) : Label → Option (Component × Version Config)
  | .update _ _ _ => none
  | .run a =>
    match s.handler a with
    | .limiting p => some (.capacity, p)
    | .capping p => some (.limits, p)
    | _ => none
  | .limiter index =>
    (s.shaper.updates[index]?).bind fun u =>
      match s.handler u.call with
      | .shaping p => some (if u.rated then .frames u.ref else .rate u.ref, p)
      | _ => none
  | .tell a c =>
    match s.handler a with
    | .announcing p _ => some (.told c, p)
    | _ => none

/-- The history variable after a section. -/
def record (s : Server) (write : Option (Component × Version Config)) : Server :=
  match write with
  | some (k, p) => { s with copy := Function.update s.copy k p }
  | none => s

def next (go : Stdlib) (s : Server) : Label → Option Server
  | .update a u calls => s.update go a u calls
  | .run a => s.run a
  | .limiter index => s.limiter index
  | .tell a c => s.tell a c

def step (go : Stdlib) (s : Server) (l : Label) : Option Server :=
  (s.next go l).map fun t => t.record (s.writes l)

/-- Every interleaving of any number of handlers. -/
def lts (go : Stdlib) (start : Server) : Lts Server Label := Lts.ofStep start (step go)

/-! ## Correspondence -/

/-- All handlers have returned. -/
def Returned (s : Server) : Prop := ∀ a, s.handler a = .idle

/-- The running system corresponds to the configuration in the store. -/
structure Corresponds (s : Server) : Prop where
  capacity : (s.meeting.max : Int) = s.store.snapshot.maxParticipants
  limits : s.shaper.limits = s.store.snapshot.limits
  limiters : ∀ info ∈ s.pubs,
    (s.shaper.limiter info.ref).rate = rateForKind info.remote.kind s.store.snapshot.limits ∧
      (info.remote.kind = .video →
        (s.shaper.limiter info.ref).maxFPS = s.store.snapshot.limits.maxVideoFPS)
  told : ∀ c ∈ s.roomMembers, ∀ msg, (s.sent c).getLast? = some msg →
    msg = s.store.snapshot.toUpdate

/-- A server before its first update: it runs on a valid configuration, no
handler is under way and its publications have addresses of their own. -/
structure Started (go : Stdlib) (s : Server) : Prop where
  valid : s.store.snapshot.validate go = .ok ()
  returned : s.Returned
  updates : s.shaper.updates = []
  corresponds : s.Corresponds
  refs : ∀ info ∈ s.pubs, ∀ info' ∈ s.pubs, info.ref = info'.ref → info = info'
  copy : ∀ k, s.copy k = s.current

/-- A component never receives a snapshot older than the one it was last
written from. -/
def appliesInOrder (s : Server) (l : Label) : Bool :=
  (s.writes l).all fun write => (s.copy write.1).number ≤ write.2.number

/-! ## What a handler still owes -/

/-- What a handler in `phase` has still to write. -/
def Owed (updates : List LimiterUpdate) (a : HandlerId) : Phase → Component → Prop
  | .idle, _ => False
  | .snapshotting, _ => True
  | .limiting _, _ => True
  | .capping _, k => k ≠ .capacity
  | .shaping _, .capacity => False
  | .shaping _, .limits => False
  | .shaping _, .rate ref => ∃ u ∈ updates, u.call = a ∧ u.ref = ref ∧ u.rated = false
  | .shaping _, .frames ref => ∃ u ∈ updates, u.call = a ∧ u.ref = ref ∧ u.kind = .video
  | .shaping _, .told _ => True
  | .announcing _ left, .told c => c ∈ left
  | .announcing _ _, _ => False

/-- The snapshot a handler works with, if it has taken one. -/
def snapshotOf : Phase → Option (Version Config)
  | .idle | .snapshotting => none
  | .limiting p | .capping p | .shaping p | .announcing p _ => some p

/-- Some handler has still to write the snapshot `p` to `k`. -/
def Owes (s : Server) (k : Component) (p : Option (Version Config)) : Prop :=
  ∃ a, Owed s.shaper.updates a (s.handler a) k ∧ snapshotOf (s.handler a) = p

/-- The components the server has. -/
def Live (s : Server) : Component → Prop
  | .capacity => True
  | .limits => True
  | .rate ref => ∃ info ∈ s.pubs, info.ref = ref
  | .frames ref => ∃ info ∈ s.pubs, info.ref = ref ∧ info.remote.kind = .video
  | .told c => c ∈ s.roomMembers

/-- The component corresponds to `cfg`. -/
def Holds (s : Server) (cfg : Config) : Component → Prop
  | .capacity => (s.meeting.max : Int) = cfg.maxParticipants
  | .limits => s.shaper.limits = cfg.limits
  | .rate ref => ∀ info ∈ s.pubs, info.ref = ref →
      (s.shaper.limiter ref).rate = rateForKind info.remote.kind cfg.limits
  | .frames ref => ∀ info ∈ s.pubs, info.ref = ref → info.remote.kind = .video →
      (s.shaper.limiter ref).maxFPS = cfg.limits.maxVideoFPS
  | .told c => c ∈ s.roomMembers → ∀ msg, (s.sent c).getLast? = some msg → msg = cfg.toUpdate

theorem corresponds_iff {s : Server} :
    s.Corresponds ↔ ∀ k, s.Live k → s.Holds s.store.snapshot k := by
  constructor
  · intro h k hk
    cases k with
    | capacity => exact h.capacity
    | limits => exact h.limits
    | rate ref =>
      rintro info hinfo rfl
      exact (h.limiters info hinfo).1
    | frames ref =>
      rintro info hinfo rfl hvideo
      exact (h.limiters info hinfo).2 hvideo
    | told c => exact h.told c
  · intro h
    refine ⟨h .capacity trivial, h .limits trivial, fun info hinfo => ⟨?_, fun hvideo => ?_⟩, ?_⟩
    · exact h (.rate info.ref) ⟨info, hinfo, rfl⟩ info hinfo rfl
    · exact h (.frames info.ref) ⟨info, hinfo, rfl, hvideo⟩ info hinfo rfl hvideo
    · intro c hc
      exact h (.told c) hc hc

/-- A pending limiter update belongs to a handler in `SetLimits` and to a
publication. -/
def Pending (handler : HandlerId → Phase) (pubs : List PublicationInfo) (u : LimiterUpdate) :
    Prop :=
  ∃ p, handler u.call = .shaping p ∧ u.limits = p.value.limits ∧
    (∃ info ∈ pubs, info.ref = u.ref ∧ info.remote.kind = u.kind) ∧ (u.rated = true → u.kind = .video)

/-- The invariant of the handlers: each component corresponds to the
snapshot it was last written from, and these snapshots converge. -/
structure Applying (go : Stdlib) (s : Server) : Prop where
  valid : s.store.snapshot.validate go = .ok ()
  snapshots : ∀ a p, snapshotOf (s.handler a) = some p → p.value.validate go = .ok ()
  refs : ∀ info ∈ s.pubs, ∀ info' ∈ s.pubs, info.ref = info'.ref → info = info'
  updates : ∀ u ∈ s.shaper.updates, Pending s.handler s.pubs u
  holds : ∀ k, s.Live k → s.Holds (s.copy k).value k
  converging : Converging s.Live s.current s.copy s.Owes

theorem Started.applying {go : Stdlib} {s : Server} (h : s.Started go) : s.Applying go where
  valid := h.valid
  snapshots a p hp := by
    rw [h.returned a] at hp
    cases hp
  refs := h.refs
  updates u hu := by
    rw [h.updates] at hu
    cases hu
  holds k hk := by
    rw [h.copy k]
    exact corresponds_iff.mp h.corresponds k hk
  converging := by
    refine .start h.copy ?_
    rintro k p ⟨a, howed, -⟩
    rw [h.returned a] at howed
    exact howed

/-! ## What one section keeps -/

/-- A section other than `Store.Update` changes neither the store nor the
room nor the publications. -/
structure Static (s t : Server) : Prop where
  store : t.store = s.store
  stored : t.stored = s.stored
  pubs : t.pubs = s.pubs
  roomMembers : t.roomMembers = s.roomMembers

variable {go : Stdlib} {s t : Server} {a : HandlerId}

theorem Static.live (h : Static s t) : t.Live = s.Live := by
  funext k
  cases k <;> simp [Live, h.pubs, h.roomMembers]

theorem Static.current (h : Static s t) : t.current = s.current := by
  simp [Server.current, h.stored, h.store]

/-- What is owed, by one handler and by the others. -/
theorem owes_iff (a : HandlerId) {k : Component} {p : Option (Version Config)} :
    s.Owes k p ↔ Owed s.shaper.updates a (s.handler a) k ∧ snapshotOf (s.handler a) = p ∨
      ∃ b, b ≠ a ∧ Owed s.shaper.updates b (s.handler b) k ∧ snapshotOf (s.handler b) = p := by
  constructor
  · rintro ⟨b, hb⟩
    by_cases hba : b = a
    · exact Or.inl (hba ▸ hb)
    · exact Or.inr ⟨b, hba, hb⟩
  · rintro (ha | ⟨b, -, hb⟩)
    · exact ⟨a, ha⟩
    · exact ⟨b, hb⟩

/-- Only the handler that moves changes what it owes. -/
theorem owes_moved (s : Server) (a : HandlerId) (phase : Phase)
    (hother : ∀ b, b ≠ a → ∀ k, Owed t.shaper.updates b (s.handler b) k ↔
      Owed s.shaper.updates b (s.handler b) k)
    (hhandler : t.handler = Function.update s.handler a phase)
    {k : Component} {p : Option (Version Config)} :
    t.Owes k p ↔ Owed t.shaper.updates a phase k ∧ snapshotOf phase = p ∨
      ∃ b, b ≠ a ∧ Owed s.shaper.updates b (s.handler b) k ∧ snapshotOf (s.handler b) = p := by
  rw [owes_iff a, hhandler, Function.update_self]
  refine or_congr Iff.rfl (exists_congr fun b => and_congr_right fun hb => ?_)
  rw [Function.update_of_ne hb, hother b hb k]

theorem owes_goto (s : Server) (a : HandlerId) (phase : Phase)
    (hhandler : t.handler = Function.update s.handler a phase)
    (hupdates : t.shaper.updates = s.shaper.updates) {k : Component}
    {p : Option (Version Config)} :
    t.Owes k p ↔ Owed s.shaper.updates a phase k ∧ snapshotOf phase = p ∨
      ∃ b, b ≠ a ∧ Owed s.shaper.updates b (s.handler b) k ∧ snapshotOf (s.handler b) = p := by
  rw [owes_moved s a phase (fun b _ k => by rw [hupdates]) hhandler, hupdates]

theorem owed_mono {updates updates' : List LimiterUpdate} {b : HandlerId} {phase : Phase}
    {k : Component}
    (h : ∀ v ∈ updates', v.call = b → ∃ w ∈ updates, w.call = b ∧ w.ref = v.ref ∧
      w.kind = v.kind ∧ (v.rated = false → w.rated = false))
    (howed : Owed updates' b phase k) : Owed updates b phase k := by
  cases phase with
  | shaping p =>
    cases k with
    | rate ref =>
      obtain ⟨v, hv, hcall, href, hrated⟩ := howed
      obtain ⟨w, hw, hcall', href', -, hrated'⟩ := h v hv hcall
      exact ⟨w, hw, hcall', href'.trans href, hrated' hrated⟩
    | frames ref =>
      obtain ⟨v, hv, hcall, href, hkind⟩ := howed
      obtain ⟨w, hw, hcall', href', hkind', -⟩ := h v hv hcall
      exact ⟨w, hw, hcall', href'.trans href, hkind'.trans hkind⟩
    | capacity | limits | told c => exact howed
  | announcing p left => cases k <;> exact howed
  | idle | snapshotting | limiting p | capping p => exact howed

/-- The updates of one call are nothing another handler owes. -/
theorem owed_congr {updates updates' : List LimiterUpdate} {b : HandlerId}
    (h : ∀ u, u.call = b → (u ∈ updates' ↔ u ∈ updates)) (phase : Phase) (k : Component) :
    Owed updates' b phase k ↔ Owed updates b phase k := by
  constructor
  · exact owed_mono fun v hv hcall => ⟨v, (h v hcall).mp hv, hcall, rfl, rfl, id⟩
  · exact owed_mono fun v hv hcall => ⟨v, (h v hcall).mpr hv, hcall, rfl, rfl, id⟩

/-- One limiter call leaves owed what it does not settle. -/
theorem owed_applyUpdate {shaper : Shaper} {u : LimiterUpdate} {rest : List LimiterUpdate}
    (hperm : shaper.updates.Perm (u :: rest)) {b : HandlerId} {phase : Phase} {k : Component}
    (howed : Owed shaper.updates b phase k) :
    b = u.call ∧ k = (if u.rated then .frames u.ref else .rate u.ref) ∨
      Owed (Shaper.applyUpdate { shaper with updates := rest } u).updates b phase k := by
  have hkept : ∀ v ∈ shaper.updates,
      v = u ∨ v ∈ (Shaper.applyUpdate { shaper with updates := rest } u).updates := by
    intro v hv
    obtain hv | hv := List.mem_cons.mp (hperm.mem_iff.mp hv)
    · exact Or.inl hv
    · exact Or.inr (Shaper.mem_applyUpdate.mpr (Or.inl hv))
  cases phase with
  | shaping p =>
    cases k with
    | rate ref =>
      obtain ⟨v, hv, hcall, href, hrated⟩ := howed
      obtain rfl | hv := hkept v hv
      · left
        rw [hrated, href]
        exact ⟨hcall.symm, rfl⟩
      · exact Or.inr ⟨v, hv, hcall, href, hrated⟩
    | frames ref =>
      obtain ⟨v, hv, hcall, href, hkind⟩ := howed
      obtain rfl | hv := hkept v hv
      · cases hrated : v.rated with
        | true =>
          left
          rw [href]
          exact ⟨hcall.symm, rfl⟩
        | false =>
          -- the rate is set first, the frame rate stays owed
          right
          exact ⟨{ v with rated := true },
            Shaper.mem_applyUpdate.mpr (Or.inr ⟨hrated, hkind, rfl⟩), hcall, href, hkind⟩
      · exact Or.inr ⟨v, hv, hcall, href, hkind⟩
    | capacity | limits | told c => exact Or.inr howed
  | announcing p left => exact Or.inr (by cases k <;> exact howed)
  | idle | snapshotting | limiting p | capping p => exact Or.inr howed

/-- The limiter updates in progress after a handler that has none moves. -/
theorem Applying.updates_goto (h : s.Applying go) {phase : Phase}
    (ha : ∀ p, s.handler a ≠ .shaping p) :
    ∀ u ∈ s.shaper.updates, Pending (Function.update s.handler a phase) s.pubs u := by
  intro u hu
  obtain ⟨p, hp, hrest⟩ := h.updates u hu
  refine ⟨p, ?_, hrest⟩
  rw [Function.update_of_ne]
  · exact hp
  · rintro rfl
    exact ha p hp

theorem snapshots_goto {phase : Phase}
    (hs : ∀ b p, snapshotOf (s.handler b) = some p → p.value.validate go = .ok ())
    (hphase : ∀ p, snapshotOf phase = some p → p.value.validate go = .ok ()) :
    ∀ b p, snapshotOf (Function.update s.handler a phase b) = some p →
      p.value.validate go = .ok () := by
  intro b p hp
  by_cases hb : b = a
  · subst hb
    rw [Function.update_self] at hp
    exact hphase p hp
  · rw [Function.update_of_ne hb] at hp
    exact hs b p hp

namespace Applying

/-- A section that writes nothing. -/
theorem move (h : s.Applying go) (hstatic : Static s t) (hcopy : t.copy = s.copy)
    (hsnapshots : ∀ b p, snapshotOf (t.handler b) = some p → p.value.validate go = .ok ())
    (hupdates : ∀ u ∈ t.shaper.updates, Pending t.handler s.pubs u)
    (hholds : ∀ k cfg, s.Holds cfg k → t.Holds cfg k)
    (hsnap : ∀ k p, t.Owes k (some p) → s.Owes k (some p) ∨ p = s.current)
    (hkeep : ∀ k, s.Live k → s.Owes k none ∨ s.Owes k (some s.current) →
      t.Owes k none ∨ t.Owes k (some s.current)) : t.Applying go where
  valid := hstatic.store ▸ h.valid
  snapshots := hsnapshots
  refs := hstatic.pubs ▸ h.refs
  updates := hstatic.pubs ▸ hupdates
  holds k hk := by
    rw [hstatic.live] at hk
    rw [hcopy]
    exact hholds k _ (h.holds k hk)
  converging := by
    rw [hstatic.live, hstatic.current, hcopy]
    exact h.converging.take hsnap hkeep

/-- A section that writes the snapshot `p` to `k`, in order. -/
theorem write (h : s.Applying go) {k : Component} {p : Version Config} (hstatic : Static s t)
    (hcopy : t.copy = Function.update s.copy k p)
    (hp : s.Owes k (some p)) (horder : (s.copy k).number ≤ p.number)
    (hsnapshots : ∀ b p, snapshotOf (t.handler b) = some p → p.value.validate go = .ok ())
    (hupdates : ∀ u ∈ t.shaper.updates, Pending t.handler s.pubs u)
    (hnew : t.Holds p.value k) (hother : ∀ j cfg, j ≠ k → s.Holds cfg j → t.Holds cfg j)
    (hsub : ∀ j q, t.Owes j q → s.Owes j q)
    (hkeep : ∀ j q, s.Live j → s.Owes j q → j = k ∧ q = some p ∨ t.Owes j q) : t.Applying go where
  valid := hstatic.store ▸ h.valid
  snapshots := hsnapshots
  refs := hstatic.pubs ▸ h.refs
  updates := hstatic.pubs ▸ hupdates
  holds j hj := by
    rw [hstatic.live] at hj
    rw [hcopy]
    by_cases hjk : j = k
    · subst hjk
      rw [Function.update_self]
      exact hnew
    · rw [Function.update_of_ne hjk]
      exact hother j _ hjk (h.holds j hj)
  converging := by
    rw [hstatic.live, hstatic.current, hcopy]
    exact h.converging.write hp horder hsub hkeep

/-- A stored update is owed to every component by its handler. -/
theorem updated (h : s.Applying go) (ha : s.handler a = .idle) {store : Store} {disk : Disk}
    (hvalid : store.snapshot.validate go = .ok ()) :
    Applying go ({ s with store, disk, stored := s.stored + 1 }.goto a .snapshotting) where
  valid := hvalid
  snapshots := snapshots_goto h.snapshots fun p hp => by cases hp
  refs := h.refs
  updates := h.updates_goto fun p hp => by rw [ha] at hp; cases hp
  holds k hk := by
    cases k with
    | capacity => exact h.holds .capacity hk
    | limits => exact h.holds .limits hk
    | rate ref => exact h.holds (.rate ref) hk
    | frames ref => exact h.holds (.frames ref) hk
    | told c => exact h.holds (.told c) hk
  converging := by
    refine h.converging.store store.snapshot (fun k p hp => ?_) fun k _ => ?_
    · obtain ⟨-, hfalse⟩ | ⟨b, -, hb⟩ := (owes_goto s a .snapshotting (by rfl) (by rfl)).mp hp
      · cases hfalse
      · exact ⟨b, hb⟩
    · exact (owes_goto s a .snapshotting (by rfl) (by rfl)).mpr (Or.inl ⟨trivial, rfl⟩)

theorem snapshotted (h : s.Applying go) (ha : s.handler a = .snapshotting) :
    Applying go (s.goto a (.limiting s.current)) := by
  refine h.move ⟨rfl, rfl, rfl, rfl⟩ rfl (snapshots_goto h.snapshots ?_)
    (h.updates_goto fun p hp => by rw [ha] at hp; cases hp) (fun k cfg hk => ?_) ?_ ?_
  · rintro p ⟨⟩
    exact h.valid
  · cases k <;> exact hk
  · intro k p hp
    obtain ⟨-, hcurrent⟩ | ⟨b, -, hb⟩ :=
      (owes_goto s a (.limiting s.current) (by rfl) (by rfl)).mp hp
    · exact Or.inr (Option.some.inj hcurrent).symm
    · exact Or.inl ⟨b, hb⟩
  · intro k _ howed
    by_cases hother : ∃ b, b ≠ a ∧ Owed s.shaper.updates b (s.handler b) k ∧
        (snapshotOf (s.handler b) = none ∨ snapshotOf (s.handler b) = some s.current)
    · obtain ⟨b, hb, hk, hnone | hsome⟩ := hother
      · exact Or.inl ((owes_goto s a (.limiting s.current) (by rfl) (by rfl)).mpr
          (Or.inr ⟨b, hb, hk, hnone⟩))
      · exact Or.inr ((owes_goto s a (.limiting s.current) (by rfl) (by rfl)).mpr
          (Or.inr ⟨b, hb, hk, hsome⟩))
    · -- it is the handler that has just taken its snapshot
      exact Or.inr ((owes_goto s a (.limiting s.current) (by rfl) (by rfl)).mpr
        (Or.inl ⟨trivial, rfl⟩))

theorem limited (h : s.Applying go) {p : Version Config} (ha : s.handler a = .limiting p)
    (horder : (s.copy .capacity).number ≤ p.number) :
    Applying go (({ s with
      meeting := s.meeting.setMaxParticipants p.value.maxParticipants.toNat }.goto a
        (.capping p)).record (some (.capacity, p))) := by
  have hvalid : p.value.validate go = .ok () := h.snapshots a p (by rw [ha]; rfl)
  refine h.write (k := .capacity) (p := p) ⟨rfl, rfl, rfl, rfl⟩ rfl ⟨a, ?_⟩ horder
    (snapshots_goto h.snapshots ?_) (h.updates_goto fun p hp => by rw [ha] at hp; cases hp)
    ?_ (fun j cfg hj hk => ?_) ?_ ?_
  · rw [ha]
    exact ⟨trivial, rfl⟩
  · rintro q ⟨⟩
    exact hvalid
  · have hpos := Config.maxParticipants_pos _ hvalid
    show ((s.meeting.setMaxParticipants p.value.maxParticipants.toNat).max : Int) = _
    rw [Meeting.setMaxParticipants, if_neg (by omega)]
    exact Int.toNat_of_nonneg (by omega)
  · cases j with
    | capacity => exact absurd rfl hj
    | _ => exact hk
  · intro j q hq
    obtain ⟨-, hq⟩ | ⟨b, -, hb⟩ := (owes_goto s a (.capping p) (by rfl) (by rfl)).mp hq
    · exact ⟨a, by rw [ha]; exact ⟨trivial, hq⟩⟩
    · exact ⟨b, hb⟩
  · intro j q _ hq
    obtain ⟨-, hq⟩ | ⟨b, hb⟩ := (owes_iff a).mp hq
    · rw [ha] at hq
      by_cases hj : j = .capacity
      · exact Or.inl ⟨hj, hq.symm⟩
      · exact Or.inr ((owes_goto s a (.capping p) (by rfl) (by rfl)).mpr (Or.inl ⟨hj, hq⟩))
    · exact Or.inr ((owes_goto s a (.capping p) (by rfl) (by rfl)).mpr (Or.inr ⟨b, hb⟩))

theorem capped (h : s.Applying go) {p : Version Config} (ha : s.handler a = .capping p)
    (horder : (s.copy .limits).number ≤ p.number) :
    Applying go (({ s with shaper := s.shaper.setLimits a p.value.limits s.pubs }.goto a
      (.shaping p)).record (some (.limits, p))) := by
  have hvalid : p.value.validate go = .ok () := h.snapshots a p (by rw [ha]; rfl)
  have hmem : ∀ u, u ∈ (s.shaper.setLimits a p.value.limits s.pubs).updates ↔
      u ∈ s.shaper.updates ∨ ∃ info ∈ s.pubs,
        u = ⟨a, p.value.limits, info.ref, info.remote.kind, false⟩ := by
    intro u
    simp only [Shaper.setLimits, List.mem_append, List.mem_map, eq_comm (b := u)]
  have hother : ∀ b, b ≠ a → ∀ k,
      Owed (s.shaper.setLimits a p.value.limits s.pubs).updates b (s.handler b) k ↔
        Owed s.shaper.updates b (s.handler b) k := by
    intro b hb k
    refine owed_congr (fun u hu => ?_) _ k
    rw [hmem, or_iff_left]
    rintro ⟨info, -, rfl⟩
    exact hb hu.symm
  have hown : ∀ u ∈ s.shaper.updates, u.call ≠ a := by
    rintro u hu rfl
    obtain ⟨q, hq, -⟩ := h.updates u hu
    rw [ha] at hq
    cases hq
  refine h.write (k := .limits) (p := p) ⟨rfl, rfl, rfl, rfl⟩ rfl ⟨a, ?_⟩ horder
    (snapshots_goto h.snapshots ?_) ?_ rfl (fun j cfg hj hk => ?_) ?_ ?_
  · rw [ha]
    exact ⟨Component.noConfusion, rfl⟩
  · rintro q ⟨⟩
    exact hvalid
  · intro u hu
    obtain hold | ⟨info, hinfo, rfl⟩ := (hmem u).mp hu
    · exact h.updates_goto (fun q hq => by rw [ha] at hq; cases hq) u hold
    · exact ⟨p, Function.update_self .., rfl, ⟨info, hinfo, rfl, rfl⟩, fun hrated => by cases hrated⟩
  · cases j with
    | limits => exact absurd rfl hj
    | _ => exact hk
  · intro j q hq
    obtain ⟨howed, hq⟩ | ⟨b, -, hb⟩ := (owes_moved s a (.shaping p) hother (by rfl)).mp hq
    · refine ⟨a, ?_⟩
      rw [ha]
      refine ⟨?_, hq⟩
      rintro rfl
      exact howed
    · exact ⟨b, hb⟩
  · intro j q hlive hq
    obtain ⟨howed, hsnap⟩ | ⟨b, hb⟩ := (owes_iff a).mp hq
    · rw [ha] at howed hsnap
      refine or_iff_not_imp_left.mpr fun hj => ?_
      refine (owes_moved s a (.shaping p) hother (by rfl)).mpr (Or.inl ⟨?_, hsnap⟩)
      cases j with
      | capacity => exact absurd rfl howed
      | limits => exact absurd ⟨rfl, hsnap.symm⟩ hj
      | rate ref =>
        obtain ⟨info, hinfo, rfl⟩ := hlive
        exact ⟨_, (hmem _).mpr (Or.inr ⟨info, hinfo, rfl⟩), rfl, rfl, rfl⟩
      | frames ref =>
        obtain ⟨info, hinfo, rfl, hvideo⟩ := hlive
        exact ⟨_, (hmem _).mpr (Or.inr ⟨info, hinfo, rfl⟩), rfl, rfl, hvideo⟩
      | told c => trivial
    · exact Or.inr ((owes_moved s a (.shaping p) hother (by rfl)).mpr (Or.inr ⟨b, hb⟩))

/-- A move of one handler that keeps its snapshot and, on the components
there are, what it owes. -/
theorem moved (h : s.Applying go) {phase : Phase}
    (hshaping : ∀ u ∈ s.shaper.updates, u.call ≠ a)
    (hsnap : ∀ q, snapshotOf phase = some q → snapshotOf (s.handler a) = some q)
    (hsub : ∀ k, Owed s.shaper.updates a phase k → Owed s.shaper.updates a (s.handler a) k)
    (hkeep : ∀ k, s.Live k → Owed s.shaper.updates a (s.handler a) k →
      Owed s.shaper.updates a phase k ∧ snapshotOf phase = snapshotOf (s.handler a)) :
    Applying go (s.goto a phase) := by
  have howes : ∀ k q, s.Live k → s.Owes k q → (s.goto a phase).Owes k q := by
    intro k q hk hq
    refine (owes_goto s a phase (by rfl) (by rfl)).mpr ?_
    obtain ⟨howed, rfl⟩ | hb := (owes_iff a).mp hq
    · exact Or.inl (hkeep k hk howed)
    · exact Or.inr hb
  refine h.move ⟨rfl, rfl, rfl, rfl⟩ rfl (snapshots_goto h.snapshots ?_) ?_ (fun k cfg hk => ?_) ?_ ?_
  · exact fun q hq => h.snapshots a q (hsnap q hq)
  · intro u hu
    obtain ⟨q, hq, hrest⟩ := h.updates u hu
    exact ⟨q, (Function.update_of_ne (hshaping u hu) ..).trans hq, hrest⟩
  · cases k <;> exact hk
  · intro k q hq
    obtain ⟨howed, hq⟩ | ⟨b, -, hb⟩ := (owes_goto s a phase (by rfl) (by rfl)).mp hq
    · exact Or.inl ⟨a, hsub k howed, hsnap q hq⟩
    · exact Or.inl ⟨b, hb⟩
  · exact fun k hk hq => hq.imp (howes k _ hk) (howes k _ hk)

/-- `SetLimits` has returned: its handler owes the clients only. -/
theorem shaped (h : s.Applying go) {p : Version Config} (ha : s.handler a = .shaping p)
    (hdone : ∀ u ∈ s.shaper.updates, u.call ≠ a) :
    Applying go (s.goto a (.announcing p s.roomMembers)) := by
  refine h.moved hdone (fun q hq => by rw [ha]; exact hq) (fun k hk => ?_) fun k hlive hk => ?_
  · rw [ha]
    cases k with
    | told c => trivial
    | _ => exact hk.elim
  · rw [ha] at hk ⊢
    refine ⟨?_, rfl⟩
    cases k with
    | capacity | limits => exact hk
    | rate ref =>
      obtain ⟨u, hu, hcall, -⟩ := hk
      exact absurd hcall (hdone u hu)
    | frames ref =>
      obtain ⟨u, hu, hcall, -⟩ := hk
      exact absurd hcall (hdone u hu)
    | told c => exact hlive

theorem returned (h : s.Applying go) {p : Version Config} (ha : s.handler a = .announcing p ∅) :
    Applying go (s.goto a .idle) := by
  have hnone : ∀ k, ¬ Owed s.shaper.updates a (s.handler a) k := by
    intro k hk
    rw [ha] at hk
    cases k with
    | told c => exact absurd hk (Finset.notMem_empty c)
    | _ => exact hk
  refine h.moved ?_ (fun q hq => by cases hq) (fun k hk => hk.elim) fun k _ hk => absurd hk (hnone k)
  rintro u hu rfl
  obtain ⟨q, hq, -⟩ := h.updates u hu
  rw [ha] at hq
  cases hq

theorem told (h : s.Applying go) {p : Version Config} {left : Finset ClientId} {c : ClientId}
    (ha : s.handler a = .announcing p left) (hc : c ∈ left)
    (horder : (s.copy (.told c)).number ≤ p.number) :
    Applying go (({ s with
      sent := Function.update s.sent c (s.sent c ++ [p.value.toUpdate]) }.goto a
        (.announcing p (left.erase c))).record (some (.told c, p))) := by
  have hvalid : p.value.validate go = .ok () := h.snapshots a p (by rw [ha]; rfl)
  refine h.write (k := .told c) (p := p) ⟨rfl, rfl, rfl, rfl⟩ rfl ⟨a, ?_⟩ horder
    (snapshots_goto h.snapshots ?_) (h.updates_goto fun p hp => by rw [ha] at hp; cases hp)
    ?_ (fun j cfg hj hk => ?_) ?_ ?_
  · rw [ha]
    exact ⟨hc, rfl⟩
  · rintro q ⟨⟩
    exact hvalid
  · intro _ msg hmsg
    replace hmsg : (Function.update s.sent c (s.sent c ++ [p.value.toUpdate]) c).getLast? =
        some msg := hmsg
    rw [Function.update_self, List.getLast?_concat] at hmsg
    exact (Option.some.inj hmsg).symm
  · cases j with
    | told d =>
      intro hd msg hmsg
      refine hk hd msg ?_
      have hne : d ≠ c := fun heq => hj (by rw [heq])
      replace hmsg : (Function.update s.sent c (s.sent c ++ [p.value.toUpdate]) d).getLast? =
        some msg := hmsg
      rwa [Function.update_of_ne hne] at hmsg
    | _ => exact hk
  · intro j q hq
    obtain ⟨howed, hq⟩ | ⟨b, -, hb⟩ :=
      (owes_goto s a (.announcing p (left.erase c)) (by rfl) (by rfl)).mp hq
    · refine ⟨a, ?_⟩
      rw [ha]
      refine ⟨?_, hq⟩
      cases j with
      | told d => exact Finset.mem_of_mem_erase howed
      | _ => exact howed
    · exact ⟨b, hb⟩
  · intro j q _ hq
    obtain ⟨howed, hsnap⟩ | ⟨b, hb⟩ := (owes_iff a).mp hq
    · rw [ha] at howed hsnap
      refine or_iff_not_imp_left.mpr fun hj => ?_
      refine (owes_goto s a (.announcing p (left.erase c)) (by rfl) (by rfl)).mpr
        (Or.inl ⟨?_, hsnap⟩)
      cases j with
      | told d =>
        refine Finset.mem_erase.mpr ⟨?_, howed⟩
        rintro rfl
        exact hj ⟨rfl, hsnap.symm⟩
      | _ => exact howed
    · exact Or.inr ((owes_goto s a (.announcing p (left.erase c)) (by rfl) (by rfl)).mpr
        (Or.inr ⟨b, hb⟩))

/-- One limiter call settles one component of the handler in `SetLimits`. -/
theorem limiterUpdated (h : s.Applying go) {u : LimiterUpdate} {rest : List LimiterUpdate}
    {p : Version Config} (hperm : s.shaper.updates.Perm (u :: rest))
    (hu : s.handler u.call = .shaping p)
    (horder : (s.copy (if u.rated then .frames u.ref else .rate u.ref)).number ≤ p.number) :
    Applying go ({ s with shaper := Shaper.applyUpdate { s.shaper with updates := rest } u }.record
      (some (if u.rated then .frames u.ref else .rate u.ref, p))) := by
  have hmem : u ∈ s.shaper.updates := hperm.mem_iff.mpr List.mem_cons_self
  have hrest : ∀ v ∈ rest, v ∈ s.shaper.updates := fun v hv =>
    hperm.mem_iff.mpr (List.mem_cons_of_mem _ hv)
  obtain ⟨p', hp', hlimits, ⟨info, hinfo, href, hkind⟩, hvideo⟩ := h.updates u hmem
  obtain rfl : p' = p := Phase.shaping.inj (hp'.symm.trans hu)
  have hrefs : ∀ info' ∈ s.pubs, info'.ref = u.ref → info' = info := fun info' hinfo' href' =>
    h.refs info' hinfo' info hinfo (href'.trans href.symm)
  -- an update that comes back stands for the frame rate still to be set
  have hback : ∀ v ∈ (Shaper.applyUpdate { s.shaper with updates := rest } u).updates,
      v ∈ s.shaper.updates ∨ u.kind = .video ∧ v = { u with rated := true } := by
    intro v hv
    obtain hv | ⟨-, hback⟩ := Shaper.mem_applyUpdate.mp hv
    · exact Or.inl (hrest v hv)
    · exact Or.inr hback
  refine h.write ⟨rfl, rfl, rfl, rfl⟩ rfl ⟨u.call, ?_⟩ horder h.snapshots (fun v hv => ?_) ?_
    (fun j cfg hj hk => ?_) (fun j q hq => ?_) (fun j q _ hq => ?_)
  · rw [hu]
    refine ⟨?_, rfl⟩
    cases hrated : u.rated with
    | false => exact ⟨u, hmem, rfl, rfl, hrated⟩
    | true => exact ⟨u, hmem, rfl, rfl, hvideo hrated⟩
  · obtain hv | ⟨hvideo, rfl⟩ := hback v hv
    · exact h.updates v hv
    · exact ⟨p', hu, hlimits, ⟨info, hinfo, href, hkind⟩, fun _ => hvideo⟩
  · cases hrated : u.rated with
    | false =>
      intro info' hinfo' href'
      refine (Shaper.applyUpdate_rate ..).trans ?_
      rw [if_pos ⟨rfl, hrated⟩, hlimits, hrefs info' hinfo' href', hkind]
    | true =>
      intro info' hinfo' href' _
      refine (Shaper.applyUpdate_maxFPS ..).trans ?_
      rw [if_pos ⟨rfl, hrated⟩, hlimits]
  · cases j with
    | rate ref =>
      intro info' hinfo' href'
      refine (Shaper.applyUpdate_rate ..).trans ?_
      rw [if_neg]
      · exact hk info' hinfo' href'
      · rintro ⟨rfl, hrated⟩
        exact hj (by rw [hrated]; rfl)
    | frames ref =>
      intro info' hinfo' href' hvideo'
      refine (Shaper.applyUpdate_maxFPS ..).trans ?_
      rw [if_neg]
      · exact hk info' hinfo' href' hvideo'
      · rintro ⟨rfl, hrated⟩
        exact hj (by rw [hrated]; rfl)
    | capacity => exact hk
    | limits => exact (Shaper.applyUpdate_limits ..).trans hk
    | told c => exact hk
  · obtain ⟨b, howed, hsnap⟩ := hq
    refine ⟨b, owed_mono (fun v hv hcall => ?_) howed, hsnap⟩
    obtain hv | ⟨-, rfl⟩ := hback v hv
    · exact ⟨v, hv, hcall, rfl, rfl, id⟩
    · exact ⟨u, hmem, hcall, rfl, rfl, fun hfalse => by cases hfalse⟩
  · obtain ⟨b, howed, rfl⟩ := hq
    obtain ⟨rfl, rfl⟩ | howed := owed_applyUpdate hperm howed
    · exact Or.inl ⟨rfl, by rw [hu]; rfl⟩
    · exact Or.inr ⟨b, howed, rfl⟩

end Applying

/-- One section of one handler keeps the copies converging. -/
theorem applying_step {l : Label} (h : s.Applying go) (horder : s.appliesInOrder l = true)
    (hstep : s.step go l = some t) : t.Applying go := by
  obtain ⟨t, ht, rfl⟩ := Option.map_eq_some_iff.mp hstep
  cases l with
  | update a u calls =>
    simp only [next, update] at ht
    split at ht
    · rename_i ha
      obtain ⟨err, hu⟩ | ⟨hvalid, disk, hu, -⟩ := s.store.update_cases go s.disk u calls
      · -- rejected or not persisted
        rw [hu] at ht
        obtain rfl := Option.some.inj ht
        exact { h with }
      · rw [hu] at ht
        obtain rfl := Option.some.inj ht
        exact h.updated ha hvalid
    · cases ht
  | run a =>
    simp only [next, run] at ht
    cases ha : s.handler a with
    | idle => simp only [ha] at ht; cases ht
    | snapshotting =>
      simp only [ha, Option.some.injEq] at ht
      subst ht
      simp only [writes, ha, record]
      exact h.snapshotted ha
    | limiting p =>
      simp only [ha, Option.some.injEq] at ht
      subst ht
      simp only [appliesInOrder, writes, ha, Option.all_some, decide_eq_true_eq] at horder ⊢
      exact h.limited ha horder
    | capping p =>
      simp only [ha, Option.some.injEq] at ht
      subst ht
      simp only [appliesInOrder, writes, ha, Option.all_some, decide_eq_true_eq] at horder ⊢
      exact h.capped ha horder
    | shaping p =>
      simp only [ha] at ht
      split at ht
      · rename_i hdone
        obtain rfl := Option.some.inj ht
        simp only [writes, ha, record]
        exact h.shaped ha (by simpa using hdone)
      · cases ht
    | announcing p left =>
      simp only [ha] at ht
      split at ht
      · rename_i hleft
        obtain rfl := Option.some.inj ht
        simp only [writes, ha, record]
        exact h.returned (hleft ▸ ha)
      · cases ht
  | limiter index =>
    obtain ⟨shaper, hshaper, rfl⟩ := Option.map_eq_some_iff.mp ht
    obtain ⟨u, rest, hget, hperm, rfl⟩ := Shaper.update_eq_some hshaper
    obtain ⟨p, hp, -⟩ := h.updates u (List.mem_of_getElem? hget)
    simp only [appliesInOrder, writes, hget, Option.bind_some, hp, Option.all_some,
      decide_eq_true_eq] at horder ⊢
    exact h.limiterUpdated hperm hp horder
  | tell a c =>
    simp only [next, tell] at ht
    split at ht
    · rename_i p left ha
      split at ht
      · rename_i hc
        obtain rfl := Option.some.inj ht
        simp only [appliesInOrder, writes, ha, Option.all_some, decide_eq_true_eq] at horder ⊢
        exact h.told ha hc horder
      · cases ht
    · cases ht

/-- **No admin update is lost**: once all handlers have returned, the running
system corresponds to the store, provided no component ever received a
snapshot older than the one it had. -/
theorem corresponds_of_appliesInOrder {start s : Server} (hstart : start.Started go)
    (h : (lts go start).Reachable (fun s l => s.appliesInOrder l = true) s)
    (hreturned : s.Returned) : s.Corresponds := by
  have happlying : s.Applying go := Lts.Reachable.invariant_ofStep hstart.applying
    (fun _ _ _ hi hok hstep => applying_step hi hok hstep) h
  refine corresponds_iff.mpr fun k hk => ?_
  have hnone : ∀ k p, ¬ s.Owes k p := by
    rintro k p ⟨a, howed, -⟩
    rw [hreturned a] at howed
    exact howed
  have hcopy : s.copy k = s.current := happlying.converging.converged hnone hk
  have hholds := happlying.holds k hk
  rw [hcopy] at hholds
  exact hholds

/-! ## Handlers a run leaves alone -/

/-- The handler that moves on. -/
def Label.mover : Label → Option HandlerId
  | .update a _ _ => some a
  | .run a => some a
  | .limiter _ => none
  | .tell a _ => some a

theorem handler_step {l : Label} {b : HandlerId} (hstep : s.step go l = some t)
    (hb : l.mover ≠ some b) : t.handler b = s.handler b := by
  have hgoto : ∀ {r : Server} {a : HandlerId} {phase : Phase}, l.mover = some a →
      (r.goto a phase).handler b = r.handler b := fun ha =>
    Function.update_of_ne (fun heq => hb (by rw [ha, heq])) _ _
  obtain ⟨r, hr, rfl⟩ := Option.map_eq_some_iff.mp hstep
  have hrecord : (r.record (s.writes l)).handler = r.handler := by
    unfold record
    split <;> rfl
  rw [hrecord]
  cases l with
  | update a u calls =>
    simp only [next, update] at hr
    split at hr
    · split at hr
      · obtain rfl := Option.some.inj hr
        exact hgoto rfl
      · obtain rfl := Option.some.inj hr
        rfl
    · cases hr
  | run a =>
    simp only [next, run] at hr
    split at hr
    · cases hr
    · obtain rfl := Option.some.inj hr
      exact hgoto rfl
    · obtain rfl := Option.some.inj hr
      exact hgoto rfl
    · obtain rfl := Option.some.inj hr
      exact hgoto rfl
    · split at hr
      · obtain rfl := Option.some.inj hr
        exact hgoto rfl
      · cases hr
    · split at hr
      · obtain rfl := Option.some.inj hr
        exact hgoto rfl
      · cases hr
  | limiter index =>
    obtain ⟨shaper, -, rfl⟩ := Option.map_eq_some_iff.mp hr
    rfl
  | tell a c =>
    simp only [next, tell] at hr
    split at hr
    · split at hr
      · obtain rfl := Option.some.inj hr
        exact hgoto rfl
      · cases hr
    · cases hr

/-- What two handlers do is over once both have returned. -/
theorem handlers_of_run {check : Server → Label → Bool} {a b : HandlerId}
    (h : (Lts.ofStep s (step go)).Run (fun s l => check s l = true) s t)
    (hcheck : ∀ s l, check s l = true → l.mover ∈ [none, some a, some b])
    {c : HandlerId} (hca : c ≠ a) (hcb : c ≠ b) : t.handler c = s.handler c := by
  refine h.invariant (I := fun t => t.handler c = s.handler c) ?_ rfl
  intro r l r' hr hok hstep
  rw [handler_step hstep, hr]
  intro hmover
  have hmem := hcheck r l hok
  rw [hmover] at hmem
  simp [hca, hcb] at hmem

/-- A server with one client and one camera, on `sampleEnvironment`. -/
def sampleServer : Server where
  store := Store.newStore sampleEnvironment
  disk := .notExist
  meeting := Meeting.new 5
  shaper := ⟨sampleEnvironment.limits, fun _ => ⟨375000, 60⟩, []⟩
  pubs := [⟨0, ⟨2, .camera, none⟩, ShapedPlane.vp8Track.codec, ShapedPlane.vp8Track, 20⟩]
  roomMembers := {1}
  sent _ := []
  handler _ := .idle
  stored := 0
  copy _ := ⟨0, sampleEnvironment⟩

theorem started_sampleServer : sampleServer.Started sampleStdlib where
  valid := rfl
  returned _ := rfl
  updates := rfl
  corresponds := by
    refine ⟨rfl, rfl, fun info hinfo => ?_, fun c _ msg hmsg => by cases hmsg⟩
    obtain rfl := List.mem_singleton.mp hinfo
    decide
  refs info hinfo info' hinfo' _ := by
    rw [List.mem_singleton.mp hinfo, List.mem_singleton.mp hinfo']
  copy _ := rfl

/-- Everything the handler does after its snapshot, in one go. -/
def applyAll (a : HandlerId) : List Label :=
  [.run a, .run a, .limiter 0, .limiter 0, .run a, .tell a 1, .run a]

/-- A condition on runs in which only the first two handlers take part. -/
def byTwo (l : Label) : Bool := l.mover ∈ [none, some 0, some 1]

theorem returned_of_byTwo {check : Server → Label → Bool} {s : Server}
    (h : (lts sampleStdlib sampleServer).Reachable (fun s l => check s l = true) s)
    (hcheck : ∀ s l, check s l = true → byTwo l = true) (h₀ : s.handler 0 = .idle)
    (h₁ : s.handler 1 = .idle) : s.Returned := by
  obtain ⟨start, rfl, hrun⟩ := h
  intro c
  by_cases hc₀ : c = 0
  · rw [hc₀, h₀]
  by_cases hc₁ : c = 1
  · rw [hc₁, h₁]
  exact handlers_of_run hrun (fun s l hok => by simpa [byTwo] using hcheck s l hok) hc₀ hc₁

/-- Two updates are stored before either handler takes its snapshot. -/
theorem corresponds_of_appliesInOrder_sample :
    ∃ s : Server, s.store.snapshot.maxParticipants = 7 ∧ s.Corresponds := by
  obtain ⟨s, hs, hobs⟩ := Lts.exists_reachable_of_execWhen
    (fun s l => s.appliesInOrder l && byTwo l) (step sampleStdlib) sampleServer
    ([.update 0 { maxParticipants := some 3, maxVideoBitrate := some 400000 } .succeed,
      .update 1 { maxParticipants := some 7 } .succeed, .run 0, .run 1] ++ applyAll 1 ++ applyAll 0)
    (fun s => (s.handler 0, s.handler 1, s.store.snapshot.maxParticipants)) (.idle, .idle, 7)
    (by decide +kernel)
  simp only [Prod.mk.injEq] at hobs
  refine ⟨s, hobs.2.2, corresponds_of_appliesInOrder started_sampleServer ?_ ?_⟩
  · exact hs.mono fun _ _ h => (Bool.and_eq_true _ _ ▸ h).1
  · exact returned_of_byTwo hs (fun _ _ h => (Bool.and_eq_true _ _ ▸ h).2) hobs.1 hobs.2.1

/-- The first handler takes its snapshot, the second stores and applies its
update, the first applies its own: three seats instead of seven. -/
theorem not_corresponds_of_staleSnapshot :
    ¬ ∀ start s : Server, start.Started sampleStdlib →
      (lts sampleStdlib start).Reachable Lts.Any s → s.Returned → s.Corresponds := by
  intro h
  obtain ⟨s, hs, hobs⟩ := Lts.exists_reachable_of_execWhen (fun _ l => byTwo l)
    (step sampleStdlib) sampleServer
    ([.update 0 { maxParticipants := some 3, maxVideoBitrate := some 400000 } .succeed, .run 0,
      .update 1 { maxParticipants := some 7 } .succeed, .run 1] ++ applyAll 1 ++ applyAll 0)
    (fun s => (s.handler 0, s.handler 1, s.meeting.max, s.store.snapshot.maxParticipants))
    (.idle, .idle, 3, 7) (by decide +kernel)
  simp only [Prod.mk.injEq] at hobs
  obtain ⟨h₀, h₁, hmax, hstored⟩ := hobs
  have hreturned := returned_of_byTwo hs (fun _ _ h => h) h₀ h₁
  have hcapacity := (h sampleServer s started_sampleServer hs.any hreturned).capacity
  rw [hmax, hstored] at hcapacity
  cases hcapacity

end Server

end SlowMeet.Settings
