import SlowMeet.Media.Feedback

/-!
# The caps of published streams

`internal/media/router.go`: `SetLimits`, the limiter of a publication and
the three critical sections of `Publish`, two that read the limits and the
one that registers the publication. A new publication inherits the limits it
read, so they are current only if no `SetLimits` slipped in between.

Of a `bitrateLimiter` the rate and the frame rate are modelled; the token
bucket they steer decides nothing here.
-/

namespace SlowMeet.Media

open Lib

/-- `Limits`. -/
structure Limits where
  maxAudioBitrate : Int
  maxVideoBitrate : Int
  maxVideoFPS : Int
  deriving DecidableEq, Repr

def rateForKind (kind : CodecType) (limits : Limits) : Int :=
  let bitrate := if kind = .audio then limits.maxAudioBitrate else limits.maxVideoBitrate
  if bitrate ≤ 0 then 0
  else
    let bytesPerSecond := bitrate.tdiv 8
    if bytesPerSecond = 0 then 1 else bytesPerSecond

theorem rateForKind_nonneg (kind : CodecType) (limits : Limits) : 0 ≤ rateForKind kind limits := by
  unfold rateForKind
  generalize (if kind = .audio then limits.maxAudioBitrate else limits.maxVideoBitrate) = bitrate
  dsimp only
  by_cases hpos : bitrate ≤ 0
  · rw [if_pos hpos]
  · rw [if_neg hpos]
    have h : 0 ≤ bitrate.tdiv 8 := Int.tdiv_nonneg (by omega) (by omega)
    split <;> omega

/-- The caps of a `bitrateLimiter`. -/
structure BitrateLimiter where
  rate : Int
  maxFPS : Int
  deriving DecidableEq, Repr

namespace BitrateLimiter

def setRate (l : BitrateLimiter) (rate : Int) : BitrateLimiter :=
  { l with rate := if rate ≤ 0 then 0 else rate }

def setFPS (l : BitrateLimiter) (fps : Int) : BitrateLimiter := { l with maxFPS := fps }

/-- `newBitrateLimiter`. -/
def new (rate : Int) : BitrateLimiter := setRate ⟨0, 0⟩ rate

@[simp] theorem setRate_maxFPS (l : BitrateLimiter) (rate : Int) :
    (l.setRate rate).maxFPS = l.maxFPS := rfl

@[simp] theorem setFPS_rate (l : BitrateLimiter) (fps : Int) : (l.setFPS fps).rate = l.rate := rfl

@[simp] theorem setFPS_maxFPS (l : BitrateLimiter) (fps : Int) : (l.setFPS fps).maxFPS = fps := rfl

@[simp] theorem setRate_rateForKind (l : BitrateLimiter) (kind : CodecType) (limits : Limits) :
    (l.setRate (rateForKind kind limits)).rate = rateForKind kind limits := by
  have h := rateForKind_nonneg kind limits
  show (if rateForKind kind limits ≤ 0 then 0 else rateForKind kind limits) = _
  split <;> omega

@[simp] theorem new_rateForKind (kind : CodecType) (limits : Limits) :
    (new (rateForKind kind limits)).rate = rateForKind kind limits := setRate_rateForKind ..

end BitrateLimiter

/-- A limiter that `SetLimits` has yet to update, with the limits of its
call; `rated` once `setRate` is done. -/
structure LimiterUpdate where
  call : Nat
  limits : Limits
  ref : Nat
  kind : CodecType
  rated : Bool
  deriving DecidableEq, Repr

/-- The limits of the router, the limiter of each publication by its
address, and the updates all `SetLimits` calls have left. -/
structure Shaper where
  limits : Limits
  limiter : Nat → BitrateLimiter
  updates : List LimiterUpdate

namespace Shaper

/-- The locked section of `SetLimits` over the registered publications. -/
def setLimits (s : Shaper) (call : Nat) (limits : Limits) (pubs : List PublicationInfo) : Shaper :=
  { s with
    limits := limits
    updates := s.updates ++ pubs.map fun info => ⟨call, limits, info.ref, info.remote.kind, false⟩ }

/-- The next limiter call of a pending update that has left the list:
`setRate`, and for video `setFPS` after it. -/
def applyUpdate (s : Shaper) (u : LimiterUpdate) : Shaper :=
  if u.rated then
    { s with limiter := Function.update s.limiter u.ref ((s.limiter u.ref).setFPS u.limits.maxVideoFPS) }
  else
    { s with
      limiter := Function.update s.limiter u.ref
        ((s.limiter u.ref).setRate (rateForKind u.kind u.limits))
      updates := if u.kind = .video then s.updates ++ [{ u with rated := true }] else s.updates }

/-- The updates of all calls wait in one list and any of them may go next:
the order of a call's updates is that of a map iteration. -/
def update (s : Shaper) (index : Nat) : Option Shaper :=
  (s.updates[index]?).map fun u => applyUpdate { s with updates := s.updates.eraseIdx index } u

/-- A pending update leaves the list before its call runs. -/
theorem update_eq_some {s t : Shaper} {index : Nat} (h : s.update index = some t) :
    ∃ u rest, s.updates[index]? = some u ∧ s.updates.Perm (u :: rest) ∧
      t = applyUpdate { s with updates := rest } u := by
  obtain ⟨u, hu, rfl⟩ := Option.map_eq_some_iff.mp h
  refine ⟨u, _, hu, ?_, rfl⟩
  obtain ⟨hlt, rfl⟩ := List.getElem?_eq_some_iff.mp hu
  exact (List.getElem_cons_eraseIdx_perm hlt).symm

/-- Only the frame rate of a video publication can come back, rated. -/
theorem mem_applyUpdate {s : Shaper} {u v : LimiterUpdate} :
    v ∈ (s.applyUpdate u).updates ↔
      v ∈ s.updates ∨ u.rated = false ∧ u.kind = .video ∧ v = { u with rated := true } := by
  unfold applyUpdate
  by_cases hrated : u.rated = true
  · simp [hrated]
  · by_cases hvideo : u.kind = .video <;> simp [hrated, hvideo]

@[simp] theorem applyUpdate_limits (s : Shaper) (u : LimiterUpdate) :
    (s.applyUpdate u).limits = s.limits := by
  unfold applyUpdate
  split <;> rfl

theorem applyUpdate_rate (s : Shaper) (u : LimiterUpdate) (ref : Nat) :
    ((s.applyUpdate u).limiter ref).rate =
      if ref = u.ref ∧ u.rated = false then rateForKind u.kind u.limits
      else (s.limiter ref).rate := by
  unfold applyUpdate
  by_cases href : ref = u.ref
  · subst href
    cases hrated : u.rated <;> simp
  · cases hrated : u.rated <;> simp [href]

theorem applyUpdate_maxFPS (s : Shaper) (u : LimiterUpdate) (ref : Nat) :
    ((s.applyUpdate u).limiter ref).maxFPS =
      if ref = u.ref ∧ u.rated = true then u.limits.maxVideoFPS else (s.limiter ref).maxFPS := by
  unfold applyUpdate
  by_cases href : ref = u.ref
  · subst href
    cases hrated : u.rated <;> simp
  · cases hrated : u.rated <;> simp [href]

end Shaper

/-- A `Publish` between its first reading of the limits and its locked
section: its arguments and the limiter it builds. -/
structure PublishCall where
  sourceID : ParticipantID
  role : SourceRole
  source : PeerId
  remote : TrackRemote
  layer : Option CameraLayer
  limiter : BitrateLimiter
  /-- `setFPS` has run, with the second reading. -/
  framed : Bool
  deriving DecidableEq

/-- What the call registers under the address `ref`. -/
def PublishCall.info (call : PublishCall) (ref : Nat) : PublicationInfo :=
  ⟨ref, Router.publicationKey call.sourceID call.role call.layer, call.remote.codec, call.remote,
    call.source⟩

/-- The router with its limits and the `Publish` calls in progress. -/
structure ShapedPlane where
  plane : Plane
  shaper : Shaper
  publishing : List PublishCall

namespace ShapedPlane

def new (limits : Limits) : ShapedPlane where
  plane := .new
  shaper := ⟨limits, fun _ => ⟨0, 0⟩, []⟩
  publishing := []

/-- The publications registered now. -/
def registered (s : ShapedPlane) : List PublicationInfo :=
  s.plane.router.pubs.values.map Publication.info

/-- `Publish` builds its limiter with the limits it reads. -/
def readRate (s : ShapedPlane) (sourceID : ParticipantID) (role : SourceRole) (source : PeerId)
    (remote : TrackRemote) (layer : Option CameraLayer) : ShapedPlane :=
  { s with publishing := s.publishing ++ [⟨sourceID, role, source, remote, layer,
      .new (rateForKind remote.kind s.shaper.limits), false⟩] }

/-- The second reading, for `setFPS`. -/
def readFPS (s : ShapedPlane) (index : Nat) : Option ShapedPlane :=
  match s.publishing[index]? with
  | some call =>
    if call.framed then none
    else some { s with publishing := s.publishing.eraseIdx index ++
      [{ call with limiter := call.limiter.setFPS s.shaper.limits.maxVideoFPS, framed := true }] }
  | none => none

/-- The locked section of `Publish`. The publication, if there is one,
takes the address the plane allocates next. -/
def register (s : ShapedPlane) (index : Nat) (failed : Finset ParticipantID) :
    Option ShapedPlane :=
  match s.publishing[index]? with
  | some call =>
    if call.framed then
      some { s with
        plane := s.plane.publish call.sourceID call.role (some call.source) (some call.remote)
          call.layer failed
        shaper := { s.shaper with
          limiter := Function.update s.shaper.limiter s.plane.fresh call.limiter }
        publishing := s.publishing.eraseIdx index }
    else none
  | none => none

/-- `Publish` runs through its own labels; `router` is any other operation. -/
inductive Label
  | router (l : Plane.Label)
  | readRate (sourceID : ParticipantID) (role : SourceRole) (source : PeerId)
      (remote : TrackRemote) (layer : Option CameraLayer)
  | readFPS (index : Nat)
  | register (index : Nat) (failed : Finset ParticipantID)
  | setLimits (call : Nat) (limits : Limits)
  | update (index : Nat)

def isPublish : Plane.Label → Bool
  | .publish _ _ _ _ _ _ => true
  | _ => false

def step (s : ShapedPlane) : Label → Option ShapedPlane
  | .router l => if isPublish l then none else (s.plane.step l).map fun plane => { s with plane }
  | .readRate sourceID role source remote layer =>
    some (s.readRate sourceID role source remote layer)
  | .readFPS index => s.readFPS index
  | .register index failed => s.register index failed
  | .setLimits call limits =>
    some { s with shaper := s.shaper.setLimits call limits s.registered }
  | .update index => (s.shaper.update index).map fun shaper => { s with shaper }

/-- Every interleaving of `Publish`, `SetLimits` and the other operations of
a router made with `limits`. -/
def lts (limits : Limits) : Lts ShapedPlane Label := Lts.ofStep (new limits) step

/-- Every registered publication is shaped by the current limits. -/
def LimitsInherited (s : ShapedPlane) : Prop :=
  ∀ key pub, s.plane.router.pubs.lookup key = some pub →
    (s.shaper.limiter pub.info.ref).rate = rateForKind pub.info.remote.kind s.shaper.limits ∧
      (pub.info.remote.kind = .video →
        (s.shaper.limiter pub.info.ref).maxFPS = s.shaper.limits.maxVideoFPS)

/-- No `SetLimits` starts while another one runs. -/
def setsAlone (s : ShapedPlane) : Label → Bool
  | .setLimits _ _ => s.shaper.updates.isEmpty
  | _ => true

/-- A `SetLimits` changes nothing that a `Publish` in progress has read. -/
def setsUnread (s : ShapedPlane) : Label → Bool
  | .setLimits _ limits =>
    s.publishing.all fun call =>
      rateForKind call.remote.kind limits = rateForKind call.remote.kind s.shaper.limits &&
        (call.remote.kind ≠ .video || !call.framed ||
          limits.maxVideoFPS = s.shaper.limits.maxVideoFPS)
  | _ => true

/-! ## What one section does -/

/-- A router operation other than `Publish` registers nothing, and no
operation reuses an address. -/
theorem router_step {m t : Plane} {l : Plane.Label} (hstep : m.step l = some t)
    (hl : ∀ a b c d e f, l ≠ .publish a b c d e f) :
    m.fresh ≤ t.fresh ∧ ∀ key pub, t.router.pubs.lookup key = some pub →
      ∃ old, m.router.pubs.lookup key = some old ∧ pub.info = old.info := by
  have hkeep : ∀ {r : Router}, Router.Releases m.router r → ∀ key pub,
      r.pubs.lookup key = some pub →
      ∃ old, m.router.pubs.lookup key = some old ∧ pub.info = old.info := by
    intro r hr key pub hpub
    obtain ⟨old, hold, hinfo, -⟩ := hr.pubs key pub hpub
    exact ⟨old, hold, hinfo⟩
  cases l with
  | register id peer offerer =>
    obtain rfl := Option.some.inj hstep
    exact ⟨Nat.le_refl _, hkeep (Router.releases_register id peer offerer)⟩
  | unregister id =>
    obtain rfl := Option.some.inj hstep
    exact ⟨Nat.le_refl _, hkeep (Router.releases_unregister id)⟩
  | publish a b c d e f => exact absurd rfl (hl a b c d e f)
  | setVideoSubscriptionsWithLayer receiverID ids layer =>
    obtain rfl := Option.some.inj hstep
    exact ⟨Nat.le_refl _,
      hkeep (Router.releases_setVideoSubscriptionsWithLayer receiverID ids layer)⟩
  | unpublish sourceID role =>
    obtain rfl := Option.some.inj hstep
    exact ⟨Nat.le_refl _, hkeep (Router.releases_removePublications _)⟩
  | setPublicationActive sourceID role active =>
    obtain rfl := Option.some.inj hstep
    exact ⟨Nat.le_refl _, hkeep (Router.releases_setPublicationActive sourceID role active)⟩
  | trackOp index ok =>
    obtain ⟨op, rest, -, -, rfl⟩ := Plane.trackOp_eq_some hstep
    cases op with
    | subscribe info id peer =>
      simp only [Plane.applyTrackOp]
      split
      · exact ⟨Nat.le_succ _, fun key pub hpub => ⟨pub, hpub, rfl⟩⟩
      · exact ⟨Nat.le_refl _, fun key pub hpub => ⟨pub, hpub, rfl⟩⟩
    | install info id peer sender =>
      simp only [Plane.applyTrackOp]
      split
      · refine ⟨Nat.le_succ _, fun key pub hpub => ?_⟩
        -- the publication gains a target and keeps its data
        rw [Router.installSubscription] at hpub
        split at hpub
        · exact ⟨pub, hpub, rfl⟩
        · rename_i old hold
          rw [GoMap.lookup_insert] at hpub
          split at hpub
          · rename_i hkey
            obtain rfl := Option.some.inj hpub
            exact ⟨old, hkey ▸ hold, rfl⟩
          · exact ⟨pub, hpub, rfl⟩
      · exact ⟨Nat.le_refl _, fun key pub hpub => ⟨pub, hpub, rfl⟩⟩
    | remove peer sender =>
      simp only [Plane.applyTrackOp]
      split <;> exact ⟨Nat.le_refl _, fun key pub hpub => ⟨pub, hpub, rfl⟩⟩
  | readStop index =>
    obtain ⟨info, -, rfl⟩ := Option.map_eq_some_iff.mp hstep
    exact ⟨Nat.le_refl _, hkeep (Router.releases_removePublications _)⟩

/-- The locked section of `Publish` leaves the publications registered
before, and maybe a new one at the next address. -/
theorem publish_infos (m : Plane) (call : PublishCall) (failed : Finset ParticipantID) :
    m.fresh ≤ (m.publish call.sourceID call.role (some call.source) (some call.remote) call.layer
      failed).fresh ∧
      ∀ key pub, (m.publish call.sourceID call.role (some call.source) (some call.remote) call.layer
        failed).router.pubs.lookup key = some pub →
        m.router.pubs.lookup key = some pub ∨ pub.info = call.info m.fresh ∧
          m.fresh < (m.publish call.sourceID call.role (some call.source) (some call.remote)
            call.layer failed).fresh := by
  simp only [Plane.publish]
  split
  · exact ⟨Nat.le_refl _, fun key pub hpub => Or.inl hpub⟩
  · rename_i d hd
    refine ⟨Nat.le_succ _, fun key pub hpub => ?_⟩
    obtain ⟨new, hp⟩ := Router.publish_published hd
    have hlookup : d.router.pubs.lookup key = some pub := hpub
    rw [hp.pubs, GoMap.lookup_insert] at hlookup
    split at hlookup
    · obtain rfl := Option.some.inj hlookup
      exact Or.inr ⟨hp.info_eq, Nat.lt_succ_self _⟩
    · exact Or.inl hlookup

/-! ## Runs -/

/-- What holds while every `SetLimits` runs alone and unread: whoever has
read the limits read the current ones, and a publication whose limiter lags
behind is among the pending updates. -/
structure Inheriting (s : ShapedPlane) : Prop where
  minted : ∀ key pub, s.plane.router.pubs.lookup key = some pub → pub.info.ref < s.plane.fresh
  unique : ∀ key pub key' pub', s.plane.router.pubs.lookup key = some pub →
    s.plane.router.pubs.lookup key' = some pub' → pub.info.ref = pub'.info.ref →
    pub.info = pub'.info
  pending : ∀ u ∈ s.shaper.updates, u.limits = s.shaper.limits ∧ u.ref < s.plane.fresh ∧
    ∀ key pub, s.plane.router.pubs.lookup key = some pub → pub.info.ref = u.ref →
      pub.info.remote.kind = u.kind
  read : ∀ call ∈ s.publishing,
    call.limiter.rate = rateForKind call.remote.kind s.shaper.limits ∧
      (call.remote.kind = .video → call.framed = true →
        call.limiter.maxFPS = s.shaper.limits.maxVideoFPS)
  rate : ∀ key pub, s.plane.router.pubs.lookup key = some pub →
    (s.shaper.limiter pub.info.ref).rate = rateForKind pub.info.remote.kind s.shaper.limits ∨
      ∃ u ∈ s.shaper.updates, u.ref = pub.info.ref ∧ u.rated = false
  frames : ∀ key pub, s.plane.router.pubs.lookup key = some pub →
    pub.info.remote.kind = .video →
    (s.shaper.limiter pub.info.ref).maxFPS = s.shaper.limits.maxVideoFPS ∨
      ∃ u ∈ s.shaper.updates, u.ref = pub.info.ref

namespace Inheriting

variable {s : ShapedPlane}

theorem new (limits : Limits) : (new limits).Inheriting := by
  refine ⟨?_, ?_, ?_, ?_, ?_, ?_⟩
  all_goals simp [ShapedPlane.new, Plane.new, Router.new]

/-- An operation that registers nothing. -/
theorem router (h : s.Inheriting) {plane : Plane} (hfresh : s.plane.fresh ≤ plane.fresh)
    (hinfos : ∀ key pub, plane.router.pubs.lookup key = some pub →
      ∃ old, s.plane.router.pubs.lookup key = some old ∧ pub.info = old.info) :
    Inheriting { s with plane } where
  minted key pub hpub := by
    obtain ⟨old, hold, hinfo⟩ := hinfos key pub hpub
    rw [hinfo]
    exact Nat.lt_of_lt_of_le (h.minted key old hold) hfresh
  unique key pub key' pub' hpub hpub' href := by
    obtain ⟨old, hold, hinfo⟩ := hinfos key pub hpub
    obtain ⟨old', hold', hinfo'⟩ := hinfos key' pub' hpub'
    rw [hinfo, hinfo'] at href ⊢
    exact h.unique key old key' old' hold hold' href
  pending u hu := by
    obtain ⟨hlimits, href, hkind⟩ := h.pending u hu
    refine ⟨hlimits, Nat.lt_of_lt_of_le href hfresh, fun key pub hpub hsame => ?_⟩
    obtain ⟨old, hold, hinfo⟩ := hinfos key pub hpub
    rw [hinfo] at hsame ⊢
    exact hkind key old hold hsame
  read := h.read
  rate key pub hpub := by
    obtain ⟨old, hold, hinfo⟩ := hinfos key pub hpub
    rw [hinfo]
    exact h.rate key old hold
  frames key pub hpub hvideo := by
    obtain ⟨old, hold, hinfo⟩ := hinfos key pub hpub
    rw [hinfo] at hvideo ⊢
    exact h.frames key old hold hvideo

/-- The calls in progress change, and each has read the current limits. -/
theorem reading (h : s.Inheriting) {publishing : List PublishCall}
    (hread : ∀ call ∈ publishing,
      call.limiter.rate = rateForKind call.remote.kind s.shaper.limits ∧
        (call.remote.kind = .video → call.framed = true →
          call.limiter.maxFPS = s.shaper.limits.maxVideoFPS)) :
    Inheriting { s with publishing } :=
  { h with read := hread }

/-- A `Publish` that read the current limits registers with them. -/
theorem register (h : s.Inheriting) {call : PublishCall} (hmem : call ∈ s.publishing)
    (hframed : call.framed = true) (failed : Finset ParticipantID) :
    Inheriting { s with
      plane := s.plane.publish call.sourceID call.role (some call.source) (some call.remote)
        call.layer failed
      shaper := { s.shaper with
        limiter := Function.update s.shaper.limiter s.plane.fresh call.limiter } } := by
  obtain ⟨hfresh, hinfos⟩ := publish_infos s.plane call failed
  obtain ⟨hrate, hframes⟩ := h.read call hmem
  -- the limiters of the publications registered before are not touched
  have hold : ∀ key pub, s.plane.router.pubs.lookup key = some pub →
      Function.update s.shaper.limiter s.plane.fresh call.limiter pub.info.ref =
        s.shaper.limiter pub.info.ref := by
    intro key pub hpub
    exact Function.update_of_ne (Nat.ne_of_lt (h.minted key pub hpub)) _ _
  refine ⟨?_, ?_, ?_, h.read, ?_, ?_⟩
  · intro key pub hpub
    obtain hpub | ⟨hnew, hlt⟩ := hinfos key pub hpub
    · exact Nat.lt_of_lt_of_le (h.minted key pub hpub) hfresh
    · rw [hnew]
      exact hlt
  · intro key pub key' pub' hpub hpub' href
    obtain hpub | ⟨hnew, -⟩ := hinfos key pub hpub
    · obtain hpub' | ⟨hnew', -⟩ := hinfos key' pub' hpub'
      · exact h.unique key pub key' pub' hpub hpub' href
      · have hlt := h.minted key pub hpub
        rw [href, hnew'] at hlt
        exact absurd hlt (Nat.lt_irrefl _)
    · obtain hpub' | ⟨hnew', -⟩ := hinfos key' pub' hpub'
      · have hlt := h.minted key' pub' hpub'
        rw [← href, hnew] at hlt
        exact absurd hlt (Nat.lt_irrefl _)
      · rw [hnew, hnew']
  · intro u hu
    obtain ⟨hlimits, href, hkind⟩ := h.pending u hu
    refine ⟨hlimits, Nat.lt_of_lt_of_le href hfresh, fun key pub hpub hsame => ?_⟩
    obtain hpub | ⟨hnew, -⟩ := hinfos key pub hpub
    · exact hkind key pub hpub hsame
    · rw [← hsame, hnew] at href
      exact absurd href (Nat.lt_irrefl _)
  · intro key pub hpub
    obtain hpub | ⟨hnew, -⟩ := hinfos key pub hpub
    · show (Function.update s.shaper.limiter s.plane.fresh call.limiter pub.info.ref).rate = _ ∨ _
      rw [hold key pub hpub]
      exact h.rate key pub hpub
    · left
      show (Function.update s.shaper.limiter s.plane.fresh call.limiter pub.info.ref).rate = _
      rw [hnew]
      exact (congrArg BitrateLimiter.rate (Function.update_self ..)).trans hrate
  · intro key pub hpub hvideo
    obtain hpub | ⟨hnew, -⟩ := hinfos key pub hpub
    · show (Function.update s.shaper.limiter s.plane.fresh call.limiter pub.info.ref).maxFPS = _ ∨ _
      rw [hold key pub hpub]
      exact h.frames key pub hpub hvideo
    · left
      show (Function.update s.shaper.limiter s.plane.fresh call.limiter pub.info.ref).maxFPS = _
      rw [hnew] at hvideo ⊢
      exact (congrArg BitrateLimiter.maxFPS (Function.update_self ..)).trans
        (hframes hvideo hframed)

/-- A `SetLimits` that runs alone and unread queues every publication. -/
theorem setLimits (h : s.Inheriting) {call : Nat} {limits : Limits}
    (halone : s.setsAlone (.setLimits call limits) = true)
    (hunread : s.setsUnread (.setLimits call limits) = true) :
    Inheriting { s with shaper := s.shaper.setLimits call limits s.registered } := by
  have hempty : s.shaper.updates = [] := List.isEmpty_iff.mp halone
  have hmem : ∀ u, u ∈ (s.shaper.setLimits call limits s.registered).updates ↔
      ∃ key pub, s.plane.router.pubs.lookup key = some pub ∧
        u = ⟨call, limits, pub.info.ref, pub.info.remote.kind, false⟩ := by
    intro u
    simp only [Shaper.setLimits, hempty, List.nil_append, registered, List.mem_map,
      GoMap.mem_values]
    constructor
    · rintro ⟨info, ⟨pub, ⟨key, hpub⟩, rfl⟩, rfl⟩
      exact ⟨key, pub, hpub, rfl⟩
    · rintro ⟨key, pub, hpub, rfl⟩
      exact ⟨pub.info, ⟨pub, ⟨key, hpub⟩, rfl⟩, rfl⟩
  refine ⟨h.minted, h.unique, ?_, ?_, ?_, ?_⟩
  · intro u hu
    obtain ⟨key, pub, hpub, rfl⟩ := (hmem u).mp hu
    refine ⟨rfl, h.minted key pub hpub, fun key' pub' hpub' href => ?_⟩
    rw [h.unique key' pub' key pub hpub' hpub href]
  · intro p hp
    obtain ⟨hrate, hframes⟩ := h.read p hp
    have hread := List.all_eq_true.mp hunread p hp
    simp only [Bool.and_eq_true, decide_eq_true_eq, Bool.or_eq_true, Bool.not_eq_true'] at hread
    obtain ⟨hsame, hfps⟩ := hread
    refine ⟨hrate.trans hsame.symm, fun hvideo hframed => ?_⟩
    obtain (hother | hunframed) | hfps := hfps
    · exact absurd hvideo hother
    · simp [hframed] at hunframed
    · exact (hframes hvideo hframed).trans hfps.symm
  · intro key pub hpub
    exact Or.inr ⟨_, (hmem _).mpr ⟨key, pub, hpub, rfl⟩, rfl, rfl⟩
  · intro key pub hpub hvideo
    exact Or.inr ⟨_, (hmem _).mpr ⟨key, pub, hpub, rfl⟩, rfl⟩

/-- One limiter call brings its publication up to date and leaves the others
as they are. -/
theorem applyUpdate (h : s.Inheriting) {u : LimiterUpdate} {rest : List LimiterUpdate}
    (hperm : s.shaper.updates.Perm (u :: rest)) :
    Inheriting { s with shaper := Shaper.applyUpdate { s.shaper with updates := rest } u } := by
  obtain ⟨hlimits, href, hkind⟩ := h.pending u (hperm.mem_iff.mpr List.mem_cons_self)
  have hrest : ∀ v ∈ rest, v ∈ s.shaper.updates := fun v hv =>
    hperm.mem_iff.mpr (List.mem_cons_of_mem _ hv)
  have hleft : ∀ v ∈ s.shaper.updates, v ≠ u → v ∈ rest := fun v hv hne =>
    (List.mem_cons.mp (hperm.mem_iff.mp hv)).resolve_left hne
  have hother : ∀ {pub : Publication} {l : BitrateLimiter}, pub.info.ref ≠ u.ref →
      Function.update s.shaper.limiter u.ref l pub.info.ref = s.shaper.limiter pub.info.ref :=
    fun hne => Function.update_of_ne hne _ _
  unfold Shaper.applyUpdate
  by_cases hrated : u.rated = true
  · rw [if_pos hrated]
    refine ⟨h.minted, h.unique, fun v hv => h.pending v (hrest v hv), h.read, ?_, ?_⟩
    · intro key pub hpub
      have hkeep : (Function.update s.shaper.limiter u.ref
          ((s.shaper.limiter u.ref).setFPS u.limits.maxVideoFPS) pub.info.ref).rate =
          (s.shaper.limiter pub.info.ref).rate := by
        by_cases hsame : pub.info.ref = u.ref
        · rw [hsame, Function.update_self, BitrateLimiter.setFPS_rate]
        · rw [hother hsame]
      obtain hrate | ⟨v, hv, hvref, hvrated⟩ := h.rate key pub hpub
      · exact Or.inl (hkeep.trans hrate)
      · refine Or.inr ⟨v, hleft v hv ?_, hvref, hvrated⟩
        rintro rfl
        simp [hrated] at hvrated
    · intro key pub hpub hvideo
      by_cases hsame : pub.info.ref = u.ref
      · left
        show (Function.update s.shaper.limiter u.ref _ pub.info.ref).maxFPS = _
        rw [hsame, Function.update_self, BitrateLimiter.setFPS_maxFPS, hlimits]
      · obtain hframes | ⟨v, hv, hvref⟩ := h.frames key pub hpub hvideo
        · left
          show (Function.update s.shaper.limiter u.ref _ pub.info.ref).maxFPS = _
          rw [hother hsame]
          exact hframes
        · refine Or.inr ⟨v, hleft v hv ?_, hvref⟩
          rintro rfl
          exact hsame hvref.symm
  · rw [if_neg hrated]
    have hkept : ∀ v ∈ rest, v ∈ (if u.kind = .video then rest ++ [{ u with rated := true }]
        else rest) := by
      intro v hv
      split
      · exact List.mem_append_left _ hv
      · exact hv
    refine ⟨h.minted, h.unique, ?_, h.read, ?_, ?_⟩
    · intro v hv
      have hcases : v ∈ rest ∨ v = { u with rated := true } := by
        dsimp only at hv
        split at hv
        · exact (List.mem_append.mp hv).imp_right List.mem_singleton.mp
        · exact Or.inl hv
      obtain hv | rfl := hcases
      · exact h.pending v (hrest v hv)
      · exact ⟨hlimits, href, hkind⟩
    · intro key pub hpub
      by_cases hsame : pub.info.ref = u.ref
      · left
        show (Function.update s.shaper.limiter u.ref _ pub.info.ref).rate = _
        rw [hsame, Function.update_self, BitrateLimiter.setRate_rateForKind, hlimits,
          hkind key pub hpub hsame]
      · obtain hrate | ⟨v, hv, hvref, hvrated⟩ := h.rate key pub hpub
        · left
          show (Function.update s.shaper.limiter u.ref _ pub.info.ref).rate = _
          rw [hother hsame]
          exact hrate
        · refine Or.inr ⟨v, hkept v (hleft v hv ?_), hvref, hvrated⟩
          rintro rfl
          exact hsame hvref.symm
    · intro key pub hpub hvideo
      by_cases hsame : pub.info.ref = u.ref
      · -- the frame rate of a video publication is still to come
        have hmem : { u with rated := true } ∈ (if u.kind = .video then
            rest ++ [{ u with rated := true }] else rest) := by
          rw [if_pos ((hkind key pub hpub hsame).symm.trans hvideo)]
          exact List.mem_append_right _ List.mem_cons_self
        exact Or.inr ⟨_, hmem, hsame.symm⟩
      · obtain hframes | ⟨v, hv, hvref⟩ := h.frames key pub hpub hvideo
        · left
          show (Function.update s.shaper.limiter u.ref _ pub.info.ref).maxFPS = _
          rw [hother hsame]
          exact hframes
        · refine Or.inr ⟨v, hkept v (hleft v hv ?_), hvref⟩
          rintro rfl
          exact hsame hvref.symm

end Inheriting

/-- One section keeps the caps in step with the limits. -/
theorem inheriting_step {s t : ShapedPlane} {l : Label} (h : s.Inheriting)
    (halone : s.setsAlone l = true) (hunread : s.setsUnread l = true)
    (hstep : s.step l = some t) : t.Inheriting := by
  cases l with
  | router l =>
    simp only [step] at hstep
    split at hstep
    · cases hstep
    rename_i hother
    have hl : ∀ a b c d e f, l ≠ .publish a b c d e f := by
      rintro a b c d e f rfl
      exact hother rfl
    obtain ⟨plane, hplane, rfl⟩ := Option.map_eq_some_iff.mp hstep
    obtain ⟨hfresh, hinfos⟩ := router_step hplane hl
    exact h.router hfresh hinfos
  | readRate sourceID role source remote layer =>
    obtain rfl := Option.some.inj hstep
    refine h.reading fun call hmem => ?_
    obtain hold | hnew := List.mem_append.mp hmem
    · exact h.read call hold
    · obtain rfl := List.mem_singleton.mp hnew
      exact ⟨BitrateLimiter.new_rateForKind .., fun _ hframed => by cases hframed⟩
  | readFPS index =>
    simp only [step, readFPS] at hstep
    split at hstep
    · rename_i call hcall
      split at hstep
      · cases hstep
      · obtain rfl := Option.some.inj hstep
        refine h.reading fun other hmem => ?_
        obtain hold | hnew := List.mem_append.mp hmem
        · exact h.read other (List.mem_of_mem_eraseIdx hold)
        · obtain rfl := List.mem_singleton.mp hnew
          exact ⟨(h.read call (List.mem_of_getElem? hcall)).1, fun _ _ => rfl⟩
    · cases hstep
  | register index failed =>
    simp only [step, register] at hstep
    split at hstep
    · rename_i call hcall
      split at hstep
      · rename_i hframed
        obtain rfl := Option.some.inj hstep
        have hcalled := h.register (List.mem_of_getElem? hcall) hframed failed
        exact hcalled.reading fun other hmem => h.read other (List.mem_of_mem_eraseIdx hmem)
      · cases hstep
    · cases hstep
  | setLimits call limits =>
    obtain rfl := Option.some.inj hstep
    exact h.setLimits halone hunread
  | update index =>
    obtain ⟨shaper, hshaper, rfl⟩ := Option.map_eq_some_iff.mp hstep
    obtain ⟨u, rest, -, hperm, rfl⟩ := Shaper.update_eq_some hshaper
    exact h.applyUpdate hperm

/-- **New publications inherit current limits**: whenever no `SetLimits` is
running, provided none overlapped another and none changed what a `Publish`
in progress had read. -/
theorem limitsInherited_of_setsUnread {limits : Limits} {s : ShapedPlane}
    (h : (lts limits).Reachable (fun s l => s.setsAlone l ∧ s.setsUnread l) s)
    (hupdates : s.shaper.updates = []) : s.LimitsInherited := by
  have hinv : s.Inheriting := Lts.Reachable.invariant_ofStep (Inheriting.new limits)
    (fun _ _ _ hi hok hstep => inheriting_step hi hok.1 hok.2 hstep) h
  intro key pub hpub
  constructor
  · obtain hrate | ⟨u, hu, -⟩ := hinv.rate key pub hpub
    · exact hrate
    · simp [hupdates] at hu
  · intro hvideo
    obtain hframes | ⟨u, hu, -⟩ := hinv.frames key pub hpub hvideo
    · exact hframes
    · simp [hupdates] at hu

/-- A camera track. -/
def vp8Track : TrackRemote := ⟨0, 7, .video, ⟨"video/VP8", 90000, 0, ""⟩, "stream", "track", ""⟩

/-- A camera is published under the first limits and halved by a `SetLimits`
that runs after it. -/
theorem limitsInherited_camera : ∃ s : ShapedPlane,
    (s.plane.router.pubs.size, s.shaper.limits.maxVideoBitrate) = (1, 400000) ∧
      s.LimitsInherited := by
  obtain ⟨s, hs, hobs⟩ := Lts.exists_reachable_of_execWhen
    (fun s l => s.setsAlone l && s.setsUnread l) step (new ⟨64000, 800000, 30⟩)
    [.readRate 2 .camera 20 vp8Track none, .readFPS 0, .register 0 ∅,
      .setLimits 0 ⟨64000, 400000, 15⟩, .update 0, .update 0]
    (fun s => (s.shaper.updates, s.plane.router.pubs.size, s.shaper.limits.maxVideoBitrate))
    ([], 1, 400000) (by decide)
  simp only [Prod.mk.injEq] at hobs
  have hreach : (lts ⟨64000, 800000, 30⟩).Reachable
      (fun s l => s.setsAlone l ∧ s.setsUnread l) s := hs.mono fun _ _ h => by simpa using h
  exact ⟨s, by simp [hobs.2], limitsInherited_of_setsUnread hreach hobs.1⟩

/-- The same `SetLimits` between the camera's readings and its registration:
the camera keeps the old caps. -/
theorem not_limitsInherited_of_setBetween :
    ¬ ∀ s, (lts ⟨64000, 800000, 30⟩).Reachable (fun s l => s.setsAlone l = true) s →
      s.publishing = [] → s.shaper.updates = [] → s.LimitsInherited := by
  intro h
  obtain ⟨s, hs, hobs⟩ := Lts.exists_reachable_of_execWhen setsAlone step
    (new ⟨64000, 800000, 30⟩)
    [.readRate 2 .camera 20 vp8Track none, .readFPS 0, .setLimits 0 ⟨64000, 400000, 15⟩,
      .register 0 ∅]
    (fun s => (s.publishing.isEmpty, s.shaper.updates,
      (s.plane.router.pubs.lookup ⟨2, .camera, none⟩).map fun pub =>
        ((s.shaper.limiter pub.info.ref).rate,
          rateForKind pub.info.remote.kind s.shaper.limits)))
    (true, [], some (100000, 50000)) (by decide)
  simp only [Prod.mk.injEq, Option.map_eq_some_iff] at hobs
  obtain ⟨hpublishing, hupdates, pub, hpub, hrate, hcurrent⟩ := hobs
  have hsame := (h s hs (List.isEmpty_iff.mp hpublishing) hupdates _ pub hpub).1
  rw [hrate, hcurrent] at hsame
  cases hsame

end ShapedPlane

end SlowMeet.Media
