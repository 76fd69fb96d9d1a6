import Mathlib.Data.Finset.Basic
import SlowMeet.Meeting

/-!
# The media router

`internal/media/router.go`: the maps behind `Router.mu` and the operations
on them. Each function is the locked section of the Go method of its name;
what the method does after it releases the lock (pion calls, renegotiation
callbacks) is returned as data, and `SlowMeet.Media.Machine` runs it.

A `*publication` is its record together with the address `ref`: the map
`pubs` owns the record, and code that kept the pointer keeps the immutable
part, `PublicationInfo`. The key-frame retry table and the bitrate limiters
decide nothing about subscriptions or feedback and are not part of this
state.
-/

namespace SlowMeet.Media

open Lib

/-! ## Data -/

/-- A `*webrtc.Peer`. -/
abbrev PeerId := Nat

/-- An `Offerer` closure: the connection whose `sendOffer` it runs. -/
abbrev Offerer := Nat

inductive SourceRole
  | audio
  | camera
  | screen
  deriving DecidableEq, Repr

/-- `cameraLayersByQuality`; the empty layer of the source is `none`. -/
inductive CameraLayer
  | low
  | medium
  | high
  deriving DecidableEq, Repr

/-- `pion.RTPCodecType`. -/
inductive CodecType
  | audio
  | video
  deriving DecidableEq, Repr

/-- `pion.RTPCodecCapability`, the fields `sameCodecCapability` compares. -/
structure RTPCodecCapability where
  mimeType : String
  clockRate : Nat
  channels : Nat
  sdpFmtpLine : String
  deriving DecidableEq, Repr

/-- A `*pion.TrackRemote`; `ref` is the pointer. -/
structure TrackRemote where
  ref : Nat
  ssrc : UInt32
  kind : CodecType
  codec : RTPCodecCapability
  streamID : String
  trackID : String
  rid : String
  deriving DecidableEq, Repr

/-- A `*pion.RTPSender`; `peer` is the peer connection that created it. -/
structure RTPSender where
  ref : Nat
  peer : PeerId
  deriving DecidableEq, Repr

/-- `publicationKey`. The source joins the parts with `/`; the role and the
layer are drawn from disjoint fixed words, so the parts determine the key. -/
structure PublicationKey where
  sourceID : ParticipantID
  role : SourceRole
  layer : Option CameraLayer
  deriving DecidableEq, Repr

/-- The fields of a `publication` that `Publish` sets once. `source` and
`remote` are not nil: `Publish` returns before it builds one otherwise. -/
structure PublicationInfo where
  ref : Nat
  key : PublicationKey
  codec : RTPCodecCapability
  remote : TrackRemote
  source : PeerId
  deriving DecidableEq, Repr

/-- One receiver's egress target. -/
structure PublicationTarget where
  lastSentLayer : Option CameraLayer := none
  deriving DecidableEq, Repr

/-- A registered publication: its egress targets and their senders, which
every operation adds and deletes together. -/
structure Publication where
  info : PublicationInfo
  tracks : GoMap ParticipantID PublicationTarget
  senders : GoMap ParticipantID RTPSender
  paused : Bool
  paired : ∀ id, (tracks.lookup id).isSome = (senders.lookup id).isSome

namespace Publication

/-- The publication `Publish` builds. -/
def start (info : PublicationInfo) : Publication where
  info := info
  tracks := ∅
  senders := ∅
  paused := false
  paired _ := rfl

def sourceID (pub : Publication) : ParticipantID := pub.info.key.sourceID

def role (pub : Publication) : SourceRole := pub.info.key.role

/-- Enter `targetID` with a new target on `sender`. -/
def addTarget (pub : Publication) (targetID : ParticipantID) (sender : RTPSender) :
    Publication :=
  { pub with
    tracks := pub.tracks.insert targetID {}
    senders := pub.senders.insert targetID sender
    paired id := by
      have h := pub.paired id
      by_cases hid : id = targetID <;> simp_all [GoMap.lookup_insert] }

/-- The two map deletions of `removeTargetLocked`. -/
def removeTarget (pub : Publication) (targetID : ParticipantID) : Publication :=
  { pub with
    tracks := pub.tracks.erase targetID
    senders := pub.senders.erase targetID
    paired id := by
      have h := pub.paired id
      by_cases hid : id = targetID <;> simp_all [GoMap.lookup_erase] }

variable (pub : Publication) (targetID id : ParticipantID) (sender : RTPSender)

@[simp] theorem start_info (info : PublicationInfo) : (start info).info = info := rfl

@[simp] theorem start_senders (info : PublicationInfo) :
    (start info).senders.lookup id = none := rfl

@[simp] theorem addTarget_info : (pub.addTarget targetID sender).info = pub.info := rfl

@[simp] theorem removeTarget_info : (pub.removeTarget targetID).info = pub.info := rfl

theorem addTarget_senders :
    (pub.addTarget targetID sender).senders.lookup id =
      if id = targetID then some sender else pub.senders.lookup id :=
  GoMap.lookup_insert ..

theorem removeTarget_senders :
    (pub.removeTarget targetID).senders.lookup id =
      if id = targetID then none else pub.senders.lookup id :=
  GoMap.lookup_erase ..

/-- A target is present exactly when it has a sender. -/
theorem tracks_isNone : (pub.tracks.lookup id).isNone = (pub.senders.lookup id).isNone := by
  have h := pub.paired id
  cases ht : pub.tracks.lookup id <;> cases hs : pub.senders.lookup id <;> simp_all

end Publication

/-- The address of an `atomic.Uint32` that holds a source SSRC. -/
abbrev Holder := Nat

structure Router where
  peers : GoMap ParticipantID PeerId
  offerers : GoMap ParticipantID (Option Offerer)
  pubs : GoMap PublicationKey Publication
  videoSubscriptions : GoMap ParticipantID (Finset ParticipantID)
  videoSubscriptionsSet : GoMap ParticipantID Bool
  cameraLayers : GoMap ParticipantID CameraLayer
  senderSourceSSRC : GoMap RTPSender Holder
  /-- The contents of the SSRC holders, shared with the relay goroutines. -/
  holders : Holder → UInt32

/-- One pion egress operation decided under the router lock. `subscribe` and
`remove` are the two forms of the source's record; `install` is a subscribe
whose `AddTrack` has returned and whose validation is still to come. -/
inductive PendingTrackOp
  | subscribe (pub : PublicationInfo) (targetID : ParticipantID) (peer : PeerId)
  | install (pub : PublicationInfo) (targetID : ParticipantID) (peer : PeerId)
      (sender : RTPSender)
  | remove (peer : PeerId) (sender : RTPSender)
  deriving DecidableEq, Repr

/-- What a locked section decides: the new maps, the pion operations to
apply after the lock is released and the renegotiations to dispatch. -/
structure Decision where
  router : Router
  ops : List PendingTrackOp
  offers : List (ParticipantID × Offerer)

namespace Router

/-- `NewRouter`. -/
def new : Router where
  peers := ∅
  offerers := ∅
  pubs := ∅
  videoSubscriptions := ∅
  videoSubscriptionsSet := ∅
  cameraLayers := ∅
  senderSourceSSRC := ∅
  holders _ := 0

/-! ## Helpers -/

def cameraLayerFromRID (rid : String) : Option CameraLayer :=
  if rid = "low" ∨ rid = "q" then some .low
  else if rid = "medium" ∨ rid = "h" then some .medium
  else if rid = "high" ∨ rid = "f" then some .high
  else none

def sameCodecCapability (a b : RTPCodecCapability) : Bool :=
  a.mimeType == b.mimeType && a.clockRate == b.clockRate &&
    a.channels == b.channels && a.sdpFmtpLine == b.sdpFmtpLine

def publicationKey (sourceID : ParticipantID) (role : SourceRole)
    (layer : Option CameraLayer) : PublicationKey :=
  ⟨sourceID, role, if role = .camera then layer else none⟩

def shouldSubscribeLocked (r : Router) (key : PublicationKey)
    (receiverID : ParticipantID) : Bool :=
  if key.sourceID = receiverID then false
  else if key.role ≠ .camera ∨ (r.videoSubscriptionsSet.lookup receiverID).getD false = false then
    true
  else
    key.sourceID ∈ (r.videoSubscriptions.lookup receiverID).getD ∅

/-- The subscription `queueSubscriptionLocked` queues, if any. -/
def queueSubscriptionLocked (r : Router) (pub : Publication) (targetID : ParticipantID) :
    Option PendingTrackOp :=
  if (pub.tracks.lookup targetID).isSome then none
  else (r.peers.lookup targetID).map fun peer => .subscribe pub.info targetID peer

/-- The non-nil offerer registered for `id`. -/
def offererOf (r : Router) (id : ParticipantID) : Option Offerer :=
  (r.offerers.lookup id).getD none

/-- The `senderSourceSSRC` deletions of `removeTargetLocked`, for the
targets a loop removes. -/
def forgetSenders (r : Router) (senders : List RTPSender) : Router :=
  { r with senderSourceSSRC := senders.foldl (fun m sender => m.erase sender) r.senderSourceSSRC }

/-- `removePublicationLocked`: release every sender of `pub`. The caller
drops the publication itself from `pubs`, here or by overwriting it. -/
def removePublicationLocked (r : Router) (pub : Publication) : Decision where
  router := r.forgetSenders pub.senders.values
  ops := pub.senders.pairs.filterMap fun e =>
    (r.peers.lookup e.1).map fun peer => .remove peer e.2
  offers := pub.senders.pairs.filterMap fun e =>
    if (r.peers.lookup e.1).isSome then (r.offererOf e.1).map fun offerer => (e.1, offerer)
    else none

/-- The shared loop of `Unregister`, `Unpublish` and `removePublication`:
release and delete every registered publication that meets `gone`. -/
def removePublicationsLocked (r : Router) (gone : Publication → Bool) : Decision :=
  let removed := r.pubs.values.filter gone
  { router :=
      { r.forgetSenders (removed.flatMap fun pub => pub.senders.values) with
        pubs := GoMap.filter (fun pub => !gone pub) r.pubs }
    ops := removed.flatMap fun pub => (r.removePublicationLocked pub).ops
    offers := removed.flatMap fun pub => (r.removePublicationLocked pub).offers }

/-! ## The operations -/

def register (r : Router) (id : ParticipantID) (peer : PeerId) (offerer : Option Offerer) :
    Decision :=
  let r := { r with peers := r.peers.insert id peer, offerers := r.offerers.insert id offerer }
  let ops := r.pubs.values.filterMap fun pub => r.queueSubscriptionLocked pub id
  { router := r
    ops := ops
    offers := if ops.isEmpty then [] else (offerer.map fun offer => (id, offer)).toList }

def unregister (r : Router) (id : ParticipantID) : Decision :=
  let r := { r with
    peers := r.peers.erase id
    offerers := r.offerers.erase id
    videoSubscriptions :=
      GoMap.mapValues (fun subscriptions => subscriptions.erase id) (r.videoSubscriptions.erase id)
    videoSubscriptionsSet := r.videoSubscriptionsSet.erase id
    cameraLayers := r.cameraLayers.erase id }
  let d := r.removePublicationsLocked fun pub => pub.sourceID = id
  let senders := d.router.pubs.values.filterMap fun pub => pub.senders.lookup id
  { d with
    router :=
      { d.router.forgetSenders senders with
        pubs := GoMap.mapValues (fun pub => pub.removeTarget id) d.router.pubs } }

/-- `holder.Store`: write `ssrc` to the SSRC holder of `sender`, if it has one. -/
def storeSourceSSRC (r : Router) (sender : RTPSender) (ssrc : UInt32) : Router :=
  match r.senderSourceSSRC.lookup sender with
  | some holder => { r with holders := Function.update r.holders holder ssrc }
  | none => r

/-- One round of the loop of `migrateTargetsLocked`: the existing
publication's target `targetID` moves to the replacement when its sender's
`ReplaceTrack` succeeds, and the SSRC holder of that sender follows. -/
def migrateTarget (replaceOk : ParticipantID → Bool)
    (state : Router × Publication × Publication) (targetID : ParticipantID) :
    Router × Publication × Publication :=
  let (r, existing, replacement) := state
  match existing.senders.lookup targetID with
  | none => state
  | some sender =>
    if replaceOk targetID then
      (r.storeSourceSSRC sender replacement.info.remote.ssrc,
        existing.removeTarget targetID,
        replacement.addTarget targetID sender)
    else state

/-- `migrateTargetsLocked`; `replaceOk` says whose `ReplaceTrack` succeeds. -/
def migrateTargetsLocked (r : Router) (existing replacement : Publication)
    (replaceOk : ParticipantID → Bool) : Router × Publication × Publication :=
  existing.tracks.keys.foldl (migrateTarget replaceOk) (r, existing, replacement)

/-- The locked section of `Publish` for the publication `info` describes, or
`none` where the identical track re-fired and there is nothing to replace. -/
def publish (r : Router) (info : PublicationInfo) (replaceOk : ParticipantID → Bool) :
    Option Decision :=
  let pub := Publication.start info
  let finish (d : Decision) (pub : Publication) : Decision :=
    let r := { d.router with pubs := d.router.pubs.insert info.key pub }
    let ops := r.peers.keys.filterMap fun id => r.queueSubscriptionLocked pub id
    let offers := r.peers.keys.filterMap fun id =>
      if (r.queueSubscriptionLocked pub id).isSome then
        (r.offererOf id).map fun offerer => (id, offerer)
      else none
    { router := r, ops := d.ops ++ ops, offers := d.offers ++ offers }
  match r.pubs.lookup info.key with
  | none => some (finish ⟨r, [], []⟩ pub)
  | some existing =>
    if existing.info.remote.ref = info.remote.ref then none
    else
      let (r, existing, pub) :=
        if sameCodecCapability existing.info.codec info.codec then
          r.migrateTargetsLocked existing pub replaceOk
        else (r, existing, pub)
      some (finish (r.removePublicationLocked existing) pub)

def setVideoSubscriptionsWithLayer (r : Router) (receiverID : ParticipantID)
    (cameraParticipantIDs : List ParticipantID) (cameraLayer : Option CameraLayer) : Decision :=
  let desired := (cameraParticipantIDs.filter fun id => id ≠ receiverID).toFinset
  let r := { r with
    videoSubscriptions := r.videoSubscriptions.insert receiverID desired
    videoSubscriptionsSet := r.videoSubscriptionsSet.insert receiverID true
    cameraLayers := r.cameraLayers.insert receiverID (cameraLayer.getD .medium) }
  let others := r.pubs.values.filter fun pub => pub.sourceID ≠ receiverID
  let unwanted (pub : Publication) : Bool :=
    pub.sourceID ≠ receiverID && !r.shouldSubscribeLocked pub.info.key receiverID &&
      (pub.tracks.lookup receiverID).isSome
  let added := (others.filter fun pub => r.shouldSubscribeLocked pub.info.key receiverID).filterMap
    fun pub => r.queueSubscriptionLocked pub receiverID
  let dropped := r.pubs.values.filter unwanted
  let senders := dropped.filterMap fun pub => pub.senders.lookup receiverID
  let removed := senders.filterMap fun sender =>
    (r.peers.lookup receiverID).map fun peer => PendingTrackOp.remove peer sender
  { router :=
      { r.forgetSenders senders with
        pubs := GoMap.mapValues
          (fun pub => if unwanted pub then pub.removeTarget receiverID else pub) r.pubs }
    ops := added ++ removed
    offers :=
      if added.isEmpty && dropped.isEmpty then []
      else ((r.offererOf receiverID).map fun offer => (receiverID, offer)).toList }

def unpublish (r : Router) (sourceID : ParticipantID) (role : SourceRole) : Decision :=
  r.removePublicationsLocked fun pub => pub.sourceID = sourceID && pub.role = role

/-- `removePublication`: only if this very publication is still registered. -/
def removePublication (r : Router) (info : PublicationInfo) : Decision :=
  r.removePublicationsLocked fun pub => pub.info.key = info.key && pub.info.ref = info.ref

def setPublicationActive (r : Router) (sourceID : ParticipantID) (role : SourceRole)
    (active : Bool) : Router :=
  { r with
    pubs := GoMap.mapValues
      (fun pub => if pub.sourceID = sourceID ∧ pub.role = role then { pub with paused := !active }
        else pub) r.pubs }

/-! ## The revalidation of `applyTrackOps` -/

/-- Whether a finished `AddTrack` may still be installed. -/
def subscriptionValid (r : Router) (info : PublicationInfo) (targetID : ParticipantID)
    (peer : PeerId) : Bool :=
  match r.pubs.lookup info.key with
  | none => false
  | some pub =>
    pub.info.ref = info.ref && r.peers.lookup targetID = some peer &&
      (pub.tracks.lookup targetID).isNone && r.shouldSubscribeLocked pub.info.key targetID

/-- Install the sender of a validated subscription; `holder` is the freshly
allocated SSRC holder. -/
def installSubscription (r : Router) (info : PublicationInfo) (targetID : ParticipantID)
    (sender : RTPSender) (holder : Holder) : Router :=
  match r.pubs.lookup info.key with
  | none => r
  | some pub =>
    { r with
      pubs := r.pubs.insert info.key (pub.addTarget targetID sender)
      senderSourceSSRC := r.senderSourceSSRC.insert sender holder
      holders := Function.update r.holders holder info.remote.ssrc }

end Router

end SlowMeet.Media
