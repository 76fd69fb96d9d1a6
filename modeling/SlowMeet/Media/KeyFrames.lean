import SlowMeet.Media.Machine

/-!
# Key-frame requests

The table `videoKeyFrameRetries` and the sections that read and change it.
A request asks its publication's source for a key frame at once, and twice
more from a timer as long as its entry stays in the table and its publication
is registered and has a subscriber.

`timer.Stop` cannot take back a callback that already waits for the lock, and
every callback looks its request up again: the timers here are never stopped.
-/

namespace SlowMeet.Media

open Lib

/-- `videoKeyFrameRequestKey`; the empty receiver of a publisher-wide request
is `none`. -/
structure VideoKeyFrameRequestKey where
  receiverID : Option ParticipantID
  publicationKey : PublicationKey
  deriving DecidableEq, Repr

/-- A `*videoKeyFrameRetry`; `ref` is the pointer. -/
structure VideoKeyFrameRetry where
  ref : Nat
  publication : PublicationInfo
  remaining : Nat
  deriving DecidableEq, Repr

def videoKeyFrameRequestCount : Nat := 3

namespace Publication

/-- `hasVideoKeyFrameSubscriber`. -/
def hasVideoKeyFrameSubscriber (pub : Publication) : Bool := !pub.senders.values.isEmpty

/-- The publications a request goes to: active cameras and screens. -/
def asksKeyFrames (pub : Publication) : Bool :=
  (pub.role = .camera || pub.role = .screen) && !pub.paused

end Publication

/-- The record of a publication, while it is the one registered under its
key. -/
def Router.current (r : Router) (info : PublicationInfo) : Option Publication :=
  (r.pubs.lookup info.key).filter fun pub => pub.info = info

/-- The table with its timers, and the picture-loss indications the requests
have decided on: `writes` are still to be written. -/
structure VideoKeyFrames where
  retries : GoMap VideoKeyFrameRequestKey VideoKeyFrameRetry
  timers : List (VideoKeyFrameRequestKey × Nat)
  writes : List Nat
  written : List Nat
  fresh : Nat

namespace VideoKeyFrames

def new : VideoKeyFrames where
  retries := ∅
  timers := []
  writes := []
  written := []
  fresh := 0

/-! ## Requests -/

/-- A new request: its entry, its timer and its first write. -/
def enter (k : VideoKeyFrames) (key : VideoKeyFrameRequestKey) (pub : PublicationInfo) :
    VideoKeyFrames :=
  { k with
    retries := k.retries.insert key ⟨k.fresh, pub, videoKeyFrameRequestCount - 1⟩
    timers := k.timers ++ [(key, k.fresh)]
    writes := k.writes ++ [k.fresh]
    fresh := k.fresh + 1 }

def scheduleVideoKeyFrameRetryLocked (k : VideoKeyFrames) (pub : PublicationInfo)
    (receiverID : Option ParticipantID) : VideoKeyFrames :=
  let key : VideoKeyFrameRequestKey := ⟨receiverID, pub.key⟩
  match k.retries.lookup key with
  | some existing => if existing.publication = pub then k else k.enter key pub
  | none => k.enter key pub

def requestVideoKeyFrame (k : VideoKeyFrames) (r : Router) (receiverID : ParticipantID) :
    VideoKeyFrames :=
  (r.pubs.values.filter fun pub =>
    pub.asksKeyFrames && (pub.senders.lookup receiverID).isSome).foldl
    (fun k pub => k.scheduleVideoKeyFrameRetryLocked pub.info (some receiverID)) k

def requestVideoKeyFrameForPublisher (k : VideoKeyFrames) (r : Router)
    (sourceID : ParticipantID) : VideoKeyFrames :=
  (r.pubs.values.filter fun pub =>
    pub.sourceID = sourceID && pub.asksKeyFrames && pub.hasVideoKeyFrameSubscriber).foldl
    (fun k pub => k.scheduleVideoKeyFrameRetryLocked pub.info none) k

/-- It does not look whether the publication is still registered. -/
def requestVideoKeyFrameForPublication (k : VideoKeyFrames) (pub : PublicationInfo)
    (receiverID : ParticipantID) : VideoKeyFrames :=
  k.scheduleVideoKeyFrameRetryLocked pub (some receiverID)

/-! ## The timer's callback -/

/-- Whether a retry has anyone left to ask for. -/
def hasSubscriber (r : Router) (key : VideoKeyFrameRequestKey) (pub : PublicationInfo) : Bool :=
  match r.current pub, key.receiverID with
  | some pub, some receiverID => (pub.senders.lookup receiverID).isSome
  | some pub, none => pub.hasVideoKeyFrameSubscriber
  | none, _ => false

/-- `retryVideoKeyFrame`, for the request `ref`. -/
def retryVideoKeyFrame (k : VideoKeyFrames) (r : Router) (key : VideoKeyFrameRequestKey)
    (ref : Nat) : VideoKeyFrames :=
  match k.retries.lookup key with
  | none => k
  | some request =>
    if request.ref ≠ ref then k
    else if hasSubscriber r key request.publication then
      if request.remaining - 1 = 0 then
        { k with retries := k.retries.erase key, writes := k.writes ++ [ref] }
      else
        { k with
          retries := k.retries.insert key { request with remaining := request.remaining - 1 }
          timers := k.timers ++ [(key, ref)]
          writes := k.writes ++ [ref] }
    else { k with retries := k.retries.erase key }

/-- The next callback to get the lock. -/
def fire (k : VideoKeyFrames) (r : Router) (index : Nat) : Option VideoKeyFrames :=
  (k.timers[index]?).map fun timer =>
    { k with timers := k.timers.eraseIdx index }.retryVideoKeyFrame r timer.1 timer.2

/-- `writeVideoKeyFrame`. -/
def write (k : VideoKeyFrames) (index : Nat) : Option VideoKeyFrames :=
  (k.writes[index]?).map fun ref =>
    { k with writes := k.writes.eraseIdx index, written := k.written ++ [ref] }

/-! ## Cancelling -/

def cancelVideoKeyFrameRetriesForReceiverLocked (k : VideoKeyFrames)
    (receiverID : ParticipantID) : VideoKeyFrames :=
  { k with retries := GoMap.filterEntries (fun key _ => key.receiverID ≠ some receiverID) k.retries }

def cancelVideoKeyFrameRetriesForPublicationLocked (k : VideoKeyFrames) (pub : PublicationInfo) :
    VideoKeyFrames :=
  { k with retries := GoMap.filterEntries (fun _ request => request.publication ≠ pub) k.retries }

def cancelVideoKeyFramePublisherRetryWithoutSubscribersLocked (k : VideoKeyFrames)
    (pub : Publication) : VideoKeyFrames :=
  if pub.hasVideoKeyFrameSubscriber then k
  else { k with retries := k.retries.erase ⟨none, pub.info.key⟩ }

/-! What the sections of the router cancel, under their names. -/

def unregister (k : VideoKeyFrames) (r : Router) (id : ParticipantID) : VideoKeyFrames :=
  r.pubs.values.foldl (fun k pub =>
      if pub.sourceID = id then k.cancelVideoKeyFrameRetriesForPublicationLocked pub.info
      else k.cancelVideoKeyFramePublisherRetryWithoutSubscribersLocked (pub.removeTarget id))
    (k.cancelVideoKeyFrameRetriesForReceiverLocked id)

/-- The publication that `Publish` replaces. -/
def publish (k : VideoKeyFrames) (r : Router) (key : PublicationKey) :
    Option PeerId → Option TrackRemote → VideoKeyFrames
  | some _, some remote =>
    match r.pubs.lookup key with
    | some existing =>
      if existing.info.remote.ref = remote.ref then k
      else k.cancelVideoKeyFrameRetriesForPublicationLocked existing.info
    | none => k
  | _, _ => k

def setVideoSubscriptionsWithLayer (k : VideoKeyFrames) (r : Router)
    (receiverID : ParticipantID) (ids : List ParticipantID) (layer : Option CameraLayer) :
    VideoKeyFrames :=
  let router := (r.setVideoSubscriptionsWithLayer receiverID ids layer).router
  (r.pubs.values.filter fun pub =>
    pub.sourceID ≠ receiverID && !router.shouldSubscribeLocked pub.info.key receiverID &&
      (pub.tracks.lookup receiverID).isSome).foldl
    (fun k pub =>
      k.cancelVideoKeyFramePublisherRetryWithoutSubscribersLocked (pub.removeTarget receiverID)) k

def unpublish (k : VideoKeyFrames) (r : Router) (sourceID : ParticipantID) (role : SourceRole) :
    VideoKeyFrames :=
  (r.pubs.values.filter fun pub => pub.sourceID = sourceID && pub.role = role).foldl
    (fun k pub => k.cancelVideoKeyFrameRetriesForPublicationLocked pub.info) k

def removePublication (k : VideoKeyFrames) (r : Router) : Option PublicationInfo → VideoKeyFrames
  | some info =>
    if (r.current info).isSome then k.cancelVideoKeyFrameRetriesForPublicationLocked info else k
  | none => k

def cancel (k : VideoKeyFrames) (m : Plane) : Plane.Label → VideoKeyFrames
  | .unregister id => k.unregister m.router id
  | .publish sourceID role source remote layer _ =>
    k.publish m.router (Router.publicationKey sourceID role layer) source remote
  | .setVideoSubscriptionsWithLayer receiverID ids layer =>
    k.setVideoSubscriptionsWithLayer m.router receiverID ids layer
  | .unpublish sourceID role => k.unpublish m.router sourceID role
  | .readStop index => k.removePublication m.router m.forwards[index]?
  | .register _ _ _ | .setPublicationActive _ _ _ | .trackOp _ _ => k

end VideoKeyFrames

end SlowMeet.Media
