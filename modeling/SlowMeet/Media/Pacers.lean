import SlowMeet.Media.KeyFrames

/-!
# The pacers

Each video publication has a pacer, which takes its frames one at a time:
it resolves the receivers of the frame under the lock, hands them the packets
and asks for a key frame for every receiver that just entered the layer. The
frames, the mailboxes and the limiter decide nothing here but when a pacer
goes on.

The runs of `Forwarding.lts` are the interleavings of the pacers and the
retry timers with every operation of the router.
-/

namespace SlowMeet.Media

open Lib

/-- An instant, in nanoseconds. -/
abbrev Instant := Nat

/-- `cameraLayerActivityWindow`. -/
def cameraLayerActivityWindow : Nat := 3000000000

def cameraLayersByQuality : List CameraLayer := [.low, .medium, .high]

def cameraLayerRank : CameraLayer → Nat
  | .low => 0
  | .medium => 1
  | .high => 2

/-- `lastPacketAt` is zero before the first packet. -/
def hasRecentPacket (lastPacketAt now : Instant) : Bool :=
  lastPacketAt ≠ 0 && now ≤ lastPacketAt + cameraLayerActivityWindow

namespace Publication

/-- Rewrite the egress targets in place. -/
def mark (pub : Publication) (f : ParticipantID → PublicationTarget → PublicationTarget) :
    Publication :=
  { pub with
    tracks := GoMap.mapEntries f pub.tracks
    paired id := by simp [pub.paired id] }

end Publication

namespace Router

/-! ## The layer of a receiver -/

/-- The locals of the loop of `selectedCameraLayerLocked`. -/
structure Selection where
  selected : Option CameraLayer
  distance : Nat
  rank : Nat

/-- The layer is published by the source, subscribed by the receiver and
sent lately; `lastPacketAt` is the field of the publication with an address. -/
def candidate (r : Router) (lastPacketAt : Nat → Instant) (sourceID receiverID : ParticipantID)
    (now : Instant) (layer : CameraLayer) : Bool :=
  match r.pubs.lookup (publicationKey sourceID .camera (some layer)) with
  | none => false
  | some pub =>
    (pub.tracks.lookup receiverID).isSome && hasRecentPacket (lastPacketAt pub.info.ref) now

/-- One round of the loop of `selectedCameraLayerLocked`. -/
def consider (candidate : CameraLayer → Bool) (preferredRank : Nat) (best : Selection)
    (layer : CameraLayer) : Selection :=
  if candidate layer then
    let rank := cameraLayerRank layer
    let distance := (rank - preferredRank) + (preferredRank - rank)
    if distance < best.distance || (distance = best.distance && rank < best.rank) then
      ⟨some layer, distance, rank⟩
    else best
  else best

def selectedCameraLayerLocked (r : Router) (lastPacketAt : Nat → Instant)
    (sourceID receiverID : ParticipantID) (now : Instant) : Option CameraLayer :=
  let preferred := (r.cameraLayers.lookup receiverID).getD .medium
  (cameraLayersByQuality.foldl
    (consider (r.candidate lastPacketAt sourceID receiverID now) (cameraLayerRank preferred))
    ⟨none, cameraLayersByQuality.length, cameraLayersByQuality.length⟩).selected

/-! ## The targets of a frame -/

/-- What `resolveFrameTargets` answers, and the markers it leaves. -/
structure FrameTargets where
  router : Router
  targets : List ParticipantID
  layerStarts : List ParticipantID

/-- The marker a resolved frame leaves on a target. -/
def markTarget (layer : CameraLayer) (selected : Bool) (target : PublicationTarget) :
    PublicationTarget :=
  if selected then { target with lastSentLayer := some layer }
  else if target.lastSentLayer = some layer then { target with lastSentLayer := none }
  else target

/-- A removed publication has no targets left. -/
def resolveFrameTargets (r : Router) (lastPacketAt : Nat → Instant) (info : PublicationInfo)
    (now : Instant) : FrameTargets :=
  match r.current info with
  | none => ⟨r, [], []⟩
  | some pub =>
    if pub.paused || pub.tracks.keys.isEmpty then ⟨r, [], []⟩
    else
      match info.key.layer with
      | none => ⟨r, pub.tracks.keys, []⟩
      | some layer =>
        let selected (id : ParticipantID) : Bool :=
          r.selectedCameraLayerLocked lastPacketAt info.key.sourceID id now = some layer
        { router :=
            { r with
              pubs := r.pubs.insert info.key
                (pub.mark fun id target => markTarget layer (selected id) target) }
          targets := pub.tracks.keys.filter selected
          layerStarts := (pub.tracks.pairs.filter fun entry =>
            selected entry.1 && entry.2.lastSentLayer ≠ some layer).map Prod.fst }

end Router

/-! ## The system -/

/-- Where a pacer stands in a round of `forwardVideoFrames`. -/
inductive PacerPhase
  /-- Waits for a frame. -/
  | waiting
  /-- Hands the packets of a frame to its targets. -/
  | sending (targets layerStarts : List ParticipantID)
  /-- Has key frames to ask for. -/
  | requesting (layerStarts : List ParticipantID)
  deriving DecidableEq, Repr

/-- The pacer goroutine of a publication. -/
structure Pacer where
  publication : PublicationInfo
  phase : PacerPhase
  deriving DecidableEq, Repr

/-- History variables. No section reads them. -/
structure FrameLedger where
  /-- The requests of a registered publication that left the table on behalf
  of one that is not. -/
  lost : List VideoKeyFrameRetry
  /-- The targets of a publication's last resolved frame, by their senders. -/
  served : PublicationInfo → ParticipantID → Option RTPSender
  /-- The receivers that entered with the last resolved frame and for whom no
  retry has been pending since. -/
  unmet : PublicationInfo → Finset ParticipantID

/-- The router with its forwarding goroutines and key-frame requests. -/
structure Forwarding where
  plane : Plane
  keyFrames : VideoKeyFrames
  /-- `lastPacketAt` of the publication with an address. -/
  lastPacketAt : Nat → Instant
  pacers : List Pacer
  ledger : FrameLedger

namespace Forwarding

def new : Forwarding where
  plane := .new
  keyFrames := .new
  lastPacketAt _ := 0
  pacers := []
  ledger := ⟨[], fun _ _ => none, fun _ => ∅⟩

inductive Label
  | router (l : Plane.Label)
  | packet (index : Nat) (now : Instant)
  | resolve (index : Nat) (now : Instant)
  | sent (index : Nat)
  | request (index : Nat)
  | stop (index : Nat)
  | requestVideoKeyFrame (receiverID : ParticipantID)
  | requestVideoKeyFrameForPublisher (sourceID : ParticipantID)
  | retry (index : Nat)
  | write (index : Nat)

/-! ## Sections -/

/-- An operation of the router with what it cancels. `Publish` starts the
pacer of a video publication. -/
def routerStep (s : Forwarding) (l : Plane.Label) : Option Forwarding :=
  (s.plane.step l).map fun plane => { s with
    plane := plane
    keyFrames := s.keyFrames.cancel s.plane l
    pacers := s.pacers ++ ((plane.forwards.drop s.plane.forwards.length).filter
      fun info => info.remote.kind = .video).map fun info => ⟨info, .waiting⟩ }

/-- A forwarding goroutine reads a packet. -/
def packet (s : Forwarding) (index : Nat) (now : Instant) : Option Forwarding :=
  (s.plane.forwards[index]?).map fun info =>
    { s with lastPacketAt := Function.update s.lastPacketAt info.ref now }

/-- The phase after the packets of a frame, or after a request. -/
def PacerPhase.rest : List ParticipantID → PacerPhase
  | [] => .waiting
  | layerStarts => .requesting layerStarts

def setPacer (s : Forwarding) (index : Nat) (pacer : Pacer) (phase : PacerPhase) : Forwarding :=
  { s with pacers := s.pacers.set index { pacer with phase := phase } }

/-- A waiting pacer takes a frame and resolves its targets. -/
def resolve (s : Forwarding) (pacer : Pacer) (index : Nat) (now : Instant) : Forwarding :=
  let frame := s.plane.router.resolveFrameTargets s.lastPacketAt pacer.publication now
  { s with plane := { s.plane with router := frame.router } }.setPacer index pacer
    (if frame.targets.isEmpty then .waiting else .sending frame.targets frame.layerStarts)

/-- The next section of the pacer at `index`. -/
def pace (s : Forwarding) (index : Nat) : Option Forwarding :=
  (s.pacers[index]?).bind fun pacer =>
    match pacer.phase with
    | .sending _ layerStarts => some (s.setPacer index pacer (PacerPhase.rest layerStarts))
    | _ => none

def request (s : Forwarding) (index : Nat) : Option Forwarding :=
  (s.pacers[index]?).bind fun pacer =>
    match pacer.phase with
    | .requesting (receiverID :: layerStarts) =>
      some ({ s with
        keyFrames :=
          s.keyFrames.requestVideoKeyFrameForPublication pacer.publication receiverID }.setPacer
            index pacer (PacerPhase.rest layerStarts))
    | _ => none

/-- A pacer whose forwarding goroutine is gone returns, between frames or in
the middle of one. -/
def stop (s : Forwarding) (index : Nat) : Option Forwarding :=
  (s.pacers[index]?).bind fun pacer =>
    match pacer.phase with
    | .requesting _ => none
    | _ =>
      if pacer.publication ∈ s.plane.forwards then none
      else some { s with pacers := s.pacers.eraseIdx index }

/-- One section, without the history. -/
def section_ (s : Forwarding) : Label → Option Forwarding
  | .router l => s.routerStep l
  | .packet index now => s.packet index now
  | .resolve index now =>
    (s.pacers[index]?).bind fun pacer =>
      if pacer.phase = .waiting then some (s.resolve pacer index now) else none
  | .sent index => s.pace index
  | .request index => s.request index
  | .stop index => s.stop index
  | .requestVideoKeyFrame receiverID =>
    some { s with keyFrames := s.keyFrames.requestVideoKeyFrame s.plane.router receiverID }
  | .requestVideoKeyFrameForPublisher sourceID =>
    some { s with
      keyFrames := s.keyFrames.requestVideoKeyFrameForPublisher s.plane.router sourceID }
  | .retry index =>
    (s.keyFrames.fire s.plane.router index).map fun keyFrames => { s with keyFrames := keyFrames }
  | .write index => (s.keyFrames.write index).map fun keyFrames => { s with keyFrames := keyFrames }

/-! ## History -/

def registered (s : Forwarding) (info : PublicationInfo) : Bool :=
  (s.plane.router.current info).isSome

/-- The publication a section acts for, when it acts for one it was given
before. A callback whose request has left the table acts for none. -/
def onBehalf (s : Forwarding) : Label → Option PublicationInfo
  | .packet index _ | .router (.readStop index) => s.plane.forwards[index]?
  | .resolve index _ | .sent index | .request index | .stop index =>
    (s.pacers[index]?).map (·.publication)
  | .retry index =>
    (s.keyFrames.timers[index]?).bind fun timer =>
      ((s.keyFrames.retries.lookup timer.1).filter fun request => request.ref = timer.2).map
        (·.publication)
  | _ => none

/-- The requests of registered publications that the step to `t` takes out of
the table, when it acts for a publication that is not registered. -/
def lostBy (s : Forwarding) (l : Label) (t : Forwarding) : List VideoKeyFrameRetry :=
  match s.onBehalf l with
  | none => []
  | some info =>
    if s.registered info then []
    else
      (s.keyFrames.retries.pairs.filter fun entry =>
        s.registered entry.2.publication &&
          (t.keyFrames.retries.lookup entry.1).map (·.ref) ≠ some entry.2.ref).map Prod.snd

/-- A retry of this publication is pending for the receiver. -/
def pendingFor (s : Forwarding) (info : PublicationInfo) (receiverID : ParticipantID) : Bool :=
  (s.keyFrames.retries.lookup ⟨some receiverID, info.key⟩).map (·.publication) = some info

/-- The receivers of the frame `info` would resolve. -/
def targets (s : Forwarding) (info : PublicationInfo) (now : Instant) : List ParticipantID :=
  (s.plane.router.resolveFrameTargets s.lastPacketAt info now).targets

/-- The history of a resolved frame. A paused publication resolves none. -/
def recordFrame (s : Forwarding) (info : PublicationInfo) (now : Instant) : FrameLedger :=
  match s.plane.router.current info with
  | none => s.ledger
  | some pub =>
    if pub.paused then s.ledger
    else
      let targets := s.targets info now
      { s.ledger with
        served := Function.update s.ledger.served info
          fun id => if id ∈ targets then pub.senders.lookup id else none
        unmet := Function.update s.ledger.unmet info
          (if info.key.layer.isSome then
            (targets.filter fun id => s.ledger.served info id ≠ pub.senders.lookup id).toFinset
          else ∅) }

/-- The history after the step from `s` to `t`. -/
def record (s : Forwarding) (l : Label) (t : Forwarding) : Forwarding :=
  let ledger := match l with
    | .resolve index now =>
      match s.pacers[index]? with
      | some pacer => s.recordFrame pacer.publication now
      | none => s.ledger
    | _ => s.ledger
  { t with ledger := { ledger with
    lost := s.ledger.lost ++ s.lostBy l t
    unmet := fun info => (ledger.unmet info).filter fun id => !t.pendingFor info id } }

def step (s : Forwarding) (l : Label) : Option Forwarding :=
  (s.section_ l).map fun t => s.record l t

/-- Every interleaving of the router's operations, its pacers and its timers. -/
def lts : Lts Forwarding Label := Lts.ofStep new step

end Forwarding

end SlowMeet.Media
