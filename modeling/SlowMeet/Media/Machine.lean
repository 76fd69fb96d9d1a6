import SlowMeet.Lib.Lts
import SlowMeet.Media.Sections

/-!
# The router running

The router with everything its methods leave running: the queued pion
operations, the senders pion holds, the RTCP relays and the forwarding
goroutines. One label is one atomic section, so the runs of `Plane.lts` are
the interleavings of concurrent router calls.

`applyTrackOps` works through its operations without the lock, one
`AddTrack` or `RemoveTrack` and one revalidation at a time. The operations
of all calls wait in one pool and any of them may go next; this covers every
interleaving of the calls and every iteration order of the Go maps.
-/

namespace SlowMeet.Media

open Lib

/-! ## RTCP feedback -/

structure FIREntry where
  ssrc : UInt32
  sequenceNumber : UInt8
  deriving DecidableEq, Repr

/-- The `rtcp.Packet`s `routeRTCPFeedback` tells apart. -/
inductive RtcpPacket
  | pictureLossIndication (senderSSRC mediaSSRC : UInt32)
  | fullIntraRequest (senderSSRC mediaSSRC : UInt32) (fir : List FIREntry)
  | transportLayerNack (senderSSRC mediaSSRC : UInt32) (nacks : List (UInt16 × UInt16))
  | other (payload : List UInt8)
  deriving DecidableEq, Repr

namespace RtcpPacket

/-- The media SSRC of a picture-loss, intra-request or retransmission
request: the feedback the relay retargets. -/
def mediaSSRC? : RtcpPacket → Option UInt32
  | pictureLossIndication _ mediaSSRC => some mediaSSRC
  | fullIntraRequest _ mediaSSRC _ => some mediaSSRC
  | transportLayerNack _ mediaSSRC _ => some mediaSSRC
  | other _ => none

/-- One round of the loop of `routeRTCPFeedback`. -/
def retarget (sourceSSRC : UInt32) : RtcpPacket → RtcpPacket
  | pictureLossIndication senderSSRC _ => pictureLossIndication senderSSRC sourceSSRC
  | fullIntraRequest senderSSRC _ fir =>
    fullIntraRequest senderSSRC sourceSSRC (fir.map fun entry => { entry with ssrc := sourceSSRC })
  | transportLayerNack senderSSRC _ nacks => transportLayerNack senderSSRC sourceSSRC nacks
  | other payload => other payload

end RtcpPacket

def routeRTCPFeedback (packets : List RtcpPacket) (sourceSSRC : UInt32) : List RtcpPacket :=
  packets.map (RtcpPacket.retarget sourceSSRC)

/-- Whatever media SSRC goes in, the source's comes out. -/
theorem mediaSSRC?_of_mem_route {packets : List RtcpPacket} {sourceSSRC ssrc : UInt32}
    {packet : RtcpPacket} (hmem : packet ∈ routeRTCPFeedback packets sourceSSRC)
    (hssrc : packet.mediaSSRC? = some ssrc) : ssrc = sourceSSRC := by
  obtain ⟨original, -, rfl⟩ := List.mem_map.mp hmem
  cases original <;> simp_all [RtcpPacket.retarget, RtcpPacket.mediaSSRC?]

/-- A `relayRTCP` goroutine: the peer it writes to and its SSRC holder,
both captured when it starts. -/
structure Relay where
  source : PeerId
  holder : Holder
  deriving DecidableEq, Repr

/-! ## State -/

/-- The media plane: the router state and what its calls leave running. -/
structure Plane where
  router : Router
  /-- The operations of all `applyTrackOps` calls in progress. -/
  ops : List PendingTrackOp
  /-- The senders added to a peer connection and not removed again. -/
  attached : List RTPSender
  /-- The relay that reads each sender's RTCP. -/
  relays : GoMap RTPSender Relay
  /-- The publications whose forwarding goroutine runs. -/
  forwards : List PublicationInfo
  /-- The allocator of publications, senders and holders. -/
  fresh : Nat

namespace Plane

def new : Plane where
  router := Router.new
  ops := []
  attached := []
  relays := ∅
  forwards := []
  fresh := 0

/-- Commit a locked section; its pion operations join the pool. -/
def commit (m : Plane) (d : Decision) : Plane :=
  { m with router := d.router, ops := m.ops ++ d.ops }

/-! ## Sections -/

def register (m : Plane) (id : ParticipantID) (peer : PeerId) (offerer : Option Offerer) : Plane :=
  m.commit (m.router.register id peer offerer)

def unregister (m : Plane) (id : ParticipantID) : Plane :=
  m.commit (m.router.unregister id)

/-- `Publish` in its role-aware form, the one the hub calls; `failed` are the
targets whose `ReplaceTrack` fails. -/
def publish (m : Plane) (sourceID : ParticipantID) (role : SourceRole) (source : Option PeerId)
    (remote : Option TrackRemote) (layer : Option CameraLayer)
    (failed : Finset ParticipantID) : Plane :=
  match source, remote with
  | some source, some remote =>
    let info : PublicationInfo :=
      ⟨m.fresh, Router.publicationKey sourceID role layer, remote.codec, remote, source⟩
    match m.router.publish info fun id => id ∉ failed with
    | none => m
    | some d => { m.commit d with forwards := m.forwards ++ [info], fresh := m.fresh + 1 }
  | _, _ => m

def setVideoSubscriptionsWithLayer (m : Plane) (receiverID : ParticipantID)
    (cameraParticipantIDs : List ParticipantID) (cameraLayer : Option CameraLayer) : Plane :=
  m.commit (m.router.setVideoSubscriptionsWithLayer receiverID cameraParticipantIDs cameraLayer)

def unpublish (m : Plane) (sourceID : ParticipantID) (role : SourceRole) : Plane :=
  m.commit (m.router.unpublish sourceID role)

def setPublicationActive (m : Plane) (sourceID : ParticipantID) (role : SourceRole)
    (active : Bool) : Plane :=
  { m with router := m.router.setPublicationActive sourceID role active }

/-- The next section of a queued operation that has left the pool: a pion
call, whose success is `ok`, or the revalidation after `AddTrack`. -/
def applyTrackOp (m : Plane) (op : PendingTrackOp) (ok : Bool) : Plane :=
  match op with
  | .subscribe pub targetID peer =>
    if ok then
      let sender : RTPSender := ⟨m.fresh, peer⟩
      { m with
        ops := m.ops ++ [.install pub targetID peer sender]
        attached := m.attached ++ [sender]
        fresh := m.fresh + 1 }
    else m
  | .install pub targetID peer sender =>
    if m.router.subscriptionValid pub targetID peer then
      { m with
        router := m.router.installSubscription pub targetID sender m.fresh
        relays := m.relays.insert sender ⟨pub.source, m.fresh⟩
        fresh := m.fresh + 1 }
    else { m with ops := m.ops ++ [.remove peer sender] }
  | .remove _ sender => if ok then { m with attached := m.attached.erase sender } else m

def trackOp (m : Plane) (index : Nat) (ok : Bool) : Option Plane :=
  (m.ops[index]?).map fun op => applyTrackOp { m with ops := m.ops.eraseIdx index } op ok

/-- One round of `relayRTCP`: the peer it writes to and the batch it writes,
for a batch read from `sender`. -/
def relayRTCP (m : Plane) (sender : RTPSender) (packets : List RtcpPacket) :
    Option (PeerId × List RtcpPacket) :=
  (m.relays.lookup sender).map fun relay =>
    (relay.source, routeRTCPFeedback packets (m.router.holders relay.holder))

/-- A forwarding goroutine's read fails: `reportPublicationReadStop`. -/
def readStop (m : Plane) (index : Nat) : Option Plane :=
  (m.forwards[index]?).map fun info =>
    { m with forwards := m.forwards.eraseIdx index }.commit (m.router.removePublication info)

/-! ## The transition system -/

inductive Label
  | register (id : ParticipantID) (peer : PeerId) (offerer : Option Offerer)
  | unregister (id : ParticipantID)
  | publish (sourceID : ParticipantID) (role : SourceRole) (source : Option PeerId)
      (remote : Option TrackRemote) (layer : Option CameraLayer)
      (failed : Finset ParticipantID)
  | setVideoSubscriptionsWithLayer (receiverID : ParticipantID)
      (cameraParticipantIDs : List ParticipantID) (cameraLayer : Option CameraLayer)
  | unpublish (sourceID : ParticipantID) (role : SourceRole)
  | setPublicationActive (sourceID : ParticipantID) (role : SourceRole) (active : Bool)
  | trackOp (index : Nat) (ok : Bool)
  | readStop (index : Nat)

def step (m : Plane) : Label → Option Plane
  | .register id peer offerer => some (m.register id peer offerer)
  | .unregister id => some (m.unregister id)
  | .publish sourceID role source remote layer failed =>
    some (m.publish sourceID role source remote layer failed)
  | .setVideoSubscriptionsWithLayer receiverID ids layer =>
    some (m.setVideoSubscriptionsWithLayer receiverID ids layer)
  | .unpublish sourceID role => some (m.unpublish sourceID role)
  | .setPublicationActive sourceID role active =>
    some (m.setPublicationActive sourceID role active)
  | .trackOp index ok => m.trackOp index ok
  | .readStop index => m.readStop index

/-- A queued operation leaves the pool before its section runs. -/
theorem trackOp_eq_some {m t : Plane} {index : Nat} {ok : Bool}
    (h : m.trackOp index ok = some t) :
    ∃ op rest, m.ops[index]? = some op ∧ m.ops.Perm (op :: rest) ∧
      t = applyTrackOp { m with ops := rest } op ok := by
  obtain ⟨op, hop, rfl⟩ := Option.map_eq_some_iff.mp h
  obtain ⟨hlt, rfl⟩ := List.getElem?_eq_some_iff.mp hop
  exact ⟨_, _, hop, (List.getElem_cons_eraseIdx_perm hlt).symm, rfl⟩

/-- pion's `ReplaceTrack` succeeds. -/
def replaceTrackSucceeds (_ : Plane) : Label → Bool
  | .publish _ _ _ _ _ failed => failed = ∅
  | _ => true

/-- pion's `AddTrack` succeeds. -/
def addTrackSucceeds (m : Plane) : Label → Bool
  | .trackOp index ok =>
    match m.ops[index]? with
    | some (.subscribe _ _ _) => ok
    | _ => true
  | _ => true

/-- Every interleaving of router calls, from an empty router. -/
def lts : Lts Plane Label := Lts.ofStep new step

/-! ## A session -/

/-- A microphone track. -/
def opusTrack (ref : Nat) (ssrc : UInt32) : TrackRemote :=
  ⟨ref, ssrc, .audio, ⟨"audio/opus", 48000, 2, ""⟩, "stream", "track", ""⟩

/-- Two participants on the peers 10 and 20; the second publishes audio and
the first is subscribed to it. The source's own subscription, which
`Publish` queues as well, is refused by the revalidation. -/
def twoParticipants : List Label :=
  [.register 1 10 (some 1), .register 2 20 (some 2),
    .publish 2 .audio (some 20) (some (opusTrack 0 7)) none ∅] ++
    List.replicate 5 (.trackOp 0 true)

end Plane

end SlowMeet.Media
