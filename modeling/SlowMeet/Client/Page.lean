import Mathlib.Logic.Function.Basic
import SlowMeet.Lib.Lts

/-!
# The page across its sessions

`web/js/app.js`: the handlers that open, lose and replace the signalling
socket, `resetMediaConnection`, `startWebRTC` and Leave. A handler that
awaits is cut where it does, so any other handler may run in between.

A tile, a chat entry and a captured track remember the session they came
from, which the page itself does not; nothing below reads it. Tracks are the
microphone and camera `startWebRTC` asks for and those of the camera and
share buttons. Settings, layout, statistics, debug tiles and ICE restarts are
left out.
-/

namespace SlowMeet.Client

open Lib

abbrev ParticipantID := Nat

/-- The value of `socketGeneration` a socket is opened under. It names the
socket, and the peer connection `startWebRTC` creates for it. -/
abbrev SessionId := Nat

inductive ReadyState
  | connecting
  | opened
  | closing
  | closed
  deriving DecidableEq, Repr

/-- What the server has answered to the join of a socket. -/
inductive JoinAnswer
  | pending
  | refused
  | admitted
  deriving DecidableEq, Repr

/-- Where `startWebRTC` awaits. -/
inductive Stage
  | idle
  /-- `refreshICEConfig` -/
  | credentials
  /-- `getUserMediaWithDeviceFallback` for audio -/
  | microphone
  /-- everything up to the restored camera -/
  | setup
  deriving DecidableEq, Repr

/-- A captured `MediaStreamTrack`. -/
structure Track where
  ref : Nat
  session : SessionId
  deriving DecidableEq, Repr

/-- An entry of `participantElements`. -/
structure Tile where
  participant : ParticipantID
  session : SessionId
  deriving DecidableEq, Repr

/-- A child of the chat rail. -/
structure ChatEntry where
  author : String
  body : String
  system : Bool
  own : Bool
  session : SessionId
  deriving DecidableEq, Repr

/-- A replayed entry, as `normalizeHistoryEntry` leaves it. -/
structure HistoryEntry where
  id : Option String
  author : String
  text : String
  participantId : Option ParticipantID
  deriving DecidableEq, Repr

inductive Message
  | participant (id : ParticipantID) (reconnectToken : Option String)
      (chatHistory : List HistoryEntry)
  | participantJoined (id : ParticipantID) (name : String)
  | participantLeft (id : ParticipantID) (name : String)
  | chatMessage (name text : String)
  | error
  /-- Any other message changes nothing here. -/
  | other
  deriving DecidableEq, Repr

/-- A timer that `reconnectTimer` was set to. -/
inductive TimerKind
  | reconnect
  | methodSwitch
  deriving DecidableEq, Repr

structure Timer where
  ref : Nat
  kind : TimerKind
  deriving DecidableEq, Repr

structure Page where
  socketGeneration : SessionId
  socket : Option SessionId
  readyState : SessionId → ReadyState
  answer : SessionId → JoinAnswer
  webRTC : SessionId → Stage
  peer : Option SessionId
  /-- The peer connections created and not closed. -/
  openPeers : List SessionId
  /-- The tracks captured and not stopped. -/
  live : List Track
  captured : Nat
  localStream : Option (List Track)
  localCameraTrack : Option Track
  /-- Camera prompts, each with the peer connection it was asked for. -/
  cameraPrompts : List SessionId
  /-- Cameras stopped by a `disableCamera` that awaits their detachment. -/
  detaching : List Track
  screenStream : Option Track
  /-- The picker of `startScreenShare`, with its peer connection. -/
  displayPrompt : Option SessionId
  /-- `screenShareStartPromise` is set. -/
  sharing : Bool
  /-- The share that `stopScreenShare`, or a failed start, has yet to stop. -/
  stoppingShare : Option Track
  participantElements : List Tile
  participantRemovalTimers : List ParticipantID
  chatMessages : List ChatEntry
  /-- What `chatHistoryTracker` has applied. -/
  applied : List String
  localParticipantID : Option ParticipantID
  reconnectToken : Option String
  reconnectAttempts : Nat
  timers : List Timer
  timersSet : Nat
  reconnectTimer : Option Nat
  connectionMethodSwitchRequested : Bool
  intentionalClose : Bool
  meetingHidden : Bool
  formHidden : Bool
  meetingEndedHidden : Bool
  joinButtonDisabled : Bool
  /-- Submitted forms that await `refreshICEConfig`. -/
  joining : Nat

def maxReconnectAttempts : Nat := 5

/-- What the server sends on a socket: it answers a join once (`ServeHTTP`),
and a client receives no room message before it is admitted (`admit`). -/
def serverSends : JoinAnswer → Message → Bool
  | _, .error | _, .other => true
  | .pending, .participant _ _ _ => true
  | .admitted, .participantJoined _ _ => true
  | .admitted, .participantLeft _ _ => true
  | .admitted, .chatMessage _ _ => true
  | _, _ => false

/-- The answer after a message. -/
def JoinAnswer.after : JoinAnswer → Message → JoinAnswer
  | .pending, .participant _ _ _ => .admitted
  | .pending, .error => .refused
  | answer, _ => answer

namespace Page

/-- The page as it loads. -/
def load : Page where
  socketGeneration := 0
  socket := none
  readyState _ := .closed
  answer _ := .pending
  webRTC _ := .idle
  peer := none
  openPeers := []
  live := []
  captured := 0
  localStream := none
  localCameraTrack := none
  cameraPrompts := []
  detaching := []
  screenStream := none
  displayPrompt := none
  sharing := false
  stoppingShare := none
  participantElements := []
  participantRemovalTimers := []
  chatMessages := []
  applied := []
  localParticipantID := none
  reconnectToken := none
  reconnectAttempts := 0
  timers := []
  timersSet := 0
  reconnectTimer := none
  connectionMethodSwitchRequested := false
  intentionalClose := false
  meetingHidden := true
  formHidden := false
  meetingEndedHidden := true
  joinButtonDisabled := false
  joining := 0

/-! ## Sockets and timers -/

/-- `WebSocket.close`. -/
def closeSocket (s : Page) (g : SessionId) : Page :=
  if s.readyState g = .closed then s
  else { s with readyState := Function.update s.readyState g .closing }

/-- `socket?.close()`. -/
def closeCurrent (s : Page) : Page :=
  match s.socket with
  | some g => s.closeSocket g
  | none => s

def connectSocket (s : Page) : Page :=
  let generation := s.socketGeneration + 1
  let s := s.closeCurrent
  { s with
    socketGeneration := generation
    socket := some generation
    readyState := Function.update s.readyState generation .connecting }

/-- `clearTimeout(reconnectTimer)`. -/
def clearReconnectTimer (s : Page) : Page :=
  { s with timers := s.timers.filter fun timer => some timer.ref ≠ s.reconnectTimer }

/-- `reconnectTimer = setTimeout(..)`. -/
def setReconnectTimer (s : Page) (kind : TimerKind) : Page :=
  { s with
    timers := s.timers ++ [⟨s.timersSet, kind⟩]
    timersSet := s.timersSet + 1
    reconnectTimer := some s.timersSet }

def scheduleConnectionMethodReconnect (s : Page) : Page :=
  s.clearReconnectTimer.setReconnectTimer .methodSwitch

/-- `selectConnectionMethod` with an enabled method other than the current. -/
def selectConnectionMethod (s : Page) : Page :=
  if s.meetingHidden then s
  else
    let s := { s with connectionMethodSwitchRequested := true }.clearReconnectTimer
    match s.socket.map s.readyState with
    | some .opened | some .connecting => s.closeCurrent
    | some .closing => s
    | some .closed | none =>
      { s with intentionalClose := false }.scheduleConnectionMethodReconnect

/-! ## Captures and peer connections -/

/-- A capture for a session is granted. -/
def capture (s : Page) (session : SessionId) : Track × Page :=
  let track : Track := ⟨s.captured, session⟩
  (track, { s with live := s.live ++ [track], captured := s.captured + 1 })

def stopTracks (s : Page) (tracks : List Track) : Page :=
  { s with live := s.live.filter fun track => track ∉ tracks }

def closePeer (s : Page) (p : SessionId) : Page :=
  { s with openPeers := s.openPeers.filter (· ≠ p) }

/-- `resetMediaConnection`. -/
def resetMediaConnection (s : Page) : Page :=
  let s := { s with
    participantElements := []
    participantRemovalTimers := []
    chatMessages := []
    applied := [] }
  let s := s.peer.elim s s.closePeer
  let s := (s.stopTracks (s.localStream.getD [])).stopTracks s.screenStream.toList
  { s with peer := none, localStream := none, localCameraTrack := none, screenStream := none }

/-! ## Tiles and the chat rail -/

/-- `addParticipant` on the current socket. -/
def addParticipant (s : Page) (id : ParticipantID) : Page :=
  if s.participantElements.any fun tile => tile.participant = id then
    { s with participantRemovalTimers := s.participantRemovalTimers.filter (· ≠ id) }
  else
    { s with participantElements := s.participantElements ++ [⟨id, s.socketGeneration⟩] }

/-- A tile that is shown goes after a while. -/
def scheduleRemoval (s : Page) (id : ParticipantID) : Page :=
  if s.participantElements.any fun tile => tile.participant = id then
    { s with participantRemovalTimers := s.participantRemovalTimers.filter (· ≠ id) ++ [id] }
  else s

/-- The rail keeps its last 300 entries. -/
def addChatMessage (s : Page) (author body : String) (system own : Bool) : Page :=
  let rail := s.chatMessages ++ [⟨author, body, system, own, s.socketGeneration⟩]
  { s with chatMessages := rail.drop (rail.length - 300) }

def addChatSystem (s : Page) (message : String) : Page := s.addChatMessage "System" message true false

/-- `chatHistoryTracker.apply` on one entry, and `addChatMessage` if it is
fresh. Entries without an id are passed through every time. -/
def applyEntry (s : Page) (entry : HistoryEntry) : Page :=
  let own := entry.participantId.isSome && entry.participantId = s.localParticipantID
  match entry.id with
  | some id =>
    if id ∈ s.applied then s
    else { s with applied := s.applied ++ [id] }.addChatMessage entry.author entry.text false own
  | none => s.addChatMessage entry.author entry.text false own

/-! ## `startWebRTC` -/

/-- The empty token is falsy too. -/
def hasToken (s : Page) : Bool := s.reconnectToken.any (· ≠ "")

/-- Up to `refreshICEConfig`. -/
def startWebRTC (s : Page) : Page :=
  if s.hasToken then
    { s with webRTC := Function.update s.webRTC s.socketGeneration .credentials }
  else s.closeCurrent

/-- The socket of session `g` is current and open. -/
def Current (s : Page) (g : SessionId) : Prop :=
  g = s.socketGeneration ∧ s.socket = some g ∧ s.readyState g = .opened

instance (s : Page) (g : SessionId) : Decidable (s.Current g) := by
  unfold Current
  infer_instance

/-- `isCurrentWebRTC`. -/
def IsCurrentWebRTC (s : Page) (g : SessionId) : Prop := s.Current g ∧ s.peer = some g

instance (s : Page) (g : SessionId) : Decidable (s.IsCurrentWebRTC g) := by
  unfold IsCurrentWebRTC
  infer_instance

/-- The credentials arrive, or not. `usable`: the connection method has the
servers it requires. -/
def credentials (s : Page) (g : SessionId) (ready usable : Bool) : Option Page :=
  if s.webRTC g = .credentials then
    let s := { s with webRTC := Function.update s.webRTC g .idle }
    some (if ¬ s.Current g then s
      else if !ready then s.closeSocket g
      else if !usable then { s with intentionalClose := true }.closeSocket g
      else { s with
        peer := some g
        openPeers := s.openPeers ++ [g]
        webRTC := Function.update s.webRTC g .microphone })
  else none

/-- The microphone is granted, or not. -/
def microphone (s : Page) (g : SessionId) (granted : Bool) : Option Page :=
  if s.webRTC g = .microphone then
    let s := { s with webRTC := Function.update s.webRTC g .idle }
    let (setupStream, s) : List Track × Page :=
      if granted then ([(s.capture g).1], (s.capture g).2) else ([], s)
    some (if ¬ s.IsCurrentWebRTC g then (s.stopTracks setupStream).closePeer g
      else { s with
        localStream := some setupStream
        localCameraTrack := none
        webRTC := Function.update s.webRTC g .setup })
  else none

/-- `enableCameraOnce` up to its prompt. A live camera is reused. -/
def enableCameraOnce (s : Page) : Page :=
  match s.peer with
  | none => s
  | some p =>
    if s.localCameraTrack.any (· ∈ s.live) then s
    else { s with localCameraTrack := none, cameraPrompts := s.cameraPrompts ++ [p] }

/-- The rest of `startWebRTC`, which may restore the camera. -/
def setup (s : Page) (g : SessionId) (restoreCamera : Bool) : Option Page :=
  if s.webRTC g = .setup then
    let s := { s with webRTC := Function.update s.webRTC g .idle }
    some (if s.IsCurrentWebRTC g ∧ restoreCamera then s.enableCameraOnce else s)
  else none

/-- A camera prompt is answered. -/
def camera (s : Page) (index : Nat) (granted : Bool) : Option Page :=
  (s.cameraPrompts[index]?).map fun p =>
    let s := { s with cameraPrompts := s.cameraPrompts.eraseIdx index }
    if !granted then s
    else
      let (track, s) := s.capture p
      if s.peer ≠ some p then s.stopTracks [track]
      else { s with
        localCameraTrack := some track
        localStream := s.localStream.map (· ++ [track]) }

/-- `disableCamera` up to the detachment. -/
def disableCamera (s : Page) : Option Page :=
  s.localCameraTrack.map fun track =>
    { s.stopTracks [track] with detaching := s.detaching ++ [track] }

def cameraDetached (s : Page) (index : Nat) : Option Page :=
  (s.detaching[index]?).map fun track =>
    { s with
      detaching := s.detaching.eraseIdx index
      localStream := s.localStream.map fun tracks => tracks.filter (· ≠ track)
      localCameraTrack := none }

/-! ## The share button -/

/-- `toggleScreenShare` without a share, up to the picker. -/
def startScreenShare (s : Page) : Option Page :=
  if s.sharing ∨ s.stoppingShare ≠ none ∨ s.screenStream ≠ none ∨ s.peer = none then none
  else some { s with sharing := true, displayPrompt := s.peer }

/-- The picker is answered. -/
def display (s : Page) (granted : Bool) : Option Page :=
  s.displayPrompt.map fun p =>
    let s := { s with displayPrompt := none }
    if !granted then { s with sharing := false }
    else
      let (track, s) := s.capture p
      { s with screenStream := some track }

/-- The start goes through. -/
def shareStarted (s : Page) : Option Page :=
  if s.sharing ∧ s.displayPrompt = none then some { s with sharing := false } else none

/-- `stopScreenShare`, or the failure of a start, up to the detachment. -/
def stopScreenShare (s : Page) : Option Page :=
  if s.stoppingShare = none then
    s.screenStream.map fun track => { s with screenStream := none, stoppingShare := some track }
  else none

def shareStopped (s : Page) : Option Page :=
  s.stoppingShare.map fun track => { s.stopTracks [track] with stoppingShare := none, sharing := false }

/-! ## Socket events -/

/-- The message handler. -/
def handle (s : Page) : Message → Page
  | .participant id token history =>
    let s := s.addParticipant id
    let s := { s with
      localParticipantID := some id
      reconnectToken := token
      formHidden := true
      meetingHidden := false
      meetingEndedHidden := true }
    (history.foldl applyEntry s).startWebRTC
  | .participantJoined id name => (s.addParticipant id).addChatSystem (name ++ " joined the room")
  | .participantLeft id name => (s.addChatSystem (name ++ " left the room")).scheduleRemoval id
  | .chatMessage name text => if text = "" then s else s.addChatMessage name text false false
  | .error => if s.meetingHidden then { s with joinButtonDisabled := false } else s
  | .other => s

def opened (s : Page) (g : SessionId) : Option Page :=
  if s.readyState g = .connecting then
    let s := { s with readyState := Function.update s.readyState g .opened }
    some (if g = s.socketGeneration then { s.clearReconnectTimer with reconnectAttempts := 0 }
      else s)
  else none

def message (s : Page) (g : SessionId) (m : Message) : Option Page :=
  if s.readyState g = .opened ∧ serverSends (s.answer g) m then
    let s := { s with answer := Function.update s.answer g ((s.answer g).after m) }
    some (if g = s.socketGeneration then s.handle m else s)
  else none

/-- The close handler of the current socket. -/
def handleClose (s : Page) : Page :=
  if s.intentionalClose ∨ s.meetingHidden then
    if s.meetingHidden then { s with joinButtonDisabled := false } else s
  else if s.connectionMethodSwitchRequested then s.scheduleConnectionMethodReconnect
  else
    let s := { s with reconnectAttempts := s.reconnectAttempts + 1 }
    if s.reconnectAttempts > maxReconnectAttempts then s.resetMediaConnection
    else s.setReconnectTimer .reconnect

def closed (s : Page) (g : SessionId) : Option Page :=
  if s.readyState g = .closed then none
  else
    let s := { s with readyState := Function.update s.readyState g .closed }
    some (if g = s.socketGeneration then s.handleClose else s)

/-! ## Timers and buttons -/

def timer (s : Page) (index : Nat) : Option Page :=
  (s.timers[index]?).map fun timer =>
    let s := { s with timers := s.timers.eraseIdx index }
    match timer.kind with
    | .reconnect => s.resetMediaConnection.connectSocket
    | .methodSwitch =>
      if !s.connectionMethodSwitchRequested || s.intentionalClose || s.meetingHidden then s
      else
        { s with connectionMethodSwitchRequested := false, reconnectAttempts := 0
          }.resetMediaConnection.connectSocket

/-- The removal timer of a participant who left. -/
def removeTile (s : Page) (id : ParticipantID) : Option Page :=
  if id ∈ s.participantRemovalTimers then
    some { s with
      participantRemovalTimers := s.participantRemovalTimers.filter (· ≠ id)
      participantElements := s.participantElements.filter fun tile => tile.participant ≠ id }
  else none

/-- The form is submitted. -/
def submit (s : Page) : Option Page :=
  if s.formHidden ∨ s.joinButtonDisabled then none
  else some { s with joinButtonDisabled := true, joining := s.joining + 1 }

/-- The rest of the submit handler: `refreshICEConfig` succeeded, the method
is enabled, and it is another one than before. -/
def join (s : Page) (refreshed enabled changed : Bool) : Option Page :=
  if 0 < s.joining then
    let s := { s with joining := s.joining - 1 }
    if !refreshed || !enabled then some { s with joinButtonDisabled := false }
    else
      let s := if changed then s.selectConnectionMethod else s
      some { s with intentionalClose := false }.connectSocket
  else none

/-- Retry restarts the media of an open session instead of connecting. -/
def RetryRestarts (s : Page) : Prop :=
  s.socket.map s.readyState = some .opened ∧ s.peer ≠ none

instance (s : Page) : Decidable s.RetryRestarts := by
  unfold RetryRestarts
  infer_instance

/-- Retry in the connection popover. -/
def retry (s : Page) : Page :=
  if s.RetryRestarts ∨ s.meetingHidden then s
  else { s with intentionalClose := false }.connectSocket

/-- Leave, which the meeting shows. -/
def leave (s : Page) : Option Page :=
  if s.meetingHidden then none
  else
    let s := { s with intentionalClose := true, socketGeneration := s.socketGeneration + 1 }
    let s := s.clearReconnectTimer.closeCurrent
    let s := { s with reconnectToken := none }
    let s := (s.stopTracks (s.localStream.getD [])).stopTracks s.screenStream.toList
    let s := s.peer.elim s s.closePeer
    some { s with
      participantRemovalTimers := []
      localStream := none
      screenStream := none
      localCameraTrack := none
      peer := none
      localParticipantID := none
      chatMessages := []
      applied := []
      participantElements := []
      meetingHidden := true
      formHidden := true
      meetingEndedHidden := false
      joinButtonDisabled := false }

/-- Rejoin, which the end screen shows. -/
def rejoin (s : Page) : Option Page :=
  if s.meetingEndedHidden then none
  else some { s with meetingEndedHidden := true, formHidden := false, joinButtonDisabled := false }

/-! ## Runs -/

inductive Label
  | submit
  | join (refreshed enabled changed : Bool)
  | opened (g : SessionId)
  | message (g : SessionId) (m : Message)
  | closed (g : SessionId)
  | timer (index : Nat)
  | retry
  | selectConnectionMethod
  /-- A failed negotiation or media connection closes the socket. -/
  | closeSocket
  | leave
  | rejoin
  | credentials (g : SessionId) (ready usable : Bool)
  | microphone (g : SessionId) (granted : Bool)
  | setup (g : SessionId) (restoreCamera : Bool)
  | enableCamera
  | camera (index : Nat) (granted : Bool)
  | disableCamera
  | cameraDetached (index : Nat)
  | startScreenShare
  | display (granted : Bool)
  | shareStarted
  | stopScreenShare
  | shareStopped
  | removeTile (id : ParticipantID)
  deriving DecidableEq, Repr

def step (s : Page) : Label → Option Page
  | .submit => s.submit
  | .join refreshed enabled changed => s.join refreshed enabled changed
  | .opened g => s.opened g
  | .message g m => s.message g m
  | .closed g => s.closed g
  | .timer index => s.timer index
  | .retry => some s.retry
  | .selectConnectionMethod => some s.selectConnectionMethod
  | .closeSocket => some s.closeCurrent
  | .leave => s.leave
  | .rejoin => s.rejoin
  | .credentials g ready usable => s.credentials g ready usable
  | .microphone g granted => s.microphone g granted
  | .setup g restoreCamera => s.setup g restoreCamera
  | .enableCamera => some s.enableCameraOnce
  | .camera index granted => s.camera index granted
  | .disableCamera => s.disableCamera
  | .cameraDetached index => s.cameraDetached index
  | .startScreenShare => s.startScreenShare
  | .display granted => s.display granted
  | .shareStarted => s.shareStarted
  | .stopScreenShare => s.stopScreenShare
  | .shareStopped => s.shareStopped
  | .removeTile id => s.removeTile id

/-- Every sequence of page events. -/
def lts : Lts Page Label := Lts.ofStep load step

end Page

end SlowMeet.Client
