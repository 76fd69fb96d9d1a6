import SlowMeet.Media.Machine
import SlowMeet.Signaling.Protocol

/-!
# The state of the hub

The fields of `Hub` and `client`, and for each goroutine the section it runs
next. A connection is one client for its whole life and creates at most one
peer connection, so a client's identifier is also its peer's.

Metrics, logging, the ping loop and the negotiation fields decide nothing
here and are left out; so is the map `clients`, which only `Close` reads, to
close connections whose reads may fail at any time anyway.
-/

namespace SlowMeet.Signaling

open Lib Media

/-- A `*client`. -/
abbrev ClientId := Nat

/-- A request to `/admin/config`. -/
abbrev AdminId := Nat

/-- A `*time.Timer` of the chat history. -/
abbrev TimerId := Nat

/-! ## Configuration -/

/-- The fields of `config.Config` the hub reads. -/
structure Config where
  meetingPassword : String
  maxParticipants : Nat
  maxVideoQuality : String
  maxVideoBitrate : Nat
  maxVideoFPS : Nat
  maxAudioBitrate : Nat
  enableScreenShare : Bool
  retainChatHistory : Bool
  reconnectTimeout : Nat
  deriving DecidableEq, Repr

/-- The fields of `config.AdminUpdate` that reach these. -/
structure AdminUpdate where
  maxParticipants : Option Nat := none
  maxVideoQuality : Option String := none
  maxVideoBitrate : Option Nat := none
  maxVideoFPS : Option Nat := none
  maxAudioBitrate : Option Nat := none
  screenShare : Option Bool := none
  retainChatHistory : Option Bool := none
  deriving DecidableEq, Repr

namespace Config

/-- `updatedConfig`, for an update that passes `Validate`; another one
changes nothing. -/
def updatedConfig (cfg : Config) (update : AdminUpdate) : Config :=
  { cfg with
    maxParticipants := update.maxParticipants.getD cfg.maxParticipants
    maxVideoQuality := update.maxVideoQuality.getD cfg.maxVideoQuality
    maxVideoBitrate := update.maxVideoBitrate.getD cfg.maxVideoBitrate
    maxVideoFPS := update.maxVideoFPS.getD cfg.maxVideoFPS
    maxAudioBitrate := update.maxAudioBitrate.getD cfg.maxAudioBitrate
    enableScreenShare := update.screenShare.getD cfg.enableScreenShare
    retainChatHistory := update.retainChatHistory.getD cfg.retainChatHistory }

def checkMeetingPassword (cfg : Config) (candidate : String) : Bool :=
  cfg.meetingPassword = "" || candidate = cfg.meetingPassword

def effectiveMaxVideoQuality (cfg : Config) : String :=
  if cfg.maxVideoQuality = "" then "ultra" else cfg.maxVideoQuality

/-- What `BroadcastConfig` tells the room. -/
def toPublic (cfg : Config) : PublicConfig :=
  ⟨cfg.maxVideoBitrate, cfg.maxVideoFPS, cfg.maxAudioBitrate, cfg.effectiveMaxVideoQuality,
    cfg.enableScreenShare, cfg.retainChatHistory⟩

end Config

/-! ## What a goroutine runs next -/

/-- The locals of `disconnect`, fixed by its first locked section. -/
structure Departure where
  superseded : Bool
  graceEligible : Bool
  timeout : Nat
  clients : Finset ClientId
  deriving DecidableEq

/-- What `disconnect` does between its first and its second decision. -/
inductive Teardown
  | unregister
  | closePeer
  | releaseScreen
  | unpublish
  | screenCast
  | settle
  deriving DecidableEq, Repr

/-- The rest of a message handler of the read loop. -/
inductive Handler
  | relaying (state : MediaState)
  | reacting (participantID : ParticipantID) (name : Name) (emoji : String)
  | raising (changed : List Participant)
  | raisedCast (participant : Participant) (changed : List Participant)
  | sharing (active : Bool) (mediaStreamID mediaTrackID : String)
  /-- `change` is the new owner, when it is another than before. -/
  | shared (active : Bool) (change : Option (Option ParticipantID))
  | sharedCast (owner : Option ParticipantID)
  | chatting (msg : ChatMessage) (entry : Option ChatHistoryEntry)
  deriving DecidableEq

/-- Where the handler of a connection, `ServeHTTP`, stands. -/
inductive Phase
  | absent
  | upgrading
  | opening
  | reading
  | reclaiming (name : Name) (token : Token)
  | joining (name : Name)
  | refusing (error : JoinError)
  | entering (participant : Participant)
  | superseding (previous : ClientId)
  | waiting (previous : ClientId)
  | cancelling
  | peering
  | registering
  | admitting
  | releasing
  | announcing
  | handling (handler : Handler)
  | closing
  | disconnecting
  | parting (departure : Departure) (at_ : Teardown)
  | forgetting
  | leaving
  | casting
  | scheduling
  | arming
  | notifying (clients : Finset ClientId)
  | armingGrace
  | finished
  deriving DecidableEq

/-- Where the callback of a client's grace timer stands. -/
inductive Reaper
  | idle
  | unregistering
  | closingPeer
  | leaving
  | forgetting
  | scheduling
  | arming
  | done
  deriving DecidableEq, Repr

/-- Where an admin update stands: `Store.Update` has run. -/
inductive AdminPhase
  | idle
  | snapshotting
  | limiting (cfg : Config)
  | releasing (cfg : Config)
  | pausing (cfg : Config) (released : Option ParticipantID)
  | announcing (cfg : Config) (released : Bool)
  | clearing (cfg : Config) (released : Bool)
  | screenCast
  deriving DecidableEq, Repr

/-- An `OnTrack` callback of a client's peer. -/
inductive TrackCallback
  | started (c : ClientId) (track : TrackRemote)
  | streamChecked (c : ClientId) (track : TrackRemote)
  | publishing (c : ClientId) (track : TrackRemote) (role : SourceRole)
  deriving DecidableEq

/-! ## The records -/

structure Client where
  phase : Phase
  /-- `participant`, `participantID` and `reconnectToken`, always written in
  one section. -/
  participant : Option Participant
  resumed : Bool
  joined : Bool
  announced : Bool
  intentionalLeave : Bool
  admissionExpired : Bool
  joinAttempts : Nat
  /-- The local of `ServeHTTP` that `reclaim` answers. -/
  activeTakeover : Bool
  /-- `peer` is not nil. -/
  hasPeer : Bool
  peerClosed : Bool
  activeScreenMediaStreamID : String
  activeScreenMediaTrackID : String
  /-- `releasePending` has not run. -/
  reserved : Bool
  reaper : Reaper
  /-- A delayed close of the peer is armed. -/
  closeTimer : Bool
  /-- Everything written to the client. -/
  outbound : List Message

namespace Client

/-- A connection that has not arrived. -/
def new : Client where
  phase := .absent
  participant := none
  resumed := false
  joined := false
  announced := false
  intentionalLeave := false
  admissionExpired := false
  joinAttempts := 0
  activeTakeover := false
  hasPeer := false
  peerClosed := false
  activeScreenMediaStreamID := ""
  activeScreenMediaTrackID := ""
  reserved := false
  reaper := .idle
  closeTimer := false
  outbound := []

end Client

structure PendingReconnect where
  participant : Participant
  client : ClientId
  /-- `timer` is armed. -/
  armed : Bool
  deriving DecidableEq, Repr

structure RoomChatHistory where
  messages : List ChatHistoryEntry
  expiry : Option TimerId
  deriving DecidableEq, Repr

/-- History variables: the order of the events of a run. No section reads
them. -/
structure Ledger where
  admissions : Nat
  /-- The admissions before a client took its slot, by `Meeting.Join` or by
  a reclaim. -/
  joinedAt : ClientId → Nat
  /-- The number of a client's own admission. -/
  admittedAt : ClientId → Nat
  /-- The recorded chat with its senders. -/
  chat : List (ClientId × ChatHistoryEntry)
  /-- The recorded chat when the room history was last deleted. -/
  chatCleared : Nat
  /-- `chat` and `chatCleared` at a client's admission. -/
  chatAt : ClientId → Nat
  chatFrom : ClientId → Nat

structure Hub where
  config : Config
  meeting : Meeting
  client : ClientId → Client
  roomMembers : Finset ClientId
  pending : GoMap Token PendingReconnect
  activeTokens : GoMap Token ClientId
  mediaStates : GoMap ParticipantID MediaState
  screenSharer : Option ClientId
  /-- The history of the one room, `chatRoomID`. -/
  chatHistory : Option RoomChatHistory
  closed : Bool
  pendingConnections : Nat
  media : Plane
  /-- The pending entries a `Close` has taken and not yet left. -/
  closingIDs : Finset ParticipantID
  /-- The armed chat expiry timers. -/
  timers : Finset TimerId
  /-- Expiry callbacks before their `Meeting.Count`, and past it. -/
  expiring : Nat
  deleting : Nat
  admin : AdminId → AdminPhase
  callbacks : List TrackCallback
  /-- The supply behind `uuid.NewString` and the timers. -/
  nextID : Nat
  ledger : Ledger

def maxPendingConnections : Nat := 128

def maxJoinAttempts : Nat := 5

def chatHistoryLimit : Nat := 100

/-- `NewHub`, with the meeting `meeting.New(cfg.MaxParticipants)`. -/
def Hub.new (cfg : Config) : Hub where
  config := cfg
  meeting := Meeting.new cfg.maxParticipants
  client _ := Client.new
  roomMembers := ∅
  pending := ∅
  activeTokens := ∅
  mediaStates := ∅
  screenSharer := none
  chatHistory := none
  closed := false
  pendingConnections := 0
  media := Plane.new
  closingIDs := ∅
  timers := ∅
  expiring := 0
  deleting := 0
  admin _ := .idle
  callbacks := []
  nextID := 0
  ledger := ⟨0, fun _ => 0, fun _ => 0, [], 0, fun _ => 0, fun _ => 0⟩

end SlowMeet.Signaling
