import SlowMeet.Signaling.State

/-!
# The hub's critical sections

Each function is one locked section of `hub.go` or `admission.go`, or one
call into the meeting or the router, under the name of the Go function it
belongs to. `goto` records which section the goroutine runs next.

`client.write` appends to an unbounded queue: a full queue closes the
connection, which the read loop sees as any other lost connection. A
broadcast holds the read lock, so membership is fixed while it writes, and
no receiver's queue depends on another's; it is one step here.
-/

namespace SlowMeet.Signaling

open Lib Media

namespace Client

def write (me : Client) (msg : Message) : Client :=
  { me with outbound := me.outbound ++ [msg] }

def goto (me : Client) (phase : Phase) : Client := { me with phase := phase }

/-- `c.participant.ID`. -/
def participantID (me : Client) : Option ParticipantID := me.participant.map (·.id)

end Client

namespace Hub

/-! ## Writing to clients -/

/-- Change the fields of one client. -/
def update (h : Hub) (c : ClientId) (f : Client → Client) : Hub :=
  { h with client := Function.update h.client c (f (h.client c)) }

def goto (h : Hub) (c : ClientId) (phase : Phase) : Hub := h.update c (·.goto phase)

def write (h : Hub) (c : ClientId) (msg : Message) : Hub := h.update c (·.write msg)

def broadcastToRoom (h : Hub) (msg : Message) : Hub :=
  { h with client := fun d => if d ∈ h.roomMembers then (h.client d).write msg else h.client d }

def broadcastExcept (h : Hub) (c : ClientId) (msg : Message) : Hub :=
  { h with client := fun d =>
      if d ∈ h.roomMembers ∧ d ≠ c then (h.client d).write msg else h.client d }

/-- Answer a request with an error and read on. -/
def refuse (h : Hub) (c : ClientId) (text : String) : Hub := h.write c (.error text)

/-! ## Chat history -/

/-- `expiry.Stop()`, when there is a timer. -/
def stopExpiry (h : Hub) : Hub :=
  match h.chatHistory.bind (·.expiry) with
  | some timer => { h with timers := h.timers.erase timer }
  | none => h

def clearChatHistory (h : Hub) : Hub :=
  { h.stopExpiry with
    chatHistory := none
    ledger := { h.ledger with chatCleared := h.ledger.chat.length } }

def cancelChatHistoryExpiry (h : Hub) : Hub :=
  { h.stopExpiry with
    chatHistory := h.chatHistory.map fun history => { history with expiry := none } }

def chatHistorySnapshotLocked (h : Hub) : List ChatHistoryEntry :=
  match h.chatHistory with
  | none => []
  | some history => history.messages

/-- The last `chatHistoryLimit` messages. -/
def truncate (messages : List ChatHistoryEntry) : List ChatHistoryEntry :=
  if messages.length > chatHistoryLimit then messages.drop (messages.length - chatHistoryLimit)
  else messages

def recordChatMessageLocked (h : Hub) (c : ClientId) (entry : ChatHistoryEntry) : Hub :=
  let messages := h.chatHistorySnapshotLocked
  { h.stopExpiry with
    chatHistory := some ⟨truncate (messages ++ [entry]), none⟩
    ledger := { h.ledger with chat := h.ledger.chat ++ [(c, entry)] } }

def recordAndBroadcastChat (h : Hub) (c : ClientId) (msg : ChatMessage)
    (entry : Option ChatHistoryEntry) : Hub :=
  let h := match entry with
    | some entry => h.recordChatMessageLocked c entry
    | none => h
  h.broadcastExcept c (.chat msg)

/-- The check of `scheduleChatHistoryExpiry` before it takes the lock. -/
def shouldScheduleExpiry (h : Hub) : Bool :=
  h.config.retainChatHistory && h.meeting.count == 0

/-- The locked section of `scheduleChatHistoryExpiry`. -/
def scheduleChatHistoryExpiry (h : Hub) : Hub :=
  match h.chatHistory with
  | none => h
  | some history =>
    { h.stopExpiry with
      chatHistory := some { history with expiry := some h.nextID }
      timers := insert h.nextID h.stopExpiry.timers
      nextID := h.nextID + 1 }

/-! ## Joining -/

/-- The reservation at the start of `ServeHTTP`. -/
def reserve (h : Hub) (c : ClientId) : Hub :=
  if h.closed || h.pendingConnections ≥ maxPendingConnections then h.goto c .finished
  else
    { h with pendingConnections := h.pendingConnections + 1 }.update c
      fun me => { me with phase := .upgrading, reserved := true }

/-- `releasePending`, which a `sync.Once` guards. -/
def releasePending (h : Hub) (c : ClientId) : Hub :=
  if (h.client c).reserved then
    { h with pendingConnections := h.pendingConnections - 1 }.update c
      fun me => { me with reserved := false }
  else h

def expireAdmission (h : Hub) (c : ClientId) : Hub :=
  if c ∈ h.roomMembers then h else h.update c fun me => { me with admissionExpired := true }

/-- The locked section of `reclaim`. The client waits for the connection it
supersedes, or goes on to `Meeting.Join` when the token is unknown. -/
def reclaim (h : Hub) (c : ClientId) (name : Name) (token : Token) : Hub :=
  match h.pending.lookup token with
  | some reconnect =>
    { h with
      pending := h.pending.erase token
      activeTokens := h.activeTokens.insert token c
      ledger := { h.ledger with
        joinedAt := Function.update h.ledger.joinedAt c h.ledger.admissions } }.update c
      fun me => { me with
        phase := .superseding reconnect.client
        participant := some reconnect.participant
        resumed := true
        activeTakeover := false }
  | none =>
    match h.activeTokens.lookup token with
    | some previous =>
      { h with activeTokens := h.activeTokens.insert token c }.update c
        fun me => { me with
          phase := .superseding previous
          participant := (h.client previous).participant
          resumed := true
          activeTakeover := true }
    | none => h.goto c (.joining name)

/-- The rest of `reclaim` before it waits: the delayed close of the
superseded peer. -/
def supersede (h : Hub) (c previous : ClientId) : Hub :=
  (if (h.client previous).hasPeer then
    h.update previous fun me => { me with closeTimer := true }
  else h).goto c (.waiting previous)

/-- `Meeting.Join`. -/
def join (h : Hub) (c : ClientId) (name : Name) : Hub :=
  match h.meeting.join name h.nextID with
  | .ok (meeting, participant) =>
    { h with
      meeting := meeting
      nextID := h.nextID + 1
      ledger := { h.ledger with
        joinedAt := Function.update h.ledger.joinedAt c h.ledger.admissions } }.goto c
      (.entering participant)
  | .error err => h.goto c (.refusing err)

/-- The error path of a failed `Meeting.Join`. -/
def refuseJoin (h : Hub) (c : ClientId) (err : JoinError) : Hub :=
  let h := match err with
    | .meetingFull => h.broadcastToRoom .roomFull
    | .invalidName => h
  (h.refuse c err.text).goto c .reading

/-- The section that makes a new participant known under its token. -/
def enter (h : Hub) (c : ClientId) (participant : Participant) : Hub :=
  { h with activeTokens := h.activeTokens.insert (reconnectToken participant) c }.update c
    fun me => { me with phase := .cancelling, participant := some participant }

/-- `NewPeer…`, whose success is `ok`. -/
def newPeer (h : Hub) (c : ClientId) (ok : Bool) : Hub :=
  if ok then h.update c fun me => { me with phase := .registering, hasPeer := true }
  else (h.refuse c "unable to initialize WebRTC").goto c .closing

def screenOwner (h : Hub) : Option ParticipantID :=
  h.screenSharer.bind fun c => (h.client c).participantID

def screenShareMessage (active : Bool) (owner : Option ParticipantID) : Message :=
  .screenState active owner

/-- The participants the roster replay of `admit` lists. -/
def rosterReplay (h : Hub) (participant : Participant) : List Participant :=
  let pendingIDs := h.pending.values.map (·.participant.id)
  h.meeting.list.filter fun existing =>
    existing.id ≠ participant.id ∧ existing.id ∉ pendingIDs

/-- Everything `admit` writes, in order. -/
def admissionReplay (h : Hub) (participant : Participant) (activeTakeover : Bool) :
    List Message :=
  [.participant participant (reconnectToken participant) h.chatHistorySnapshotLocked] ++
    (h.rosterReplay participant).map Message.joined ++ h.mediaStates.values.map Message.mediaState ++
    (match h.screenOwner with
      | some owner => [screenShareMessage true (some owner)]
      | none => if activeTakeover then [screenShareMessage false none] else [])

/-- `admit`; `ok` is whether the client's queue takes the response. -/
def admitClient (h : Hub) (c : ClientId) (participant : Participant) (ok : Bool) : Hub :=
  if h.closed || (h.client c).admissionExpired then h.goto c .closing
  else
    let h := { h with roomMembers := insert c h.roomMembers }
    if ok then
      let replay := h.admissionReplay participant (h.client c).activeTakeover
      { h with
        ledger := { h.ledger with
          admissions := h.ledger.admissions + 1
          admittedAt := Function.update h.ledger.admittedAt c (h.ledger.admissions + 1)
          chatAt := Function.update h.ledger.chatAt c h.ledger.chat.length
          chatFrom := Function.update h.ledger.chatFrom c h.ledger.chatCleared } }.update c
        fun me => { me with phase := .releasing, outbound := me.outbound ++ replay }
    else h.goto c .closing

/-- The broadcast that ends a join, and the flags set after it. -/
def announce (h : Hub) (c : ClientId) (participant : Participant) : Hub :=
  (if (h.client c).activeTakeover then h
  else h.broadcastExcept c (.joined participant)).update c
    fun me => { me with phase := .reading, joined := true, announced := true }

/-! ## Leaving -/

/-- The deletions before `disconnect`; a client that never joined is done. -/
def cleanup (h : Hub) (c : ClientId) : Hub :=
  { h with roomMembers := h.roomMembers.erase c }.goto c
    (if (h.client c).participant.isSome then .disconnecting else .finished)

/-- The first locked section of `disconnect`. -/
def disconnect (h : Hub) (c : ClientId) (participant : Participant) : Hub :=
  let me := h.client c
  let superseded := h.activeTokens.lookup (reconnectToken participant) ≠ some c
  let departure : Departure :=
    { superseded := superseded
      graceEligible := !superseded && !me.intentionalLeave && !h.closed &&
        (me.joined || me.resumed) && 0 < h.config.reconnectTimeout
      timeout := h.config.reconnectTimeout
      clients := h.roomMembers.filter fun d =>
        ∃ id ∈ (h.client d).participantID, id ≠ participant.id }
  { h with
    activeTokens :=
      if superseded then h.activeTokens else h.activeTokens.erase (reconnectToken participant) }.goto c
    (.parting departure (if departure.graceEligible then .releaseScreen else .unregister))

def closePeer (h : Hub) (c : ClientId) : Hub :=
  h.update c fun me => { me with peerClosed := me.peerClosed || me.hasPeer }

/-- The delayed close of a superseded peer. -/
def closeSuperseded (h : Hub) (c : ClientId) : Hub :=
  (h.update c fun me => { me with closeTimer := false }).closePeer c

/-- The locked section of `releaseScreenShare`. -/
def releaseScreenShare (h : Hub) (c : ClientId) (departure : Departure) : Hub :=
  if h.screenSharer = some c then
    { h with screenSharer := none }.update c fun me => { me with
      phase := .parting departure .unpublish
      activeScreenMediaStreamID := ""
      activeScreenMediaTrackID := "" }
  else h.goto c (.parting departure .settle)

/-- The second decision of `disconnect`. -/
def settle (h : Hub) (c : ClientId) (participant : Participant) (departure : Departure) : Hub :=
  let me := h.client c
  if departure.superseded then h.goto c .finished
  else if me.intentionalLeave || h.closed || (!me.joined && !me.resumed) then h.goto c .forgetting
  else if departure.timeout = 0 then h.goto c .forgetting
  else
    { h with pending := h.pending.insert (reconnectToken participant) ⟨participant, c, false⟩ }.goto c
      (.notifying departure.clients)

/-- Arm the grace timer, if the entry is still this client's. -/
def armGrace (h : Hub) (c : ClientId) (participant : Participant) : Hub :=
  match h.pending.lookup (reconnectToken participant) with
  | some reconnect =>
    if reconnect.client = c then
      { h with
        pending := h.pending.insert (reconnectToken participant)
          { reconnect with armed := true } }.goto c .finished
    else h.goto c .finished
  | none => h.goto c .finished

def forgetMediaState (h : Hub) (id : ParticipantID) : Hub :=
  { h with mediaStates := h.mediaStates.erase id }

/-- `Meeting.Leave` in `removeClientParticipant`: only an announced client
that held its slot goes on to broadcast. -/
def leave (h : Hub) (c : ClientId) (participant : Participant) : Hub :=
  let left := h.meeting.leave participant.id
  { h with meeting := left.1 }.goto c
    (if (h.client c).announced && left.2 then .casting else .finished)

/-- The locked section of `Close`. -/
def close (h : Hub) : Hub :=
  { h.clearChatHistory with
    closed := true
    mediaStates := ∅
    pending := ∅
    closingIDs := h.closingIDs ∪ (h.pending.values.map fun reconnect => reconnect.participant.id).toFinset }

/-- `Close` leaves one of the entries it took. -/
def closeLeave (h : Hub) (id : ParticipantID) : Option Hub :=
  if id ∈ h.closingIDs then
    some { h with
      closingIDs := h.closingIDs.erase id
      meeting := (h.meeting.leave id).1 }
  else none

end Hub

end SlowMeet.Signaling
