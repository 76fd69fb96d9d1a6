import SlowMeet.Media.Router

/-!
# The signaling protocol

The messages of `internal/signaling/protocol.go` the hub tells apart: what a
client may ask for after `Validate` has passed, and what the hub writes to
it. The fields of a `Message` that its type does not use are not carried.
A client's picture of the room is a fold over what it was sent.
-/

namespace SlowMeet.Signaling

/-- A reconnect token. `ServeHTTP` draws one together with the participant
it belongs to, so the token is a function of that draw. -/
structure Token where
  participant : ParticipantID
  deriving DecidableEq, Repr

/-- The token drawn for the participant `p`. -/
def reconnectToken (p : Participant) : Token := ⟨p.id⟩

/-- What a chat message shows. -/
structure ChatMessage where
  participantID : ParticipantID
  name : Name
  text : List Char
  deriving DecidableEq, Repr

/-- `ChatHistoryEntry`, less its timestamp. -/
structure ChatHistoryEntry where
  id : Nat
  participantID : ParticipantID
  author : Name
  text : List Char
  deriving DecidableEq, Repr

/-- The entry the chat handler builds for a message under the drawn `id`. -/
def ChatMessage.entry (msg : ChatMessage) (id : Nat) : ChatHistoryEntry :=
  ⟨id, msg.participantID, msg.name, msg.text⟩

/-- A `media_state` message of the room, as `roomMessage` copies it. -/
structure MediaState where
  participantID : ParticipantID
  audioEnabled : Option Bool
  videoEnabled : Option Bool
  videoPaused : Option Bool
  deriving DecidableEq, Repr

/-- The settings a `config_update` carries. -/
structure PublicConfig where
  maxVideoBitrate : Nat
  maxVideoFPS : Nat
  maxAudioBitrate : Nat
  maxVideoQuality : String
  screenShareEnabled : Bool
  retainChatHistory : Bool
  deriving DecidableEq, Repr

/-- A message the hub writes to a client. -/
inductive Message
  | error (text : String)
  | participant (p : Participant) (reconnectToken : Token) (chatHistory : List ChatHistoryEntry)
  | joined (p : Participant)
  | left (p : Participant)
  | roomFull
  | chat (msg : ChatMessage)
  | reaction (participantID : ParticipantID) (name : Name) (emoji : String)
  | mediaState (state : MediaState)
  | handState (participantID : ParticipantID) (handRaised : Bool) (handOrder : Nat)
  | screenState (active : Bool) (owner : Option ParticipantID)
  | configUpdate (cfg : PublicConfig)
  deriving DecidableEq, Repr

/-- A message a client sends. `invalid` is one `Validate` rejects. The
identifier in a `media_state` or `chat_message` is replaced by the hub. -/
inductive Request
  | invalid (isJoin : Bool) (error : String)
  | join (name : Name) (password : String) (reconnectToken : Option Token)
  | leave (participantID : ParticipantID)
  | mediaState (audioEnabled videoEnabled videoPaused : Option Bool)
  | videoSubscriptions (cameraParticipantIDs : List ParticipantID)
      (cameraLayer : Option Media.CameraLayer)
  | handState (participantID : ParticipantID) (handRaised : Bool)
  | networkState
  | screenShare (active : Bool) (mediaStreamID mediaTrackID : String)
  | chat (text : List Char)
  | reaction (emoji : String)
  /-- Offers, answers, candidates and restarts: `handleWebRTCMessage`. -/
  | webrtc
  deriving DecidableEq, Repr

/-- Whether the message's type is `join`. -/
def Request.isJoin : Request → Bool
  | .invalid isJoin _ => isJoin
  | .join _ _ _ => true
  | _ => false

/-! ## What a client makes of its messages -/

/-- Whether `p` is shown after `msg`, given whether it was shown before. -/
def Message.shows (p : ParticipantID) (shown : Bool) : Message → Bool
  | .joined q => if q.id = p then true else shown
  | .left q => if q.id = p then false else shown
  | _ => shown

/-- Whether the roster folded from `out` shows `p`. -/
def inRoster (p : ParticipantID) (out : List Message) : Bool :=
  out.foldl (Message.shows p) false

/-- A message that moves no one in or out of a roster. -/
def Message.isRosterNeutral : Message → Bool
  | .joined _ => false
  | .left _ => false
  | _ => true

variable (p : ParticipantID) (out : List Message)

@[simp] theorem inRoster_nil : inRoster p [] = false := rfl

@[simp] theorem inRoster_concat (msg : Message) :
    inRoster p (out ++ [msg]) = msg.shows p (inRoster p out) := by
  simp [inRoster]

theorem shows_of_neutral {msg : Message} (h : msg.isRosterNeutral = true) (shown : Bool) :
    msg.shows p shown = shown := by
  cases msg <;> simp_all [Message.isRosterNeutral, Message.shows]

/-- Neutral messages leave the roster as it is. -/
theorem inRoster_append_neutral {msgs : List Message}
    (h : ∀ msg ∈ msgs, msg.isRosterNeutral = true) :
    inRoster p (out ++ msgs) = inRoster p out := by
  induction msgs generalizing out with
  | nil => simp
  | cons msg rest ih =>
    have hsplit : out ++ msg :: rest = (out ++ [msg]) ++ rest := by simp
    rw [hsplit, ih _ fun m hm => h m (List.mem_cons_of_mem _ hm), inRoster_concat,
      shows_of_neutral p (h msg List.mem_cons_self)]

/-- A roster replay adds the listed participants. -/
theorem inRoster_append_joined (ps : List Participant) :
    inRoster p (out ++ ps.map Message.joined) =
      (inRoster p out || ps.any fun q => q.id = p) := by
  induction ps generalizing out with
  | nil => simp
  | cons q rest ih =>
    have hsplit : out ++ (q :: rest).map Message.joined =
        (out ++ [Message.joined q]) ++ rest.map Message.joined := by simp
    rw [hsplit, ih, inRoster_concat]
    by_cases hq : q.id = p <;> simp [Message.shows, hq]

/-! The last message of a kind is what counts where a later one replaces an
earlier one. -/

section Last

variable {β : Type} (f : Message → Option β)

/-- What the last of the messages `f` looks for says. -/
def lastOf (out : List Message) : Option β := (out.filterMap f).getLast?

@[simp] theorem lastOf_nil : lastOf f [] = none := rfl

@[simp] theorem lastOf_append (a b : List Message) :
    lastOf f (a ++ b) = (lastOf f b).or (lastOf f a) := by
  simp [lastOf, List.filterMap_append, List.getLast?_append]

@[simp] theorem lastOf_singleton (msg : Message) : lastOf f [msg] = f msg := by
  cases hmsg : f msg <;> simp [lastOf, hmsg]

/-- Messages of other kinds say nothing. -/
theorem lastOf_eq_none {msgs : List Message} (h : ∀ msg ∈ msgs, f msg = none) :
    lastOf f msgs = none := by
  have hnil : msgs.filterMap f = [] := List.filterMap_eq_nil_iff.mpr h
  rw [lastOf, hnil, List.getLast?_nil]

end Last

/-- A media state of the participant `p`. -/
def Message.mediaStateOf (p : ParticipantID) : Message → Option MediaState
  | .mediaState state => if state.participantID = p then some state else none
  | _ => none

/-- The chat messages in `out` that were delivered live, in order. -/
def liveChat (out : List Message) : List ChatMessage :=
  out.filterMap fun
    | .chat msg => some msg
    | _ => none

/-- The chat histories in the admission responses of `out`. -/
def chatReplays (out : List Message) : List (List ChatHistoryEntry) :=
  out.filterMap fun
    | .participant _ _ chatHistory => some chatHistory
    | _ => none

@[simp] theorem liveChat_append (a b : List Message) :
    liveChat (a ++ b) = liveChat a ++ liveChat b :=
  List.filterMap_append

@[simp] theorem chatReplays_append (a b : List Message) :
    chatReplays (a ++ b) = chatReplays a ++ chatReplays b :=
  List.filterMap_append

end SlowMeet.Signaling
