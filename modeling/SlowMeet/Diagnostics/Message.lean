import Mathlib.Data.Rat.Floor
import SlowMeet.Meeting

/-!
# Decoding and validating a message

`decodeMessage` and `Message.Validate` on the JSON object of one message. A
number is an exact rational, and one that is not an integer does not decode
into a Go `int`. The fields `Validate` does not read are left out, and with
them their keys.
-/

namespace SlowMeet.Diagnostics

/-- The JSON values of a message's fields. -/
inductive Json
  | num (n : ℚ)
  | str (s : String)
  | bool (b : Bool)
  | strs (l : List String)
  deriving DecidableEq

namespace Json

/-- A number that decodes into an `int` of 64 bits. -/
def toInt? : Json → Option ℤ
  | num n => if n.den = 1 ∧ -2 ^ 63 ≤ n.num ∧ n.num < 2 ^ 63 then some n.num else none
  | str _ | bool _ | strs _ => none

/-- A number that decodes into a `uint16`. -/
def toUInt16? : Json → Option ℤ
  | num n => if n.den = 1 ∧ 0 ≤ n.num ∧ n.num < 2 ^ 16 then some n.num else none
  | str _ | bool _ | strs _ => none

def toString? : Json → Option String
  | str s => some s
  | num _ | bool _ | strs _ => none

def toBool? : Json → Option Bool
  | bool b => some b
  | num _ | str _ | strs _ => none

def toStrings? : Json → Option (List String)
  | strs l => some l
  | num _ | str _ | bool _ => none

end Json

/-- The fields of `Message` that `Validate` reads. -/
structure Message where
  version : ℤ := 0
  type : String := ""
  name : String := ""
  reconnectToken : String := ""
  participantID : String := ""
  cameraParticipantIDs : List String := []
  cameraLayer : String := ""
  mediaStreamID : String := ""
  mediaTrackID : String := ""
  sdp : String := ""
  candidate : String := ""
  sdpMid : Option String := none
  sdpMLineIndex : Option ℤ := none
  audioEnabled : Option Bool := none
  videoEnabled : Option Bool := none
  handRaised : Option Bool := none
  rttMs : ℤ := 0
  packetLoss10 : ℤ := 0
  jitterMs : ℤ := 0
  videoKbps : ℤ := 0
  audioKbps : ℤ := 0
  screenShareActive : Option Bool := none
  chatText : String := ""
  emoji : String := ""
  deriving DecidableEq

namespace Message

/-- Decode one key. A key of no field is refused. -/
def setField (m : Message) (key : String) (value : Json) : Option Message :=
  match key with
  | "version" => value.toInt?.map fun version => { m with version }
  | "type" => value.toString?.map fun type => { m with type }
  | "name" => value.toString?.map fun name => { m with name }
  | "reconnect_token" => value.toString?.map fun reconnectToken => { m with reconnectToken }
  | "participant_id" => value.toString?.map fun participantID => { m with participantID }
  | "camera_participant_ids" =>
    value.toStrings?.map fun cameraParticipantIDs => { m with cameraParticipantIDs }
  | "camera_layer" => value.toString?.map fun cameraLayer => { m with cameraLayer }
  | "media_stream_id" => value.toString?.map fun mediaStreamID => { m with mediaStreamID }
  | "media_track_id" => value.toString?.map fun mediaTrackID => { m with mediaTrackID }
  | "sdp" => value.toString?.map fun sdp => { m with sdp }
  | "candidate" => value.toString?.map fun candidate => { m with candidate }
  | "sdp_mid" => value.toString?.map fun sdpMid => { m with sdpMid := some sdpMid }
  | "sdp_mline_index" =>
    value.toUInt16?.map fun sdpMLineIndex => { m with sdpMLineIndex := some sdpMLineIndex }
  | "audio_enabled" => value.toBool?.map fun b => { m with audioEnabled := some b }
  | "video_enabled" => value.toBool?.map fun b => { m with videoEnabled := some b }
  | "hand_raised" => value.toBool?.map fun b => { m with handRaised := some b }
  | "rtt_ms" => value.toInt?.map fun rttMs => { m with rttMs }
  | "packet_loss10" => value.toInt?.map fun packetLoss10 => { m with packetLoss10 }
  | "jitter_ms" => value.toInt?.map fun jitterMs => { m with jitterMs }
  | "video_kbps" => value.toInt?.map fun videoKbps => { m with videoKbps }
  | "audio_kbps" => value.toInt?.map fun audioKbps => { m with audioKbps }
  | "screen_share_active" => value.toBool?.map fun b => { m with screenShareActive := some b }
  | "text" => value.toString?.map fun chatText => { m with chatText }
  | "emoji" => value.toString?.map fun emoji => { m with emoji }
  | _ => none

def approvedReactionEmojis : List String :=
  ["👍", "👎", "❤️", "😂", "🎉", "😮", "👏", "🙌", "🔥", "💯", "😢", "🤔"]

def maxCameraSubscriptions : Nat := 64

/-- The part of `Validate` that depends on the type: the error, if any. -/
def validateType (m : Message) : Option String :=
  match m.type with
  | "join" =>
    if m.name = "" then some "name is required"
    else if 128 < m.reconnectToken.utf8ByteSize then some "reconnect_token is too long"
    else none
  | "leave" => if m.participantID = "" then some "participant_id is required" else none
  | "offer" | "answer" => if m.sdp = "" then some "sdp is required" else none
  | "candidate" =>
    if m.candidate = "" ∧ m.sdpMid = none ∧ m.sdpMLineIndex = none then
      some "candidate is required"
    else none
  | "ice_restart" => none
  | "media_state" =>
    if m.participantID = "" ∨ (m.audioEnabled = none ∧ m.videoEnabled = none) then
      some "media state requires participant_id and a state"
    else none
  | "hand_state" =>
    if m.participantID = "" ∨ m.handRaised = none then
      some "hand state requires participant_id and state"
    else none
  | "network_state" =>
    if m.participantID = "" then some "network state requires participant_id"
    else if m.rttMs < -1 ∨ m.packetLoss10 < -1 ∨ 1000 < m.packetLoss10 ∨ m.jitterMs < -1 ∨
        m.videoKbps < -1 ∨ m.audioKbps < -1 ∨ 120000 < m.rttMs ∨ 120000 < m.jitterMs then
      some "network state contains invalid values"
    else none
  | "set_video_subscriptions" =>
    if m.cameraLayer ∉ ["", "low", "medium", "high"] then
      some "camera_layer must be low, medium, or high"
    else if maxCameraSubscriptions < m.cameraParticipantIDs.length then
      some "too many camera subscriptions"
    else if m.cameraParticipantIDs.any fun id =>
        trimSpace id.toList = [] || decide (128 < id.utf8ByteSize) then
      some "camera subscription participant_id is invalid"
    else none
  | "screen_share" =>
    if m.participantID = "" ∨ m.screenShareActive = none then
      some "screen share requires participant_id and state"
    else none
  | "chat_message" =>
    let text := trimSpace m.chatText.toList
    if m.participantID = "" ∨ text = [] then some "chat message requires participant_id and text"
    else if 500 < text.length then some "chat message is too long"
    else none
  | "emoji_reaction" =>
    if m.participantID = "" ∨ m.emoji = "" then some "reaction requires participant_id and emoji"
    else if m.emoji ∉ approvedReactionEmojis then some "unsupported reaction emoji"
    else none
  | type => some ("unknown message type " ++ type.quote)

def validate (m : Message) : Option String :=
  if m.version ≠ 1 then some ("unsupported protocol version " ++ toString m.version)
  else if 128 < m.mediaStreamID.utf8ByteSize then some "media_stream_id is too long"
  else if 128 < m.mediaTrackID.utf8ByteSize then some "media_track_id is too long"
  else m.validateType

end Message

/-- Decode an object, key by key. -/
def decodeMessage (fields : List (String × Json)) : Option Message :=
  fields.foldlM (fun m field => m.setField field.1 field.2) {}

/-! ## Numbers that decode -/

theorem toInt?_intCast {n : ℤ} (hlow : -2 ^ 63 ≤ n) (hhigh : n < 2 ^ 63) :
    (Json.num (n : ℚ)).toInt? = some n :=
  if_pos ⟨Rat.den_intCast n, hlow, hhigh⟩

/-- Only integers decode into an `int`. -/
theorem toInt?_eq_some {q : ℚ} {n : ℤ} (h : (Json.num q).toInt? = some n) : q = n := by
  simp only [Json.toInt?, Option.ite_none_right_eq_some, Option.some.injEq] at h
  obtain ⟨⟨hden, -, -⟩, rfl⟩ := h
  exact (Rat.den_eq_one_iff q).mp hden |>.symm

end SlowMeet.Diagnostics
