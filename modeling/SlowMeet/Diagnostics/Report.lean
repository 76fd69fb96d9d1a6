import Mathlib.Algebra.Order.Round
import SlowMeet.Diagnostics.Message
import SlowMeet.Lib.FloatFormat
import SlowMeet.Lib.GoMap

/-!
# The connection report

The part of `runDiagnosticsUpdate` that a `network_state` message depends on,
and the message it sends. Of the report's entries and of the previous sample
only what decides these five fields is kept. The result of every operation is
the double nearest to it. `round` is `Math.round`: halves go up.
-/

namespace SlowMeet.Diagnostics

open Lib

/-- The result of one operation of JavaScript. -/
abbrev double : ℚ → ℚ := FloatFormat.binary64.nearest

/-- An entry of a statistics report. -/
structure Stat where
  id : Option String := none
  type : Option String := none
  kind : Option String := none
  timestamp : Option ℚ := none
  state : Option String := none
  selected : Option Bool := none
  nominated : Option Bool := none
  selectedCandidatePairId : Option String := none
  /-- In seconds. -/
  currentRoundTripTime : Option ℚ := none
  bytesSent : Option ℚ := none
  packetsLost : Option ℚ := none
  packetsReceived : Option ℚ := none
  /-- In seconds. -/
  jitter : Option ℚ := none
  deriving DecidableEq

structure PacketCounters where
  lost : ℚ
  received : ℚ
  deriving DecidableEq

/-- `previousStats`. -/
structure PreviousStats where
  timestamp : ℚ
  sentBytes : ℚ
  sentAudioBytes : ℚ
  packetCounters : GoMap String PacketCounters

/-! ## `adaptation-policy.js` -/

def normalizePacketCounter (value : Option ℚ) : ℚ := max 0 (value.getD 0)

def normalizePacketLoss10 (packetLoss : Option ℚ) : ℤ :=
  match packetLoss with
  | none => -1
  | some packetLoss => if packetLoss < 0 then -1 else min 1000 (round (double (packetLoss * 10)))

/-- `Number(x.toFixed(1))`, for `x` not negative: the tenths nearest to `x`,
and of two the greater ones, are written, and what is written is read. -/
def toFixed1 (x : ℚ) : ℚ := double (round (x * 10) / 10)

def packetLossPercentFromDeltas (lostPackets receivedPackets : ℚ) : Option ℚ :=
  if lostPackets < 0 ∨ receivedPackets < 0 then none
  else
    let totalPackets := double (lostPackets + receivedPackets)
    if totalPackets ≤ 0 then none
    else some (toFixed1 (double (double (lostPackets / totalPackets) * 100)))

def packetCounterDeltas (previous : Option PacketCounters) (current : PacketCounters) :
    Option PacketCounters :=
  match previous with
  | none => none
  | some previous =>
    if previous.lost < 0 ∨ previous.received < 0 ∨ current.lost < 0 ∨ current.received < 0 ∨
        current.lost < previous.lost ∨ current.received < previous.received then none
    else some ⟨double (current.lost - previous.lost), double (current.received - previous.received)⟩

def Stat.succeeded (stat : Stat) : Bool :=
  stat.type = some "candidate-pair" && stat.state = some "succeeded"

/-- `pairs.get`: of the succeeded pairs with this identifier the last. -/
def pairWithId (report : List Stat) (id : String) : Option Stat :=
  (report.filter fun stat => stat.succeeded && stat.id = some id).getLast?

def selectedCandidatePair (report : List Stat) : Option Stat :=
  let transport := report.findSome? fun stat =>
    if stat.type ≠ some "transport" then none
    else
      match stat.selectedCandidatePairId with
      | none | some "" => none
      | some id => pairWithId report id
  match transport with
  | some selected => some selected
  | none =>
    report.find? fun stat =>
      stat.succeeded && (stat.selected = some true || stat.nominated = some true)

def selectedCandidatePairRTT (report : List Stat) : Option ℚ :=
  match (selectedCandidatePair report).bind (·.currentRoundTripTime) with
  | none => none
  | some seconds => if 0 ≤ seconds then some (double (seconds * 1000)) else none

/-! ## `runDiagnosticsUpdate` -/

/-- The locals that the loop over the report writes. -/
structure Totals where
  timestamp : ℚ := 0
  sentBytes : ℚ := 0
  sentAudioBytes : ℚ := 0
  jitterMs : Option ℤ := none
  packetCounters : GoMap String PacketCounters := ∅
  lostPackets : ℚ := 0
  receivedPackets : ℚ := 0

def Stat.isRTP (stat : Stat) (type kind : String) : Bool :=
  stat.type = some type && stat.kind = some kind

def Stat.counters (stat : Stat) : PacketCounters :=
  ⟨normalizePacketCounter stat.packetsLost, normalizePacketCounter stat.packetsReceived⟩

/-- What the packet counters of an entry gained since the previous sample. -/
def Stat.deltas (stat : Stat) (previous : Option PreviousStats) : Option PacketCounters :=
  packetCounterDeltas
    (previous.bind fun previous => stat.id.bind previous.packetCounters.lookup) stat.counters

def Stat.jitterMs (stat : Stat) : Option ℤ :=
  stat.jitter.map fun jitter => round (double (jitter * 1000))

namespace Totals

/-- `recordPacketCounters`. -/
def recordPacketCounters (t : Totals) (previous : Option PreviousStats) (stat : Stat) : Totals :=
  let t :=
    match stat.id with
    | none | some "" => t
    | some id => { t with packetCounters := t.packetCounters.insert id stat.counters }
  match stat.deltas previous with
  | none => t
  | some deltas =>
    { t with
      lostPackets := double (t.lostPackets + deltas.lost)
      receivedPackets := double (t.receivedPackets + deltas.received) }

/-- One entry of the report. -/
def add (previous : Option PreviousStats) (t : Totals) (stat : Stat) : Totals :=
  let t := { t with timestamp := max t.timestamp (stat.timestamp.getD 0) }
  if stat.isRTP "outbound-rtp" "video" then
    { t with sentBytes := double (t.sentBytes + stat.bytesSent.getD 0) }
  else if stat.isRTP "outbound-rtp" "audio" then
    { t with sentAudioBytes := double (t.sentAudioBytes + stat.bytesSent.getD 0) }
  else if stat.isRTP "inbound-rtp" "video" then
    let t := t.recordPacketCounters previous stat
    -- a video entry's jitter replaces an earlier one
    { t with jitterMs := stat.jitterMs.or t.jitterMs }
  else if stat.isRTP "inbound-rtp" "audio" then
    let t := t.recordPacketCounters previous stat
    { t with jitterMs := t.jitterMs.or stat.jitterMs }
  else t

end Totals

def totals (report : List Stat) (previous : Option PreviousStats) : Totals :=
  report.foldl (Totals.add previous) {}

/-- The rate of a byte counter since the previous sample, before it is rounded.
A quotient by zero is sent as `null`, which decodes into 0 too. -/
def kbps (bytes previousBytes timestamp previousTimestamp : ℚ) : ℚ :=
  let seconds := double (double (timestamp - previousTimestamp) / 1000)
  double (double (double (double (bytes - previousBytes) * 8) / seconds) / 1000)

/-- The fields of `values` that are reported. -/
structure Values where
  rttMs : Option ℚ
  jitterMs : Option ℤ
  packetLoss : Option ℚ
  outboundKbps : Option ℤ
  outboundAudioKbps : Option ℤ

def values (report : List Stat) (previous : Option PreviousStats) : Values :=
  let t := totals report previous
  { rttMs := selectedCandidatePairRTT report
    jitterMs := t.jitterMs
    packetLoss := packetLossPercentFromDeltas t.lostPackets t.receivedPackets
    outboundKbps := previous.bind fun previous =>
      if previous.timestamp < t.timestamp then
        some (round (kbps t.sentBytes previous.sentBytes t.timestamp previous.timestamp))
      else none
    outboundAudioKbps := previous.bind fun previous =>
      if previous.timestamp < t.timestamp then
        some (round (kbps t.sentAudioBytes previous.sentAudioBytes t.timestamp previous.timestamp))
      else none }

/-- The `network_state` message. -/
def networkState (localParticipantID : String) (values : Values) : List (String × Json) :=
  [("version", .num 1), ("type", .str "network_state"),
    ("participant_id", .str localParticipantID),
    ("rtt_ms", .num (values.rttMs.getD (-1))),
    ("packet_loss10", .num (normalizePacketLoss10 values.packetLoss)),
    ("jitter_ms", .num (values.jitterMs.getD (-1) : ℤ)),
    ("video_kbps", .num ((values.outboundKbps.map (max 0)).getD (-1) : ℤ)),
    ("audio_kbps", .num ((values.outboundAudioKbps.map (max 0)).getD (-1) : ℤ))]

end SlowMeet.Diagnostics
