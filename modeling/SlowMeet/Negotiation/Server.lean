import SlowMeet.Lib.Jsep
import SlowMeet.Lib.Lts

/-!
# The server's half of the negotiation

One client's negotiation fields, the sections that `negotiationMu` makes
atomic, and the read loop's handler between them. `sendOffer` and the ICE
candidate callback may run on any goroutine between any two sections.

An offer is known by its number among the offers of its author, and an answer
by the offer it was created for: what a description says beyond that decides
only whether a call accepts it, which is the environment's choice. The ICE
failure timer closes the connection and is left out.
-/

namespace SlowMeet.Negotiation

open Lib

/-- The candidate fields of a `Message`. -/
structure Candidate where
  candidate : String
  sdpMid : Option String
  sdpMLineIndex : Option Nat
  deriving DecidableEq, Repr

/-- What the browser sends to `handleWebRTCMessage`. -/
inductive Inbound
  | offer (sdp : Nat)
  | answer (sdp : Nat)
  | candidate (candidate : Candidate)
  | iceRestart
  deriving DecidableEq, Repr

/-- What the negotiation writes to the browser. -/
inductive Outbound
  | offer (sdp : Nat)
  | answer (sdp : Nat)
  | candidate (candidate : Candidate)
  | error (text : String)
  deriving DecidableEq, Repr

/-- A key-frame request to the router. -/
inductive KeyFrame
  | subscriptions
  | publications
  deriving DecidableEq, Repr

/-- What the peer connection and the outbound queue do during one section. A
call that is accepted still fails when the signalling state forbids it. -/
structure Calls where
  setRemoteOffer : Bool := true
  /-- The peer accepts the candidate of the section's `i`-th such call. -/
  addICECandidate : Nat → Candidate → Bool := fun _ _ => true
  createAnswer : Bool := true
  setRemoteAnswer : Bool := true
  createOffer : Bool := true
  /-- The queue takes the section's `i`-th write. -/
  takes : Nat → Bool := fun _ => true
  /-- The text of a failed call's error. -/
  error : String := ""

/-- Nothing the section calls is refused. -/
structure Calls.Succeed (calls : Calls) : Prop where
  setRemoteOffer : calls.setRemoteOffer = true
  addICECandidate : ∀ i candidate, calls.addICECandidate i candidate = true
  createAnswer : calls.createAnswer = true
  setRemoteAnswer : calls.setRemoteAnswer = true
  createOffer : calls.createOffer = true
  takes : ∀ i, calls.takes i = true

theorem Calls.succeed_default : Calls.Succeed {} :=
  ⟨rfl, fun _ _ => rfl, rfl, rfl, rfl, fun _ => rfl⟩

/-- Where the read loop's handler stands. `offer` is the `sendOffer` it still
has to call, by its ICE restart. -/
inductive Handler
  | idle
  | answering (sdp : Nat)
  | flushing
  | offering (iceRestart reply : Bool)
  | replying (error : String) (offer : Option Bool)
  | refreshing (completedICERestart : Bool) (offer : Option Bool)
  deriving DecidableEq, Repr

structure Server where
  negotiationReady : Bool
  remoteDescription : Bool
  offerInFlight : Bool
  offerICERestart : Bool
  pendingOffer : Bool
  pendingICERestart : Bool
  pendingCandidates : List Candidate
  pendingLocalCandidates : List Candidate
  peer : Signaling Nat
  handler : Handler
  /-- Written and not yet read by the browser. -/
  outbound : List Outbound
  keyFrames : List KeyFrame
  /-- Each offer created, by its ICE restart. -/
  created : List Bool
  /-- Each answer applied: the own offer it settled, and the offer it was for. -/
  applied : List (Nat × Nat)
  /-- The browser's offers, applied and dropped. -/
  remoteOffers : List Nat
  dropped : List Nat
  /-- Each call of `sendOffer`: its ICE restart, and the offers created before. -/
  requests : List (Bool × Nat)
  deriving DecidableEq

namespace Server

def new : Server where
  negotiationReady := false
  remoteDescription := false
  offerInFlight := false
  offerICERestart := false
  pendingOffer := false
  pendingICERestart := false
  pendingCandidates := []
  pendingLocalCandidates := []
  peer := .stable
  handler := .idle
  outbound := []
  keyFrames := []
  created := []
  applied := []
  remoteOffers := []
  dropped := []
  requests := []

def maxPendingCandidates : Nat := 512

/-- `write`, when the queue takes the message. -/
def write (s : Server) (m : Outbound) : Server := { s with outbound := s.outbound ++ [m] }

/-! ## Candidates -/

/-- The loop of `applyPendingCandidates` from its `i`-th call on: what stays
queued, and whether all were accepted. -/
def applyCandidates (accepts : Nat → Candidate → Bool) :
    Nat → List Candidate → List Candidate × Bool
  | _, [] => ([], true)
  | i, candidate :: rest =>
    -- one malformed candidate does not discard those behind it
    if accepts i candidate then applyCandidates accepts (i + 1) rest else (rest, false)

def applyPendingCandidates (s : Server) (calls : Calls) : Server × Bool :=
  let (rest, ok) := applyCandidates calls.addICECandidate 0 s.pendingCandidates
  ({ s with pendingCandidates := rest }, ok)

/-- The error is the section's result, to be written after it. -/
def addOrQueueCandidate (s : Server) (calls : Calls) (candidate : Candidate) :
    Server × Option String :=
  if !s.remoteDescription then
    if maxPendingCandidates ≤ s.pendingCandidates.length then
      (s, some "too many queued ICE candidates")
    else ({ s with pendingCandidates := s.pendingCandidates ++ [candidate] }, none)
  else (s, if calls.addICECandidate 0 candidate then none else some calls.error)

/-- The loop of `flushPendingLocalCandidates` from its `i`-th write on. -/
def flushCandidates (takes : Nat → Bool) (s : Server) : Nat → List Candidate → Server
  | _, [] => { s with pendingLocalCandidates := [] }
  | i, candidate :: rest =>
    if takes i then flushCandidates takes (s.write (.candidate candidate)) (i + 1) rest
    else { s with pendingLocalCandidates := candidate :: rest }

def flushPendingLocalCandidates (s : Server) (calls : Calls) : Server :=
  flushCandidates calls.takes s 0 s.pendingLocalCandidates

def sendOrQueueLocalCandidate (s : Server) (calls : Calls) (candidate : Candidate) : Server :=
  if !s.negotiationReady then
    { s with pendingLocalCandidates := s.pendingLocalCandidates ++ [candidate] }
  else if calls.takes 0 then s.write (.candidate candidate)
  else s

/-! ## The peer connection -/

def setRemoteOffer (s : Server) (calls : Calls) (sdp : Nat) : Option Server :=
  if calls.setRemoteOffer then
    (s.peer.setRemoteOffer sdp).map fun peer =>
      { s with peer, remoteOffers := s.remoteOffers ++ [sdp] }
  else none

def createAnswer (s : Server) (calls : Calls) : Option Server :=
  if calls.createAnswer then s.peer.setLocalAnswer.map fun peer => { s with peer } else none

/-- An answer settles the offer the state rests on, whichever it is for. -/
def setRemoteAnswer (s : Server) (calls : Calls) (sdp : Nat) : Option Server :=
  if calls.setRemoteAnswer then
    s.peer.setRemoteAnswer.map fun peer =>
      { s with peer, applied := s.applied ++ [(s.created.length - 1, sdp)] }
  else none

def createOffer (s : Server) (calls : Calls) (iceRestart : Bool) : Option Server :=
  if calls.createOffer then
    (s.peer.setLocalOffer s.created.length).map fun peer =>
      { s with peer, created := s.created ++ [iceRestart] }
  else none

/-! ## The sections -/

/-- What `sendOfferWithPeer` keeps for later. -/
def queueOffer (s : Server) (iceRestart : Bool) : Server :=
  { s with pendingOffer := true, pendingICERestart := s.pendingICERestart || iceRestart }

/-- `sendOfferWithPeer` after its two checks. -/
def startOffer (s : Server) (calls : Calls) (iceRestart : Bool) : Server × Bool :=
  let previousRemoteDescription := s.remoteDescription
  -- candidates of the restarted credentials wait until the answer is applied
  let s := { s with
    offerInFlight := true, offerICERestart := iceRestart
    remoteDescription := s.remoteDescription && !iceRestart }
  match s.createOffer calls iceRestart with
  | none =>
    ({ s with
      offerInFlight := false, offerICERestart := false
      remoteDescription := previousRemoteDescription }, false)
  | some s' =>
    if calls.takes 0 then (s'.write (.offer s.created.length), true)
    else
      ({ s' with
        offerInFlight := false, offerICERestart := false
        remoteDescription := previousRemoteDescription }, false)

/-- `sendOfferWithPeer`, and whether it succeeded. -/
def sendOffer (s : Server) (calls : Calls) (iceRestart : Bool) : Server × Bool :=
  let s := { s with requests := s.requests ++ [(iceRestart, s.created.length)] }
  if !s.negotiationReady then (s.queueOffer iceRestart, true)
  else if s.offerInFlight then (s.queueOffer iceRestart, true)
  else s.startOffer calls iceRestart

/-- Unlock, then write the error. -/
def reply (s : Server) (error : String) : Server := { s with handler := .replying error none }

/-- The first section of an offer. -/
def receiveOffer (s : Server) (calls : Calls) (sdp : Nat) : Server :=
  if s.offerInFlight then { s with dropped := s.dropped ++ [sdp] }
  else
    match s.setRemoteOffer calls sdp with
    | none => s.reply calls.error
    | some s =>
      match s.applyPendingCandidates calls with
      | (s, false) => s.reply calls.error
      | (s, true) =>
        let wasNegotiationReady := s.negotiationReady
        let s := { s with remoteDescription := true, negotiationReady := false }
        match s.createAnswer calls with
        | none => { s with negotiationReady := wasNegotiationReady }.reply calls.error
        | some s => { s with handler := .answering sdp }

/-- `applyRemoteAnswer`, and whether it succeeded. -/
def applyRemoteAnswer (s : Server) (calls : Calls) (sdp : Nat) : Server × Bool :=
  match s.setRemoteAnswer calls sdp with
  | none => (s, false)
  | some s => { s with remoteDescription := true }.applyPendingCandidates calls

/-- The section of an answer. The flags are cleared also after an error. -/
def receiveAnswer (s : Server) (calls : Calls) (sdp : Nat) : Server :=
  if !s.offerInFlight then s.reply "no offer in flight"
  else
    let completedICERestart := s.offerICERestart
    let (s, ok) := s.applyRemoteAnswer calls sdp
    let offer := if s.offerInFlight && s.pendingOffer then some s.pendingICERestart else none
    { s with
      offerICERestart := false, offerInFlight := false
      pendingOffer := false, pendingICERestart := false
      handler := if ok then .refreshing completedICERestart offer else .replying calls.error offer }

/-- `handleWebRTCMessage` up to the end of its first section. -/
def handleWebRTCMessage (s : Server) (calls : Calls) : Inbound → Server
  | .offer sdp => s.receiveOffer calls sdp
  | .answer sdp => s.receiveAnswer calls sdp
  | .candidate candidate =>
    match s.addOrQueueCandidate calls candidate with
    | (s, none) => s
    | (s, some error) => s.reply error
  | .iceRestart => { s with handler := .offering true true }

/-- After everything else the handler calls `sendOffer`, or returns. -/
def thenOffer (s : Server) : Option Bool → Server
  | none => { s with handler := .idle }
  | some iceRestart => { s with handler := .offering iceRestart false }

/-- The second section of an offer. -/
def finishOffer (s : Server) (calls : Calls) : Server :=
  let s := s.flushPendingLocalCandidates calls
  let offer := if s.pendingOffer then some s.pendingICERestart else none
  { s with negotiationReady := true, pendingOffer := false, pendingICERestart := false }.thenOffer
    offer

/-- The handler's next section or write. -/
def run (s : Server) (calls : Calls) : Handler → Option Server
  | .idle => none
  | .answering sdp =>
    if calls.takes 0 then
      some { s.write (.answer sdp) with
        keyFrames := s.keyFrames ++ [.subscriptions], handler := .flushing }
    else some { s with handler := .idle }
  | .flushing => some (s.finishOffer calls)
  | .offering iceRestart reply =>
    match s.sendOffer calls iceRestart with
    | (s, ok) => some (if reply && !ok then s.reply calls.error else { s with handler := .idle })
  | .replying error offer =>
    some ((if calls.takes 0 then s.write (.error error) else s).thenOffer offer)
  | .refreshing completedICERestart offer =>
    let requests := .subscriptions :: if completedICERestart then [.publications] else []
    some ({ s with keyFrames := s.keyFrames ++ requests }.thenOffer offer)

inductive Label
  /-- The read loop reads the next message. -/
  | receive (msg : Inbound) (calls : Calls)
  | run (calls : Calls)
  /-- `sendOffer` on another goroutine. -/
  | sendOffer (iceRestart : Bool) (calls : Calls)
  /-- The peer's `OnICECandidate` callback. -/
  | localCandidate (candidate : Candidate) (calls : Calls)

/-- What the section of a step calls. -/
def Label.calls : Label → Calls
  | .receive _ calls | .run calls | .sendOffer _ calls | .localCandidate _ calls => calls

def step (s : Server) : Label → Option Server
  | .receive msg calls =>
    if s.handler = .idle then some (s.handleWebRTCMessage calls msg) else none
  | .run calls => s.run calls s.handler
  | .sendOffer iceRestart calls => some (s.sendOffer calls iceRestart).1
  | .localCandidate candidate calls => some (s.sendOrQueueLocalCandidate calls candidate)

/-- Every peer call is accepted and every write taken. -/
def Succeeds (_ : Server) (l : Label) : Prop := l.calls.Succeed

end Server

/-- The server's half of one negotiation. -/
def serverLts : Lts Server Server.Label := .ofStep Server.new Server.step

end SlowMeet.Negotiation
