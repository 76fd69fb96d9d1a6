import SlowMeet.Lib.Glare
import SlowMeet.Negotiation.Server

/-!
# The browser's half of the negotiation

The operations that `enqueuePeerNegotiation` chains one after another, the
renegotiation queue, and the promises of its pump. An operation runs from one
`await` to the next; between them anything else may run.

The socket is the current one throughout and no watchdog fires, so that
neither is in the state. Candidates are added or queued, whatever becomes of
them.
-/

namespace SlowMeet.Negotiation

open Lib

/-- An operation on the chain. -/
inductive Operation
  | sendOffer
  | offer (sdp : Nat)
  | answer (sdp : Nat)
  | candidate (candidate : Candidate)
  deriving DecidableEq, Repr

/-- The promises of one run of `pump`: `sendOffer` not yet called, its
operation on the chain, its result, and the `finally`. -/
inductive Pumping
  | idle
  | starting (batch : Nat)
  | calling (batch : Nat)
  /-- `sent` is what `sendOffer` resolved to, `none` when it was rejected. -/
  | returned (batch : Nat) (sent : Option Bool)
  | finishing
  deriving DecidableEq, Repr

/-- The requests of one offer. JavaScript compares batches by reference. -/
structure Batch where
  id : Nat
  requests : List Nat
  deriving DecidableEq, Repr

/-- The state of `createRenegotiationQueue`. -/
structure RenegotiationQueue where
  pending : List Nat
  inFlight : Option Batch
  pumping : Pumping
  batches : Nat
  requests : Nat
  resolved : List Nat
  rejected : List Nat
  deriving DecidableEq, Repr

namespace RenegotiationQueue

def new : RenegotiationQueue := ⟨[], none, .idle, 0, 0, [], []⟩

def pump (q : RenegotiationQueue) (isStable : Bool) : RenegotiationQueue :=
  if q.pumping ≠ .idle ∨ q.inFlight.isSome ∨ q.pending = [] then q
  else if !isStable then q
  else
    { q with
      pending := [], inFlight := some ⟨q.batches, q.pending⟩, batches := q.batches + 1
      pumping := .starting q.batches }

def request (q : RenegotiationQueue) (isStable : Bool) : RenegotiationQueue :=
  { q with pending := q.pending ++ [q.requests], requests := q.requests + 1 }.pump isStable

def answer (q : RenegotiationQueue) (isStable : Bool) : RenegotiationQueue :=
  match q.inFlight with
  | some batch =>
    { q with resolved := q.resolved ++ batch.requests, inFlight := none }.pump isStable
  | none => q.pump isStable

def rollback (q : RenegotiationQueue) : RenegotiationQueue :=
  match q.inFlight with
  | some batch => { q with pending := batch.requests ++ q.pending, inFlight := none }
  | none => q

def fail (q : RenegotiationQueue) (isStable : Bool) : RenegotiationQueue :=
  match q.inFlight with
  | some batch =>
    { q with rejected := q.rejected ++ batch.requests, inFlight := none }.pump isStable
  | none => q

def resume (q : RenegotiationQueue) (isStable : Bool) : RenegotiationQueue := q.pump isStable

/-- The `then` and the `catch` of `pump`. -/
def sent (q : RenegotiationQueue) (batch : Nat) (result : Option Bool) : RenegotiationQueue :=
  match q.inFlight with
  | none => q
  | some current =>
    if current.id ≠ batch then q
    else
      match result with
      | some true => q
      | some false => { q with inFlight := none, pending := current.requests ++ q.pending }
      | none => { q with inFlight := none, rejected := q.rejected ++ current.requests }

/-- The operation of `sendOffer` ends. -/
def finishOffer (q : RenegotiationQueue) (result : Option Bool) : RenegotiationQueue :=
  match q.pumping with
  | .calling batch => { q with pumping := .returned batch result }
  | _ => q

end RenegotiationQueue

structure Browser where
  peer : Signaling Nat
  /-- `renegotiationChain`, less the operation that runs. -/
  chain : List Operation
  /-- The operation that runs, at its `await`. -/
  task : Task
  remoteDescriptionSet : Bool
  pendingCandidates : List Candidate
  queue : RenegotiationQueue
  /-- Sent and not yet read by the server. -/
  outbound : List Inbound
  offers : Nat
  rolledBack : List Nat
  /-- Each answer applied: the own offer it settled, and the offer it was for. -/
  applied : List (Nat × Nat)
  deriving DecidableEq

namespace Browser

def new : Browser where
  peer := .stable
  chain := []
  task := .idle
  remoteDescriptionSet := false
  pendingCandidates := []
  queue := .new
  outbound := []
  offers := 0
  rolledBack := []
  applied := []

def isStable (b : Browser) : Bool := b.peer = .stable

/-- The next promise of the pump. -/
def runPump (b : Browser) : Option Browser :=
  match b.queue.pumping with
  | .idle | .calling _ => none
  | .starting batch =>
    some { b with
      chain := b.chain ++ [.sendOffer], queue := { b.queue with pumping := .calling batch } }
  | .returned batch result =>
    some { b with queue := { b.queue.sent batch result with pumping := .finishing } }
  | .finishing =>
    some { b with queue := { b.queue with pumping := .idle }.pump b.isStable }

/-! ## The chain -/

/-- The running operation ends with a call of the queue. -/
def finish (b : Browser) (queue : RenegotiationQueue) : Browser := { b with task := .idle, queue }

/-- The first chained operation runs up to its first `await`. -/
def beginOperation (b : Browser) : Operation → Browser
  | .sendOffer =>
    if b.isStable then { b with task := .creating }
    else b.finish (b.queue.finishOffer (some false))
  | .offer sdp =>
    if b.peer.offered then { b with task := .rolling sdp } else { b with task := .applying sdp }
  | .answer sdp =>
    -- a stray answer fails the batch in flight
    if b.peer.offered then { b with task := .settling sdp }
    else b.finish (b.queue.fail b.isStable)
  | .candidate candidate =>
    if b.remoteDescriptionSet then b
    else { b with pendingCandidates := b.pendingCandidates ++ [candidate] }

/-- What was awaited takes effect, or the running operation goes on to its
next `await`. -/
def advance (b : Browser) : Option Browser :=
  match b.task with
  | .idle => none
  | .creating => some { b with task := .setting b.offers, offers := b.offers + 1 }
  | .setting sdp =>
    match b.peer.setLocalOffer sdp with
    | none => some (b.finish (b.queue.finishOffer none))
    | some peer => some { b with peer, task := .sending sdp }
  | .sending sdp =>
    some { b with
      task := .idle, remoteDescriptionSet := false, outbound := b.outbound ++ [.offer sdp]
      queue := b.queue.finishOffer (some true) }
  | .rolling sdp =>
    match b.peer.rollback with
    | none => some (b.finish (b.queue.resume b.isStable))
    | some peer =>
      some { b with
        peer, task := .rolled sdp, rolledBack := b.rolledBack ++ b.peer.localOffer.toList }
  | .rolled sdp => some { b with task := .applying sdp, queue := b.queue.rollback }
  | .applying sdp =>
    match b.peer.setRemoteOffer sdp with
    | none => some (b.finish (b.queue.resume b.isStable))
    | some peer =>
      some { b with
        peer, task := .answering sdp, remoteDescriptionSet := true, pendingCandidates := [] }
  | .answering sdp => some { b with task := .settingAnswer sdp }
  | .settingAnswer sdp =>
    match b.peer.setLocalAnswer with
    | none => some (b.finish (b.queue.resume b.isStable))
    | some peer => some { b with peer, task := .replying sdp }
  | .replying sdp =>
    some { b with
      task := .idle, outbound := b.outbound ++ [.answer sdp]
      queue := b.queue.resume b.isStable }
  | .settling sdp =>
    match b.peer.setRemoteAnswer with
    | none => some (b.finish (b.queue.fail b.isStable))
    | some peer =>
      some { b with
        peer, task := .settled, remoteDescriptionSet := true, pendingCandidates := []
        applied := b.applied ++ (b.peer.localOffer.map (·, sdp)).toList }
  | .settled => some (b.finish (b.queue.answer b.isStable))

/-- `handleWebRTCMessage`. -/
def handleWebRTCMessage (b : Browser) : Outbound → Browser
  | .offer sdp => { b with chain := b.chain ++ [.offer sdp] }
  | .answer sdp => { b with chain := b.chain ++ [.answer sdp] }
  | .candidate candidate => { b with chain := b.chain ++ [.candidate candidate] }
  | .error _ => b

inductive Label
  | request
  | begin
  | advance
  | pump
  /-- The browser's own candidates and ICE restart requests. -/
  | candidate (candidate : Candidate)
  | iceRestart
  deriving DecidableEq, Repr

def step (b : Browser) : Label → Option Browser
  | .request => some { b with queue := b.queue.request b.isStable }
  | .begin =>
    match b.task, b.chain with
    | .idle, operation :: rest => some ({ b with chain := rest }.beginOperation operation)
    | _, _ => none
  | .advance => b.advance
  | .pump => b.runPump
  | .candidate candidate => some { b with outbound := b.outbound ++ [.candidate candidate] }
  | .iceRestart => some { b with outbound := b.outbound ++ [.iceRestart] }

end Browser

/-! ## Both halves -/

/-- The server and the browser, joined by what each has written. -/
structure System where
  server : Server
  browser : Browser

namespace System

def new : System := ⟨.new, .new⟩

inductive Label
  | server (l : Server.Label)
  | browser (l : Browser.Label)
  /-- The server's read loop reads the next message. -/
  | up (calls : Calls)
  /-- The browser's socket delivers the next message. -/
  | down

def step (s : System) : Label → Option System
  | .server (.receive _ _) => none
  | .server l => (s.server.step l).map fun server => { s with server }
  | .browser l => (s.browser.step l).map fun browser => { s with browser }
  | .up calls =>
    match s.browser.outbound with
    | [] => none
    | msg :: rest =>
      (s.server.step (.receive msg calls)).map fun server =>
        { server, browser := { s.browser with outbound := rest } }
  | .down =>
    match s.server.outbound with
    | [] => none
    | msg :: rest =>
      some ⟨{ s.server with outbound := rest }, s.browser.handleWebRTCMessage msg⟩

/-- Every call that the signalling state allows is accepted, and every write
taken. -/
def Succeeds (_ : System) : Label → Prop
  | .server l => l.calls.Succeed
  | .up calls => calls.Succeed
  | .browser _ | .down => True

end System

/-- The two halves of one negotiation. -/
def systemLts : Lts System System.Label := .ofStep System.new System.step

end SlowMeet.Negotiation
