import SlowMeet.Client.Page
import SlowMeet.Lib.GoMap

/-!
# Screen sharing between a browser and its hub

One browser's side of screen sharing in `web/js/app.js` (`toggleScreenShare`,
`startScreenShare`, `requestScreenShare`, `stopScreenShare` and the message
handlers), and the hub's in `internal/signaling/hub.go` (`requestScreenShare`,
`releaseScreenShare`, `BroadcastConfig`). An async function is cut where it
awaits, a hub function where it releases the lock, so any other step may run
in between. Both directions of the connection are queues.

The browser asks only for a start through its `requestScreenShare`; a stop is
a message nobody waits for. `releaseScreenShare` runs for a client whose
connection is gone, so never for this one. What the hub tells other clients,
media and layout are left out.
-/

namespace SlowMeet.Client

open Lib

abbrev ClientId := Nat

namespace ScreenShare

/-- Where `startScreenShare` awaits. -/
inductive Start
  | idle
  /-- `getDisplayMedia` -/
  | picking
  /-- `requestCameraState` -/
  | preparing
  /-- `requestScreenShare`: `screenShareRequest` is set. -/
  | requesting
  /-- The sender, the profile and the negotiation. -/
  | setting
  /-- The catch clause, which has a release to send. -/
  | failing
  /-- The catch clause, which restores the camera. -/
  | restoring
  deriving DecidableEq, Repr

/-- Where `stopScreenShare` awaits. -/
inductive Stop
  | idle
  /-- The sender; the release is still to be sent. -/
  | detaching
  /-- `setVideoSending` -/
  | resuming
  deriving DecidableEq, Repr

/-- A message of the hub to the browser. -/
inductive Message
  | screenShareState (owner : Option ParticipantID)
  | configUpdate (screenShareEnabled : Bool)
  | participantLeft (id : ParticipantID)
  | error
  deriving DecidableEq, Repr

/-! ## The browser -/

structure Browser where
  start : Start
  stop : Stop
  /-- `screenStream` is set. -/
  screenStream : Bool
  /-- The capture has ended while a start runs. -/
  trackEnded : Bool
  screenShareOwner : Option ParticipantID
  screenShareEnabled : Bool
  /-- `audioOnly.checked` -/
  audioOnly : Bool
  /-- `screen.disabled` -/
  screenDisabled : Bool
  deriving DecidableEq, Repr

namespace Browser

/-- Another participant shares. -/
def ownedByOther (me : ParticipantID) (b : Browser) : Bool :=
  b.screenShareOwner.any (· ≠ me)

def updateScreenShareUI (me : ParticipantID) (b : Browser) : Browser :=
  { b with screenDisabled := !b.screenShareEnabled || b.ownedByOther me || b.audioOnly }

/-- `stopScreenShare` up to its first await. -/
def stopScreenShare (b : Browser) : Browser :=
  if b.stop = .idle ∧ b.screenStream = true then
    { b with screenStream := false, stop := .detaching }
  else b

def toggleScreenShare (me : ParticipantID) (b : Browser) : Browser :=
  if b.stop ≠ .idle ∨ b.start ≠ .idle then b
  else if b.screenStream then b.stopScreenShare
  else if b.screenDisabled || b.audioOnly || b.ownedByOther me then b
  else { b with start := .picking, trackEnded := false }

/-- The catch clause of `startScreenShare` up to its first await. -/
def fail (b : Browser) : Browser :=
  { b with start := .failing, screenStream := false }

/-- The start is over. Had its capture ended meanwhile, it stops. -/
def endStart (b : Browser) : Browser :=
  let ended := { b with start := .idle }
  if b.trackEnded then ended.stopScreenShare else ended

/-- The `ended` listener of the captured track. -/
def captureEnded (b : Browser) : Browser :=
  if b.start = .idle then b.stopScreenShare else { b with trackEnded := true }

/-- The change handler of the audio-only box. -/
def setAudioOnly (me : ParticipantID) (checked : Bool) (b : Browser) : Browser :=
  let b := { b with audioOnly := checked }
  updateScreenShareUI me (if checked then b.stopScreenShare else b)

/-- The `screen_share_state` handler, with what awaits the request's promise. -/
def onScreenShareState (me : ParticipantID) (owner : Option ParticipantID) (b : Browser) :
    Browser :=
  let b := updateScreenShareUI me { b with screenShareOwner := owner }
  if b.start = .requesting then
    if owner = some me then { b with start := .setting }
    else if owner.isSome then b.fail
    else b
  else b

def onConfigUpdate (me : ParticipantID) (enabled : Bool) (b : Browser) : Browser :=
  let b := { b with screenShareEnabled := enabled }
  updateScreenShareUI me (if enabled then b else b.stopScreenShare)

def onParticipantLeft (me id : ParticipantID) (b : Browser) : Browser :=
  if b.screenShareOwner = some id then
    updateScreenShareUI me { b with screenShareOwner := none }
  else b

def onError (b : Browser) : Browser :=
  if b.start = .requesting then b.fail else b

def onMessage (me : ParticipantID) (b : Browser) : Message → Browser
  | .screenShareState owner => b.onScreenShareState me owner
  | .configUpdate enabled => b.onConfigUpdate me enabled
  | .participantLeft id => b.onParticipantLeft me id
  | .error => b.onError

/-- No start and no stop is running. -/
def Idle (b : Browser) : Prop := b.start = .idle ∧ b.stop = .idle

end Browser

/-! ## The hub -/

/-- Where the handler of a client stands in `requestScreenShare` or
`releaseScreenShare`. -/
inductive Handler
  /-- The configuration is checked, the lock not yet taken. -/
  | checked (active : Bool)
  /-- An error is still to be written. -/
  | refusing
  /-- A broadcast is still to be made. -/
  | announcing (owner : Option ParticipantID)
  deriving DecidableEq, Repr

/-- A call of `BroadcastConfig`. -/
abbrev CallId := Nat

/-- Where a call of `BroadcastConfig` stands. -/
inductive Call
  | entered (enabled : Bool)
  /-- The `config_update` is still to be broadcast. -/
  | updating (enabled released : Bool)
  /-- The share it released is still to be broadcast. -/
  | announcing
  deriving DecidableEq, Repr

/-- A hub whose clients are the participants `participant` says, and the
browser of client `me`. -/
structure State where
  browser : Browser
  /-- `EnableScreenShare` in the store. -/
  enableScreenShare : Bool
  screenSharer : Option ClientId
  /-- The handlers in the middle of a request. -/
  handlers : GoMap ClientId Handler
  calls : GoMap CallId Call
  /-- The last start this browser's handler has settled was granted. The hub
  does not keep this. -/
  granted : Bool
  /-- The `screen_share_active` of the messages the hub has yet to read. -/
  toServer : List Bool
  toBrowser : List Message

inductive Label
  | toggle
  | picked (granted : Bool)
  | prepared (succeeds : Bool)
  | timeout
  | setUp (succeeds : Bool)
  | failed
  | restored
  | captureEnded
  | audioOnly (checked : Bool)
  | detached
  | stopped
  /-- The answer to `GET /config` arrives. -/
  | fetched (enabled : Bool)
  | deliver
  /-- The hub reads a message of this browser. -/
  | read
  /-- The hub reads a message of another client. -/
  | request (c : ClientId) (active : Bool)
  | lock (c : ClientId)
  | announce (c : ClientId)
  /-- `releaseScreenShare` for another client. -/
  | release (c : ClientId)
  /-- Another client's departure is broadcast. -/
  | leave (c : ClientId)
  /-- An error about anything else. -/
  | refuse
  | configure (enabled : Bool)
  | broadcastConfig (i : CallId) (enabled : Bool)
  | lockConfig (i : CallId)
  | updateConfig (i : CallId)
  | announceConfig (i : CallId)
  deriving DecidableEq, Repr

namespace State

variable (participant : ClientId → ParticipantID) (me : ClientId)

def setHandler (s : State) (c : ClientId) (handler : Option Handler) : State :=
  { s with handlers := handler.elim (s.handlers.erase c) (s.handlers.insert c ·) }

def setCall (s : State) (i : CallId) (call : Option Call) : State :=
  { s with calls := call.elim (s.calls.erase i) (s.calls.insert i ·) }

theorem lookup_setHandler (s : State) (c c' : ClientId) (handler : Option Handler) :
    (s.setHandler c handler).handlers.lookup c' =
      if c' = c then handler else s.handlers.lookup c' := by
  cases handler with
  | none => exact GoMap.lookup_erase _ _ _
  | some handler => exact GoMap.lookup_insert _ _ _ _

theorem lookup_setCall (s : State) (i i' : CallId) (call : Option Call) :
    (s.setCall i call).calls.lookup i' = if i' = i then call else s.calls.lookup i' := by
  cases call with
  | none => exact GoMap.lookup_erase _ _ _
  | some call => exact GoMap.lookup_insert _ _ _ _

def send (s : State) (active : Bool) : State := { s with toServer := s.toServer ++ [active] }

/-- `Hub.broadcast`, as far as it reaches this browser. -/
def broadcast (s : State) (message : Message) : State :=
  { s with toBrowser := s.toBrowser ++ [message] }

/-- `requestScreenShare` before it takes the lock. -/
def checkConfig (s : State) (active : Bool) : Handler :=
  if active && !s.enableScreenShare then .refusing else .checked active

/-- What `requestScreenShare` makes of the lease. -/
def lease (c : ClientId) (active : Bool) (screenSharer : Option ClientId) : Option ClientId :=
  if active then if screenSharer = none then some c else screenSharer
  else if screenSharer = some c then none else screenSharer

/-- What it has to do once it has released the lock. -/
def announcement (c : ClientId) (active : Bool) (screenSharer : Option ClientId) :
    Option Handler :=
  let owner := (lease c active screenSharer).map participant
  if active = true ∧ lease c active screenSharer ≠ some c then some .refusing
  else if owner = screenSharer.map participant then none
  else some (.announcing owner)

/-- The locked section of `requestScreenShare`. -/
def requestScreenShare (s : State) (c : ClientId) (active : Bool) : State :=
  { s.setHandler c (announcement participant c active s.screenSharer) with
    screenSharer := lease c active s.screenSharer
    granted := if c = me ∧ active = true then lease c active s.screenSharer = some c
      else s.granted }

/-- `releaseScreenShare` up to its broadcast. -/
def releaseScreenShare (s : State) (c : ClientId) : State :=
  if s.screenSharer = some c then
    { s.setHandler c (some (.announcing none)) with screenSharer := none }
  else s

/-- The locked section of `BroadcastConfig`. -/
def releaseDisabled (s : State) (i : CallId) (enabled : Bool) : State :=
  if !enabled && s.screenSharer.isSome then
    { s.setCall i (some (.updating enabled true)) with screenSharer := none }
  else s.setCall i (some (.updating enabled false))

/-! ### Steps of the browser -/

def picked (s : State) (granted : Bool) : Option State :=
  if s.browser.start = .picking then
    some { s with browser :=
      if granted then { s.browser with start := .preparing, screenStream := true }
      else s.browser.fail }
  else none

def prepared (s : State) (succeeds : Bool) : Option State :=
  if s.browser.start = .preparing then
    -- without a stream, its `id` cannot be read
    if succeeds && s.browser.screenStream then
      some { s.send true with browser := { s.browser with start := .requesting } }
    else some { s with browser := s.browser.fail }
  else none

/-- Five seconds after the request. -/
def timeout (s : State) : Option State :=
  if s.browser.start = .requesting then
    some { s.send false with browser := s.browser.fail }
  else none

def setUp (s : State) (succeeds : Bool) : Option State :=
  if s.browser.start = .setting then
    some { s with browser :=
      -- without a stream, the `readyState` of its track cannot be read
      if succeeds && s.browser.screenStream && !s.browser.trackEnded then
        (s.browser.updateScreenShareUI (participant me)).endStart
      else s.browser.fail }
  else none

/-- The catch clause sends its release. -/
def failed (s : State) : Option State :=
  if s.browser.start = .failing then
    some { s.send false with browser :=
      ({ s.browser with start := .restoring } : Browser).updateScreenShareUI (participant me) }
  else none

def restored (s : State) : Option State :=
  if s.browser.start = .restoring then some { s with browser := s.browser.endStart } else none

def captureEnded (s : State) : Option State :=
  -- once the page has dropped the stream, its listener changes nothing
  if s.browser.screenStream then some { s with browser := s.browser.captureEnded } else none

/-- The stop sends its release. -/
def detached (s : State) : Option State :=
  if s.browser.stop = .detaching then
    some { s.send false with browser := { s.browser with stop := .resuming } }
  else none

def stopped (s : State) : Option State :=
  if s.browser.stop = .resuming then
    some { s with browser :=
      ({ s.browser with stop := .idle } : Browser).updateScreenShareUI (participant me) }
  else none

def deliver (s : State) : Option State :=
  match s.toBrowser with
  | message :: rest =>
    some { s with
      browser := s.browser.onMessage (participant me) message
      toBrowser := rest }
  | [] => none

def stepBrowser (s : State) : Label → Option State
  | .toggle => some { s with browser := s.browser.toggleScreenShare (participant me) }
  | .picked granted => s.picked granted
  | .prepared succeeds => s.prepared succeeds
  | .timeout => s.timeout
  | .setUp succeeds => s.setUp participant me succeeds
  | .failed => s.failed participant me
  | .restored => s.restored
  | .captureEnded => s.captureEnded
  | .audioOnly checked =>
    some { s with browser := s.browser.setAudioOnly (participant me) checked }
  | .detached => s.detached
  | .stopped => s.stopped participant me
  | .fetched enabled =>
    some { s with browser :=
      { s.browser with screenShareEnabled := enabled, screenDisabled := !enabled } }
  | .deliver => s.deliver participant me
  | _ => none

/-! ### Steps of the hub -/

def read (s : State) : Option State :=
  match s.toServer with
  | active :: rest =>
    if s.handlers.lookup me = none then
      some { s.setHandler me (some (s.checkConfig active)) with
        toServer := rest
        granted := s.granted && decide (s.checkConfig active ≠ .refusing) }
    else none
  | [] => none

/-- Another client's message is read. -/
def request (s : State) (c : ClientId) (active : Bool) : Option State :=
  if c ≠ me ∧ s.handlers.lookup c = none then
    some (s.setHandler c (some (s.checkConfig active)))
  else none

def lock (s : State) (c : ClientId) : Option State :=
  match s.handlers.lookup c with
  | some (.checked active) => some (s.requestScreenShare participant me c active)
  | _ => none

def announce (s : State) (c : ClientId) : Option State :=
  match s.handlers.lookup c with
  | some .refusing =>
    -- the error goes to the client it is about
    some (if c = me then (s.setHandler c none).broadcast .error else s.setHandler c none)
  | some (.announcing owner) =>
    some ((s.setHandler c none).broadcast (.screenShareState owner))
  | _ => none

def release (s : State) (c : ClientId) : Option State :=
  if c ≠ me ∧ s.handlers.lookup c = none then some (s.releaseScreenShare c) else none

def leave (s : State) (c : ClientId) : Option State :=
  if c ≠ me then some (s.broadcast (.participantLeft (participant c))) else none

def broadcastConfig (s : State) (i : CallId) (enabled : Bool) : Option State :=
  if s.calls.lookup i = none then some (s.setCall i (some (.entered enabled))) else none

def lockConfig (s : State) (i : CallId) : Option State :=
  match s.calls.lookup i with
  | some (.entered enabled) => some (s.releaseDisabled i enabled)
  | _ => none

def updateConfig (s : State) (i : CallId) : Option State :=
  match s.calls.lookup i with
  | some (.updating enabled released) =>
    some ((s.setCall i (if released then some .announcing else none)).broadcast
      (.configUpdate enabled))
  | _ => none

def announceConfig (s : State) (i : CallId) : Option State :=
  match s.calls.lookup i with
  | some .announcing => some ((s.setCall i none).broadcast (.screenShareState none))
  | _ => none

def stepHub (s : State) : Label → Option State
  | .read => s.read me
  | .request c active => s.request me c active
  | .lock c => s.lock participant me c
  | .announce c => s.announce me c
  | .release c => s.release me c
  | .leave c => s.leave participant me c
  | .refuse => some (s.broadcast .error)
  | .configure enabled => some { s with enableScreenShare := enabled }
  | .broadcastConfig i enabled => s.broadcastConfig i enabled
  | .lockConfig i => s.lockConfig i
  | .updateConfig i => s.updateConfig i
  | .announceConfig i => s.announceConfig i
  | _ => none

def step (s : State) (l : Label) : Option State :=
  (s.stepBrowser participant me l).or (s.stepHub participant me l)

def lts (start : State) : Lts State Label := .ofStep start (step participant me)

/-- The connection has just been opened: whatever the hub is doing, it does
nothing for this browser. -/
structure Opened (s : State) : Prop where
  idle : s.browser.Idle
  streamless : s.browser.screenStream = false
  unshared : s.screenSharer ≠ some me
  handler : s.handlers.lookup me = none
  toServer : s.toServer = []

/-- No message is in flight, none is being handled and none is still to be
broadcast. -/
structure Quiet (s : State) : Prop where
  toServer : s.toServer = []
  toBrowser : s.toBrowser = []
  handlers : s.handlers = ∅
  calls : s.calls = ∅

/-- Browser and hub agree on the local share. -/
def Agrees (s : State) : Prop := s.browser.screenStream = true ↔ s.screenSharer = some me

end State

end ScreenShare

end SlowMeet.Client
