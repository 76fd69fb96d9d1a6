import SlowMeet.Lib.Lts
import SlowMeet.Signaling.Hub

/-!
# The hub running

`ServeHTTP`, the timer callbacks, `Close` and the admin updates as
goroutines: each runs the sections of `SlowMeet.Signaling.Hub` in the order
of its code, one section a step, and the scheduler picks who is next. The
runs of `Hub.lts` are the interleavings of any number of connections.

A step between two sections that touches only the goroutine's own data
joins the section after it.
-/

namespace SlowMeet.Signaling

open Lib Media

namespace Hub

/-! ## Requests -/

def bindingError : String := "participant_id does not belong to this connection"

/-- The room messages of the read loop, for the participant `p`. `allowed`
is the answer of `allowReaction`, which depends on the clock. -/
def handle (h : Hub) (c : ClientId) (p : Participant) (allowed : Bool) : Request → Hub
  | .leave id =>
    if id = p.id then h.update c fun me => { me with phase := .closing, intentionalLeave := true }
    else h.refuse c bindingError
  | .mediaState audio video paused =>
    let state : MediaState := ⟨p.id, audio, video, paused⟩
    { h with mediaStates := h.mediaStates.insert p.id state }.goto c
      (.handling (.relaying state))
  | .videoSubscriptions ids layer =>
    { h with media := h.media.setVideoSubscriptionsWithLayer p.id ids layer }
  | .handState id raised =>
    if id ≠ p.id then h.refuse c bindingError
    else
      match h.meeting.setRaisedHand p.id raised with
      | none => h.refuse c "participant not found"
      | some (meeting, changed) => { h with meeting := meeting }.goto c (.handling (.raising changed))
  | .screenShare active streamID trackID =>
    if active && !h.config.enableScreenShare then h.refuse c "screen sharing is disabled"
    else h.goto c (.handling (.sharing active streamID trackID))
  | .chat text =>
    let msg : ChatMessage := ⟨p.id, p.name, trimSpace text⟩
    if h.config.retainChatHistory then
      { h with nextID := h.nextID + 1 }.goto c (.handling (.chatting msg (some (msg.entry h.nextID))))
    else h.goto c (.handling (.chatting msg none))
  | .reaction emoji =>
    if allowed then h.goto c (.handling (.reacting p.id p.name emoji)) else h
  | .invalid _ _ | .join _ _ _ | .networkState | .webrtc => h

/-- The join case of the read loop up to `reclaim`; `allowed` is the answer
of the password limiter. -/
def requestJoin (h : Hub) (c : ClientId) (allowed : Bool) (name : Name) (password : String)
    (token : Option Token) : Hub :=
  if h.config.meetingPassword ≠ "" && !allowed then
    (h.refuse c "too many password attempts").goto c .closing
  else if !h.config.checkMeetingPassword password then h.refuse c "invalid meeting password"
  else
    match token with
    | some token => h.goto c (.reclaiming name token)
    | none => h.goto c (.joining name)

/-- A round of the read loop once the join attempts are counted. -/
def dispatch (h : Hub) (c : ClientId) (allowed : Bool) (request : Request) : Hub :=
  match request, (h.client c).participant with
  | .invalid _ error, _ => h.refuse c error
  | .join name password token, none => h.requestJoin c allowed name password token
  | .join _ _ _, some _ => h.refuse c "already joined"
  | _, none => h.refuse c "join is required before this message"
  | request, some p => h.handle c p allowed request

/-- Count a join attempt. -/
def countJoin (h : Hub) (c : ClientId) : Hub :=
  h.update c fun me => { me with joinAttempts := me.joinAttempts + 1 }

/-- What the read loop does with a message, or with a failed read. -/
def receive (h : Hub) (c : ClientId) (allowed : Bool) (input : Option Request) : Hub :=
  match input with
  | none => h.goto c .closing
  | some request =>
    if request.isJoin && (h.client c).participant.isNone then
      let h := h.countJoin c
      if (h.client c).joinAttempts > maxJoinAttempts then
        (h.refuse c "too many join attempts").goto c .closing
      else h.dispatch c allowed request
    else h.dispatch c allowed request

/-- What the read loop does with a message, case by case. -/
inductive Receives (h : Hub) (c : ClientId) : Option Request → Hub → Prop
  | lost : Receives h c none (h.goto c .closing)
  | ignored (request : Request)
      (hstay : ∀ p, (h.client c).participant = some p → request ≠ .leave p.id) :
      Receives h c (some request) h
  | refused (request : Request) (text : String)
      (hstay : ∀ p, (h.client c).participant = some p → request ≠ .leave p.id) :
      Receives h c (some request) (h.refuse c text)
  | refusedJoin (request : Request) (text : String) (hp : (h.client c).participant = none) :
      Receives h c (some request) ((h.countJoin c).refuse c text)
  | expelled (request : Request) (text : String) (hp : (h.client c).participant = none) :
      Receives h c (some request) (((h.countJoin c).refuse c text).goto c .closing)
  | reclaiming (request : Request) (name : Name) (token : Token)
      (hp : (h.client c).participant = none) :
      Receives h c (some request) ((h.countJoin c).goto c (.reclaiming name token))
  | joining (request : Request) (name : Name) (hp : (h.client c).participant = none) :
      Receives h c (some request) ((h.countJoin c).goto c (.joining name))
  | leave (p : Participant) (hp : (h.client c).participant = some p) :
      Receives h c (some (.leave p.id))
        (h.update c fun me => { me with phase := .closing, intentionalLeave := true })
  | mediaState (p : Participant) (audio video paused : Option Bool)
      (hp : (h.client c).participant = some p) :
      Receives h c (some (.mediaState audio video paused))
        ({ h with mediaStates := h.mediaStates.insert p.id ⟨p.id, audio, video, paused⟩ }.goto c
          (.handling (.relaying ⟨p.id, audio, video, paused⟩)))
  | videoSubscriptions (p : Participant) (ids : List ParticipantID) (layer : Option CameraLayer)
      (hp : (h.client c).participant = some p) :
      Receives h c (some (.videoSubscriptions ids layer))
        { h with media := h.media.setVideoSubscriptionsWithLayer p.id ids layer }
  | handState (p : Participant) (raised : Bool) (meeting : Meeting) (changed : List Participant)
      (hp : (h.client c).participant = some p)
      (hraised : h.meeting.setRaisedHand p.id raised = some (meeting, changed)) :
      Receives h c (some (.handState p.id raised))
        ({ h with meeting := meeting }.goto c (.handling (.raising changed)))
  | screenShare (p : Participant) (active : Bool) (streamID trackID : String)
      (hp : (h.client c).participant = some p)
      (hallowed : active = true → h.config.enableScreenShare = true) :
      Receives h c (some (.screenShare active streamID trackID))
        (h.goto c (.handling (.sharing active streamID trackID)))
  | retainedChat (p : Participant) (text : List Char) (hp : (h.client c).participant = some p)
      (hretain : h.config.retainChatHistory = true) :
      Receives h c (some (.chat text))
        ({ h with nextID := h.nextID + 1 }.goto c (.handling (.chatting ⟨p.id, p.name, trimSpace text⟩
          (some (ChatMessage.entry ⟨p.id, p.name, trimSpace text⟩ h.nextID)))))
  | chat (p : Participant) (text : List Char) (hp : (h.client c).participant = some p)
      (hretain : h.config.retainChatHistory = false) :
      Receives h c (some (.chat text))
        (h.goto c (.handling (.chatting ⟨p.id, p.name, trimSpace text⟩ none)))
  | reaction (p : Participant) (emoji : String) (hp : (h.client c).participant = some p) :
      Receives h c (some (.reaction emoji))
        (h.goto c (.handling (.reacting p.id p.name emoji)))

theorem receives_handle (h : Hub) (c : ClientId) (p : Participant) (allowed : Bool)
    (request : Request) (hp : (h.client c).participant = some p) :
    h.Receives c (some request) (h.handle c p allowed request) := by
  have hstay : ∀ request : Request, (∀ id, request ≠ .leave id) →
      ∀ q, (h.client c).participant = some q → request ≠ .leave q.id := fun _ hne q _ => hne q.id
  cases request with
  | leave id =>
    simp only [handle]
    split
    · rename_i hid
      exact hid ▸ .leave p hp
    · rename_i hid
      exact .refused _ _ fun q hq => by simp_all
  | mediaState audio video paused => exact .mediaState p audio video paused hp
  | videoSubscriptions ids layer => exact .videoSubscriptions p ids layer hp
  | handState id raised =>
    simp only [handle]
    split
    · exact .refused _ _ (hstay _ (by simp))
    · rename_i hid
      obtain rfl : id = p.id := by simpa using hid
      split
      · exact .refused _ _ (hstay _ (by simp))
      · exact .handState p raised _ _ hp ‹_›
  | screenShare active streamID trackID =>
    simp only [handle]
    split
    · exact .refused _ _ (hstay _ (by simp))
    · rename_i hcheck
      refine .screenShare p active streamID trackID hp fun hactive => ?_
      simpa [hactive] using hcheck
  | chat text =>
    simp only [handle]
    split
    · exact .retainedChat p text hp ‹_›
    · rename_i hretain
      exact .chat p text hp (Bool.eq_false_iff.mpr hretain)
  | reaction emoji =>
    simp only [handle]
    split
    · exact .reaction p emoji hp
    · exact .ignored _ (hstay _ (by simp))
  | invalid _ _ | join _ _ _ | networkState | webrtc => exact .ignored _ (hstay _ (by simp))

theorem receives_receive (h : Hub) (c : ClientId) (allowed : Bool) (input : Option Request) :
    h.Receives c input (h.receive c allowed input) := by
  cases input with
  | none => exact .lost
  | some request =>
    simp only [receive]
    split
    · rename_i hjoin
      have hp : (h.client c).participant = none := by
        simp only [Bool.and_eq_true, Option.isNone_iff_eq_none] at hjoin
        exact hjoin.2
      have hp' : ((h.countJoin c).client c).participant = none := by simp [countJoin, update, hp]
      split
      · exact .expelled _ _ hp
      · cases request with
        | invalid isJoin error => exact .refusedJoin _ _ hp
        | join name password token =>
          simp only [dispatch, hp', requestJoin]
          split
          · exact .expelled _ _ hp
          · split
            · exact .refusedJoin _ _ hp
            · cases token with
              | some token => exact .reclaiming _ name token hp
              | none => exact .joining _ name hp
        | leave _ | mediaState _ _ _ | videoSubscriptions _ _ | handState _ _ | networkState
          | screenShare _ _ _ | chat _ | reaction _ | webrtc => simp [Request.isJoin] at hjoin
    · rename_i hjoin
      cases hp : (h.client c).participant with
      | none =>
        have hstay : ∀ q, (h.client c).participant = some q → request ≠ .leave q.id := by simp [hp]
        cases request with
        | join name password token => simp [Request.isJoin, hp] at hjoin
        | invalid isJoin error => exact .refused _ _ hstay
        | leave _ | mediaState _ _ _ | videoSubscriptions _ _ | handState _ _ | networkState
          | screenShare _ _ _ | chat _ | reaction _ | webrtc =>
          simp only [dispatch, hp]
          exact .refused _ _ hstay
      | some p =>
        cases request with
        | invalid isJoin error => exact .refused _ _ (by simp)
        | join name password token =>
          simp only [dispatch, hp]
          exact .refused _ _ (by simp)
        | leave _ | mediaState _ _ _ | videoSubscriptions _ _ | handState _ _ | networkState
          | screenShare _ _ _ | chat _ | reaction _ | webrtc =>
          simp only [dispatch, hp]
          exact receives_handle h c p allowed _ hp

/-! ## Message handlers -/

/-- The locked section of `requestScreenShare`. -/
def requestScreenShare (h : Hub) (c : ClientId) (active : Bool) (streamID trackID : String) : Hub :=
  let previousOwner := h.screenOwner
  if active && h.screenSharer.isSome && h.screenSharer ≠ some c then
    (h.refuse c "screen sharing is already active").goto c .reading
  else
    let h :=
      if active then
        { h with screenSharer := some c }.update c fun me => { me with
          activeScreenMediaStreamID := streamID, activeScreenMediaTrackID := trackID }
      else if h.screenSharer = some c then
        { h with screenSharer := none }.update c fun me => { me with
          activeScreenMediaStreamID := "", activeScreenMediaTrackID := "" }
      else h
    let owner := h.screenOwner
    h.goto c (.handling (.shared active
      (if owner ≠ previousOwner then some owner else none)))

def runHandler (h : Hub) (c : ClientId) (p : Participant) : Handler → Hub
  | .relaying state => (h.broadcastExcept c (.mediaState state)).goto c .reading
  | .reacting id name emoji => (h.broadcastToRoom (.reaction id name emoji)).goto c .reading
  | .raising [] => h.goto c .reading
  | .raising (q :: changed) =>
    (if q.id = p.id then h.update c fun me => { me with participant := some q } else h).goto c
      (.handling (.raisedCast q changed))
  | .raisedCast q changed =>
    (h.broadcastToRoom (.handState q.id q.raisedHand q.handOrder)).goto c
      (.handling (.raising changed))
  | .sharing active streamID trackID => h.requestScreenShare c active streamID trackID
  | .shared active change =>
    { h with media := h.media.setPublicationActive p.id .screen active }.goto c
      (match change with
        | some owner => .handling (.sharedCast owner)
        | none => .reading)
  | .sharedCast owner =>
    (h.broadcastToRoom (screenShareMessage owner.isSome owner)).goto c .reading
  | .chatting msg entry => (h.recordAndBroadcastChat c msg entry).goto c .reading

/-! ## The handler of a connection -/

/-- The steps of `disconnect` between its two decisions. -/
def runTeardown (h : Hub) (c : ClientId) (p : Participant) (departure : Departure) :
    Teardown → Hub
  | .unregister =>
    { h with media := h.media.unregister p.id }.goto c (.parting departure .closePeer)
  | .closePeer => (h.closePeer c).goto c (.parting departure .releaseScreen)
  | .releaseScreen => h.releaseScreenShare c departure
  | .unpublish =>
    { h with media := h.media.unpublish p.id .screen }.goto c (.parting departure .screenCast)
  | .screenCast =>
    (h.broadcastToRoom (screenShareMessage false none)).goto c (.parting departure .settle)
  | .settle => h.settle c p departure

/-- The next section of the handler of `c`; `ok` answers its calls that can
fail. A handler that reads, waits or still has clients to tell is not moved
by this. -/
def run (h : Hub) (c : ClientId) (ok : Bool) : Option Hub :=
  let me := h.client c
  match me.phase, me.participant with
  | .upgrading, _ => some (h.goto c (if ok then .opening else .finished))
  | .opening, _ => some (h.goto c (if h.closed then .finished else .reading))
  | .reclaiming name token, _ => some (h.reclaim c name token)
  | .superseding previous, _ => some (h.supersede c previous)
  | .waiting previous, _ =>
    if (h.client previous).phase = .finished then some (h.goto c .cancelling) else none
  | .joining name, _ => some (h.join c name)
  | .refusing err, _ => some (h.refuseJoin c err)
  | .entering participant, _ => some (h.enter c participant)
  | .cancelling, _ => some (h.cancelChatHistoryExpiry.goto c .peering)
  | .peering, _ => some (h.newPeer c ok)
  | .registering, some p =>
    some ({ h with media := h.media.register p.id c (some c) }.goto c .admitting)
  | .admitting, some p => some (h.admitClient c p ok)
  | .releasing, _ => some ((h.releasePending c).goto c .announcing)
  | .announcing, some p => some (h.announce c p)
  | .handling handler, some p => some (h.runHandler c p handler)
  | .closing, _ => some (h.cleanup c)
  | .disconnecting, some p => some (h.disconnect c p)
  | .parting departure at_, some p => some (h.runTeardown c p departure at_)
  | .forgetting, some p => some ((h.forgetMediaState p.id).goto c .leaving)
  | .leaving, some p => some (h.leave c p)
  | .casting, some p => some ((h.broadcastToRoom (.left p)).goto c .scheduling)
  | .scheduling, _ => some (h.goto c (if h.shouldScheduleExpiry then .arming else .finished))
  | .arming, _ => some (h.scheduleChatHistoryExpiry.goto c .finished)
  | .notifying clients, _ => if clients = ∅ then some (h.goto c .armingGrace) else none
  | .armingGrace, some p => some (h.armGrace c p)
  | .finished, _ => if me.reserved then some (h.releasePending c) else none
  | _, _ => none

/-- What one section of a handler does, case by case. -/
inductive Runs (h : Hub) (c : ClientId) (ok : Bool) : Hub → Prop
  | upgrading (hphase : (h.client c).phase = .upgrading) :
      Runs h c ok (h.goto c (if ok then .opening else .finished))
  | opening (hphase : (h.client c).phase = .opening) :
      Runs h c ok (h.goto c (if h.closed then .finished else .reading))
  | reclaiming (name : Name) (token : Token)
      (hphase : (h.client c).phase = .reclaiming name token) : Runs h c ok (h.reclaim c name token)
  | superseding (previous : ClientId) (hphase : (h.client c).phase = .superseding previous) :
      Runs h c ok (h.supersede c previous)
  | waiting (previous : ClientId) (hphase : (h.client c).phase = .waiting previous)
      (hover : (h.client previous).phase = .finished) : Runs h c ok (h.goto c .cancelling)
  | joining (name : Name) (hphase : (h.client c).phase = .joining name) :
      Runs h c ok (h.join c name)
  | refusing (err : JoinError) (hphase : (h.client c).phase = .refusing err) :
      Runs h c ok (h.refuseJoin c err)
  | entering (participant : Participant) (hphase : (h.client c).phase = .entering participant) :
      Runs h c ok (h.enter c participant)
  | cancelling (hphase : (h.client c).phase = .cancelling) :
      Runs h c ok (h.cancelChatHistoryExpiry.goto c .peering)
  | peering (hphase : (h.client c).phase = .peering) : Runs h c ok (h.newPeer c ok)
  | registering (p : Participant) (hp : (h.client c).participant = some p)
      (hphase : (h.client c).phase = .registering) :
      Runs h c ok ({ h with media := h.media.register p.id c (some c) }.goto c .admitting)
  | admitting (p : Participant) (hp : (h.client c).participant = some p)
      (hphase : (h.client c).phase = .admitting) : Runs h c ok (h.admitClient c p ok)
  | releasing (hphase : (h.client c).phase = .releasing) :
      Runs h c ok ((h.releasePending c).goto c .announcing)
  | announcing (p : Participant) (hp : (h.client c).participant = some p)
      (hphase : (h.client c).phase = .announcing) : Runs h c ok (h.announce c p)
  | handling (p : Participant) (handler : Handler) (hp : (h.client c).participant = some p)
      (hphase : (h.client c).phase = .handling handler) : Runs h c ok (h.runHandler c p handler)
  | closing (hphase : (h.client c).phase = .closing) : Runs h c ok (h.cleanup c)
  | disconnecting (p : Participant) (hp : (h.client c).participant = some p)
      (hphase : (h.client c).phase = .disconnecting) : Runs h c ok (h.disconnect c p)
  | parting (p : Participant) (departure : Departure) (at_ : Teardown)
      (hp : (h.client c).participant = some p)
      (hphase : (h.client c).phase = .parting departure at_) :
      Runs h c ok (h.runTeardown c p departure at_)
  | forgetting (p : Participant) (hp : (h.client c).participant = some p)
      (hphase : (h.client c).phase = .forgetting) :
      Runs h c ok ((h.forgetMediaState p.id).goto c .leaving)
  | leaving (p : Participant) (hp : (h.client c).participant = some p)
      (hphase : (h.client c).phase = .leaving) : Runs h c ok (h.leave c p)
  | casting (p : Participant) (hp : (h.client c).participant = some p)
      (hphase : (h.client c).phase = .casting) :
      Runs h c ok ((h.broadcastToRoom (.left p)).goto c .scheduling)
  | scheduling (hphase : (h.client c).phase = .scheduling) :
      Runs h c ok (h.goto c (if h.shouldScheduleExpiry then .arming else .finished))
  | arming (hphase : (h.client c).phase = .arming) :
      Runs h c ok (h.scheduleChatHistoryExpiry.goto c .finished)
  | notifying (hphase : (h.client c).phase = .notifying ∅) : Runs h c ok (h.goto c .armingGrace)
  | armingGrace (p : Participant) (hp : (h.client c).participant = some p)
      (hphase : (h.client c).phase = .armingGrace) : Runs h c ok (h.armGrace c p)
  | finished (hphase : (h.client c).phase = .finished) (hreserved : (h.client c).reserved = true) :
      Runs h c ok (h.releasePending c)

theorem runs_of_run {h h' : Hub} {c : ClientId} {ok : Bool} (hrun : h.run c ok = some h') :
    h.Runs c ok h' := by
  cases hphase : (h.client c).phase with
  | absent | reading => simp [run, hphase] at hrun
  | waiting previous =>
    simp only [run, hphase] at hrun
    split at hrun <;> cases hrun
    exact .waiting previous hphase ‹_›
  | notifying clients =>
    simp only [run, hphase] at hrun
    split at hrun <;> cases hrun
    rename_i hempty
    exact .notifying (hempty ▸ hphase)
  | finished =>
    simp only [run, hphase] at hrun
    split at hrun <;> cases hrun
    exact .finished hphase ‹_›
  | registering | admitting | announcing | handling _ | disconnecting | parting _ _ | forgetting
    | leaving | casting | armingGrace =>
    cases hp : (h.client c).participant with
    | none => simp [run, hphase, hp] at hrun
    | some p =>
      simp only [run, hphase, hp, Option.some.injEq] at hrun
      subst hrun
      constructor <;> assumption
  | upgrading | opening | reclaiming _ _ | superseding _ | joining _ | refusing _ | entering _
    | cancelling | peering | releasing | closing | scheduling | arming =>
    simp only [run, hphase, Option.some.injEq] at hrun
    subst hrun
    constructor
    assumption

/-- `disconnect` tells one of the clients it counted. -/
def notify (h : Hub) (c d : ClientId) : Option Hub :=
  match (h.client c).phase, (h.client c).participant with
  | .notifying clients, some p =>
    if d ∈ clients then some ((h.write d (.left p)).goto c (.notifying (clients.erase d))) else none
  | _, _ => none

/-! ## The grace timer -/

def setReaper (h : Hub) (c : ClientId) (reaper : Reaper) : Hub :=
  h.update c fun me => { me with reaper := reaper }

/-- The timer armed for `c` fires and finds its entry. Without the entry its
callback does nothing. -/
def graceFire (h : Hub) (c : ClientId) : Option Hub :=
  (h.client c).participant.bind fun p =>
    match h.pending.lookup (reconnectToken p) with
    | some reconnect =>
      if reconnect.client = c ∧ reconnect.armed then
        some ({ h with pending := h.pending.erase (reconnectToken p) }.setReaper c .unregistering)
      else none
    | none => none

/-- The rest of the grace timer's callback. -/
def reap (h : Hub) (c : ClientId) : Option Hub :=
  (h.client c).participant.bind fun p =>
    match (h.client c).reaper with
    | .idle | .done => none
    | .unregistering =>
      some ({ h with media := h.media.unregister p.id }.setReaper c .closingPeer)
    | .closingPeer => some ((h.closePeer c).setReaper c .leaving)
    | .leaving => some ({ h with meeting := (h.meeting.leave p.id).1 }.setReaper c .forgetting)
    | .forgetting => some ((h.forgetMediaState p.id).setReaper c .scheduling)
    | .scheduling => some (h.setReaper c (if h.shouldScheduleExpiry then .arming else .done))
    | .arming => some (h.scheduleChatHistoryExpiry.setReaper c .done)

/-! ## The chat expiry callback -/

def chatTimer (h : Hub) (timer : TimerId) : Option Hub :=
  if timer ∈ h.timers then
    some { h with timers := h.timers.erase timer, expiring := h.expiring + 1 }
  else none

def chatCheck (h : Hub) : Option Hub :=
  match h.expiring with
  | 0 => none
  | n + 1 =>
    some { h with
      expiring := n
      deleting := if h.meeting.count = 0 then h.deleting + 1 else h.deleting }

def chatDelete (h : Hub) : Option Hub :=
  match h.deleting with
  | 0 => none
  | n + 1 =>
    some { h with
      deleting := n
      chatHistory := none
      ledger := { h.ledger with chatCleared := h.ledger.chat.length } }

/-! ## Admin updates -/

def setAdmin (h : Hub) (a : AdminId) (phase : AdminPhase) : Hub :=
  { h with admin := Function.update h.admin a phase }

/-- `Store.Update` with an update that passes `Validate`. -/
def adminUpdate (h : Hub) (a : AdminId) (update : AdminUpdate) : Option Hub :=
  match h.admin a with
  | .idle =>
    some ({ h with config := h.config.updatedConfig update }.setAdmin a .snapshotting)
  | _ => none

/-- The first locked section of `BroadcastConfig`. -/
def releaseDisabledShare (h : Hub) (a : AdminId) (cfg : Config) : Hub :=
  match h.screenSharer with
  | some sharer =>
    if cfg.enableScreenShare then h.setAdmin a (.pausing cfg none)
    else
      ({ h with screenSharer := none }.update sharer fun me => { me with
        activeScreenMediaStreamID := "", activeScreenMediaTrackID := "" }).setAdmin a
        (.pausing cfg (h.client sharer).participantID)
  | none => h.setAdmin a (.pausing cfg none)

/-- The rest of the update handler: `Snapshot`, `SetMaxParticipants` and
`BroadcastConfig`. -/
def runAdmin (h : Hub) (a : AdminId) : Option Hub :=
  match h.admin a with
  | .idle => none
  | .snapshotting => some (h.setAdmin a (.limiting h.config))
  | .limiting cfg =>
    some ({ h with meeting := h.meeting.setMaxParticipants cfg.maxParticipants }.setAdmin a
      (.releasing cfg))
  | .releasing cfg => some (h.releaseDisabledShare a cfg)
  | .pausing cfg released =>
    some ((match released with
      | some owner => { h with media := h.media.setPublicationActive owner .screen false }
      | none => h).setAdmin a (.announcing cfg released.isSome))
  | .announcing cfg released =>
    some ((h.broadcastToRoom (.configUpdate cfg.toPublic)).setAdmin a (.clearing cfg released))
  | .clearing cfg released =>
    some ((if cfg.retainChatHistory then h else h.clearChatHistory).setAdmin a
      (if released then .screenCast else .idle))
  | .screenCast =>
    some ((h.broadcastToRoom (screenShareMessage false none)).setAdmin a .idle)

/-! ## Tracks -/

/-- pion reports a track of an open peer. -/
def onTrack (h : Hub) (c : ClientId) (track : TrackRemote) : Option Hub :=
  if (h.client c).hasPeer ∧ (h.client c).peerClosed = false then
    some { h with callbacks := h.callbacks ++ [match track.kind with
      | .audio => .publishing c track .audio
      | .video => .started c track] }
  else none

/-- `screenShareStreamID` and `screenShareTrackID`: the announced identifier
while `c` shares, and else the empty string. -/
def screenShareID (h : Hub) (c : ClientId) (id : Client → String) : String :=
  if h.screenSharer = some c then id (h.client c) else ""

/-- The next section of an `OnTrack` callback; `failed` are the targets whose
`ReplaceTrack` fails. -/
def runTrack (h : Hub) (index : Nat) (failed : Finset ParticipantID) : Option Hub :=
  (h.callbacks[index]?).bind fun callback =>
    let h := { h with callbacks := h.callbacks.eraseIdx index }
    match callback with
    | .started c track =>
      let streamID := h.screenShareID c (·.activeScreenMediaStreamID)
      some { h with callbacks := h.callbacks ++
        [if streamID ≠ "" && track.streamID = streamID then .publishing c track .screen
          else .streamChecked c track] }
    | .streamChecked c track =>
      let trackID := h.screenShareID c (·.activeScreenMediaTrackID)
      some { h with callbacks := h.callbacks ++
        [.publishing c track
          (if trackID ≠ "" && track.trackID = trackID then .screen else .camera)] }
    | .publishing c track role =>
      (h.client c).participant.map fun p =>
        let layer := if role = .camera then Router.cameraLayerFromRID track.rid else none
        { h with media := h.media.publish p.id role (some c) (some track) layer failed }

/-! ## The transition system -/

inductive Label
  | connect (c : ClientId)
  | receive (c : ClientId) (allowed : Bool) (input : Option Request)
  | run (c : ClientId) (ok : Bool)
  | notify (c d : ClientId)
  | expireAdmission (c : ClientId)
  | graceFire (c : ClientId)
  | reap (c : ClientId)
  | closeSuperseded (c : ClientId)
  | close
  | closeLeave (id : ParticipantID)
  | chatTimer (timer : TimerId)
  | chatCheck
  | chatDelete
  | adminUpdate (a : AdminId) (update : AdminUpdate)
  | admin (a : AdminId)
  | onTrack (c : ClientId) (track : TrackRemote)
  | track (index : Nat) (failed : Finset ParticipantID)
  | trackOp (index : Nat) (ok : Bool)
  | readStop (index : Nat)

def step (h : Hub) : Label → Option Hub
  | .connect c => if (h.client c).phase = .absent then some (h.reserve c) else none
  | .receive c allowed input =>
    if (h.client c).phase = .reading then some (h.receive c allowed input) else none
  | .run c ok => h.run c ok
  | .notify c d => h.notify c d
  | .expireAdmission c =>
    match (h.client c).phase with
    | .absent | .upgrading | .opening => none
    | _ => some (h.expireAdmission c)
  | .graceFire c => h.graceFire c
  | .reap c => h.reap c
  | .closeSuperseded c => if (h.client c).closeTimer then some (h.closeSuperseded c) else none
  | .close => some h.close
  | .closeLeave id => h.closeLeave id
  | .chatTimer timer => h.chatTimer timer
  | .chatCheck => h.chatCheck
  | .chatDelete => h.chatDelete
  | .adminUpdate a update => h.adminUpdate a update
  | .admin a => h.runAdmin a
  | .onTrack c track => h.onTrack c track
  | .track index failed => h.runTrack index failed
  | .trackOp index ok => (h.media.trackOp index ok).map fun media => { h with media := media }
  | .readStop index => (h.media.readStop index).map fun media => { h with media := media }

/-- What one step does, case by case. -/
inductive Steps (h : Hub) : Label → Hub → Prop
  | connect (c : ClientId) (hphase : (h.client c).phase = .absent) :
      Steps h (.connect c) (h.reserve c)
  | receive (c : ClientId) (allowed : Bool) (input : Option Request) (h' : Hub)
      (hphase : (h.client c).phase = .reading) (hreceive : h.Receives c input h') :
      Steps h (.receive c allowed input) h'
  | run (c : ClientId) (ok : Bool) (h' : Hub) (hrun : h.Runs c ok h') : Steps h (.run c ok) h'
  | notify (c d : ClientId) (p : Participant) (clients : Finset ClientId)
      (hphase : (h.client c).phase = .notifying clients) (hp : (h.client c).participant = some p)
      (hd : d ∈ clients) :
      Steps h (.notify c d) ((h.write d (.left p)).goto c (.notifying (clients.erase d)))
  | expireAdmission (c : ClientId)
      (hphase : (h.client c).phase ≠ .absent ∧ (h.client c).phase ≠ .upgrading ∧
        (h.client c).phase ≠ .opening) : Steps h (.expireAdmission c) (h.expireAdmission c)
  | graceFire (c : ClientId) (p : Participant) (reconnect : PendingReconnect)
      (hp : (h.client c).participant = some p)
      (hentry : h.pending.lookup (reconnectToken p) = some reconnect)
      (hc : reconnect.client = c) (harmed : reconnect.armed = true) :
      Steps h (.graceFire c)
        ({ h with pending := h.pending.erase (reconnectToken p) }.setReaper c .unregistering)
  | reapUnregister (c : ClientId) (p : Participant) (hp : (h.client c).participant = some p)
      (hreaper : (h.client c).reaper = .unregistering) :
      Steps h (.reap c) ({ h with media := h.media.unregister p.id }.setReaper c .closingPeer)
  | reapClosePeer (c : ClientId) (p : Participant) (hp : (h.client c).participant = some p)
      (hreaper : (h.client c).reaper = .closingPeer) :
      Steps h (.reap c) ((h.closePeer c).setReaper c .leaving)
  | reapLeave (c : ClientId) (p : Participant) (hp : (h.client c).participant = some p)
      (hreaper : (h.client c).reaper = .leaving) :
      Steps h (.reap c) ({ h with meeting := (h.meeting.leave p.id).1 }.setReaper c .forgetting)
  | reapForget (c : ClientId) (p : Participant) (hp : (h.client c).participant = some p)
      (hreaper : (h.client c).reaper = .forgetting) :
      Steps h (.reap c) ((h.forgetMediaState p.id).setReaper c .scheduling)
  | reapSchedule (c : ClientId) (p : Participant) (hp : (h.client c).participant = some p)
      (hreaper : (h.client c).reaper = .scheduling) :
      Steps h (.reap c) (h.setReaper c (if h.shouldScheduleExpiry then .arming else .done))
  | reapArm (c : ClientId) (p : Participant) (hp : (h.client c).participant = some p)
      (hreaper : (h.client c).reaper = .arming) :
      Steps h (.reap c) (h.scheduleChatHistoryExpiry.setReaper c .done)
  | closeSuperseded (c : ClientId) (htimer : (h.client c).closeTimer = true) :
      Steps h (.closeSuperseded c) (h.closeSuperseded c)
  | close : Steps h .close h.close
  | closeLeave (id : ParticipantID) (hid : id ∈ h.closingIDs) :
      Steps h (.closeLeave id)
        { h with closingIDs := h.closingIDs.erase id, meeting := (h.meeting.leave id).1 }
  | chatTimer (timer : TimerId) (htimer : timer ∈ h.timers) :
      Steps h (.chatTimer timer)
        { h with timers := h.timers.erase timer, expiring := h.expiring + 1 }
  | chatCheck (n : Nat) (hn : h.expiring = n + 1) :
      Steps h .chatCheck { h with
        expiring := n
        deleting := if h.meeting.count = 0 then h.deleting + 1 else h.deleting }
  | chatDelete (n : Nat) (hn : h.deleting = n + 1) :
      Steps h .chatDelete { h with
        deleting := n
        chatHistory := none
        ledger := { h.ledger with chatCleared := h.ledger.chat.length } }
  | adminUpdate (a : AdminId) (update : AdminUpdate) (hadmin : h.admin a = .idle) :
      Steps h (.adminUpdate a update)
        ({ h with config := h.config.updatedConfig update }.setAdmin a .snapshotting)
  | adminSnapshot (a : AdminId) (hadmin : h.admin a = .snapshotting) :
      Steps h (.admin a) (h.setAdmin a (.limiting h.config))
  | adminLimit (a : AdminId) (cfg : Config) (hadmin : h.admin a = .limiting cfg) :
      Steps h (.admin a)
        ({ h with meeting := h.meeting.setMaxParticipants cfg.maxParticipants }.setAdmin a
          (.releasing cfg))
  | adminRelease (a : AdminId) (cfg : Config) (hadmin : h.admin a = .releasing cfg) :
      Steps h (.admin a) (h.releaseDisabledShare a cfg)
  | adminPause (a : AdminId) (cfg : Config) (released : Option ParticipantID)
      (hadmin : h.admin a = .pausing cfg released) :
      Steps h (.admin a) ((match released with
        | some owner => { h with media := h.media.setPublicationActive owner .screen false }
        | none => h).setAdmin a (.announcing cfg released.isSome))
  | adminAnnounce (a : AdminId) (cfg : Config) (released : Bool)
      (hadmin : h.admin a = .announcing cfg released) :
      Steps h (.admin a)
        ((h.broadcastToRoom (.configUpdate cfg.toPublic)).setAdmin a (.clearing cfg released))
  | adminClear (a : AdminId) (cfg : Config) (released : Bool)
      (hadmin : h.admin a = .clearing cfg released) :
      Steps h (.admin a) ((if cfg.retainChatHistory then h else h.clearChatHistory).setAdmin a
        (if released then .screenCast else .idle))
  | adminScreenCast (a : AdminId) (hadmin : h.admin a = .screenCast) :
      Steps h (.admin a) ((h.broadcastToRoom (screenShareMessage false none)).setAdmin a .idle)
  | onTrack (c : ClientId) (track : TrackRemote) (hpeer : (h.client c).hasPeer = true)
      (hopen : (h.client c).peerClosed = false) :
      Steps h (.onTrack c track) { h with callbacks := h.callbacks ++ [match track.kind with
        | .audio => .publishing c track .audio
        | .video => .started c track] }
  | trackStarted (index : Nat) (failed : Finset ParticipantID) (c : ClientId) (track : TrackRemote)
      (next : TrackCallback) (hcallback : h.callbacks[index]? = some (.started c track))
      (hnext : next = .publishing c track .screen ∨ next = .streamChecked c track) :
      Steps h (.track index failed)
        { h with callbacks := h.callbacks.eraseIdx index ++ [next] }
  | trackChecked (index : Nat) (failed : Finset ParticipantID) (c : ClientId) (track : TrackRemote)
      (role : SourceRole) (hcallback : h.callbacks[index]? = some (.streamChecked c track)) :
      Steps h (.track index failed)
        { h with callbacks := h.callbacks.eraseIdx index ++ [.publishing c track role] }
  | trackPublish (index : Nat) (failed : Finset ParticipantID) (c : ClientId) (track : TrackRemote)
      (role : SourceRole) (layer : Option CameraLayer) (p : Participant)
      (hcallback : h.callbacks[index]? = some (.publishing c track role))
      (hp : (h.client c).participant = some p) :
      Steps h (.track index failed) { h with
        callbacks := h.callbacks.eraseIdx index
        media := h.media.publish p.id role (some c) (some track) layer failed }
  | trackOp (index : Nat) (ok : Bool) (media : Plane) (hmedia : h.media.trackOp index ok = some media) :
      Steps h (.trackOp index ok) { h with media := media }
  | readStop (index : Nat) (media : Plane) (hmedia : h.media.readStop index = some media) :
      Steps h (.readStop index) { h with media := media }

theorem steps_of_step {h h' : Hub} {l : Label} (hstep : h.step l = some h') : h.Steps l h' := by
  cases l with
  | connect c =>
    simp only [step] at hstep
    split at hstep <;> cases hstep
    exact .connect c ‹_›
  | receive c allowed input =>
    simp only [step] at hstep
    split at hstep <;> cases hstep
    exact .receive c allowed input _ ‹_› (h.receives_receive c allowed input)
  | run c ok => exact .run c ok h' (runs_of_run hstep)
  | notify c d =>
    simp only [step, notify] at hstep
    split at hstep
    · split at hstep <;> cases hstep
      exact .notify c d _ _ ‹_› ‹_› ‹_›
    · cases hstep
  | expireAdmission c =>
    simp only [step] at hstep
    split at hstep <;> cases hstep
    exact .expireAdmission c ⟨‹_›, ‹_›, ‹_›⟩
  | graceFire c =>
    simp only [step, graceFire, Option.bind_eq_some_iff] at hstep
    obtain ⟨p, hp, hstep⟩ := hstep
    split at hstep
    · split at hstep <;> cases hstep
      rename_i reconnect hentry hc
      exact .graceFire c p reconnect hp hentry hc.1 hc.2
    · cases hstep
  | reap c =>
    simp only [step, reap, Option.bind_eq_some_iff] at hstep
    obtain ⟨p, hp, hstep⟩ := hstep
    cases hreaper : (h.client c).reaper <;> simp only [hreaper, reduceCtorEq, Option.some.injEq] at hstep <;>
      subst hstep
    case unregistering => exact .reapUnregister c p hp hreaper
    case closingPeer => exact .reapClosePeer c p hp hreaper
    case leaving => exact .reapLeave c p hp hreaper
    case forgetting => exact .reapForget c p hp hreaper
    case scheduling => exact .reapSchedule c p hp hreaper
    case arming => exact .reapArm c p hp hreaper
  | closeSuperseded c =>
    simp only [step] at hstep
    split at hstep <;> cases hstep
    exact .closeSuperseded c ‹_›
  | close =>
    cases hstep
    exact .close
  | closeLeave id =>
    simp only [step, closeLeave] at hstep
    split at hstep <;> cases hstep
    exact .closeLeave id ‹_›
  | chatTimer timer =>
    simp only [step, chatTimer] at hstep
    split at hstep <;> cases hstep
    exact .chatTimer timer ‹_›
  | chatCheck =>
    simp only [step, chatCheck] at hstep
    split at hstep <;> cases hstep
    exact .chatCheck _ ‹_›
  | chatDelete =>
    simp only [step, chatDelete] at hstep
    split at hstep <;> cases hstep
    exact .chatDelete _ ‹_›
  | adminUpdate a update =>
    simp only [step, adminUpdate] at hstep
    split at hstep <;> cases hstep
    exact .adminUpdate a update ‹_›
  | admin a =>
    cases hadmin : h.admin a <;> simp only [step, runAdmin, hadmin, reduceCtorEq, Option.some.injEq] at hstep <;>
      subst hstep
    case snapshotting => exact .adminSnapshot a hadmin
    case limiting cfg => exact .adminLimit a cfg hadmin
    case releasing cfg => exact .adminRelease a cfg hadmin
    case pausing cfg released => exact .adminPause a cfg released hadmin
    case announcing cfg released => exact .adminAnnounce a cfg released hadmin
    case clearing cfg released => exact .adminClear a cfg released hadmin
    case screenCast => exact .adminScreenCast a hadmin
  | onTrack c track =>
    simp only [step, onTrack] at hstep
    split at hstep <;> cases hstep
    rename_i hc
    exact .onTrack c track hc.1 hc.2
  | track index failed =>
    simp only [step, runTrack, Option.bind_eq_some_iff] at hstep
    obtain ⟨callback, hcallback, hstep⟩ := hstep
    cases callback with
    | started c track =>
      cases hstep
      refine .trackStarted index failed c track _ hcallback ?_
      split
      · exact Or.inl rfl
      · exact Or.inr rfl
    | streamChecked c track =>
      cases hstep
      exact .trackChecked index failed c track _ hcallback
    | publishing c track role =>
      simp only [Option.map_eq_some_iff] at hstep
      obtain ⟨p, hp, rfl⟩ := hstep
      exact .trackPublish index failed c track role _ p hcallback hp
  | trackOp index ok =>
    simp only [step, Option.map_eq_some_iff] at hstep
    obtain ⟨media, hmedia, rfl⟩ := hstep
    exact .trackOp index ok media hmedia
  | readStop index =>
    simp only [step, Option.map_eq_some_iff] at hstep
    obtain ⟨media, hmedia, rfl⟩ := hstep
    exact .readStop index media hmedia

/-- Every interleaving of a hub's goroutines, from a new hub. -/
def lts (cfg : Config) : Lts Hub Label := Lts.ofStep (Hub.new cfg) step

/-! ## Schedules

Stretches of the handler of one connection, for runs that are spelled out. -/

/-- `n` sections of the handler of `c`, whose calls succeed. -/
def runs (c : ClientId) (n : Nat) : List Label := List.replicate n (.run c true)

/-- `c` connects and asks to join, up to its reclaim or its `Meeting.Join`. -/
def requests (c : ClientId) (token : Option Token) : List Label :=
  .connect c :: runs c 2 ++ [.receive c true (some (.join ['a'] "" token))]

/-- `c` joins as a new participant, up to the read loop. -/
def joins (c : ClientId) : List Label := requests c none ++ runs c 8

/-- The connection of `c` is lost, up to the first decision of `disconnect`. -/
def drops (c : ClientId) : List Label := .receive c true none :: runs c 2

/-- A meeting of four without a password, with a reconnect grace. -/
def sampleConfig : Config where
  meetingPassword := ""
  maxParticipants := 4
  maxVideoQuality := "ultra"
  maxVideoBitrate := 2000
  maxVideoFPS := 30
  maxAudioBitrate := 64
  enableScreenShare := true
  retainChatHistory := true
  reconnectTimeout := 30

end Hub

end SlowMeet.Signaling
