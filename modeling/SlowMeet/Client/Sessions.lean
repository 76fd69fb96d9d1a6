import SlowMeet.Client.Page

/-!
# Every session starts clean

What the page still holds when `startWebRTC` creates a peer connection. A
reconnect timer resets the page before it connects, and Leave and the join
form connect from an empty page. Retry does neither: it connects as the page
is.
-/

namespace SlowMeet.Client.Page

open Lib

variable {s t : Page}

/-- The session whose peer connection the step creates. -/
def creates (s : Page) : Label → Option SessionId
  | .credentials g true true => if s.webRTC g = .credentials ∧ s.Current g then some g else none
  | _ => none

/-- Nothing of an earlier session is left when session `g` gets its peer
connection. -/
structure StartsClean (s : Page) (g : SessionId) : Prop where
  peers : s.openPeers = []
  captures : ∀ track ∈ s.live, track.session = g
  tiles : ∀ tile ∈ s.participantElements, s.localParticipantID ≠ some tile.participant →
    tile.session = g
  chat : ∀ entry ∈ s.chatMessages, entry.session = g

/-- The close handler gives up reconnecting. -/
def GivesUp (s : Page) (g : SessionId) : Prop :=
  g = s.socketGeneration ∧ s.intentionalClose = false ∧ s.meetingHidden = false ∧
    s.connectionMethodSwitchRequested = false ∧ maxReconnectAttempts ≤ s.reconnectAttempts

instance (s : Page) (g : SessionId) : Decidable (s.GivesUp g) := by
  unfold GivesUp
  infer_instance

/-- No peer connection, tile or chat entry, and no armed reconnect timer. -/
def Empty (s : Page) : Prop :=
  s.peer = none ∧ s.participantElements = [] ∧ s.chatMessages = [] ∧ s.timers = []

instance (s : Page) : Decidable s.Empty := by
  unfold Empty
  infer_instance

/-- Retry connects from an empty page only; no submitted form waits when the
socket of an earlier attempt fails; no share is being stopped when a session
ends; a picker is answered while its peer connection is the page's, and a
camera prompt not before the microphone's. -/
def undisturbed (s : Page) : Label → Bool
  | .retry => s.RetryRestarts ∨ s.meetingHidden = true ∨ s.Empty
  | .timer _ | .leave => s.stoppingShare = none
  | .closed g => (g = s.socketGeneration → s.joining = 0) ∧ (s.GivesUp g → s.stoppingShare = none)
  | .message g .error => g = s.socketGeneration → s.joining = 0
  | .display true => s.displayPrompt = s.peer
  | .camera index true => s.cameraPrompts[index]? = s.peer → s.localStream ≠ none
  | _ => true

/-! ## The invariant -/

/-- The current socket may still admit the page. -/
def Awaiting (s : Page) : Prop :=
  s.answer s.socketGeneration = .pending ∧ s.readyState s.socketGeneration ≠ .closed

/-- What the page shows agrees with where its socket stands. -/
structure Shown (s : Page) : Prop where
  fresh : ∀ g, s.socketGeneration < g →
    s.readyState g = .closed ∧ s.answer g = .pending ∧ s.webRTC g = .idle
  /-- Whoever can submit the form waits for no socket. -/
  idle : s.joinButtonDisabled = false ∨ 0 < s.joining ∨ s.meetingEndedHidden = false →
    s.meetingHidden = true ∧ ¬ s.Awaiting
  ended : s.meetingEndedHidden = false → s.formHidden = true ∧ s.joining = 0
  waiting : 0 < s.joining → s.joinButtonDisabled = true ∧ s.joining = 1
  hidden : s.meetingHidden = true → s.peer = none ∧ s.participantElements = [] ∧
    s.chatMessages = [] ∧ s.answer s.socketGeneration ≠ .admitted
  shown : s.meetingHidden = false → s.socket = some s.socketGeneration
  socket : s.readyState s.socketGeneration ≠ .closed → s.socket = some s.socketGeneration
  /-- At most one timer is armed, and only after a close. -/
  timers : s.timers = [] ∨ ∃ timer, s.timers = [timer] ∧ s.reconnectTimer = some timer.ref ∧
    s.meetingHidden = false ∧ s.readyState s.socketGeneration = .closed

/-- What the page holds belongs to the current session and can be released
through the page's variables. -/
structure Held (s : Page) : Prop where
  own : ∀ p, s.peer = some p → p = s.socketGeneration
  peers : ∀ p ∈ s.openPeers, s.peer = some p
  live : ∀ track ∈ s.live, track ∈ s.localStream.getD [] ∨ s.screenStream = some track ∨
    s.stoppingShare = some track
  session : ∀ track ∈ s.live, track.session = s.socketGeneration
  minted : ∀ track, track ∈ s.live ∨ s.localCameraTrack = some track ∨ track ∈ s.detaching →
    track.ref < s.captured
  dead : ∀ track ∈ s.detaching, track ∉ s.live
  blank : s.peer = none → s.localStream = none ∧ s.live = []
  admitted : s.answer s.socketGeneration ≠ .admitted →
    s.webRTC s.socketGeneration = .idle ∧ s.peer = none
  starting : s.webRTC s.socketGeneration = .credentials → s.peer = none
  prompting : s.webRTC s.socketGeneration = .microphone → s.localStream = none
  picking : s.displayPrompt ≠ none → s.screenStream = none
  tiles : ∀ tile ∈ s.participantElements, tile.session = s.socketGeneration
  chat : ∀ entry ∈ s.chatMessages, entry.session = s.socketGeneration

structure Sound (s : Page) : Prop where
  shown : s.Shown
  held : s.Held

theorem sound_load : load.Sound where
  shown := by
    refine ⟨fun _ _ => ⟨rfl, rfl, rfl⟩, fun _ => ⟨rfl, ?_⟩, nofun, nofun,
      fun _ => ⟨rfl, rfl, rfl, nofun⟩, nofun, fun h => absurd rfl h, Or.inl rfl⟩
    exact fun h => h.2 rfl
  held := by
    refine ⟨nofun, nofun, nofun, nofun, ?_, nofun, fun _ => ⟨rfl, rfl⟩, fun _ => ⟨rfl, rfl⟩, nofun,
      nofun, fun h => absurd rfl h, nofun, nofun⟩
    simp [load]

/-! ## Sockets -/

/-- Closing a socket changes its ready state only, and not whether it is
closed. -/
theorem closeSocket_eq (s : Page) (g : SessionId) :
    ∃ readyState, s.closeSocket g = { s with readyState } ∧
      ∀ j, readyState j = .closed ↔ s.readyState j = .closed := by
  unfold closeSocket
  split
  · exact ⟨s.readyState, rfl, fun _ => Iff.rfl⟩
  · rename_i hopen
    refine ⟨_, rfl, fun j => ?_⟩
    by_cases hj : j = g
    · subst hj
      simp [hopen]
    · rw [Function.update_of_ne hj]

theorem closeCurrent_eq (s : Page) :
    ∃ readyState, s.closeCurrent = { s with readyState } ∧
      ∀ j, readyState j = .closed ↔ s.readyState j = .closed := by
  unfold closeCurrent
  split
  · exact s.closeSocket_eq _
  · exact ⟨s.readyState, rfl, fun _ => Iff.rfl⟩

/-- Sockets that begin to close. -/
theorem Sound.readyState (h : s.Sound) {readyState : SessionId → ReadyState}
    (hclosed : ∀ j, readyState j = .closed ↔ s.readyState j = .closed) :
    Sound { s with readyState } where
  shown := { h.shown with
    fresh := fun g hg => ⟨(hclosed g).mpr (h.shown.fresh g hg).1, (h.shown.fresh g hg).2⟩
    idle := fun hbutton => ⟨(h.shown.idle hbutton).1, fun hwait =>
      (h.shown.idle hbutton).2 ⟨hwait.1, fun hc => hwait.2 ((hclosed _).mpr hc)⟩⟩
    socket := fun hopen => h.shown.socket fun hc => hopen ((hclosed _).mpr hc)
    timers := h.shown.timers.imp_right fun ⟨timer, htimers, href, hshown, hc⟩ =>
      ⟨timer, htimers, href, hshown, (hclosed _).mpr hc⟩ }
  held := { h.held with }

theorem Sound.closeSocket (h : s.Sound) (g : SessionId) : (s.closeSocket g).Sound := by
  obtain ⟨r, heq, hclosed⟩ := s.closeSocket_eq g
  rw [heq]
  exact h.readyState hclosed

theorem Sound.closeCurrent (h : s.Sound) : s.closeCurrent.Sound := by
  obtain ⟨r, heq, hclosed⟩ := s.closeCurrent_eq
  rw [heq]
  exact h.readyState hclosed

/-- **A connection from an empty page.** -/
theorem Sound.connectSocket (h : s.Sound) (hempty : s.Empty) (hbutton : s.joinButtonDisabled = true)
    (hjoining : s.joining = 0) (hended : s.meetingEndedHidden = true) :
    s.connectSocket.Sound := by
  obtain ⟨hpeer, htiles, hchat, htimers⟩ := hempty
  obtain ⟨r, heq, hclosed⟩ := s.closeCurrent_eq
  obtain ⟨-, hanswer, hwebRTC⟩ := h.shown.fresh (s.socketGeneration + 1) (Nat.lt_succ_self _)
  obtain ⟨hstream, hlive⟩ := h.held.blank hpeer
  unfold Page.connectSocket
  rw [heq]
  refine ⟨⟨?_, ?_, ?_, h.shown.waiting, ?_, fun _ => rfl, fun _ => rfl, Or.inl htimers⟩, ?_⟩
  · intro g hg
    have hlt : s.socketGeneration < g := Nat.lt_of_succ_lt hg
    refine ⟨?_, (h.shown.fresh g hlt).2⟩
    show Function.update r (s.socketGeneration + 1) .connecting g = .closed
    rw [Function.update_of_ne (Nat.ne_of_gt hg)]
    exact (hclosed g).mpr (h.shown.fresh g hlt).1
  · rintro (hfalse | hfalse | hfalse)
    · exact absurd (hbutton.symm.trans hfalse) nofun
    · exact absurd hfalse (Nat.not_lt_of_le (Nat.le_of_eq hjoining))
    · exact absurd (hended.symm.trans hfalse) nofun
  · exact fun hfalse => absurd (hended.symm.trans hfalse) nofun
  · exact fun _ => ⟨hpeer, htiles, hchat, fun hfalse => absurd (hanswer.symm.trans hfalse) nofun⟩
  · have hnone : ∀ p, s.peer ≠ some p := fun p hp => by simp [hpeer] at hp
    exact { h.held with
      own := fun p hp => absurd hp (hnone p)
      session := fun track htrack => by
        rw [show track ∈ s.live ↔ False by simp [hlive]] at htrack
        exact htrack.elim
      admitted := fun _ => ⟨hwebRTC, hpeer⟩
      starting := fun _ => hpeer
      prompting := fun _ => hstream
      tiles := fun tile htile => by
        rw [show tile ∈ s.participantElements ↔ False by simp [htiles]] at htile
        exact htile.elim
      chat := fun entry hentry => by
        rw [show entry ∈ s.chatMessages ↔ False by simp [hchat]] at hentry
        exact hentry.elim }

/-! ## Releasing what the page holds -/

/-- Stopped tracks and closed peer connections are gone for good. -/
theorem Held.release (h : s.Held) {live : List Track} {openPeers : List SessionId}
    (hlive : ∀ track ∈ live, track ∈ s.live) (hpeers : ∀ p ∈ openPeers, p ∈ s.openPeers) :
    Held { s with live, openPeers } :=
  { h with
    peers := fun p hp => h.peers p (hpeers p hp)
    live := fun track htrack => h.live track (hlive track htrack)
    session := fun track htrack => h.session track (hlive track htrack)
    minted := fun track htrack => h.minted track (htrack.imp_left (hlive track))
    dead := fun track hdead htrack => h.dead track hdead (hlive track htrack)
    blank := fun hpeer => ⟨(h.blank hpeer).1, List.eq_nil_iff_forall_not_mem.mpr fun track htrack => by
      have hmem := hlive track htrack
      rw [(h.blank hpeer).2] at hmem
      cases hmem⟩ }

theorem Held.stopTracks (h : s.Held) (tracks : List Track) : (s.stopTracks tracks).Held :=
  h.release (fun _ htrack => (List.mem_filter.mp htrack).1) fun _ => id

/-- `peer?.close()` and the `stop()` of every held track leave nothing open,
unless a share is still to be stopped. -/
theorem Held.released (h : s.Held) (hstop : s.stoppingShare = none) :
    (s.peer.elim s s.closePeer).openPeers = [] ∧
      ((s.stopTracks (s.localStream.getD [])).stopTracks s.screenStream.toList).live = [] := by
  constructor
  · refine List.eq_nil_iff_forall_not_mem.mpr fun p hp => ?_
    cases hpeer : s.peer with
    | none =>
      rw [hpeer] at hp
      exact absurd (hpeer.symm.trans (h.peers p hp)) nofun
    | some q =>
      rw [hpeer] at hp
      obtain ⟨hmem, hne⟩ := List.mem_filter.mp hp
      have hsame : p = q := Option.some.inj ((h.peers p hmem).symm.trans hpeer)
      simp [hsame] at hne
  · refine List.eq_nil_iff_forall_not_mem.mpr fun track htrack => ?_
    obtain ⟨htrack, hscreen⟩ := List.mem_filter.mp htrack
    obtain ⟨htrack, hlocal⟩ := List.mem_filter.mp htrack
    obtain hmem | hmem | hmem := h.live track htrack
    · simp [hmem] at hlocal
    · simp [hmem] at hscreen
    · rw [hstop] at hmem
      cases hmem

/-- What `resetMediaConnection` leaves. -/
theorem resetMediaConnection_eq (h : s.Held) (hstop : s.stoppingShare = none) :
    s.resetMediaConnection = { s with
      participantElements := [], participantRemovalTimers := [], chatMessages := [], applied := []
      peer := none, openPeers := [], live := [], localStream := none, localCameraTrack := none
      screenStream := none } := by
  obtain ⟨hpeers, hlive⟩ := h.released hstop
  cases hpeer : s.peer with
  | none =>
    simp only [hpeer, Option.elim_none, stopTracks] at hpeers hlive
    simp only [resetMediaConnection, hpeer, Option.elim_none, stopTracks, hpeers, hlive]
  | some p =>
    simp only [hpeer, Option.elim_some, closePeer, stopTracks] at hpeers hlive
    simp only [resetMediaConnection, hpeer, Option.elim_some, closePeer, stopTracks, hpeers, hlive]

theorem Sound.resetMediaConnection (h : s.Sound) (hstop : s.stoppingShare = none) :
    s.resetMediaConnection.Sound := by
  rw [resetMediaConnection_eq h.held hstop]
  refine ⟨{ h.shown with hidden := fun hh => ⟨rfl, rfl, rfl, (h.shown.hidden hh).2.2.2⟩ }, ?_⟩
  exact { h.held with
    own := nofun
    peers := nofun
    live := nofun
    session := nofun
    minted := fun track htrack => h.held.minted track (Or.inr (Or.inr (by simpa using htrack)))
    dead := fun _ _ => nofun
    blank := fun _ => ⟨rfl, rfl⟩
    admitted := fun hanswer => ⟨(h.held.admitted hanswer).1, rfl⟩
    starting := fun _ => rfl
    prompting := fun _ => rfl
    picking := fun _ => rfl
    tiles := nofun
    chat := nofun }

/-- In the meeting the form waits for Leave. -/
theorem Shown.busy (h : s.Shown) (hvisible : s.meetingHidden = false) :
    s.joinButtonDisabled = true ∧ s.joining = 0 ∧ s.meetingEndedHidden = true := by
  have hnot : ¬ (s.joinButtonDisabled = false ∨ 0 < s.joining ∨ s.meetingEndedHidden = false) :=
    fun hidle => absurd (hvisible.symm.trans (h.idle hidle).1) nofun
  simpa [not_or] using hnot

/-! ## Timers -/

theorem Shown.clearReconnectTimer (h : s.Shown) : s.clearReconnectTimer.timers = [] := by
  obtain htimers | ⟨timer, htimers, href, -⟩ := h.timers
  · simp [Page.clearReconnectTimer, htimers]
  · simp [Page.clearReconnectTimer, htimers, href]

theorem Sound.disarmed (h : s.Sound) : Sound { s with timers := [] } :=
  ⟨{ h.shown with timers := Or.inl rfl }, { h.held with }⟩

/-- A timer is armed after a close in the meeting. -/
theorem Sound.setReconnectTimer (h : s.Sound) (kind : TimerKind) (htimers : s.timers = [])
    (hvisible : s.meetingHidden = false) (hclosed : s.readyState s.socketGeneration = .closed) :
    (s.setReconnectTimer kind).Sound := by
  refine ⟨{ h.shown with timers := Or.inr ⟨⟨s.timersSet, kind⟩, ?_, rfl, hvisible, hclosed⟩ },
    { h.held with }⟩
  simp [Page.setReconnectTimer, htimers]

theorem Sound.scheduleConnectionMethodReconnect (h : s.Sound) (hvisible : s.meetingHidden = false)
    (hclosed : s.readyState s.socketGeneration = .closed) :
    s.scheduleConnectionMethodReconnect.Sound := by
  have htimers := h.shown.clearReconnectTimer
  exact Sound.setReconnectTimer (s := s.clearReconnectTimer)
    ⟨{ h.shown with timers := Or.inl htimers }, { h.held with }⟩ .methodSwitch htimers hvisible hclosed

theorem Sound.selectConnectionMethod (h : s.Sound) : s.selectConnectionMethod.Sound := by
  unfold Page.selectConnectionMethod
  split
  · exact h
  rename_i hvisible
  replace hvisible : s.meetingHidden = false := by simpa using hvisible
  have htimers := h.shown.clearReconnectTimer
  have hcleared : Sound { s with
      connectionMethodSwitchRequested := true, timers := s.clearReconnectTimer.timers } :=
    ⟨{ h.shown with timers := Or.inl htimers }, { h.held with }⟩
  have hsocket := h.shown.shown hvisible
  dsimp only
  split
  · exact hcleared.closeCurrent
  · exact hcleared.closeCurrent
  · exact hcleared
  · rename_i hclosed
    have hready : s.readyState s.socketGeneration = .closed := by
      simpa [Page.clearReconnectTimer, hsocket] using hclosed
    exact Sound.scheduleConnectionMethodReconnect (s := { s with
      connectionMethodSwitchRequested := true, timers := s.clearReconnectTimer.timers
      intentionalClose := false }) ⟨{ hcleared.shown with }, { hcleared.held with }⟩ hvisible hready
  · rename_i hnone
    simp [Page.clearReconnectTimer, hsocket] at hnone

/-- **A reset before the connection.** -/
theorem Sound.restart (h : s.Sound) (hstop : s.stoppingShare = none) (htimers : s.timers = [])
    (hvisible : s.meetingHidden = false) : s.resetMediaConnection.connectSocket.Sound := by
  obtain ⟨hbutton, hjoining, hended⟩ := h.shown.busy hvisible
  have hreset := h.resetMediaConnection hstop
  rw [resetMediaConnection_eq h.held hstop] at hreset ⊢
  exact hreset.connectSocket ⟨rfl, rfl, rfl, htimers⟩ hbutton hjoining hended

theorem Sound.timer (h : s.Sound) {index : Nat} (hstop : s.stoppingShare = none)
    (hstep : s.timer index = some t) : t.Sound := by
  obtain ⟨timer, hget, rfl⟩ := Option.map_eq_some_iff.mp hstep
  obtain htimers | ⟨only, htimers, href, hvisible, -⟩ := h.shown.timers
  · simp [htimers] at hget
  have hleft : s.timers.eraseIdx index = [] := by
    rw [htimers] at hget ⊢
    cases index with
    | zero => rfl
    | succ n => simp at hget
  have hdisarmed : Sound { s with timers := s.timers.eraseIdx index } := by
    rw [hleft]
    exact h.disarmed
  dsimp only
  split
  · exact hdisarmed.restart hstop hleft hvisible
  · split
    · exact hdisarmed
    · exact Sound.restart (s := { s with
        timers := s.timers.eraseIdx index, connectionMethodSwitchRequested := false
        reconnectAttempts := 0 }) ⟨{ hdisarmed.shown with }, { hdisarmed.held with }⟩
        hstop hleft hvisible

/-! ## Tiles and chat entries -/

/-- `t` shows `s` with tiles and chat entries that may be new. -/
def Refilled (s t : Page) : Prop :=
  ∃ tiles removals chat applied, t = { s with
    participantElements := tiles, participantRemovalTimers := removals, chatMessages := chat
    applied := applied } ∧
    (∀ tile ∈ tiles, tile ∈ s.participantElements ∨ tile.session = s.socketGeneration) ∧
    ∀ entry ∈ chat, entry ∈ s.chatMessages ∨ entry.session = s.socketGeneration

theorem Refilled.refl (s : Page) : s.Refilled s :=
  ⟨_, _, _, _, rfl, fun _ => Or.inl, fun _ => Or.inl⟩

theorem Refilled.trans {u : Page} (hst : s.Refilled t) (htu : t.Refilled u) : s.Refilled u := by
  obtain ⟨tiles, removals, chat, applied, rfl, htiles, hchat⟩ := hst
  obtain ⟨tiles', removals', chat', applied', rfl, htiles', hchat'⟩ := htu
  refine ⟨tiles', removals', chat', applied', rfl, fun tile htile => ?_, fun entry hentry => ?_⟩
  · exact (htiles' tile htile).elim (htiles tile) Or.inr
  · exact (hchat' entry hentry).elim (hchat entry) Or.inr

theorem refilled_addParticipant (s : Page) (id : ParticipantID) :
    s.Refilled (s.addParticipant id) := by
  unfold addParticipant
  split
  · exact ⟨_, _, _, _, rfl, fun _ => Or.inl, fun _ => Or.inl⟩
  · refine ⟨_, _, _, _, rfl, fun tile htile => ?_, fun _ => Or.inl⟩
    refine (List.mem_append.mp htile).imp_right fun hnew => ?_
    rw [List.mem_singleton.mp hnew]

theorem refilled_scheduleRemoval (s : Page) (id : ParticipantID) :
    s.Refilled (s.scheduleRemoval id) := by
  unfold scheduleRemoval
  split
  · exact ⟨_, _, _, _, rfl, fun _ => Or.inl, fun _ => Or.inl⟩
  · exact .refl s

theorem refilled_addChatMessage (s : Page) (author body : String) (system own : Bool) :
    s.Refilled (s.addChatMessage author body system own) := by
  refine ⟨_, _, _, _, rfl, fun _ => Or.inl, fun entry hentry => ?_⟩
  refine (List.mem_append.mp (List.mem_of_mem_drop hentry)).imp_right fun hnew => ?_
  rw [List.mem_singleton.mp hnew]

theorem refilled_applyEntry (s : Page) (entry : HistoryEntry) : s.Refilled (s.applyEntry entry) := by
  unfold applyEntry
  dsimp only
  split
  · split
    · exact .refl s
    · exact Refilled.trans ⟨_, _, _, _, rfl, fun _ => Or.inl, fun _ => Or.inl⟩
        (refilled_addChatMessage ..)
  · exact refilled_addChatMessage ..

theorem refilled_applyHistory (s : Page) (history : List HistoryEntry) :
    s.Refilled (history.foldl applyEntry s) := by
  induction history generalizing s with
  | nil => exact .refl s
  | cons entry rest ih => exact (refilled_applyEntry s entry).trans (ih _)

theorem Held.refill (h : s.Held) (hst : s.Refilled t) : t.Held := by
  obtain ⟨tiles, removals, chat, applied, rfl, htiles, hchat⟩ := hst
  exact { h with
    tiles := fun tile htile => (htiles tile htile).elim (h.tiles tile) id
    chat := fun entry hentry => (hchat entry hentry).elim (h.chat entry) id }

/-- Room messages arrive in the meeting only. -/
theorem Sound.refill (h : s.Sound) (hvisible : s.meetingHidden = false) (hst : s.Refilled t) :
    t.Sound := by
  refine ⟨?_, h.held.refill hst⟩
  obtain ⟨tiles, removals, chat, applied, rfl, -, -⟩ := hst
  exact { h.shown with hidden := fun hh => absurd (hvisible.symm.trans hh) nofun }

/-! ## Socket events -/

theorem Sound.opened (h : s.Sound) {g : SessionId} (hstep : s.opened g = some t) : t.Sound := by
  unfold Page.opened at hstep
  split at hstep
  · rename_i hconnecting
    obtain rfl := Option.some.inj hstep
    have hopened : Sound { s with readyState := Function.update s.readyState g .opened } := by
      refine h.readyState fun j => ?_
      by_cases hj : j = g
      · subst hj
        simp [hconnecting]
      · rw [Function.update_of_ne hj]
    split
    · exact ⟨{ hopened.shown with timers := Or.inl hopened.shown.clearReconnectTimer },
        { hopened.held with }⟩
    · exact hopened
  · cases hstep

/-- The join of the current socket is refused. -/
theorem Sound.refused (h : s.Sound) (hpending : s.answer s.socketGeneration = .pending) :
    Sound { s with answer := Function.update s.answer s.socketGeneration .refused } := by
  have hrefused : Function.update s.answer s.socketGeneration .refused s.socketGeneration =
      JoinAnswer.refused := Function.update_self ..
  refine ⟨{ h.shown with fresh := fun j hj => ?_, idle := ?_, hidden := ?_ },
    { h.held with admitted := fun _ => h.held.admitted (by rw [hpending]; nofun) }⟩
  · obtain ⟨hready, hjoin, hwebRTC⟩ := h.shown.fresh j hj
    exact ⟨hready, (Function.update_of_ne (Nat.ne_of_gt hj) ..).trans hjoin, hwebRTC⟩
  · intro hbutton
    exact ⟨(h.shown.idle hbutton).1, fun hwait => absurd (hrefused.symm.trans hwait.1) nofun⟩
  · intro hhidden
    obtain ⟨hpeer, htiles, hchat, -⟩ := h.shown.hidden hhidden
    exact ⟨hpeer, htiles, hchat, fun heq => absurd (hrefused.symm.trans heq) nofun⟩

/-- `startWebRTC` runs when the current socket is admitted. -/
theorem Sound.startWebRTC (h : s.Sound) (hanswer : s.answer s.socketGeneration = .admitted)
    (hpeer : s.peer = none) : s.startWebRTC.Sound := by
  unfold Page.startWebRTC
  split
  · refine ⟨{ h.shown with fresh := fun g hg => ?_ }, { h.held with
      admitted := fun hne => absurd hanswer hne
      starting := fun _ => hpeer
      prompting := fun heq => ?_ }⟩
    · obtain ⟨hready, hjoin, hidle⟩ := h.shown.fresh g hg
      exact ⟨hready, hjoin, (Function.update_of_ne (Nat.ne_of_gt hg) ..).trans hidle⟩
    · have hfalse : Function.update s.webRTC s.socketGeneration .credentials s.socketGeneration =
        .microphone := heq
      rw [Function.update_self] at hfalse
      cases hfalse
  · exact h.closeCurrent

/-- **Admission**: the participant message of a socket that waits for it. -/
theorem Sound.participant (h : s.Sound) (hawait : s.Awaiting) (id : ParticipantID)
    (token : Option String) (history : List HistoryEntry) :
    (handle { s with answer := Function.update s.answer s.socketGeneration .admitted }
      (.participant id token history)).Sound := by
  obtain ⟨hpending, hopen⟩ := hawait
  obtain ⟨hidle, hpeer⟩ := h.held.admitted (by rw [hpending]; nofun)
  have hbusy : ¬ (s.joinButtonDisabled = false ∨ 0 < s.joining ∨ s.meetingEndedHidden = false) :=
    fun hbutton => (h.shown.idle hbutton).2 ⟨hpending, hopen⟩
  have hadmitted : Function.update s.answer s.socketGeneration .admitted s.socketGeneration =
      JoinAnswer.admitted := Function.update_self ..
  have hheld : Held { s with answer := Function.update s.answer s.socketGeneration .admitted } :=
    { h.held with admitted := fun hne => absurd hadmitted hne }
  obtain ⟨tiles, removals, chat, applied, heq, htiles, hchat⟩ := refilled_addParticipant
    { s with answer := Function.update s.answer s.socketGeneration .admitted } id
  have hfilled := hheld.refill ⟨tiles, removals, chat, applied, rfl, htiles, hchat⟩
  simp only [handle, heq]
  -- the meeting is shown, with the room's chat on the rail
  have hshown : Sound { s with
      answer := Function.update s.answer s.socketGeneration .admitted
      participantElements := tiles, participantRemovalTimers := removals, chatMessages := chat
      applied := applied, localParticipantID := some id, reconnectToken := token, formHidden := true
      meetingHidden := false, meetingEndedHidden := true } := by
    refine ⟨⟨fun g hg => ?_, fun hbutton => ?_, nofun, h.shown.waiting, nofun,
      fun _ => h.shown.socket hopen, fun _ => h.shown.socket hopen, ?_⟩, { hfilled with }⟩
    · obtain ⟨hready, hjoin, hwebRTC⟩ := h.shown.fresh g hg
      exact ⟨hready, (Function.update_of_ne (Nat.ne_of_gt hg) ..).trans hjoin, hwebRTC⟩
    · exact absurd (hbutton.imp_right (Or.imp_right nofun)) hbusy
    · obtain htimers | ⟨timer, -, -, -, hclosed⟩ := h.shown.timers
      · exact Or.inl htimers
      · exact absurd hclosed hopen
  have hreplayed := refilled_applyHistory { s with
      answer := Function.update s.answer s.socketGeneration .admitted
      participantElements := tiles, participantRemovalTimers := removals, chatMessages := chat
      applied := applied, localParticipantID := some id, reconnectToken := token, formHidden := true
      meetingHidden := false, meetingEndedHidden := true } history
  have hsound := hshown.refill rfl hreplayed
  obtain ⟨_, _, _, _, hrail, -, -⟩ := hreplayed
  rw [hrail] at hsound ⊢
  exact hsound.startWebRTC hadmitted hpeer

/-- A room message only adds to what the meeting shows. -/
theorem refilled_handle (hvisible : s.meetingHidden = false) {m : Message}
    (hsends : serverSends .admitted m = true) : s.Refilled (s.handle m) := by
  cases m with
  | participant id token history => cases hsends
  | participantJoined id name =>
    exact (refilled_addParticipant s id).trans (refilled_addChatMessage ..)
  | participantLeft id name =>
    exact (refilled_addChatMessage s ..).trans (refilled_scheduleRemoval ..)
  | chatMessage name text =>
    dsimp only [handle]
    split
    · exact .refl s
    · exact refilled_addChatMessage ..
  | error =>
    simp only [handle, hvisible, Bool.false_eq_true, if_false]
    exact .refl s
  | other => exact .refl s

/-- An error before the admission enables the form again. -/
theorem Sound.handleError (h : s.Sound) (hanswer : s.answer s.socketGeneration ≠ .pending)
    (hjoining : s.joining = 0) : (s.handle .error).Sound := by
  simp only [handle]
  split
  · rename_i hhidden
    exact ⟨{ h.shown with
      idle := fun _ => ⟨hhidden, fun hwait => hanswer hwait.1⟩
      waiting := fun hwait => absurd hwait (Nat.not_lt_of_le (Nat.le_of_eq hjoining)) }, { h.held with }⟩
  · exact h

/-- What an earlier socket is sent changes nothing. -/
theorem Sound.stale (h : s.Sound) {g : SessionId} (hg : g ≠ s.socketGeneration)
    (hopen : s.readyState g ≠ .closed) (answer : JoinAnswer) :
    Sound { s with answer := Function.update s.answer g answer } := by
  have hsame : Function.update s.answer g answer s.socketGeneration = s.answer s.socketGeneration :=
    Function.update_of_ne (Ne.symm hg) ..
  refine ⟨{ h.shown with fresh := fun j hj => ?_, idle := ?_, hidden := ?_ },
    { h.held with admitted := ?_ }⟩
  · obtain ⟨hready, hjoin, hwebRTC⟩ := h.shown.fresh j hj
    have hne : j ≠ g := by
      rintro rfl
      exact hopen hready
    exact ⟨hready, (Function.update_of_ne hne ..).trans hjoin, hwebRTC⟩
  · intro hbutton
    refine ⟨(h.shown.idle hbutton).1, fun hwait => (h.shown.idle hbutton).2 ?_⟩
    exact ⟨hsame.symm.trans hwait.1, hwait.2⟩
  · intro hhidden
    obtain ⟨hpeer, htiles, hchat, hadmitted⟩ := h.shown.hidden hhidden
    exact ⟨hpeer, htiles, hchat, fun heq => hadmitted (hsame.symm.trans heq)⟩
  · exact fun hne => h.held.admitted fun heq => hne (hsame.trans heq)

theorem Sound.message (h : s.Sound) {g : SessionId} {m : Message}
    (hjoining : m = .error → g = s.socketGeneration → s.joining = 0)
    (hstep : s.message g m = some t) : t.Sound := by
  unfold Page.message at hstep
  split at hstep
  case isFalse => cases hstep
  rename_i hguard
  obtain ⟨hready, hsends⟩ := hguard
  have hopen : s.readyState g ≠ .closed := by simp [hready]
  obtain rfl := Option.some.inj hstep
  by_cases hg : g = s.socketGeneration
  · subst hg
    rw [if_pos rfl]
    cases hanswer : s.answer s.socketGeneration with
    | admitted =>
      rw [hanswer] at hsends
      have hvisible : s.meetingHidden = false := by
        cases hhidden : s.meetingHidden with
        | false => rfl
        | true => exact absurd hanswer (h.shown.hidden hhidden).2.2.2
      have hsame : Function.update s.answer s.socketGeneration (JoinAnswer.admitted.after m) =
          s.answer := by
        rw [show JoinAnswer.admitted.after m = s.answer s.socketGeneration by
          rw [hanswer]; cases m <;> rfl]
        exact Function.update_eq_self ..
      rw [hsame]
      exact h.refill hvisible (refilled_handle hvisible hsends)
    | pending =>
      rw [hanswer] at hsends
      cases m with
      | participant id token history => exact h.participant ⟨hanswer, hopen⟩ id token history
      | error =>
        refine (h.refused hanswer).handleError (fun heq => ?_) (hjoining rfl rfl)
        exact absurd ((Function.update_self ..).symm.trans heq) nofun
      | other =>
        rw [show JoinAnswer.pending.after .other = s.answer s.socketGeneration from hanswer.symm,
          Function.update_eq_self]
        exact h
      | participantJoined | participantLeft | chatMessage => cases hsends
    | refused =>
      rw [hanswer] at hsends
      have hsame : Function.update s.answer s.socketGeneration (JoinAnswer.refused.after m) =
          s.answer := by
        rw [show JoinAnswer.refused.after m = s.answer s.socketGeneration by
          rw [hanswer]; cases m <;> rfl]
        exact Function.update_eq_self ..
      rw [hsame]
      cases m with
      | error =>
        exact h.handleError (fun heq => absurd (hanswer.symm.trans heq) nofun) (hjoining rfl rfl)
      | other => exact h
      | participant | participantJoined | participantLeft | chatMessage => cases hsends
  · rw [if_neg hg]
    exact h.stale hg hopen _

/-- The close handler, once the current socket is closed. -/
theorem Sound.handleClose (h : s.Sound) (hclosed : s.readyState s.socketGeneration = .closed)
    (htimers : s.timers = []) (hjoining : s.joining = 0)
    (hstop : s.GivesUp s.socketGeneration → s.stoppingShare = none) : s.handleClose.Sound := by
  unfold Page.handleClose
  split
  · split
    · rename_i hhidden
      exact ⟨{ h.shown with
        idle := fun _ => ⟨hhidden, fun hwait => hwait.2 hclosed⟩
        waiting := fun hwait => absurd hwait (Nat.not_lt_of_le (Nat.le_of_eq hjoining)) }, { h.held with }⟩
    · exact h
  rename_i hopen
  obtain ⟨hintentional, hvisible⟩ : s.intentionalClose = false ∧ s.meetingHidden = false := by
    simpa [not_or] using hopen
  split
  · exact h.scheduleConnectionMethodReconnect hvisible hclosed
  rename_i hswitch
  have hcounted : Sound { s with reconnectAttempts := s.reconnectAttempts + 1 } :=
    ⟨{ h.shown with }, { h.held with }⟩
  dsimp only
  split
  · rename_i hattempts
    refine hcounted.resetMediaConnection (hstop ⟨rfl, hintentional, hvisible, by simpa using hswitch, ?_⟩)
    exact Nat.le_of_lt_succ hattempts
  · exact hcounted.setReconnectTimer .reconnect htimers hvisible hclosed

theorem Sound.closed (h : s.Sound) {g : SessionId}
    (hjoining : g = s.socketGeneration → s.joining = 0)
    (hstop : s.GivesUp g → s.stoppingShare = none)
    (hstep : s.closed g = some t) : t.Sound := by
  unfold Page.closed at hstep
  split at hstep
  case isTrue => cases hstep
  rename_i hopen
  obtain rfl := Option.some.inj hstep
  have hkept : ∀ j, s.readyState j = .closed → Function.update s.readyState g .closed j = .closed := by
    intro j hj
    by_cases hjg : j = g
    · rw [hjg, Function.update_self]
    · rwa [Function.update_of_ne hjg]
  have hclosed : Sound { s with readyState := Function.update s.readyState g .closed } :=
    ⟨{ h.shown with
        fresh := fun j hj => ⟨hkept j (h.shown.fresh j hj).1, (h.shown.fresh j hj).2⟩
        idle := fun hbutton => ⟨(h.shown.idle hbutton).1, fun hwait =>
          (h.shown.idle hbutton).2 ⟨hwait.1, fun hc => hwait.2 (hkept _ hc)⟩⟩
        socket := fun hready => h.shown.socket fun hc => hready (hkept _ hc)
        timers := h.shown.timers.imp_right fun ⟨timer, htimers, href, hvisible, hc⟩ =>
          ⟨timer, htimers, href, hvisible, hkept _ hc⟩ }, { h.held with }⟩
  dsimp only
  split
  · rename_i hg
    subst hg
    refine hclosed.handleClose (Function.update_self ..) ?_ (hjoining rfl) hstop
    obtain htimers | ⟨timer, -, -, -, hc⟩ := h.shown.timers
    · exact htimers
    · exact absurd hc hopen
  · exact hclosed

/-! ## Buttons -/

theorem Sound.submit (h : s.Sound) (hstep : s.submit = some t) : t.Sound := by
  unfold Page.submit at hstep
  split at hstep
  · cases hstep
  rename_i hguard
  obtain ⟨hform, hbutton⟩ : s.formHidden = false ∧ s.joinButtonDisabled = false := by
    simpa [not_or] using hguard
  obtain rfl := Option.some.inj hstep
  have hjoining : s.joining = 0 := by
    by_cases hwait : 0 < s.joining
    · exact absurd (hbutton.symm.trans (h.shown.waiting hwait).1) nofun
    · omega
  refine ⟨{ h.shown with
    idle := fun _ => h.shown.idle (Or.inl hbutton)
    ended := fun hended => ?_
    waiting := fun _ => ⟨rfl, congrArg (· + 1) hjoining⟩ }, { h.held with }⟩
  have hformHidden := (h.shown.ended hended).1
  rw [hform] at hformHidden
  cases hformHidden

theorem Sound.join (h : s.Sound) {refreshed enabled changed : Bool}
    (hstep : s.join refreshed enabled changed = some t) : t.Sound := by
  unfold Page.join at hstep
  split at hstep
  case isFalse => cases hstep
  rename_i hwait
  have hidle := h.shown.idle (Or.inr (Or.inl hwait))
  obtain ⟨hbutton, hone⟩ := h.shown.waiting hwait
  have hnone : s.joining - 1 = 0 := by omega
  have hended : s.meetingEndedHidden = true := by
    cases hended : s.meetingEndedHidden with
    | true => rfl
    | false =>
      have hfalse := (h.shown.ended hended).2
      omega
  have hdone : Sound { s with joining := s.joining - 1 } := by
    refine ⟨{ h.shown with
      idle := fun hor => h.shown.idle (hor.imp_right (Or.imp_left fun hlt => ?_))
      ended := fun hfalse => absurd (hended.symm.trans hfalse) nofun
      waiting := fun hlt => ?_ }, { h.held with }⟩
    · exact hwait
    · exact absurd hlt (Nat.not_lt_of_le (Nat.le_of_eq hnone))
  dsimp only at hstep
  split at hstep
  · obtain rfl := Option.some.inj hstep
    exact ⟨{ hdone.shown with
      idle := fun _ => hidle
      waiting := fun hlt => absurd hlt (Nat.not_lt_of_le (Nat.le_of_eq hnone)) }, { hdone.held with }⟩
  · -- the page has been empty since it loaded or since Leave
    have hsame : (if changed = true then
        Page.selectConnectionMethod { s with joining := s.joining - 1 }
        else { s with joining := s.joining - 1 }) = { s with joining := s.joining - 1 } := by
      split
      · exact if_pos hidle.1
      · rfl
    rw [hsame] at hstep
    obtain rfl := Option.some.inj hstep
    obtain ⟨hpeer, htiles, hchat, -⟩ := h.shown.hidden hidle.1
    have htimers : s.timers = [] := by
      obtain htimers | ⟨timer, -, -, hvisible, -⟩ := h.shown.timers
      · exact htimers
      · exact absurd (hvisible.symm.trans hidle.1) nofun
    exact Sound.connectSocket (s := { s with joining := s.joining - 1, intentionalClose := false })
      ⟨{ hdone.shown with }, { hdone.held with }⟩ ⟨hpeer, htiles, hchat, htimers⟩ hbutton hnone hended

theorem Sound.rejoin (h : s.Sound) (hstep : s.rejoin = some t) : t.Sound := by
  unfold Page.rejoin at hstep
  split at hstep
  · cases hstep
  rename_i hguard
  obtain rfl := Option.some.inj hstep
  have hended : s.meetingEndedHidden = false := by simpa using hguard
  have hjoining := (h.shown.ended hended).2
  exact ⟨{ h.shown with
    idle := fun _ => h.shown.idle (Or.inr (Or.inr hended))
    ended := nofun
    waiting := fun hlt => absurd hlt (Nat.not_lt_of_le (Nat.le_of_eq hjoining)) }, { h.held with }⟩

theorem Sound.retry (h : s.Sound) (hok : s.RetryRestarts ∨ s.meetingHidden = true ∨ s.Empty) :
    s.retry.Sound := by
  unfold Page.retry
  split
  · exact h
  · rename_i hconnects
    obtain ⟨hrestarts, hhidden⟩ := not_or.mp hconnects
    have hempty : s.Empty := (hok.resolve_left hrestarts).resolve_left hhidden
    obtain ⟨hbutton, hjoining, hended⟩ := h.shown.busy (by simpa using hhidden)
    exact Sound.connectSocket (s := { s with intentionalClose := false })
      ⟨{ h.shown with }, { h.held with }⟩ hempty hbutton hjoining hended

/-- What Leave leaves. -/
theorem leave_eq (h : s.Sound) (hstop : s.stoppingShare = none) (hvisible : s.meetingHidden = false) :
    ∃ readyState, (∀ j, readyState j = .closed ↔ s.readyState j = .closed) ∧ s.leave = some { s with
      intentionalClose := true, socketGeneration := s.socketGeneration + 1, timers := []
      readyState, reconnectToken := none, live := [], openPeers := [], participantRemovalTimers := []
      localStream := none, screenStream := none, localCameraTrack := none, peer := none
      localParticipantID := none, chatMessages := [], applied := [], participantElements := []
      meetingHidden := true, formHidden := true, meetingEndedHidden := false
      joinButtonDisabled := false } := by
  obtain ⟨hpeers, hlive⟩ := h.held.released hstop
  have htimers := h.shown.clearReconnectTimer
  obtain ⟨r, heq, hclosed⟩ := closeCurrent_eq (clearReconnectTimer { s with
    intentionalClose := true, socketGeneration := s.socketGeneration + 1 })
  refine ⟨r, hclosed, ?_⟩
  rw [Page.leave, if_neg (by simp [hvisible])]
  dsimp only
  rw [heq]
  simp only [Page.clearReconnectTimer, stopTracks] at htimers hlive ⊢
  cases hpeer : s.peer with
  | none =>
    simp only [hpeer, Option.elim_none] at hpeers
    simp only [Option.elim_none, htimers, hpeers]
    congr 2
  | some p =>
    simp only [hpeer, Option.elim_some, closePeer] at hpeers
    simp only [Option.elim_some, closePeer, htimers, hpeers]
    congr 2

/-- **Leave** empties the page as a reset does. -/
theorem Sound.leave (h : s.Sound) (hstop : s.stoppingShare = none) (hstep : s.leave = some t) :
    t.Sound := by
  have hvisible : s.meetingHidden = false := by
    cases hhidden : s.meetingHidden with
    | false => rfl
    | true => simp [Page.leave, hhidden] at hstep
  obtain ⟨-, hjoining, -⟩ := h.shown.busy hvisible
  obtain ⟨r, hclosed, heq⟩ := leave_eq h hstop hvisible
  rw [heq] at hstep
  obtain rfl := Option.some.inj hstep
  obtain ⟨hready, hanswer, hwebRTC⟩ := h.shown.fresh (s.socketGeneration + 1) (Nat.lt_succ_self _)
  refine ⟨⟨fun g hg => ?_, fun _ => ⟨rfl, fun hwait => hwait.2 ((hclosed _).mpr hready)⟩,
    fun _ => ⟨rfl, hjoining⟩, fun hlt => ?_, fun _ => ⟨rfl, rfl, rfl, ?_⟩, nofun, fun hopen => ?_,
    Or.inl rfl⟩, ?_⟩
  · have hfresh := h.shown.fresh g (Nat.lt_of_succ_lt hg)
    exact ⟨(hclosed g).mpr hfresh.1, hfresh.2⟩
  · exact absurd hlt (Nat.not_lt_of_le (Nat.le_of_eq hjoining))
  · exact fun hadmitted => absurd (hanswer.symm.trans hadmitted) nofun
  · exact absurd ((hclosed _).mpr hready) hopen
  · exact { h.held with
      own := nofun
      peers := nofun
      live := nofun
      session := nofun
      minted := fun track htrack => h.held.minted track (Or.inr (Or.inr (by simpa using htrack)))
      dead := fun _ _ => nofun
      blank := fun _ => ⟨rfl, rfl⟩
      admitted := fun _ => ⟨hwebRTC, rfl⟩
      starting := fun _ => rfl
      prompting := fun _ => rfl
      picking := fun _ => rfl
      tiles := nofun
      chat := nofun }

/-! ## Captures and peer connections -/

/-- `startWebRTC` goes on, or ends. -/
theorem Sound.resumed (h : s.Sound) (g : SessionId) :
    Sound { s with webRTC := Function.update s.webRTC g .idle } := by
  have hidle : ∀ j, s.webRTC j = .idle → Function.update s.webRTC g .idle j = .idle := by
    intro j hj
    by_cases hjg : j = g
    · rw [hjg, Function.update_self]
    · rwa [Function.update_of_ne hjg]
  have hsame : ∀ stage, stage ≠ .idle → Function.update s.webRTC g .idle s.socketGeneration = stage →
      s.webRTC s.socketGeneration = stage := by
    intro stage hne heq
    by_cases hg : s.socketGeneration = g
    · rw [hg, Function.update_self] at heq
      exact absurd heq.symm hne
    · rwa [Function.update_of_ne hg] at heq
  exact ⟨{ h.shown with
      fresh := fun j hj =>
        have hfresh := h.shown.fresh j hj
        ⟨hfresh.1, hfresh.2.1, hidle j hfresh.2.2⟩ },
    { h.held with
      admitted := fun hanswer =>
        have hrefused := h.held.admitted hanswer
        ⟨hidle _ hrefused.1, hrefused.2⟩
      starting := fun heq => h.held.starting (hsame _ nofun heq)
      prompting := fun heq => h.held.prompting (hsame _ nofun heq) }⟩

/-- A peer connection belongs to the meeting. -/
theorem Sound.visible (h : s.Sound) (hpeer : s.peer ≠ none) : s.meetingHidden = false := by
  cases hhidden : s.meetingHidden with
  | false => rfl
  | true => exact absurd (h.shown.hidden hhidden).1 hpeer

/-- `startWebRTC` has begun. -/
theorem Sound.visible_of_webRTC (h : s.Sound) (hstage : s.webRTC s.socketGeneration ≠ .idle) :
    s.meetingHidden = false ∧ s.answer s.socketGeneration = .admitted := by
  have hanswer : s.answer s.socketGeneration = .admitted := by
    by_cases hanswer : s.answer s.socketGeneration = .admitted
    · exact hanswer
    · exact absurd (h.held.admitted hanswer).1 hstage
  refine ⟨?_, hanswer⟩
  cases hhidden : s.meetingHidden with
  | false => rfl
  | true => exact absurd hanswer (h.shown.hidden hhidden).2.2.2

/-- A stage of the current session. -/
theorem Shown.stage (h : s.Shown) (hvisible : s.meetingHidden = false) (stage : Stage)
    {peer : Option SessionId} :
    Shown { s with peer, webRTC := Function.update s.webRTC s.socketGeneration stage } :=
  { h with
    fresh := fun g hg =>
      have hfresh := h.fresh g hg
      ⟨hfresh.1, hfresh.2.1, (Function.update_of_ne (Nat.ne_of_gt hg) ..).trans hfresh.2.2⟩
    hidden := fun hhidden => absurd (hvisible.symm.trans hhidden) nofun }

theorem Sound.credentials (h : s.Sound) {g : SessionId} {ready usable : Bool}
    (hstep : s.credentials g ready usable = some t) : t.Sound := by
  unfold Page.credentials at hstep
  split at hstep
  case isFalse => cases hstep
  rename_i hstage
  obtain rfl := Option.some.inj hstep
  have hresumed := h.resumed g
  split
  · exact hresumed
  rename_i hcurrent
  split
  · exact hresumed.closeSocket g
  split
  · exact Sound.closeSocket (s := { s with
      webRTC := Function.update s.webRTC g .idle, intentionalClose := true })
      ⟨{ hresumed.shown with }, { hresumed.held with }⟩ g
  -- the session gets its peer connection
  have hg : g = s.socketGeneration := (not_not.mp hcurrent).1
  subst hg
  obtain ⟨hvisible, hanswer⟩ := h.visible_of_webRTC (by rw [hstage]; nofun)
  have hpeer := h.held.starting hstage
  obtain ⟨hstream, hlive⟩ := h.held.blank hpeer
  have hmicrophone : ∀ stage, Function.update (Function.update s.webRTC s.socketGeneration .idle)
      s.socketGeneration .microphone s.socketGeneration = stage → stage = .microphone := by
    intro stage heq
    rw [Function.update_self] at heq
    exact heq.symm
  refine ⟨?_, { hresumed.held with
    own := fun p hp => (Option.some.inj hp).symm
    peers := fun p hp => ?_
    blank := nofun
    admitted := fun hne => absurd hanswer hne
    starting := fun heq => absurd (hmicrophone _ heq) nofun
    prompting := fun _ => hstream }⟩
  · exact { hresumed.shown.stage hvisible .microphone with }
  · obtain hp | hp := List.mem_append.mp hp
    · exact absurd (hpeer.symm.trans (h.held.peers p hp)) nofun
    · rw [List.mem_singleton.mp hp]

/-- A capture for the current session that the page keeps. -/
theorem Held.captured (h : s.Held) (localStream : Option (List Track))
    (camera screen : Option Track) (prompt : Option SessionId) (hpeer : s.peer ≠ none)
    (hlive : ∀ track ∈ s.live ++ [⟨s.captured, s.socketGeneration⟩],
      track ∈ localStream.getD [] ∨ screen = some track ∨ s.stoppingShare = some track)
    (hcamera : ∀ track, camera = some track →
      track = ⟨s.captured, s.socketGeneration⟩ ∨ s.localCameraTrack = some track)
    (hprompting : s.webRTC s.socketGeneration = .microphone → localStream = none)
    (hpicking : prompt ≠ none → screen = none) :
    Held { s with
      live := s.live ++ [⟨s.captured, s.socketGeneration⟩], captured := s.captured + 1
      localStream, localCameraTrack := camera, screenStream := screen, displayPrompt := prompt } := by
  refine { h with
    live := hlive
    session := fun track htrack => ?_
    minted := fun track htrack => ?_
    dead := fun track hdead htrack => ?_
    blank := fun hnone => absurd hnone hpeer
    prompting := hprompting
    picking := hpicking }
  · obtain hold | hnew := List.mem_append.mp htrack
    · exact h.session track hold
    · rw [List.mem_singleton.mp hnew]
  · have hold : ∀ {track : Track}, track ∈ s.live ∨ s.localCameraTrack = some track ∨
        track ∈ s.detaching → track.ref < s.captured + 1 := fun hmem =>
      Nat.lt_succ_of_lt (h.minted _ hmem)
    obtain hmem | hmem | hmem := htrack
    · obtain hmem | hnew := List.mem_append.mp hmem
      · exact hold (Or.inl hmem)
      · rw [List.mem_singleton.mp hnew]
        exact Nat.lt_succ_self _
    · obtain rfl | hmem := hcamera track hmem
      · exact Nat.lt_succ_self _
      · exact hold (Or.inr (Or.inl hmem))
    · exact hold (Or.inr (Or.inr hmem))
  · obtain hold | hnew := List.mem_append.mp htrack
    · exact h.dead track hdead hold
    · have hlt := h.minted track (Or.inr (Or.inr hdead))
      rw [List.mem_singleton.mp hnew] at hlt
      exact absurd hlt (Nat.lt_irrefl _)

/-- A capture that is stopped at once. -/
theorem Held.discarded (h : s.Held) (session : SessionId) {openPeers : List SessionId}
    (hpeers : ∀ p ∈ openPeers, p ∈ s.openPeers) :
    Held { (s.capture session).2.stopTracks [(s.capture session).1] with openPeers } := by
  have hlive : ∀ track ∈ ((s.capture session).2.stopTracks [(s.capture session).1]).live,
      track ∈ s.live := by
    intro track htrack
    obtain ⟨hmem, hne⟩ := List.mem_filter.mp htrack
    refine (List.mem_append.mp hmem).resolve_right fun hnew => ?_
    rw [List.mem_singleton.mp hnew] at hne
    simp [Page.capture] at hne
  have hreleased := h.release hlive hpeers
  exact { hreleased with minted := fun track htrack => Nat.lt_succ_of_lt (hreleased.minted track htrack) }

/-- The current session goes on to its setup. -/
theorem Sound.setupStage (h : s.Sound) (hvisible : s.meetingHidden = false)
    (hanswer : s.answer s.socketGeneration = .admitted) :
    Sound { s with webRTC := Function.update s.webRTC s.socketGeneration .setup } := by
  have hstage : ∀ stage, Function.update s.webRTC s.socketGeneration .setup s.socketGeneration = stage →
      stage = .setup := by
    intro stage heq
    rw [Function.update_self] at heq
    exact heq.symm
  exact ⟨{ h.shown.stage hvisible .setup with }, { h.held with
    admitted := fun hne => absurd hanswer hne
    starting := fun heq => absurd (hstage _ heq) nofun
    prompting := fun heq => absurd (hstage _ heq) nofun }⟩

theorem Sound.microphone (h : s.Sound) {g : SessionId} {granted : Bool}
    (hstep : s.microphone g granted = some t) : t.Sound := by
  unfold Page.microphone at hstep
  split at hstep
  case isFalse => cases hstep
  rename_i hstage
  have hresumed := h.resumed g
  have hpeers : ∀ p ∈ s.openPeers.filter (· ≠ g), p ∈ s.openPeers := fun p hp =>
    (List.mem_filter.mp hp).1
  have hidle : Function.update s.webRTC g .idle g ≠ .microphone := by
    rw [Function.update_self]
    nofun
  cases granted with
  | false =>
    simp only [Bool.false_eq_true, if_false, Option.some.injEq] at hstep
    subst hstep
    split
    · exact ⟨{ hresumed.shown with }, hresumed.held.release (fun track htrack =>
        (List.mem_filter.mp htrack).1) hpeers⟩
    rename_i hcurrent
    obtain ⟨⟨hg, -⟩, hpeer⟩ := not_not.mp hcurrent
    replace hg : g = s.socketGeneration := hg
    subst hg
    obtain ⟨hvisible, hanswer⟩ := h.visible_of_webRTC (by rw [hstage]; nofun)
    have hempty : Held { s with
        webRTC := Function.update s.webRTC s.socketGeneration .idle
        localStream := some [], localCameraTrack := none } :=
      { hresumed.held with
        live := fun track htrack => by
          have hmem := h.held.live track htrack
          rw [h.held.prompting hstage] at hmem
          exact hmem
        minted := fun track htrack => h.held.minted track (htrack.imp_right fun hmem =>
          Or.inr (hmem.resolve_left nofun))
        blank := fun hfalse => absurd (hpeer.symm.trans hfalse) nofun
        prompting := fun heq => absurd heq hidle }
    exact Sound.setupStage (s := { s with
      webRTC := Function.update s.webRTC s.socketGeneration .idle
      localStream := some [], localCameraTrack := none })
      ⟨{ hresumed.shown with }, hempty⟩ hvisible hanswer
  | true =>
    simp only [if_true, Option.some.injEq] at hstep
    subst hstep
    split
    · exact ⟨{ hresumed.shown with }, { hresumed.held.discarded g hpeers with }⟩
    rename_i hcurrent
    obtain ⟨⟨hg, -⟩, hpeer⟩ := not_not.mp hcurrent
    replace hg : g = s.socketGeneration := hg
    replace hpeer : s.peer = some g := hpeer
    subst hg
    obtain ⟨hvisible, hanswer⟩ := h.visible_of_webRTC (by rw [hstage]; nofun)
    have hcaptured := hresumed.held.captured (some [⟨s.captured, s.socketGeneration⟩]) none
      s.screenStream s.displayPrompt (by rw [hpeer]; nofun) (fun track htrack => ?_) nofun (fun heq => absurd heq hidle)
      h.held.picking
    · exact Sound.setupStage (s := { s with
        webRTC := Function.update s.webRTC s.socketGeneration .idle
        live := s.live ++ [⟨s.captured, s.socketGeneration⟩], captured := s.captured + 1
        localStream := some [⟨s.captured, s.socketGeneration⟩], localCameraTrack := none })
        ⟨{ hresumed.shown with }, { hcaptured with }⟩ hvisible hanswer
    · obtain hold | hnew := List.mem_append.mp htrack
      · have hmem := h.held.live track hold
        rw [h.held.prompting hstage] at hmem
        exact Or.inr (hmem.resolve_left nofun)
      · exact Or.inl hnew

/-- A camera prompt for the page's peer connection, or a live camera. -/
theorem Sound.enableCameraOnce (h : s.Sound) : s.enableCameraOnce.Sound := by
  unfold Page.enableCameraOnce
  split
  · exact h
  · split
    · exact h
    · exact ⟨{ h.shown with }, { h.held with
        minted := fun track htrack => h.held.minted track (htrack.imp_right fun hmem =>
          Or.inr (hmem.resolve_left nofun)) }⟩

theorem Sound.setup (h : s.Sound) {g : SessionId} {restoreCamera : Bool}
    (hstep : s.setup g restoreCamera = some t) : t.Sound := by
  unfold Page.setup at hstep
  split at hstep
  case isFalse => cases hstep
  obtain rfl := Option.some.inj hstep
  split
  · exact (h.resumed g).enableCameraOnce
  · exact h.resumed g

theorem Sound.camera (h : s.Sound) {index : Nat} {granted : Bool}
    (hstream : granted = true → s.cameraPrompts[index]? = s.peer → s.localStream ≠ none)
    (hstep : s.camera index granted = some t) : t.Sound := by
  obtain ⟨p, hp, rfl⟩ := Option.map_eq_some_iff.mp hstep
  cases granted with
  | false => exact ⟨{ h.shown with }, { h.held with }⟩
  | true =>
    rw [if_neg nofun]
    dsimp only
    split
    · exact ⟨{ h.shown with }, { h.held.discarded p fun _ => id with }⟩
    rename_i hpeer
    replace hpeer : s.peer = some p := not_not.mp hpeer
    obtain rfl := h.held.own p hpeer
    obtain ⟨tracks, htracks⟩ := Option.ne_none_iff_exists'.mp (hstream rfl (hp.trans hpeer.symm))
    have hcaptured := h.held.captured (s.localStream.map (· ++ [⟨s.captured, s.socketGeneration⟩]))
      (some ⟨s.captured, s.socketGeneration⟩) s.screenStream s.displayPrompt
      (by rw [hpeer]; nofun) ?_ (fun track heq => Or.inl (Option.some.inj heq).symm) ?_ h.held.picking
    · exact ⟨{ h.shown with }, { hcaptured with }⟩
    · intro track htrack
      rw [htracks]
      obtain hold | hnew := List.mem_append.mp htrack
      · have hmem := h.held.live track hold
        rw [htracks] at hmem
        exact hmem.imp_left fun hmem => List.mem_append_left _ hmem
      · exact Or.inl (List.mem_append_right _ hnew)
    · intro hstage
      rw [h.held.prompting hstage]
      rfl

theorem Sound.disableCamera (h : s.Sound) (hstep : s.disableCamera = some t) : t.Sound := by
  obtain ⟨track, htrack, rfl⟩ := Option.map_eq_some_iff.mp hstep
  have hreleased := h.held.stopTracks [track]
  refine ⟨{ h.shown with }, { hreleased with
    minted := fun other hother => ?_
    dead := fun other hother hlive => ?_ }⟩
  · obtain hlive | hcamera | hdetaching := hother
    · exact hreleased.minted other (Or.inl hlive)
    · exact hreleased.minted other (Or.inr (Or.inl hcamera))
    · obtain hdetaching | hnew := List.mem_append.mp hdetaching
      · exact hreleased.minted other (Or.inr (Or.inr hdetaching))
      · rw [List.mem_singleton.mp hnew]
        exact h.held.minted track (Or.inr (Or.inl htrack))
  · obtain hdetaching | hnew := List.mem_append.mp hother
    · exact hreleased.dead other hdetaching hlive
    · have hne := (List.mem_filter.mp hlive).2
      simp [List.mem_singleton.mp hnew] at hne

/-- Only a stopped track leaves the stream. -/
theorem Sound.cameraDetached (h : s.Sound) {index : Nat} (hstep : s.cameraDetached index = some t) :
    t.Sound := by
  obtain ⟨track, htrack, rfl⟩ := Option.map_eq_some_iff.mp hstep
  have hdead := h.held.dead track (List.mem_of_getElem? htrack)
  refine ⟨{ h.shown with }, { h.held with
    live := fun other hother => ?_
    minted := fun other hother => ?_
    dead := fun other hother => h.held.dead other (List.mem_of_mem_eraseIdx hother)
    blank := fun hpeer => ?_
    prompting := fun hstage => ?_ }⟩
  · refine (h.held.live other hother).imp_left fun hmem => ?_
    have hne : other ≠ track := by
      rintro rfl
      exact hdead hother
    cases hstream : s.localStream with
    | none =>
      rw [hstream] at hmem
      cases hmem
    | some tracks =>
      rw [hstream] at hmem
      exact List.mem_filter.mpr ⟨hmem, by simpa using hne⟩
  · obtain hlive | hcamera | hdetaching := hother
    · exact h.held.minted other (Or.inl hlive)
    · cases hcamera
    · exact h.held.minted other (Or.inr (Or.inr (List.mem_of_mem_eraseIdx hdetaching)))
  · obtain ⟨hstream, hlive⟩ := h.held.blank hpeer
    exact ⟨by simp [hstream], hlive⟩
  · have hstream := h.held.prompting hstage
    simp [hstream]

/-! ## The share button -/

theorem Sound.startScreenShare (h : s.Sound) (hstep : s.startScreenShare = some t) : t.Sound := by
  unfold Page.startScreenShare at hstep
  split at hstep
  · cases hstep
  rename_i hguard
  obtain rfl := Option.some.inj hstep
  refine ⟨{ h.shown with }, { h.held with picking := fun _ => ?_ }⟩
  exact not_not.mp fun hscreen => hguard (Or.inr (Or.inr (Or.inl hscreen)))

theorem Sound.display (h : s.Sound) {granted : Bool}
    (hprompt : granted = true → s.displayPrompt = s.peer) (hstep : s.display granted = some t) :
    t.Sound := by
  obtain ⟨p, hp, rfl⟩ := Option.map_eq_some_iff.mp hstep
  cases granted with
  | false => exact ⟨{ h.shown with }, { h.held with picking := fun hne => absurd rfl hne }⟩
  | true =>
    have hpeer : s.peer = some p := (hprompt rfl).symm.trans hp
    obtain rfl := h.held.own p hpeer
    have hscreen : s.screenStream = none := h.held.picking (by rw [hp]; nofun)
    have hcaptured := h.held.captured s.localStream s.localCameraTrack
      (some ⟨s.captured, s.socketGeneration⟩) none (by rw [hpeer]; nofun) (fun track htrack => ?_)
      (fun track heq => Or.inr heq) h.held.prompting (fun hne => absurd rfl hne)
    · exact ⟨{ h.shown with }, { hcaptured with }⟩
    · obtain hold | hnew := List.mem_append.mp htrack
      · have hmem := h.held.live track hold
        rw [hscreen] at hmem
        exact hmem.imp_right fun hmem => Or.inr (hmem.resolve_left nofun)
      · rw [List.mem_singleton.mp hnew]
        exact Or.inr (Or.inl rfl)

theorem Sound.shareStarted (h : s.Sound) (hstep : s.shareStarted = some t) : t.Sound := by
  unfold Page.shareStarted at hstep
  split at hstep
  · obtain rfl := Option.some.inj hstep
    exact ⟨{ h.shown with }, { h.held with }⟩
  · cases hstep

theorem Sound.stopScreenShare (h : s.Sound) (hstep : s.stopScreenShare = some t) : t.Sound := by
  unfold Page.stopScreenShare at hstep
  split at hstep
  case isFalse => cases hstep
  rename_i hstop
  obtain ⟨track, htrack, rfl⟩ := Option.map_eq_some_iff.mp hstep
  refine ⟨{ h.shown with }, { h.held with
    live := fun other hother => ?_
    picking := fun _ => rfl }⟩
  have hmem := h.held.live other hother
  rw [hstop, htrack] at hmem
  exact hmem.imp_right fun hmem => Or.inr (hmem.resolve_right nofun)

theorem Sound.shareStopped (h : s.Sound) (hstep : s.shareStopped = some t) : t.Sound := by
  obtain ⟨track, htrack, rfl⟩ := Option.map_eq_some_iff.mp hstep
  have hreleased := h.held.stopTracks [track]
  refine ⟨{ h.shown with }, { hreleased with live := fun other hother => ?_ }⟩
  have hne := (List.mem_filter.mp hother).2
  have hmem := h.held.live other (List.mem_filter.mp hother).1
  rw [htrack] at hmem
  refine hmem.imp_right fun hmem => Or.inl (hmem.resolve_right fun heq => ?_)
  simp [(Option.some.inj heq).symm] at hne

theorem Sound.removeTile (h : s.Sound) {id : ParticipantID} (hstep : s.removeTile id = some t) :
    t.Sound := by
  unfold Page.removeTile at hstep
  split at hstep
  · obtain rfl := Option.some.inj hstep
    refine ⟨{ h.shown with hidden := fun hhidden => ?_ }, { h.held with
      tiles := fun tile htile => h.held.tiles tile (List.mem_filter.mp htile).1 }⟩
    obtain ⟨hpeer, htiles, hrest⟩ := h.shown.hidden hhidden
    exact ⟨hpeer, by simp [htiles], hrest⟩
  · cases hstep

/-! ## Runs -/

/-- Every event of an undisturbed run keeps the page sound. -/
theorem sound_step {l : Label} (h : s.Sound) (hok : s.undisturbed l = true)
    (hstep : s.step l = some t) : t.Sound := by
  cases l with
  | submit => exact h.submit hstep
  | join refreshed enabled changed => exact h.join hstep
  | opened g => exact h.opened hstep
  | message g m =>
    refine h.message (fun hm hg => ?_) hstep
    subst hm
    exact of_decide_eq_true hok hg
  | closed g =>
    obtain ⟨hjoining, hstop⟩ := of_decide_eq_true hok
    exact h.closed hjoining hstop hstep
  | timer index => exact h.timer (of_decide_eq_true hok) hstep
  | retry =>
    obtain rfl := Option.some.inj hstep
    exact h.retry (of_decide_eq_true hok)
  | selectConnectionMethod =>
    obtain rfl := Option.some.inj hstep
    exact h.selectConnectionMethod
  | closeSocket =>
    obtain rfl := Option.some.inj hstep
    exact h.closeCurrent
  | leave => exact h.leave (of_decide_eq_true hok) hstep
  | rejoin => exact h.rejoin hstep
  | credentials g ready usable => exact h.credentials hstep
  | microphone g granted => exact h.microphone hstep
  | setup g restoreCamera => exact h.setup hstep
  | enableCamera =>
    obtain rfl := Option.some.inj hstep
    exact h.enableCameraOnce
  | camera index granted =>
    refine h.camera (fun hgranted => ?_) hstep
    subst hgranted
    exact of_decide_eq_true hok
  | disableCamera => exact h.disableCamera hstep
  | cameraDetached index => exact h.cameraDetached hstep
  | startScreenShare => exact h.startScreenShare hstep
  | display granted =>
    refine h.display (fun hgranted => ?_) hstep
    subst hgranted
    exact of_decide_eq_true hok
  | shareStarted => exact h.shareStarted hstep
  | stopScreenShare => exact h.stopScreenShare hstep
  | shareStopped => exact h.shareStopped hstep
  | removeTile id => exact h.removeTile hstep

/-- **Every session starts clean** in an undisturbed run. -/
theorem startsClean_of_undisturbed (h : lts.Reachable (fun s l => s.undisturbed l = true) s)
    {l : Label} {g : SessionId} (hcreates : s.creates l = some g) : s.StartsClean g := by
  have hsound : s.Sound := Lts.Reachable.invariant_ofStep sound_load
    (fun _ _ _ hi hok hstep => sound_step hi hok hstep) h
  unfold creates at hcreates
  split at hcreates
  · split at hcreates
    · rename_i hstage
      obtain rfl := Option.some.inj hcreates
      obtain ⟨hstage, rfl, -⟩ := hstage
      have hpeer := hsound.held.starting hstage
      refine ⟨List.eq_nil_iff_forall_not_mem.mpr fun p hp => ?_, hsound.held.session,
        fun tile htile _ => hsound.held.tiles tile htile, hsound.held.chat⟩
      exact absurd (hpeer.symm.trans (hsound.held.peers p hp)) nofun
    · cases hcreates
  · cases hcreates

/-- A first session up to the loss of its socket. -/
def lostSession : List Label :=
  [.submit, .join true true false, .opened 1,
    .message 1 (.participant 7 (some "token") [⟨some "m1", "Ann", "hello", none⟩]),
    .message 1 (.participantJoined 8 "Bob"), .credentials 1 true true, .microphone 1 true, .closed 1]

/-- The reconnect timer fires, and the next session starts. -/
theorem startsClean_of_undisturbed_reconnect :
    ∃ s : Page, (s.captured, s.participantElements) = (1, [⟨7, 2⟩]) ∧ s.StartsClean 2 := by
  obtain ⟨s, hs, hobs⟩ := Lts.exists_reachable_of_execWhen undisturbed step load
    (lostSession ++ [.timer 0, .opened 2,
      .message 2 (.participant 7 (some "token") [⟨some "m1", "Ann", "hello", none⟩])])
    (fun s => (s.creates (.credentials 2 true true), s.captured, s.participantElements))
    (some 2, 1, [⟨7, 2⟩]) (by decide)
  simp only [Prod.mk.injEq] at hobs
  exact ⟨s, by simp [hobs.2], startsClean_of_undisturbed hs hobs.1⟩

/-- Retry instead of the timer: the second session gets its peer connection
while the first one is open. -/
theorem not_startsClean_of_retry :
    ¬ ∀ (s : Page) (l : Label) (g : SessionId), lts.Reachable Lts.Any s → s.creates l = some g →
      s.StartsClean g := by
  intro h
  obtain ⟨s, hs, hobs⟩ := Lts.exists_reachable_of_exec Lts.Any step load
    (lostSession ++ [.retry, .opened 2, .message 2 (.participant 7 (some "token") [])])
    (fun s => (s.creates (.credentials 2 true true), s.openPeers)) (some 2, [1])
    (fun _ _ _ => trivial) (by decide)
  simp only [Prod.mk.injEq] at hobs
  have hpeers := (h s _ _ hs hobs.1).peers
  rw [hobs.2] at hpeers
  cases hpeers

end SlowMeet.Client.Page
