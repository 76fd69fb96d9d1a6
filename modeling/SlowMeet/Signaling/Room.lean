import SlowMeet.Signaling.Sent

/-!
# What a step does to the room

The fields the handlers share, less the pending entries and the tokens the
session keeps, and the case analysis of a step in terms of them: which
sections change the room, and how a handler comes to the section it runs.
-/

namespace SlowMeet.Signaling

open Lib Media

/-- What the connections of a hub share. -/
structure Room where
  config : Config
  meeting : Meeting
  members : Finset ClientId
  mediaStates : GoMap ParticipantID MediaState
  sharer : Option ClientId
  history : Option (List ChatHistoryEntry)
  closed : Bool
  closingIDs : Finset ParticipantID

namespace Hub

def room (h : Hub) : Room where
  config := h.config
  meeting := h.meeting
  members := h.roomMembers
  mediaStates := h.mediaStates
  sharer := h.screenSharer
  history := h.chatHistory.map (·.messages)
  closed := h.closed
  closingIDs := h.closingIDs

/-- What a step does to the room, case by case. -/
inductive RoomChange (h : Hub) : Label → Room → Prop
  | quiet (l : Label) : RoomChange h l h.room
  | configured (a : AdminId) (update : AdminUpdate) (hadmin : h.admin a = .idle) :
      RoomChange h (.adminUpdate a update)
        { h.room with config := h.config.updatedConfig update }
  | limited (a : AdminId) (cfg : Config) (hadmin : h.admin a = .limiting cfg) :
      RoomChange h (.admin a)
        { h.room with meeting := h.meeting.setMaxParticipants cfg.maxParticipants }
  | joined (c : ClientId) (ok : Bool) (name : Name) (meeting : Meeting) (p : Participant)
      (hphase : (h.client c).phase = .joining name)
      (hjoin : h.meeting.join name h.nextID = .ok (meeting, p)) :
      RoomChange h (.run c ok) { h.room with meeting := meeting }
  | left (c : ClientId) (ok : Bool) (p : Participant) (hp : (h.client c).participant = some p)
      (hphase : (h.client c).phase = .leaving) :
      RoomChange h (.run c ok) { h.room with meeting := (h.meeting.leave p.id).1 }
  | reaped (c : ClientId) (p : Participant) (hp : (h.client c).participant = some p)
      (hreaper : (h.client c).reaper = .leaving) :
      RoomChange h (.reap c) { h.room with meeting := (h.meeting.leave p.id).1 }
  | closeLeft (id : ParticipantID) (hid : id ∈ h.closingIDs) :
      RoomChange h (.closeLeave id)
        { h.room with
          meeting := (h.meeting.leave id).1
          closingIDs := h.closingIDs.erase id }
  | raised (c : ClientId) (allowed : Bool) (p : Participant) (raised : Bool) (meeting : Meeting)
      (changed : List Participant) (hphase : (h.client c).phase = .reading)
      (hp : (h.client c).participant = some p)
      (hraised : h.meeting.setRaisedHand p.id raised = some (meeting, changed)) :
      RoomChange h (.receive c allowed (some (.handState p.id raised)))
        { h.room with meeting := meeting }
  | entered (c : ClientId) (ok : Bool) (p : Participant) (hp : (h.client c).participant = some p)
      (hphase : (h.client c).phase = .admitting) (hopen : h.closed = false)
      (hearly : (h.client c).admissionExpired = false) :
      RoomChange h (.run c ok) { h.room with members := insert c h.roomMembers }
  | cleaned (c : ClientId) (ok : Bool) (hphase : (h.client c).phase = .closing) :
      RoomChange h (.run c ok) { h.room with members := h.roomMembers.erase c }
  | mediaState (c : ClientId) (allowed : Bool) (p : Participant) (audio video paused : Option Bool)
      (hphase : (h.client c).phase = .reading) (hp : (h.client c).participant = some p) :
      RoomChange h (.receive c allowed (some (.mediaState audio video paused)))
        { h.room with mediaStates := h.mediaStates.insert p.id ⟨p.id, audio, video, paused⟩ }
  | forgot (c : ClientId) (ok : Bool) (p : Participant) (hp : (h.client c).participant = some p)
      (hphase : (h.client c).phase = .forgetting) :
      RoomChange h (.run c ok) { h.room with mediaStates := h.mediaStates.erase p.id }
  | reaperForgot (c : ClientId) (p : Participant) (hp : (h.client c).participant = some p)
      (hreaper : (h.client c).reaper = .forgetting) :
      RoomChange h (.reap c) { h.room with mediaStates := h.mediaStates.erase p.id }
  | closed (closing : Finset ParticipantID) : RoomChange h .close
      { h.room with mediaStates := ∅, history := none, closed := true, closingIDs := closing }
  | shared (c : ClientId) (ok : Bool) (p : Participant) (streamID trackID : String)
      (hp : (h.client c).participant = some p)
      (hphase : (h.client c).phase = .handling (.sharing true streamID trackID))
      (hfree : h.shareTaken c true = false) :
      RoomChange h (.run c ok) { h.room with sharer := some c }
  | unshared (c : ClientId) (ok : Bool) (p : Participant) (streamID trackID : String)
      (hp : (h.client c).participant = some p)
      (hphase : (h.client c).phase = .handling (.sharing false streamID trackID))
      (hsharer : h.screenSharer = some c) :
      RoomChange h (.run c ok) { h.room with sharer := none }
  | released (c : ClientId) (ok : Bool) (p : Participant) (departure : Departure)
      (hp : (h.client c).participant = some p)
      (hphase : (h.client c).phase = .parting departure .releaseScreen)
      (hsharer : h.screenSharer = some c) :
      RoomChange h (.run c ok) { h.room with sharer := none }
  | revoked (a : AdminId) (cfg : Config) (hadmin : h.admin a = .releasing cfg)
      (hoff : cfg.enableScreenShare = false) :
      RoomChange h (.admin a) { h.room with sharer := none }
  | recorded (c : ClientId) (ok : Bool) (p : Participant) (msg : ChatMessage)
      (entry : ChatHistoryEntry) (hp : (h.client c).participant = some p)
      (hphase : (h.client c).phase = .handling (.chatting msg (some entry))) :
      RoomChange h (.run c ok)
        { h.room with history := some (truncate (h.chatHistorySnapshotLocked ++ [entry])) }
  | cleared (a : AdminId) (cfg : Config) (released : Bool)
      (hadmin : h.admin a = .clearing cfg released) (hoff : cfg.retainChatHistory = false) :
      RoomChange h (.admin a) { h.room with history := none }
  | expired : RoomChange h .chatDelete { h.room with history := none }

variable {h h' : Hub} {c d : ClientId}

@[simp] theorem room_update (c : ClientId) (f : Client → Client) : (h.update c f).room = h.room :=
  rfl

@[simp] theorem room_goto (c : ClientId) (phase : Phase) : (h.goto c phase).room = h.room := rfl

@[simp] theorem room_refuse (c : ClientId) (text : String) : (h.refuse c text).room = h.room := rfl

@[simp] theorem room_setReaper (c : ClientId) (reaper : Reaper) :
    (h.setReaper c reaper).room = h.room := rfl

@[simp] theorem room_setAdmin (a : AdminId) (phase : AdminPhase) :
    (h.setAdmin a phase).room = h.room := rfl

@[simp] theorem room_broadcastToRoom (msg : Message) : (h.broadcastToRoom msg).room = h.room := rfl

@[simp] theorem room_broadcastExcept (msg : Message) :
    (h.broadcastExcept c msg).room = h.room := rfl

@[simp] theorem room_stopExpiry : h.stopExpiry.room = h.room := by
  obtain ⟨timers, ht⟩ := h.stopExpiry_eq
  rw [ht]
  rfl

theorem room_clearChatHistory :
    h.clearChatHistory.room = { h.room with history := none } := by
  obtain ⟨timers, ht⟩ := h.stopExpiry_eq
  rw [clearChatHistory, ht]
  rfl

theorem room_cancelChatHistoryExpiry : h.cancelChatHistoryExpiry.room = h.room := by
  obtain ⟨timers, ht⟩ := h.stopExpiry_eq
  rw [cancelChatHistoryExpiry, ht]
  cases hh : h.chatHistory <;> simp [room, hh]

theorem room_scheduleChatHistoryExpiry : h.scheduleChatHistoryExpiry.room = h.room := by
  obtain ⟨timers, ht⟩ := h.stopExpiry_eq
  rw [scheduleChatHistoryExpiry, ht]
  cases hh : h.chatHistory <;> simp [room, hh]

theorem room_recordChatMessageLocked (entry : ChatHistoryEntry) :
    (h.recordChatMessageLocked c entry).room =
      { h.room with history := some (truncate (h.chatHistorySnapshotLocked ++ [entry])) } := by
  obtain ⟨timers, ht⟩ := h.stopExpiry_eq
  rw [recordChatMessageLocked, ht]
  rfl

/-! ## The spec -/

theorem room_runHandler {p : Participant} {handler : Handler} (ok : Bool)
    (hp : (h.client c).participant = some p) (hphase : (h.client c).phase = .handling handler) :
    h.RoomChange (.run c ok) (h.runHandler c p handler).room := by
  cases handler with
  | raising changed =>
    cases changed with
    | nil => exact .quiet _
    | cons q changed =>
      simp only [runHandler, room_goto]
      split <;> exact .quiet _
  | sharing active streamID trackID =>
    simp only [runHandler, requestScreenShare]
    split
    · exact .quiet _
    · next hfree =>
      cases active with
      | true => exact .shared c ok p streamID trackID hp hphase (Bool.eq_false_iff.mpr hfree)
      | false =>
        simp only [Bool.false_eq_true, if_false, room_goto]
        split
        · exact .unshared c ok p streamID trackID hp hphase ‹_›
        · exact .quiet _
  | chatting msg entry =>
    cases entry with
    | none => exact .quiet _
    | some entry =>
      simp only [runHandler, recordAndBroadcastChat, room_goto, room_broadcastExcept,
        room_recordChatMessageLocked]
      exact .recorded c ok p msg entry hp hphase
  | relaying _ | reacting _ _ _ | raisedCast _ _ | shared _ _ | sharedCast _ => exact .quiet _

theorem room_run {ok : Bool} (hrun : h.Runs c ok h') : h.RoomChange (.run c ok) h'.room := by
  cases hrun with
  | joining name hphase =>
    simp only [join]
    split
    · exact .joined c ok name _ _ hphase ‹_›
    · exact .quiet _
  | admitting p hp hphase =>
    unfold admitClient
    cases hrefused : h.closed || (h.client c).admissionExpired with
    | true => exact .quiet _
    | false =>
      rw [Bool.or_eq_false_iff] at hrefused
      cases ok <;> exact .entered c _ p hp hphase hrefused.1 hrefused.2
  | handling p handler hp hphase => exact room_runHandler ok hp hphase
  | closing hphase => exact .cleaned c ok hphase
  | forgetting p hp hphase => exact .forgot c ok p hp hphase
  | leaving p hp hphase => exact .left c ok p hp hphase
  | parting p departure at_ hp hphase =>
    cases at_ with
    | releaseScreen =>
      simp only [runTeardown, releaseScreenShare]
      split
      · exact .released c ok p departure hp hphase ‹_›
      · exact .quiet _
    | settle =>
      simp only [runTeardown, settle]
      repeat' split
      all_goals exact .quiet _
    | unregister | closePeer | unpublish | screenCast => exact .quiet _
  | cancelling hphase =>
    rw [room_goto, room_cancelChatHistoryExpiry]
    exact .quiet _
  | arming hphase =>
    rw [room_goto, room_scheduleChatHistoryExpiry]
    exact .quiet _
  | reclaiming name token hphase =>
    simp only [reclaim]
    repeat' split
    all_goals exact .quiet _
  | refusing err hphase => cases err <;> exact .quiet _
  | superseding previous hphase =>
    simp only [supersede]
    split <;> exact .quiet _
  | peering hphase =>
    simp only [newPeer]
    split <;> exact .quiet _
  | releasing hphase =>
    simp only [releasePending]
    split <;> exact .quiet _
  | announcing p hp hphase =>
    simp only [announce]
    split <;> exact .quiet _
  | armingGrace p hp hphase =>
    simp only [armGrace]
    repeat' split
    all_goals exact .quiet _
  | finished hphase hreserved =>
    simp only [releasePending]
    split <;> exact .quiet _
  | upgrading _ | opening _ | waiting _ _ _ | entering _ _ | registering _ _ _
    | disconnecting _ _ _ | casting _ _ _ | scheduling _ | notifying _ => exact .quiet _

/-- **What a step does to the room.** -/
theorem room_step {l : Label} (hstep : h.Steps l h') : h.RoomChange l h'.room := by
  cases hstep with
  | run c ok _ hrun => exact room_run hrun
  | receive c allowed input _ hphase hreceive =>
    cases hreceive with
    | mediaState p audio video paused hp => exact .mediaState c allowed p _ _ _ hphase hp
    | handState p raised meeting changed hp hraised =>
      exact .raised c allowed p raised meeting changed hphase hp hraised
    | _ => exact .quiet _
  | connect c hphase =>
    simp only [reserve]
    split <;> exact .quiet _
  | expireAdmission c hphase =>
    simp only [expireAdmission]
    split <;> exact .quiet _
  | reapLeave c p hp hreaper => exact .reaped c p hp hreaper
  | reapForget c p hp hreaper => exact .reaperForgot c p hp hreaper
  | reapArm c p hp hreaper =>
    rw [room_setReaper, room_scheduleChatHistoryExpiry]
    exact .quiet _
  | close =>
    obtain ⟨timers, ht⟩ := h.stopExpiry_eq
    have hroom : h.close.room = { h.room with
        mediaStates := ∅
        history := none
        closed := true
        closingIDs := h.close.closingIDs } := by
      simp [room, close, clearChatHistory, ht]
    rw [hroom]
    exact .closed _
  | closeLeave id hid => exact .closeLeft id hid
  | chatDelete n hn => exact .expired
  | adminUpdate a update hadmin => exact .configured a update hadmin
  | adminLimit a cfg hadmin => exact .limited a cfg hadmin
  | adminRelease a cfg hadmin =>
    simp only [releaseDisabledShare]
    split
    · cases hcfg : cfg.enableScreenShare with
      | true => exact .quiet _
      | false => exact .revoked a cfg hadmin hcfg
    · exact .quiet _
  | adminPause a cfg released hadmin => cases released <;> exact .quiet _
  | adminClear a cfg released hadmin =>
    cases hcfg : cfg.retainChatHistory with
    | true => exact .quiet _
    | false =>
      rw [room_setAdmin, if_neg (by simp), room_clearChatHistory]
      exact .cleared a cfg released hadmin hcfg
  | _ => exact .quiet _

end Hub

end SlowMeet.Signaling
