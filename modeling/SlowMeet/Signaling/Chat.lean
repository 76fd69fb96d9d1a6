import SlowMeet.Signaling.Handlers
import SlowMeet.Signaling.Presence

/-!
# Every chat message once

A message is recorded and told to the room in one locked section, and an
admission takes the replay and the membership in another. What a member was
sent live is therefore what was recorded since its admission, and its replay
the end of what was recorded before.
-/

namespace SlowMeet.Signaling

open Lib Media

/-- The message an entry of the history shows. -/
def ChatHistoryEntry.message (entry : ChatHistoryEntry) : ChatMessage :=
  ⟨entry.participantID, entry.author, entry.text⟩

@[simp] theorem ChatMessage.message_entry (msg : ChatMessage) (id : Nat) :
    (msg.entry id).message = msg := rfl

/-- What is recorded of the chat, with what an admission replays and the
places of the admissions among the messages. -/
structure Talk where
  recorded : List (ClientId × ChatHistoryEntry)
  cleared : Nat
  replay : List ChatHistoryEntry
  admittedAt : ClientId → Nat
  at_ : ClientId → Nat
  from_ : ClientId → Nat

namespace Hub

variable {h h' g : Hub} {c d : ClientId} {l : Label}

def talk (h : Hub) : Talk where
  recorded := h.ledger.chat
  cleared := h.ledger.chatCleared
  replay := h.chatHistorySnapshotLocked
  admittedAt := h.ledger.admittedAt
  at_ := h.ledger.chatAt
  from_ := h.ledger.chatFrom

/-! ## What a step says -/

/-- The chat a step tells `d` live. -/
def saidTo (h : Hub) (d : ClientId) : Label → List ChatMessage
  | .run c _ =>
    match (h.client c).phase, (h.client c).participant with
    | .handling (.chatting msg _), some _ =>
      if d ∈ h.roomMembers ∧ d ≠ c then [msg] else []
    | _, _ => []
  | _ => []

/-- The replays a step sends to `d`. -/
def replayedTo (h : Hub) (d : ClientId) : Label → List (List ChatHistoryEntry)
  | .run c ok =>
    match (h.client c).phase, (h.client c).participant with
    | .admitting, some _ =>
      if h.closed || (h.client c).admissionExpired || !ok || d ≠ c then []
      else [h.chatHistorySnapshotLocked]
    | _, _ => []
  | _ => []

/-- The messages carry no chat. -/
def Silent (msgs : List Message) : Prop := liveChat msgs = [] ∧ chatReplays msgs = []

theorem silent_nil : Silent [] := ⟨rfl, rfl⟩

theorem Silent.append {a b : List Message} (ha : Silent a) (hb : Silent b) : Silent (a ++ b) := by
  constructor
  · rw [liveChat_append, ha.1, hb.1]
    rfl
  · rw [chatReplays_append, ha.2, hb.2]
    rfl

theorem silent_of_forall {msgs : List Message} (h : ∀ msg ∈ msgs, Silent [msg]) : Silent msgs := by
  induction msgs with
  | nil => exact silent_nil
  | cons msg rest ih =>
    have hrest := ih fun other hmem => h other (List.mem_cons_of_mem msg hmem)
    exact (h msg List.mem_cons_self).append hrest

theorem Silent.toRoom {msg : Message} (hmsg : Silent [msg]) : Silent (h.toRoom d msg) := by
  unfold Hub.toRoom
  split
  · exact hmsg
  · exact silent_nil

theorem Silent.toOthers {msg : Message} (hmsg : Silent [msg]) : Silent (h.toOthers c d msg) := by
  unfold Hub.toOthers
  split
  · exact hmsg
  · exact silent_nil

theorem Silent.toSelf {msgs : List Message} (hmsgs : Silent msgs) : Silent (toSelf c d msgs) := by
  unfold Hub.toSelf
  split
  · exact hmsgs
  · exact silent_nil

/-- An admission replays the chat once and nothing live. -/
theorem chat_admissionReplay (q : Participant) (takeover : Bool) :
    liveChat (h.admissionReplay q takeover) = [] ∧
      chatReplays (h.admissionReplay q takeover) = [h.chatHistorySnapshotLocked] := by
  have hjoined : Silent ((h.rosterReplay q).map Message.joined) := by
    refine silent_of_forall fun msg hmsg => ?_
    obtain ⟨r, -, rfl⟩ := List.mem_map.mp hmsg
    exact ⟨rfl, rfl⟩
  have hstates : Silent (h.mediaStates.values.map Message.mediaState) := by
    refine silent_of_forall fun msg hmsg => ?_
    obtain ⟨state, -, rfl⟩ := List.mem_map.mp hmsg
    exact ⟨rfl, rfl⟩
  simp only [admissionReplay, liveChat_append, chatReplays_append, hjoined.1, hjoined.2, hstates.1,
    hstates.2]
  cases h.screenOwner with
  | some owner => exact ⟨rfl, rfl⟩
  | none => cases takeover <;> exact ⟨rfl, rfl⟩

theorem silent_sentHandling {handler : Handler}
    (hchat : ∀ msg entry, handler ≠ .chatting msg entry) : Silent (h.sentHandling c d handler) := by
  cases handler with
  | chatting msg entry => exact absurd rfl (hchat msg entry)
  | raising _ | shared _ _ => exact silent_nil
  | sharing active streamID trackID =>
    simp only [sentHandling]
    split
    · exact Silent.toSelf ⟨rfl, rfl⟩
    · exact silent_nil
  | relaying state => exact Silent.toOthers ⟨rfl, rfl⟩
  | reacting _ _ _ | raisedCast _ _ | sharedCast _ => exact Silent.toRoom ⟨rfl, rfl⟩

/-- The sections of a handler that carry no chat. -/
theorem silent_sentRunning (ok : Bool) (hchat : ∀ msg entry, (h.client c).phase ≠
    .handling (.chatting msg entry)) (hadmission : (h.client c).phase ≠ .admitting) :
    Silent (h.sentRunning c d ok) := by
  unfold sentRunning
  split
  · refine Silent.append ?_ (Silent.toSelf ⟨rfl, rfl⟩)
    split
    · exact Silent.toRoom ⟨rfl, rfl⟩
    · exact silent_nil
  · split
    · exact silent_nil
    · exact Silent.toSelf ⟨rfl, rfl⟩
  · next hphase _ => exact absurd hphase hadmission
  · split
    · exact silent_nil
    · exact Silent.toOthers ⟨rfl, rfl⟩
  · next handler _ hphase _ =>
    exact silent_sentHandling fun msg entry hhandler => hchat msg entry (hhandler ▸ hphase)
  · exact Silent.toRoom ⟨rfl, rfl⟩
  · exact Silent.toRoom ⟨rfl, rfl⟩
  · exact silent_nil

theorem saidTo_run (ok : Bool)
    (hphase : ∀ msg entry, (h.client c).phase ≠ .handling (.chatting msg entry)) (d : ClientId) :
    h.saidTo d (.run c ok) = [] := by
  unfold saidTo
  dsimp only
  split
  · next msg entry _ hchat _ => exact absurd hchat (hphase msg entry)
  · rfl

theorem chat_sentRunning (ok : Bool) :
    liveChat (h.sentRunning c d ok) = h.saidTo d (.run c ok) ∧
      chatReplays (h.sentRunning c d ok) = h.replayedTo d (.run c ok) := by
  by_cases hchat : ∃ msg entry, (h.client c).phase = .handling (.chatting msg entry)
  · obtain ⟨msg, entry, hphase⟩ := hchat
    cases hq : (h.client c).participant with
    | none => simp only [sentRunning, saidTo, replayedTo, hphase, hq]; exact ⟨rfl, rfl⟩
    | some q =>
      simp only [sentRunning, sentHandling, saidTo, replayedTo, hphase, hq, toOthers]
      split <;> exact ⟨rfl, rfl⟩
  · by_cases hadmission : (h.client c).phase = .admitting
    · cases hq : (h.client c).participant with
      | none => simp only [sentRunning, saidTo, replayedTo, hadmission, hq]; exact ⟨rfl, rfl⟩
      | some q =>
        simp only [sentRunning, saidTo, replayedTo, hadmission, hq]
        cases h.closed || (h.client c).admissionExpired || !ok with
        | true => exact ⟨rfl, rfl⟩
        | false =>
          obtain ⟨hlive, hreplays⟩ := chat_admissionReplay (h := h) q (h.client c).activeTakeover
          by_cases hd : d = c
          · simp [toSelf, hd, hlive, hreplays]
          · simp [toSelf, hd, liveChat, chatReplays]
    · have hsilent : Silent (h.sentRunning c d ok) :=
        silent_sentRunning ok (fun msg entry hphase => hchat ⟨msg, entry, hphase⟩) hadmission
      have hsaid : h.saidTo d (.run c ok) = [] :=
        saidTo_run ok (fun msg entry hphase => hchat ⟨msg, entry, hphase⟩) d
      have hreplayed : h.replayedTo d (.run c ok) = [] := by
        unfold replayedTo
        dsimp only
        split
        · next hphase _ => exact absurd hphase hadmission
        · rfl
      rw [hsaid, hreplayed]
      exact hsilent

theorem chat_sent (h : Hub) (d : ClientId) (l : Label) :
    liveChat (h.sent d l) = h.saidTo d l ∧ chatReplays (h.sent d l) = h.replayedTo d l := by
  cases l with
  | run c ok => exact chat_sentRunning ok
  | notify c e =>
    show Silent (h.sent d (.notify c e))
    unfold sent
    dsimp only
    split
    · exact Silent.toSelf ⟨rfl, rfl⟩
    · exact silent_nil
  | admin a =>
    show Silent (h.sent d (.admin a))
    unfold sent
    dsimp only
    split
    · exact Silent.toRoom ⟨rfl, rfl⟩
    · exact Silent.toRoom ⟨rfl, rfl⟩
    · exact silent_nil
  | _ => exact ⟨rfl, rfl⟩

/-- What a step adds to the chat of `d`. -/
theorem chat_step (hstep : h.Steps l h') (d : ClientId) :
    liveChat (h'.client d).outbound = liveChat (h.client d).outbound ++ h.saidTo d l ∧
      chatReplays (h'.client d).outbound =
        chatReplays (h.client d).outbound ++ h.replayedTo d l := by
  obtain ⟨hlive, hreplays⟩ := h.chat_sent d l
  rcases appends_step hstep d with hsent | ⟨⟨allowed, input, rfl⟩, text, herror⟩
  · rw [hsent, liveChat_append, chatReplays_append, hlive, hreplays]
    exact ⟨rfl, rfl⟩
  · rw [herror, liveChat_append, chatReplays_append]
    exact ⟨rfl, rfl⟩

/-! ## What a step records -/

/-- What a step does to the recorded chat, case by case. -/
inductive TalkChange (h : Hub) : Label → Talk → Prop
  | quiet (l : Label) (hquiet : ∀ d, h.saidTo d l = []) : TalkChange h l h.talk
  | unrecorded (c : ClientId) (ok : Bool) (msg : ChatMessage)
      (hphase : (h.client c).phase = .handling (.chatting msg none)) :
      TalkChange h (.run c ok) h.talk
  | recorded (c : ClientId) (ok : Bool) (p : Participant) (msg : ChatMessage)
      (entry : ChatHistoryEntry) (hp : (h.client c).participant = some p)
      (hphase : (h.client c).phase = .handling (.chatting msg (some entry))) :
      TalkChange h (.run c ok) { h.talk with
        recorded := h.ledger.chat ++ [(c, entry)]
        replay := truncate (h.chatHistorySnapshotLocked ++ [entry]) }
  | cleared (l : Label) (hquiet : ∀ d, h.saidTo d l = []) : TalkChange h l { h.talk with
      cleared := h.ledger.chat.length
      replay := [] }
  | admitted (c : ClientId) (p : Participant) (hp : (h.client c).participant = some p)
      (hphase : (h.client c).phase = .admitting) (hopen : h.closed = false)
      (hearly : (h.client c).admissionExpired = false) :
      TalkChange h (.run c true) { h.talk with
        admittedAt := Function.update h.ledger.admittedAt c (h.ledger.admissions + 1)
        at_ := Function.update h.ledger.chatAt c h.ledger.chat.length
        from_ := Function.update h.ledger.chatFrom c h.ledger.chatCleared }

@[simp] theorem talk_update (c : ClientId) (f : Client → Client) : (h.update c f).talk = h.talk :=
  rfl

@[simp] theorem talk_goto (c : ClientId) (phase : Phase) : (h.goto c phase).talk = h.talk := rfl

@[simp] theorem talk_refuse (c : ClientId) (text : String) : (h.refuse c text).talk = h.talk := rfl

@[simp] theorem talk_setReaper (c : ClientId) (reaper : Reaper) :
    (h.setReaper c reaper).talk = h.talk := rfl

@[simp] theorem talk_setAdmin (a : AdminId) (phase : AdminPhase) :
    (h.setAdmin a phase).talk = h.talk := rfl

@[simp] theorem talk_broadcastToRoom (msg : Message) : (h.broadcastToRoom msg).talk = h.talk := rfl

@[simp] theorem talk_broadcastExcept (msg : Message) :
    (h.broadcastExcept c msg).talk = h.talk := rfl

theorem talk_clearChatHistory : h.clearChatHistory.talk =
    { h.talk with cleared := h.ledger.chat.length, replay := [] } := by
  obtain ⟨timers, ht⟩ := h.stopExpiry_eq
  rw [clearChatHistory, ht]
  rfl

theorem talk_cancelChatHistoryExpiry : h.cancelChatHistoryExpiry.talk = h.talk := by
  obtain ⟨timers, ht⟩ := h.stopExpiry_eq
  rw [cancelChatHistoryExpiry, ht]
  cases hh : h.chatHistory <;> simp [talk, chatHistorySnapshotLocked, hh]

theorem talk_scheduleChatHistoryExpiry : h.scheduleChatHistoryExpiry.talk = h.talk := by
  obtain ⟨timers, ht⟩ := h.stopExpiry_eq
  rw [scheduleChatHistoryExpiry, ht]
  cases hh : h.chatHistory <;> simp [talk, chatHistorySnapshotLocked, hh]

theorem talk_recordChatMessageLocked (entry : ChatHistoryEntry) :
    (h.recordChatMessageLocked c entry).talk = { h.talk with
      recorded := h.ledger.chat ++ [(c, entry)]
      replay := truncate (h.chatHistorySnapshotLocked ++ [entry]) } := by
  obtain ⟨timers, ht⟩ := h.stopExpiry_eq
  rw [recordChatMessageLocked, ht]
  rfl

theorem talk_runHandler {p : Participant} {handler : Handler} (ok : Bool)
    (hp : (h.client c).participant = some p) (hphase : (h.client c).phase = .handling handler) :
    h.TalkChange (.run c ok) (h.runHandler c p handler).talk := by
  have hquiet : (∀ msg entry, handler ≠ .chatting msg entry) →
      ∀ d, h.saidTo d (.run c ok) = [] := by
    intro hchat
    apply saidTo_run
    intro msg entry heq
    rw [hphase] at heq
    exact hchat msg entry (Phase.handling.inj heq)
  cases handler with
  | chatting msg entry =>
    cases entry with
    | none => exact .unrecorded c ok msg hphase
    | some entry =>
      simp only [runHandler, recordAndBroadcastChat, talk_goto, talk_broadcastExcept,
        talk_recordChatMessageLocked]
      exact .recorded c ok p msg entry hp hphase
  | raising changed =>
    have hsame : (h.runHandler c p (.raising changed)).talk = h.talk := by
      cases changed with
      | nil => rfl
      | cons q changed =>
        simp only [runHandler, talk_goto]
        split <;> rfl
    rw [hsame]
    exact .quiet _ (hquiet fun _ _ h => by cases h)
  | sharing active streamID trackID =>
    have hsame : (h.runHandler c p (.sharing active streamID trackID)).talk = h.talk := by
      simp only [runHandler, requestScreenShare]
      repeat' split
      all_goals rfl
    rw [hsame]
    exact .quiet _ (hquiet fun _ _ h => by cases h)
  | relaying _ | reacting _ _ _ | raisedCast _ _ | shared _ _ | sharedCast _ =>
    exact .quiet _ (hquiet fun _ _ h => by cases h)

theorem talk_run {ok : Bool} (hrun : h.Runs c ok h') : h.TalkChange (.run c ok) h'.talk := by
  -- The sections of one phase, which leave the chat as it is.
  have hquiet : ∀ {phase : Phase}, (h.client c).phase = phase →
      (∀ msg entry, phase ≠ .handling (.chatting msg entry)) → h'.talk = h.talk →
      h.TalkChange (.run c ok) h'.talk := by
    intro phase hphase hchat hsame
    rw [hsame]
    exact .quiet _ (saidTo_run ok fun msg entry => hphase ▸ hchat msg entry)
  cases hrun with
  | handling p handler hp hphase => exact talk_runHandler ok hp hphase
  | admitting p hp hphase =>
    cases hrefused : h.closed || (h.client c).admissionExpired with
    | true =>
      refine hquiet hphase (fun _ _ h => by cases h) ?_
      simp only [admitClient, hrefused, if_true, talk_goto]
    | false =>
      cases ok with
      | false =>
        refine hquiet hphase (fun _ _ h => by cases h) ?_
        simp only [admitClient, hrefused, Bool.false_eq_true, if_false, talk_goto]
        rfl
      | true =>
        rw [Bool.or_eq_false_iff] at hrefused
        simp only [admitClient, hrefused.1, hrefused.2, Bool.or_self, Bool.false_eq_true, if_false,
          if_true, talk_update]
        exact .admitted c p hp hphase hrefused.1 hrefused.2
  | parting p departure at_ hp hphase =>
    refine hquiet hphase (fun _ _ h => by cases h) ?_
    cases at_ with
    | releaseScreen =>
      simp only [runTeardown, releaseScreenShare]
      split <;> rfl
    | settle =>
      simp only [runTeardown, settle]
      repeat' split
      all_goals rfl
    | unregister | closePeer | unpublish | screenCast => rfl
  | cancelling hphase =>
    refine hquiet hphase (fun _ _ h => by cases h) ?_
    rw [talk_goto, talk_cancelChatHistoryExpiry]
  | arming hphase =>
    refine hquiet hphase (fun _ _ h => by cases h) ?_
    rw [talk_goto, talk_scheduleChatHistoryExpiry]
  | reclaiming name token hphase =>
    refine hquiet hphase (fun _ _ h => by cases h) ?_
    simp only [reclaim]
    repeat' split
    all_goals rfl
  | joining name hphase =>
    refine hquiet hphase (fun _ _ h => by cases h) ?_
    simp only [join]
    split <;> rfl
  | refusing err hphase =>
    refine hquiet hphase (fun _ _ h => by cases h) ?_
    cases err <;> rfl
  | superseding previous hphase =>
    refine hquiet hphase (fun _ _ h => by cases h) ?_
    simp only [supersede]
    split <;> rfl
  | peering hphase =>
    refine hquiet hphase (fun _ _ h => by cases h) ?_
    simp only [newPeer]
    split <;> rfl
  | releasing hphase =>
    refine hquiet hphase (fun _ _ h => by cases h) ?_
    simp only [releasePending]
    split <;> rfl
  | announcing p hp hphase =>
    refine hquiet hphase (fun _ _ h => by cases h) ?_
    simp only [announce]
    split <;> rfl
  | armingGrace p hp hphase =>
    refine hquiet hphase (fun _ _ h => by cases h) ?_
    simp only [armGrace]
    repeat' split
    all_goals rfl
  | finished hphase hreserved =>
    refine hquiet hphase (fun _ _ h => by cases h) ?_
    simp only [releasePending]
    split <;> rfl
  | upgrading hphase | opening hphase | waiting _ hphase _ | entering _ hphase
    | registering _ _ hphase | closing hphase | disconnecting _ _ hphase | forgetting _ _ hphase
    | leaving _ _ hphase | casting _ _ hphase | scheduling hphase | notifying hphase =>
    exact hquiet hphase (fun _ _ h => by cases h) rfl

/-- **What a step does to the recorded chat.** -/
theorem talk_step (hstep : h.Steps l h') : h.TalkChange l h'.talk := by
  have hquiet : h'.talk = h.talk → (∀ d, h.saidTo d l = []) → h.TalkChange l h'.talk := by
    intro hsame hnobody
    rw [hsame]
    exact .quiet l hnobody
  cases hstep with
  | run c ok _ hrun => exact talk_run hrun
  | receive c allowed input _ hphase hreceive =>
    refine hquiet ?_ fun _ => rfl
    cases hreceive <;> rfl
  | connect c hphase =>
    refine hquiet ?_ fun _ => rfl
    simp only [reserve]
    split <;> rfl
  | expireAdmission c hphase =>
    refine hquiet ?_ fun _ => rfl
    simp only [expireAdmission]
    split <;> rfl
  | reapArm c p hp hreaper =>
    refine hquiet ?_ fun _ => rfl
    rw [talk_setReaper, talk_scheduleChatHistoryExpiry]
  | close =>
    have hclose : h.close.talk = h.clearChatHistory.talk := rfl
    rw [hclose, talk_clearChatHistory]
    exact .cleared _ fun _ => rfl
  | chatDelete n hn => exact .cleared _ fun _ => rfl
  | adminRelease a cfg hadmin =>
    refine hquiet ?_ fun _ => rfl
    simp only [releaseDisabledShare]
    repeat' split
    all_goals rfl
  | adminPause a cfg released hadmin =>
    refine hquiet ?_ fun _ => rfl
    cases released <;> rfl
  | adminClear a cfg released hadmin =>
    cases cfg.retainChatHistory with
    | true => exact .quiet _ fun _ => rfl
    | false =>
      rw [talk_setAdmin, if_neg Bool.false_ne_true, talk_clearChatHistory]
      exact .cleared _ fun _ => rfl
  | _ => exact hquiet rfl fun _ => rfl

/-! ## The identifiers of the messages -/

theorem nextID_run {ok : Bool} (hrun : h.Runs c ok h') : h.nextID ≤ h'.nextID := by
  cases hrun with
  | joining name hphase =>
    simp only [join]
    split
    · exact Nat.le_succ _
    · exact Nat.le_refl _
  | arming hphase =>
    obtain ⟨timers, ht⟩ := h.stopExpiry_eq
    show h.nextID ≤ h.scheduleChatHistoryExpiry.nextID
    rw [scheduleChatHistoryExpiry, ht]
    split
    · exact Nat.le_refl _
    · exact Nat.le_succ _
  | cancelling hphase =>
    obtain ⟨timers, ht⟩ := h.stopExpiry_eq
    show h.nextID ≤ h.cancelChatHistoryExpiry.nextID
    rw [cancelChatHistoryExpiry, ht]
  | handling p handler hp hphase =>
    cases handler with
    | chatting msg entry =>
      cases entry with
      | none => exact Nat.le_refl _
      | some entry =>
        obtain ⟨timers, ht⟩ := h.stopExpiry_eq
        show h.nextID ≤ (h.recordChatMessageLocked c entry).nextID
        rw [recordChatMessageLocked, ht]
    | raising changed =>
      cases changed with
      | nil => exact Nat.le_refl _
      | cons q changed =>
        simp only [runHandler]
        split <;> exact Nat.le_refl _
    | sharing active streamID trackID =>
      simp only [runHandler, requestScreenShare]
      repeat' split
      all_goals exact Nat.le_refl _
    | relaying _ | reacting _ _ _ | raisedCast _ _ | shared _ _ | sharedCast _ =>
      exact Nat.le_refl _
  | admitting p hp hphase =>
    simp only [admitClient]
    repeat' split
    all_goals exact Nat.le_refl _
  | parting p departure at_ hp hphase =>
    cases at_ with
    | releaseScreen =>
      simp only [runTeardown, releaseScreenShare]
      split <;> exact Nat.le_refl _
    | settle =>
      simp only [runTeardown, settle]
      repeat' split
      all_goals exact Nat.le_refl _
    | unregister | closePeer | unpublish | screenCast => exact Nat.le_refl _
  | reclaiming name token hphase =>
    simp only [reclaim]
    repeat' split
    all_goals exact Nat.le_refl _
  | refusing err hphase => cases err <;> exact Nat.le_refl _
  | superseding previous hphase =>
    simp only [supersede]
    split <;> exact Nat.le_refl _
  | peering hphase =>
    simp only [newPeer]
    split <;> exact Nat.le_refl _
  | releasing hphase =>
    simp only [releasePending]
    split <;> exact Nat.le_refl _
  | announcing p hp hphase =>
    simp only [announce]
    split <;> exact Nat.le_refl _
  | armingGrace p hp hphase =>
    simp only [armGrace]
    repeat' split
    all_goals exact Nat.le_refl _
  | finished hphase hreserved =>
    simp only [releasePending]
    split <;> exact Nat.le_refl _
  | _ => exact Nat.le_refl _

/-- An identifier is drawn once. -/
theorem nextID_step (hstep : h.Steps l h') : h.nextID ≤ h'.nextID := by
  cases hstep with
  | run c ok _ hrun => exact nextID_run hrun
  | receive c allowed input _ hphase hreceive =>
    cases hreceive with
    | retainedChat p text hp hretain => exact Nat.le_succ _
    | _ => exact Nat.le_refl _
  | connect c hphase =>
    simp only [reserve]
    split <;> exact Nat.le_refl _
  | expireAdmission c hphase =>
    simp only [expireAdmission]
    split <;> exact Nat.le_refl _
  | reapArm c p hp hreaper =>
    obtain ⟨timers, ht⟩ := h.stopExpiry_eq
    show h.nextID ≤ h.scheduleChatHistoryExpiry.nextID
    rw [scheduleChatHistoryExpiry, ht]
    split
    · exact Nat.le_refl _
    · exact Nat.le_succ _
  | close =>
    obtain ⟨timers, ht⟩ := h.stopExpiry_eq
    show h.nextID ≤ h.clearChatHistory.nextID
    rw [clearChatHistory, ht]
  | adminRelease a cfg hadmin =>
    simp only [releaseDisabledShare]
    repeat' split
    all_goals exact Nat.le_refl _
  | adminPause a cfg released hadmin => cases released <;> exact Nat.le_refl _
  | adminClear a cfg released hadmin =>
    obtain ⟨timers, ht⟩ := h.stopExpiry_eq
    show h.nextID ≤ (if cfg.retainChatHistory then h else h.clearChatHistory).nextID
    rw [clearChatHistory, ht]
    split <;> exact Nat.le_refl _
  | _ => exact Nat.le_refl _

/-! ## What a member was sent -/

/-- `RetainChatHistory` is on. -/
def Retaining (h : Hub) (_ : Label) : Prop := h.config.retainChatHistory = true

/-- `d` was sent a replay of the last messages recorded before its admission,
and since then every message of the others. -/
structure Delivered (h : Hub) (d : ClientId) : Prop where
  replay : chatReplays (h.client d).outbound = [truncate
    (((h.ledger.chat.take (h.ledger.chatAt d)).drop (h.ledger.chatFrom d)).map (·.2))]
  live : liveChat (h.client d).outbound =
    ((h.ledger.chat.drop (h.ledger.chatAt d)).filter fun m => m.1 ≠ d).map (·.2.message)
  within : h.ledger.chatAt d ≤ h.ledger.chat.length
  since : h.ledger.chatFrom d ≤ h.ledger.chatCleared

/-- The message a handler is about to record, with its own identifier. -/
structure Drawn (h : Hub) (c : ClientId) (msg : ChatMessage) (id : Nat) : Prop where
  drawn : id < h.nextID
  unrecorded : id ∉ h.ledger.chat.map (·.2.id)
  own : ∀ c' msg', (h.client c').phase = .handling (.chatting msg' (some (msg'.entry id))) → c' = c

structure Chatted (h : Hub) : Prop where
  replay : h.chatHistorySnapshotLocked =
    truncate ((h.ledger.chat.drop h.ledger.chatCleared).map (·.2))
  cleared : h.ledger.chatCleared ≤ h.ledger.chat.length
  drawn : ∀ id ∈ h.ledger.chat.map (·.2.id), id < h.nextID
  distinct : (h.ledger.chat.map (·.2.id)).Nodup
  chatting : ∀ c msg entry, (h.client c).phase = .handling (.chatting msg entry) →
    ∃ id, entry = some (msg.entry id) ∧ h.Drawn c msg id
  early : ∀ d, h.Early d → Silent (h.client d).outbound ∧ h.ledger.admittedAt d = 0
  delivered : ∀ d ∈ h.roomMembers, h.ledger.admittedAt d ≠ 0 → h.Delivered d

theorem chatted_new (cfg : Config) : (Hub.new cfg).Chatted where
  replay := rfl
  cleared := Nat.le_refl _
  drawn id hid := (List.not_mem_nil hid).elim
  distinct := List.nodup_nil
  chatting c msg entry hphase := by cases hphase
  early d _ := ⟨silent_nil, rfl⟩
  delivered d hd := (Finset.notMem_empty d hd).elim

/-- The last messages of what was recorded, once it has one more. -/
theorem truncate_concat (messages : List ChatHistoryEntry) (entry : ChatHistoryEntry) :
    truncate (truncate messages ++ [entry]) = truncate (messages ++ [entry]) := by
  have hdrop : ∀ messages : List ChatHistoryEntry,
      truncate messages = messages.drop (messages.length - chatHistoryLimit) := by
    intro messages
    unfold truncate
    split
    · rfl
    · next hshort =>
      rw [Nat.sub_eq_zero_of_le (Nat.not_lt.mp hshort), List.drop_zero]
  rw [hdrop messages, hdrop (messages ++ [entry]), hdrop]
  rw [← List.drop_append_of_le_length (by omega), List.drop_drop, List.length_drop,
    List.length_append, List.length_singleton]
  generalize chatHistoryLimit = limit
  have hfrom : messages.length - limit +
      (messages.length + 1 - (messages.length - limit) - limit) = messages.length + 1 - limit := by
    omega
  rw [hfrom]

/-! ### One step -/

/-- A new member is one that its admission has answered. -/
theorem member_of_admittedAt (hc : h.Chatted) (hstep : h.Steps l h')
    (hd : d ∈ h'.roomMembers) (hadmitted : h'.ledger.admittedAt d ≠ 0) :
    d ∈ h.roomMembers ∧ h.ledger.admittedAt d ≠ 0 ∨
      (h.client d).phase = .admitting ∧ (∃ p, (h.client d).participant = some p) ∧
        h.closed = false ∧ (h.client d).admissionExpired = false ∧ l = .run d true := by
  have htalk := talk_step hstep
  have hat : h'.ledger.admittedAt = h'.talk.admittedAt := rfl
  rw [hat] at hadmitted
  have hold : h.ledger.admittedAt d ≠ 0 → d ∈ h.roomMembers ∧ h.ledger.admittedAt d ≠ 0 := by
    intro hbefore
    refine ⟨?_, hbefore⟩
    by_contra hout
    have hchange := room_step hstep
    have hmembers : d ∈ h'.room.members := hd
    generalize h'.room = room at hchange hmembers
    cases hchange with
    | entered c ok p hp hphase hopen hearly =>
      rcases Finset.mem_insert.mp hmembers with rfl | hd
      · exact hbefore (hc.early d (Or.inr (by rw [hphase]; rfl))).2
      · exact hout hd
    | cleaned c ok hphase => exact hout (Finset.mem_of_mem_erase hmembers)
    | _ => exact hout hmembers
  generalize h'.talk = talk at htalk hadmitted
  cases htalk with
  | admitted c p hp hphase hopen hearly =>
    by_cases hdc : d = c
    · subst hdc
      exact Or.inr ⟨hphase, ⟨p, hp⟩, hopen, hearly, rfl⟩
    · have hother : Function.update h.ledger.admittedAt c (h.ledger.admissions + 1) d ≠ 0 :=
        hadmitted
      rw [Function.update_of_ne hdc] at hother
      exact Or.inl (hold hother)
  | _ => exact Or.inl (hold hadmitted)

/-- No replay is sent but to the client an admission admits. -/
theorem replayedTo_eq_nil (hphase : (h.client d).phase ≠ .admitting) : h.replayedTo d l = [] := by
  cases l with
  | run c ok =>
    unfold replayedTo
    dsimp only
    split
    · next hadmitting _ =>
      by_cases hd : d = c
      · exact absurd hadmitting (hd ▸ hphase)
      · rw [if_pos]
        simp [hd]
    · rfl
  | _ => rfl

/-- A member gets what is recorded, and nothing else. -/
theorem Delivered.step (hdel : h.Delivered d) (hc : h.Chatted) (hd : d ∈ h.roomMembers)
    (hphase : (h.client d).phase ≠ .admitting) (hstep : h.Steps l h') : h'.Delivered d := by
  obtain ⟨hlive, hreplays⟩ := chat_step hstep d
  rw [replayedTo_eq_nil hphase, List.append_nil, hdel.replay] at hreplays
  rw [hdel.live] at hlive
  have htalk := talk_step hstep
  have hrecorded : h'.ledger.chat = h'.talk.recorded := rfl
  have hcleared : h'.ledger.chatCleared = h'.talk.cleared := rfl
  have hat : h'.ledger.chatAt d = h'.talk.at_ d := rfl
  have hfrom : h'.ledger.chatFrom d = h'.talk.from_ d := rfl
  generalize h'.talk = talk at htalk hrecorded hcleared hat hfrom
  cases htalk with
  | quiet l hquiet =>
    rw [hquiet, List.append_nil] at hlive
    exact ⟨by rw [hreplays, hrecorded, hat, hfrom]; rfl, by rw [hlive, hrecorded, hat]; rfl,
      by rw [hrecorded, hat]; exact hdel.within, by rw [hcleared, hfrom]; exact hdel.since⟩
  | unrecorded c ok msg hchat =>
    obtain ⟨id, hnone, -⟩ := hc.chatting c msg none hchat
    cases hnone
  | recorded c ok p msg entry hp hchat =>
    obtain ⟨id, hentry, -⟩ := hc.chatting c msg (some entry) hchat
    obtain rfl := Option.some.inj hentry
    have hsaid : h.saidTo d (.run c ok) = if d ≠ c then [msg] else [] := by
      simp only [saidTo, hchat, hp, hd, true_and]
    refine ⟨?_, ?_, ?_, ?_⟩
    · rw [hreplays, hrecorded, hat, hfrom]
      show _ = [truncate ((((h.ledger.chat ++ [(c, msg.entry id)]).take (h.ledger.chatAt d)).drop
        (h.ledger.chatFrom d)).map (·.2))]
      rw [List.take_append_of_le_length hdel.within]
    · rw [hlive, hrecorded, hat, hsaid]
      show _ = ((((h.ledger.chat ++ [(c, msg.entry id)]).drop (h.ledger.chatAt d)).filter
        fun m => m.1 ≠ d).map (·.2.message))
      rw [List.drop_append_of_le_length hdel.within, List.filter_append, List.map_append]
      by_cases hdc : d = c
      · subst hdc
        simp
      · have hcd : c ≠ d := fun h => hdc h.symm
        simp [hdc, hcd]
    · rw [hrecorded, hat]
      show h.ledger.chatAt d ≤ (h.ledger.chat ++ [_]).length
      rw [List.length_append]
      exact Nat.le_add_right_of_le hdel.within
    · rw [hcleared, hfrom]
      exact hdel.since
  | cleared l hquiet =>
    rw [hquiet, List.append_nil] at hlive
    refine ⟨by rw [hreplays, hrecorded, hat, hfrom]; rfl, by rw [hlive, hrecorded, hat]; rfl,
      by rw [hrecorded, hat]; exact hdel.within, ?_⟩
    rw [hcleared, hfrom]
    exact Nat.le_trans hdel.since hc.cleared
  | admitted c p hp hadmitting hopen hearly =>
    have hdc : d ≠ c := by
      rintro rfl
      exact hphase hadmitting
    have hat' : h'.ledger.chatAt d = h.ledger.chatAt d := hat.trans (Function.update_of_ne hdc ..)
    have hfrom' : h'.ledger.chatFrom d = h.ledger.chatFrom d :=
      hfrom.trans (Function.update_of_ne hdc ..)
    have hsaid : h.saidTo d (.run c true) = [] := by
      apply saidTo_run
      intro msg entry heq
      rw [hadmitting] at heq
      cases heq
    rw [hsaid, List.append_nil] at hlive
    exact ⟨by rw [hreplays, hrecorded, hat', hfrom']; rfl, by rw [hlive, hrecorded, hat']; rfl,
      by rw [hrecorded, hat']; exact hdel.within, by rw [hcleared, hfrom']; exact hdel.since⟩

/-- An admission sends the replay of what is recorded, and nothing live. -/
theorem delivered_of_admitted (hc : h.Chatted) {p : Participant}
    (hphase : (h.client d).phase = .admitting) (hp : (h.client d).participant = some p)
    (hopen : h.closed = false) (hearly : (h.client d).admissionExpired = false)
    (hstep : h.Steps (.run d true) h') : h'.Delivered d := by
  obtain ⟨hlive, hreplays⟩ := chat_step hstep d
  obtain ⟨hsilent, -⟩ := hc.early d (Or.inr (by rw [hphase]; rfl))
  have hsaid : h.saidTo d (.run d true) = [] := by
    apply saidTo_run
    intro msg entry heq
    rw [hphase] at heq
    cases heq
  have hreplayed : h.replayedTo d (.run d true) = [h.chatHistorySnapshotLocked] := by
    simp [replayedTo, hphase, hp, hopen, hearly]
  rw [hsaid, hsilent.1, List.append_nil] at hlive
  rw [hreplayed, hsilent.2, List.nil_append, hc.replay] at hreplays
  cases hstep with
  | run _ _ _ hrun =>
    cases hrun with
    | admitting q hq _ =>
      obtain rfl : q = p := by rw [hp] at hq; exact (Option.some.inj hq).symm
      have hadmission : (h.admitClient d q true).ledger = { h.ledger with
          admissions := h.ledger.admissions + 1
          admittedAt := Function.update h.ledger.admittedAt d (h.ledger.admissions + 1)
          chatAt := Function.update h.ledger.chatAt d h.ledger.chat.length
          chatFrom := Function.update h.ledger.chatFrom d h.ledger.chatCleared } := by
        simp [admitClient, hopen, hearly]
        rfl
      refine ⟨?_, ?_, ?_, ?_⟩ <;> rw [hadmission] <;> dsimp only
      · rw [hreplays, Function.update_self, Function.update_self, List.take_length]
      · rw [hlive, Function.update_self, List.drop_length]
        rfl
      · rw [Function.update_self]
      · rw [Function.update_self]
    | _ => simp_all

/-- What a step adds to the record is the message of a handler. -/
theorem recorded_step (hc : h.Chatted) (hstep : h.Steps l h') :
    h'.ledger.chat = h.ledger.chat ∨ ∃ c ok msg id, l = .run c ok ∧ h.Drawn c msg id ∧
      (h.client c).phase = .handling (.chatting msg (some (msg.entry id))) ∧
      h'.ledger.chat = h.ledger.chat ++ [(c, msg.entry id)] := by
  have htalk := talk_step hstep
  have hrecorded : h'.ledger.chat = h'.talk.recorded := rfl
  generalize h'.talk = talk at htalk hrecorded
  cases htalk with
  | recorded c ok p msg entry hp hphase =>
    obtain ⟨id, hentry, hdrawn⟩ := hc.chatting c msg (some entry) hphase
    obtain rfl := Option.some.inj hentry
    exact Or.inr ⟨c, ok, msg, id, rfl, hdrawn, hphase, hrecorded⟩
  | _ => exact Or.inl hrecorded

/-- Who is about to record a message with an identifier that is drawn already
was about to before the step. -/
theorem chatting_of_drawn (hstep : h.Steps l h') {msg : ChatMessage} {id : Nat}
    (hid : id < h.nextID)
    (hphase : (h'.client c).phase = .handling (.chatting msg (some (msg.entry id)))) :
    (h.client c).phase = .handling (.chatting msg (some (msg.entry id))) ∧
      ∀ ok, l ≠ .run c ok := by
  rcases handles_step hstep hphase with hsame | hhandles
  · exact hsame
  · generalize hentry : some (msg.entry id) = entry at hhandles
    cases hhandles with
    | retainedChat allowed p text hp _ =>
      have heq : id = h.nextID := congrArg ChatHistoryEntry.id (Option.some.inj hentry)
      omega
    | chat allowed p text hp hoff => cases hentry

theorem Drawn.step {msg : ChatMessage} {id : Nat} (hdrawn : h.Drawn c msg id) (hc : h.Chatted)
    (hstep : h.Steps l h') (hrun : ∀ ok, l ≠ .run c ok) : h'.Drawn c msg id where
  drawn := Nat.lt_of_lt_of_le hdrawn.drawn (nextID_step hstep)
  unrecorded := by
    rcases recorded_step hc hstep with hsame | ⟨c', ok, msg', id', rfl, -, hphase, hmore⟩
    · rw [hsame]
      exact hdrawn.unrecorded
    · rw [hmore, List.map_append, List.mem_append, not_or]
      refine ⟨hdrawn.unrecorded, fun hmem => ?_⟩
      obtain rfl : id = id' := by simpa [ChatMessage.entry] using hmem
      exact hrun ok (by rw [hdrawn.own c' msg' hphase])
  own c' msg' hphase := hdrawn.own c' msg' (chatting_of_drawn hstep hdrawn.drawn hphase).1

/-- The read loop draws the identifier of a message it retains. -/
theorem drawn_receive (hc : h.Chatted) {input : Option Request} {allowed : Bool}
    (hphase : (h.client c).phase = .reading) (hreceive : h.Receives c input h')
    (hstep : h.Steps (.receive c allowed input) h') {msg : ChatMessage}
    (hphase' : (h'.client c).phase = .handling (.chatting msg (some (msg.entry h.nextID)))) :
    h'.Drawn c msg h.nextID := by
  have hnext : h'.nextID = h.nextID + 1 := by
    cases hreceive with
    | retainedChat p text hp hretain => rfl
    | ignored _ _ => simp [hphase] at hphase'
    | videoSubscriptions _ _ _ _ => simp [hphase] at hphase'
    | refused _ _ _ => simp [refuse, write, phase_update, Client.write, hphase] at hphase'
    | refusedJoin _ _ _ =>
      simp [refuse, write, phase_update, Client.write, countJoin, hphase] at hphase'
    | leave _ _ => simp [phase_update] at hphase'
    | _ => simp at hphase'
  have hsame : h'.ledger.chat = h.ledger.chat := by
    rcases recorded_step hc hstep with hsame | ⟨c', ok, msg', id', hl, -⟩
    · exact hsame
    · cases hl
  refine ⟨by omega, ?_, fun c' msg' hphase'' => ?_⟩
  · rw [hsame]
    intro hmem
    exact Nat.lt_irrefl _ (hc.drawn _ hmem)
  · by_contra hne
    have hkept : (h.client c').phase = (h'.client c').phase := by
      have hbeside := beside_receive hreceive hne
      exact (phase_of_beside hbeside).symm
    obtain ⟨id, hentry, hdrawn⟩ := hc.chatting c' msg' _ (hkept.trans hphase'')
    have heq : h.nextID = id := congrArg ChatHistoryEntry.id (Option.some.inj hentry)
    have hlt := hdrawn.drawn
    omega

theorem Chatted.chatting_step (hc : h.Chatted) (hretain : h.config.retainChatHistory = true)
    (hstep : h.Steps l h') {msg : ChatMessage} {entry : Option ChatHistoryEntry}
    (hphase : (h'.client c).phase = .handling (.chatting msg entry)) :
    ∃ id, entry = some (msg.entry id) ∧ h'.Drawn c msg id := by
  rcases handles_step hstep hphase with ⟨hsame, hrun⟩ | hhandles
  · obtain ⟨id, hentry, hdrawn⟩ := hc.chatting c msg entry hsame
    exact ⟨id, hentry, hdrawn.step hc hstep hrun⟩
  · cases hhandles with
    | retainedChat allowed p text hp _ =>
      refine ⟨h.nextID, rfl, ?_⟩
      cases hstep with
      | receive _ _ _ _ hread hreceive =>
        exact drawn_receive hc hread hreceive (.receive c allowed _ _ hread hreceive) hphase
    | chat allowed p text hp hoff =>
      rw [hretain] at hoff
      cases hoff

theorem Chatted.early_step (hc : h.Chatted) (hpresent : h.Present) (hpresent' : h'.Present)
    (hstep : h.Steps l h') (hearly : h'.Early d) :
    Silent (h'.client d).outbound ∧ h'.ledger.admittedAt d = 0 := by
  have hbefore := early_of_step hpresent hstep hearly
  have hout := not_member_of_early hpresent hbefore
  obtain ⟨hsilent, hzero⟩ := hc.early d hbefore
  obtain ⟨hlive, hreplays⟩ := chat_step hstep d
  have hsaid : h.saidTo d l = [] := by
    cases l with
    | run c ok =>
      unfold saidTo
      dsimp only
      split
      · rw [if_neg fun h => hout h.1]
      · rfl
    | _ => rfl
  -- An admission that stands ends the wait for it.
  have hadmitted : ∀ p, (h.client d).participant = some p → (h.client d).phase = .admitting →
      h.closed = false → (h.client d).admissionExpired = false → l ≠ .run d true := by
    rintro p hp hphase hopen hlate rfl
    have hmember : d ∈ h'.roomMembers := by
      cases hstep with
      | run _ _ _ hrun =>
        cases hrun with
        | admitting q hq _ => simp [admitClient, hopen, hlate, update]
        | _ => simp_all
    exact not_member_of_early hpresent' hearly hmember
  have hreplayed : h.replayedTo d l = [] := by
    cases l with
    | run c ok =>
      unfold replayedTo
      dsimp only
      split
      · next p hphase hp =>
        split
        · rfl
        · next haccepted =>
          simp only [Bool.or_eq_true, Bool.not_eq_true', decide_eq_true_eq, not_or, ne_eq, not_not,
            Bool.not_eq_true, Bool.not_eq_false] at haccepted
          obtain ⟨⟨⟨hopen, hlate⟩, rfl⟩, rfl⟩ := haccepted
          exact absurd rfl (hadmitted p hp hphase hopen hlate)
      · rfl
    | _ => rfl
  refine ⟨⟨?_, ?_⟩, ?_⟩
  · rw [hlive, hsilent.1, hsaid]
    rfl
  · rw [hreplays, hsilent.2, hreplayed]
    rfl
  · have htalk := talk_step hstep
    have hat : h'.ledger.admittedAt d = h'.talk.admittedAt d := rfl
    generalize h'.talk = talk at htalk hat
    cases htalk with
    | admitted c p hp hphase hopen hlate =>
      by_cases hdc : d = c
      · subst hdc
        exact absurd rfl (hadmitted p hp hphase hopen hlate)
      · rw [hat]
        exact (Function.update_of_ne hdc ..).trans hzero
    | _ => exact hat.trans hzero

theorem Chatted.step (hc : h.Chatted) (hpresent : h.Present) (hpresent' : h'.Present)
    (hretain : h.config.retainChatHistory = true) (hstep : h.Steps l h') : h'.Chatted where
  replay := by
    have htalk := talk_step hstep
    have hrecorded : h'.ledger.chat = h'.talk.recorded := rfl
    have hcleared : h'.ledger.chatCleared = h'.talk.cleared := rfl
    have hreplay : h'.chatHistorySnapshotLocked = h'.talk.replay := rfl
    rw [hrecorded, hcleared, hreplay]
    generalize h'.talk = talk at htalk
    cases htalk with
    | recorded c ok p msg entry hp hphase =>
      show truncate (h.chatHistorySnapshotLocked ++ [entry]) =
        truncate (((h.ledger.chat ++ [(c, entry)]).drop h.ledger.chatCleared).map (·.2))
      rw [hc.replay, truncate_concat, List.drop_append_of_le_length hc.cleared, List.map_append]
      rfl
    | cleared l hquiet =>
      show [] = truncate ((h.ledger.chat.drop h.ledger.chat.length).map (·.2))
      rw [List.drop_length]
      rfl
    | _ => exact hc.replay
  cleared := by
    have htalk := talk_step hstep
    have hrecorded : h'.ledger.chat = h'.talk.recorded := rfl
    have hcleared : h'.ledger.chatCleared = h'.talk.cleared := rfl
    rw [hrecorded, hcleared]
    generalize h'.talk = talk at htalk
    cases htalk with
    | recorded c ok p msg entry hp hphase =>
      show h.ledger.chatCleared ≤ (h.ledger.chat ++ [_]).length
      rw [List.length_append]
      exact Nat.le_add_right_of_le hc.cleared
    | cleared l hquiet => exact Nat.le_refl _
    | _ => exact hc.cleared
  drawn id hid := by
    apply Nat.lt_of_lt_of_le _ (nextID_step hstep)
    rcases recorded_step hc hstep with hsame | ⟨c, ok, msg, id', -, hdrawn, -, hmore⟩
    · exact hc.drawn id (hsame ▸ hid)
    · rw [hmore, List.map_append, List.mem_append] at hid
      rcases hid with hold | hnew
      · exact hc.drawn id hold
      · obtain rfl : id = id' := by simpa [ChatMessage.entry] using hnew
        exact hdrawn.drawn
  distinct := by
    rcases recorded_step hc hstep with hsame | ⟨c, ok, msg, id', -, hdrawn, -, hmore⟩
    · rw [hsame]
      exact hc.distinct
    · rw [hmore, List.map_append]
      refine hc.distinct.append (List.nodup_singleton _) fun id hold hnew => ?_
      obtain rfl : id = id' := by simpa [ChatMessage.entry] using hnew
      exact hdrawn.unrecorded hold
  chatting c msg entry hphase := hc.chatting_step hretain hstep hphase
  early d hearly := hc.early_step hpresent hpresent' hstep hearly
  delivered d hd hadmitted := by
    rcases member_of_admittedAt hc hstep hd hadmitted with
      ⟨hbefore, hat⟩ | ⟨hphase, ⟨p, hp⟩, hopen, hearly, rfl⟩
    · refine (hc.delivered d hbefore hat).step hc hbefore (fun hphase => ?_) hstep
      exact not_member_of_early hpresent (Or.inr (by rw [hphase]; rfl)) hbefore
    · exact delivered_of_admitted hc hphase hp hopen hearly hstep

theorem chatted_of_reachable {cfg : Config} (hr : (lts cfg).Reachable Retaining h) : h.Chatted := by
  refine hr.invariant_of (I := Chatted) (fun _ hs => present_of_reachable hs) ?_ ?_
  · rintro _ rfl
    exact chatted_new cfg
  · intro s l t hpresent hpresent' hc hretain htr
    exact hc.step hpresent hpresent' hretain (steps_of_step htr)

/-! ## Exactly once -/

/-- The entries at the end of a list are those a truncation keeps. -/
theorem count_truncate {messages : List ChatHistoryEntry} (hnodup : messages.Nodup) {i : Nat}
    {entry : ChatHistoryEntry} (hentry : messages[i]? = some entry)
    (hlast : messages.length ≤ i + chatHistoryLimit) : (truncate messages).count entry = 1 := by
  have hmem : entry ∈ truncate messages := by
    unfold truncate
    split
    · rw [List.mem_iff_getElem?]
      refine ⟨i - (messages.length - chatHistoryLimit), ?_⟩
      rw [List.getElem?_drop, Nat.add_sub_cancel' (by omega)]
      exact hentry
    · exact List.mem_of_getElem? hentry
  have hsub : (truncate messages).Nodup := by
    unfold truncate
    split
    · exact hnodup.sublist (List.drop_sublist _ _)
    · exact hnodup
  exact List.count_eq_one_of_mem hsub hmem

/-- **Chat exactly once**: as long as history is retained, a client that is
admitted and stays a member was sent one replay, and live every message the
others recorded since its admission, in order. A message recorded before, and
not deleted with the history since, is in the replay once unless a hundred
followed it before the admission; one recorded after is not. -/
theorem chat_exactly_once {cfg : Config} (hr : (lts cfg).Reachable Retaining h)
    (hd : d ∈ h.roomMembers) (hadmitted : h.ledger.admittedAt d ≠ 0) :
    ∃ replay, chatReplays (h.client d).outbound = [replay] ∧
      liveChat (h.client d).outbound =
        ((h.ledger.chat.drop (h.ledger.chatAt d)).filter fun m => m.1 ≠ d).map (·.2.message) ∧
      (∀ i c entry, h.ledger.chat[i]? = some (c, entry) → h.ledger.chatFrom d ≤ i →
        i < h.ledger.chatAt d → h.ledger.chatAt d ≤ i + chatHistoryLimit →
        replay.count entry = 1) ∧
      (∀ i c entry, h.ledger.chat[i]? = some (c, entry) → h.ledger.chatAt d ≤ i →
        entry ∉ replay) ∧
      (h.ledger.chatCleared = 0 → h.ledger.chatFrom d = 0) := by
  have hc := chatted_of_reachable hr
  have hdel := hc.delivered d hd hadmitted
  have hnodup : (h.ledger.chat.map (·.2)).Nodup := by
    have hids := hc.distinct
    rw [show h.ledger.chat.map (·.2.id) = (h.ledger.chat.map (·.2)).map (·.id) from
      (List.map_map ..).symm] at hids
    exact hids.of_map _
  refine ⟨_, hdel.replay, hdel.live, ?_, ?_, ?_⟩
  · intro i c entry hentry hfrom hat hlimit
    generalize hbefore : (h.ledger.chat.take (h.ledger.chatAt d)).drop (h.ledger.chatFrom d) = before
    have hlength : before.length = h.ledger.chatAt d - h.ledger.chatFrom d := by
      rw [← hbefore, List.length_drop, List.length_take, Nat.min_eq_left hdel.within]
    have hdistinct : (before.map (·.2)).Nodup := by
      rw [← hbefore]
      exact hnodup.sublist (((List.drop_sublist _ _).trans (List.take_sublist _ _)).map _)
    apply count_truncate (i := i - h.ledger.chatFrom d) hdistinct
    · rw [← hbefore, List.getElem?_map, List.getElem?_drop, Nat.add_sub_cancel' hfrom,
        List.getElem?_take_of_lt hat, hentry]
      rfl
    · rw [List.length_map, hlength]
      omega
  · intro i c entry hentry hat hmem
    have hbefore : entry ∈ (h.ledger.chat.take (h.ledger.chatAt d)).map (·.2) := by
      have hsub : (truncate (((h.ledger.chat.take (h.ledger.chatAt d)).drop
          (h.ledger.chatFrom d)).map (·.2))).Sublist
          (((h.ledger.chat.take (h.ledger.chatAt d)).drop (h.ledger.chatFrom d)).map (·.2)) := by
        unfold truncate
        split
        · exact List.drop_sublist _ _
        · exact List.Sublist.refl _
      exact ((List.drop_sublist _ _).map _).subset (hsub.subset hmem)
    have hafter : entry ∈ (h.ledger.chat.drop (h.ledger.chatAt d)).map (·.2) := by
      refine List.mem_map.mpr ⟨(c, entry), List.mem_iff_getElem?.mpr ⟨i - h.ledger.chatAt d, ?_⟩, rfl⟩
      rw [List.getElem?_drop, Nat.add_sub_cancel' hat, hentry]
    rw [← List.take_append_drop (h.ledger.chatAt d) h.ledger.chat, List.map_append] at hnodup
    exact (List.disjoint_of_nodup_append hnodup) hbefore hafter
  · intro hnever
    have hle := hdel.since
    omega

/-- The member 0 says something before 2 joins, and something after. -/
theorem chat_exactly_once_joined : ∃ h, (lts sampleConfig).Reachable Retaining h ∧
    (∃ replay, chatReplays (h.client 2).outbound = [replay] ∧
      liveChat (h.client 2).outbound =
        ((h.ledger.chat.drop (h.ledger.chatAt 2)).filter fun m => m.1 ≠ 2).map (·.2.message) ∧
      (∀ i c entry, h.ledger.chat[i]? = some (c, entry) → h.ledger.chatFrom 2 ≤ i →
        i < h.ledger.chatAt 2 → h.ledger.chatAt 2 ≤ i + chatHistoryLimit →
        replay.count entry = 1) ∧
      (∀ i c entry, h.ledger.chat[i]? = some (c, entry) → h.ledger.chatAt 2 ≤ i →
        entry ∉ replay) ∧
      (h.ledger.chatCleared = 0 → h.ledger.chatFrom 2 = 0)) ∧
    h.ledger.chatAt 2 = 1 ∧ h.ledger.chat.length = 2 := by
  obtain ⟨h, hr, ho⟩ := Lts.exists_reachable_of_execWhen
    (fun (h : Hub) (_ : Label) => h.config.retainChatHistory) step (Hub.new sampleConfig)
    (joins 0 ++ [.receive 0 true (some (.chat ['h']))] ++ runs 0 1 ++ joins 2 ++
      [.receive 0 true (some (.chat ['b']))] ++ runs 0 1)
    (fun h => decide (2 ∈ h.roomMembers ∧ h.ledger.admittedAt 2 ≠ 0 ∧ h.ledger.chatAt 2 = 1 ∧
      h.ledger.chat.length = 2)) true (by decide)
  obtain ⟨hmember, hadmitted, hat, hlength⟩ := of_decide_eq_true ho
  exact ⟨h, hr, chat_exactly_once hr hmember hadmitted, hat, hlength⟩

end Hub

end SlowMeet.Signaling
