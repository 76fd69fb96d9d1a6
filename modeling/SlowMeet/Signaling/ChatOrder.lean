import SlowMeet.Signaling.Chat

/-!
# The order of the chat a member is told

The history an admission replays comes before every live message, so that what
a client is told of the chat is one list: the recorded messages before its
admission, and those of the others since.
-/

namespace SlowMeet.Signaling

open Lib Media

/-- The messages that carry chat. -/
def Message.isChat : Message → Bool
  | .participant _ _ _ => true
  | .chat _ => true
  | _ => false

/-- What `out` says of the chat, in order. -/
def chatTold (out : List Message) : List Message := out.filter Message.isChat

@[simp] theorem chatTold_nil : chatTold [] = [] := rfl

@[simp] theorem chatTold_append (a b : List Message) :
    chatTold (a ++ b) = chatTold a ++ chatTold b :=
  List.filter_append ..

/-- Without a replay all that is told of the chat is live. -/
theorem chatTold_of_noReplay {msgs : List Message} (h : chatReplays msgs = []) :
    chatTold msgs = (liveChat msgs).map .chat := by
  induction msgs with
  | nil => rfl
  | cons msg rest ih =>
    cases msg with
    | participant p token history => cases h
    | chat msg =>
      show Message.chat msg :: chatTold rest = Message.chat msg :: (liveChat rest).map .chat
      rw [ih h]
    | _ => exact ih h

/-- The replays are among what is told of the chat. -/
theorem chatReplays_chatTold (msgs : List Message) :
    chatReplays (chatTold msgs) = chatReplays msgs := by
  induction msgs with
  | nil => rfl
  | cons msg rest ih =>
    cases msg with
    | participant p token history =>
      show history :: chatReplays (chatTold rest) = history :: chatReplays rest
      rw [ih]
    | chat msg => exact ih
    | _ => exact ih

namespace Hub

variable {h h' : Hub} {d : ClientId} {l : Label}

theorem chatTold_of_silent {msgs : List Message} (hmsgs : Silent msgs) : chatTold msgs = [] := by
  rw [chatTold_of_noReplay hmsgs.2, hmsgs.1]
  rfl

/-- An admission tells its own client who it is, and the history. -/
theorem chatTold_admissionReplay (q : Participant) (takeover : Bool) :
    chatTold (h.admissionReplay q takeover) =
      [.participant q (reconnectToken q) h.chatHistorySnapshotLocked] := by
  have hcons : ∃ rest, h.admissionReplay q takeover =
      .participant q (reconnectToken q) h.chatHistorySnapshotLocked :: rest :=
    ⟨_, rfl⟩
  obtain ⟨rest, hrest⟩ := hcons
  obtain ⟨hlive, hreplays⟩ := chat_admissionReplay (h := h) q takeover
  rw [hrest] at hlive hreplays ⊢
  have hsilent : Silent rest := ⟨hlive, (List.cons.inj hreplays).2⟩
  show Message.participant q _ _ :: chatTold rest = _
  rw [chatTold_of_silent hsilent]

/-- What a step tells `d` of the chat. -/
theorem chatTold_step (hstep : h.Steps l h') (d : ClientId) :
    chatTold (h'.client d).outbound =
      chatTold (h.client d).outbound ++ chatTold (h.sent d l) := by
  rcases appends_step hstep d with hsent | ⟨⟨allowed, input, rfl⟩, text, herror⟩
  · rw [hsent, chatTold_append]
  · rw [herror, chatTold_append]
    rfl

/-- `d` was told who it is and the history, and then the live chat. -/
def InOrder (h : Hub) (d : ClientId) : Prop :=
  ∃ q token replay, (h.client d).participantID = some q.id ∧
    chatTold (h.client d).outbound =
      .participant q token replay :: (liveChat (h.client d).outbound).map .chat

/-- A member is told live messages alone. -/
theorem InOrder.step (ho : h.InOrder d) (hpresent : h.Present)
    (hphase : (h.client d).phase ≠ .admitting) (hstep : h.Steps l h') : h'.InOrder d := by
  obtain ⟨q, token, replay, hq, htold⟩ := ho
  have hnone : chatReplays (h.sent d l) = [] := by
    rw [(h.chat_sent d l).2]
    exact replayedTo_eq_nil hphase
  refine ⟨q, token, replay, participantID_step hpresent hstep hq, ?_⟩
  rw [chatTold_step hstep, htold, chatTold_of_noReplay hnone, (h.chat_sent d l).1,
    (chat_step hstep d).1, List.map_append]
  rfl

theorem inOrder_of_admitted (hc : h.Chatted) (hpresent : h.Present) {p : Participant}
    (hphase : (h.client d).phase = .admitting) (hp : (h.client d).participant = some p)
    (hopen : h.closed = false) (hearly : (h.client d).admissionExpired = false)
    (hstep : h.Steps (.run d true) h') : h'.InOrder d := by
  obtain ⟨hsilent, -⟩ := hc.early d (Or.inr (by rw [hphase]; rfl))
  have hid : (h.client d).participantID = some p.id := by simp [Client.participantID, hp]
  have hsent : h.sent d (.run d true) = h.admissionReplay p (h.client d).activeTakeover := by
    simp [sent, sentRunning, hphase, hp, hopen, hearly, toSelf]
  have hlive : liveChat (h'.client d).outbound = [] := by
    rw [(chat_step hstep d).1, hsilent.1, ← (h.chat_sent d _).1, hsent,
      (chat_admissionReplay p _).1]
    rfl
  refine ⟨p, reconnectToken p, h.chatHistorySnapshotLocked,
    participantID_step hpresent hstep hid, ?_⟩
  rw [chatTold_step hstep, chatTold_of_silent hsilent, hsent, chatTold_admissionReplay, hlive]
  rfl

/-- What is known of the members, kept by every step. -/
def AllInOrder (h : Hub) : Prop :=
  h.Chatted ∧ ∀ d ∈ h.roomMembers, h.ledger.admittedAt d ≠ 0 → h.InOrder d

theorem AllInOrder.step (ho : h.AllInOrder) (hpresent : h.Present) (hpresent' : h'.Present)
    (hretain : h.config.retainChatHistory = true) (hstep : h.Steps l h') : h'.AllInOrder := by
  obtain ⟨hc, hall⟩ := ho
  refine ⟨hc.step hpresent hpresent' hretain hstep, ?_⟩
  intro d hd hadmitted
  rcases member_of_admittedAt hc hstep hd hadmitted with
    ⟨hbefore, hat⟩ | ⟨hphase, ⟨p, hp⟩, hopen, hearly, rfl⟩
  · apply (hall d hbefore hat).step hpresent _ hstep
    intro hphase
    exact not_member_of_early hpresent (Or.inr (by rw [hphase]; rfl)) hbefore
  · exact inOrder_of_admitted hc hpresent hphase hp hopen hearly hstep

theorem allInOrder_of_reachable {cfg : Config} (hr : (lts cfg).Reachable Retaining h) :
    h.AllInOrder := by
  refine hr.invariant_of (I := AllInOrder) (fun _ hs => present_of_reachable hs) ?_ ?_
  · rintro _ rfl
    exact ⟨chatted_new cfg, fun d hd => absurd hd (Finset.notMem_empty d)⟩
  · intro s l t hpresent hpresent' ho hretain htr
    exact ho.step hpresent hpresent' hretain (steps_of_step htr)

/-- The history that is replayed to `d`. -/
def replayedHistory (h : Hub) (d : ClientId) : List ChatHistoryEntry :=
  truncate (((h.ledger.chat.take (h.ledger.chatAt d)).drop (h.ledger.chatFrom d)).map (·.2))

/-- The messages of the others that are recorded since the admission of `d`. -/
def toldSince (h : Hub) (d : ClientId) : List ChatMessage :=
  ((h.ledger.chat.drop (h.ledger.chatAt d)).filter fun m => m.1 ≠ d).map (·.2.message)

theorem truncate_sublist (messages : List ChatHistoryEntry) :
    (truncate messages).Sublist messages := by
  unfold truncate
  split_ifs
  · exact List.drop_sublist _ _
  · exact List.Sublist.refl _

/-- The identifiers of a replay are distinct. -/
theorem Chatted.nodup_replayedHistory (hc : h.Chatted) (d : ClientId) :
    ((h.replayedHistory d).map (·.id)).Nodup := by
  have hids : (h.ledger.chat.map (·.2)).map (·.id) = h.ledger.chat.map (·.2.id) :=
    List.map_map ..
  have hnodup := hc.distinct
  rw [← hids] at hnodup
  have hpart : ((h.ledger.chat.take (h.ledger.chatAt d)).drop (h.ledger.chatFrom d)).Sublist
      h.ledger.chat :=
    (List.drop_sublist _ _).trans (List.take_sublist _ _)
  exact hnodup.sublist (((truncate_sublist _).trans (hpart.map _)).map _)

/-- **A member is told the chat in its order**: who it is with the history,
and after that the messages of the others since. -/
theorem chatTold_of_reachable {cfg : Config} (hr : (lts cfg).Reachable Retaining h)
    (hd : d ∈ h.roomMembers) (hadmitted : h.ledger.admittedAt d ≠ 0) :
    ∃ q token, (h.client d).participantID = some q.id ∧
      chatTold (h.client d).outbound =
        .participant q token (h.replayedHistory d) :: (h.toldSince d).map .chat := by
  obtain ⟨hc, hall⟩ := allInOrder_of_reachable hr
  have hdel := hc.delivered d hd hadmitted
  obtain ⟨q, token, replay, hq, htold⟩ := hall d hd hadmitted
  -- the one replay is the recorded history
  have hreplay : chatReplays (chatTold (h.client d).outbound) = [h.replayedHistory d] := by
    rw [chatReplays_chatTold, hdel.replay]
    rfl
  rw [htold] at hreplay
  obtain ⟨rfl, -⟩ := List.cons.inj hreplay
  refine ⟨q, token, hq, ?_⟩
  rw [htold, hdel.live]
  rfl

end Hub

end SlowMeet.Signaling
