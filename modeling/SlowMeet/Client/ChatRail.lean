import SlowMeet.Signaling.ChatOrder

/-!
# The chat rail of the page

`addChatMessage`, the form of the chat, the history tracker of
`web/js/chat-history.js` and the messages of a socket that reach the rail.
With the order the hub tells the chat in, the rail shows each message of the
others once, in the order of the record. Toasts, the badge's own text,
scrolling and timestamps are not modelled.
-/

namespace SlowMeet.Client

open Lib Signaling

/-- An article of the rail. -/
structure Article where
  author : Name
  body : List Char
  system : Bool
  own : Bool
  deriving DecidableEq, Repr

structure ChatRail where
  localParticipantID : Option Nat
  /-- The identifiers the tracker has applied. -/
  applied : List Nat
  /-- `chatMessages.children`. -/
  articles : List Article
  /-- `chatRail.hidden`. -/
  hidden : Bool
  unreadMessages : Nat
  deriving DecidableEq, Repr

namespace ChatRail

/-- A normalized entry of a history. -/
structure Entry where
  id : Option Nat
  author : Name
  text : List Char
  participantId : Nat
  deriving DecidableEq, Repr

/-- The white space of `String.prototype.trim`. -/
def isWhiteSpace (char : Char) : Bool :=
  let n := char.toNat
  (9 ≤ n && n ≤ 13) || n == 32 || n == 0xA0 || n == 0x1680 || (0x2000 ≤ n && n ≤ 0x200A) ||
    n == 0x2028 || n == 0x2029 || n == 0x202F || n == 0x205F || n == 0x3000 || n == 0xFEFF

def trim (text : List Char) : List Char :=
  ((text.dropWhile isWhiteSpace).reverse.dropWhile isWhiteSpace).reverse

/-- JavaScript's `name || fallback`. -/
def nameOr (name : Name) (fallback : String) : Name :=
  if name = [] then fallback.toList else name

/-- `normalizeHistoryEntry`, for an entry of the hub, which has an identifier. -/
def normalizeHistoryEntry (entry : Signaling.ChatHistoryEntry) : Option Entry :=
  if trim entry.text = [] then none
  else some ⟨some entry.id, nameOr entry.author "Participant", entry.text, entry.participantID⟩

/-- `apply` of the tracker: what it has applied after `entries`, and those it
had not applied before. -/
def apply (applied : List Nat) : List Signaling.ChatHistoryEntry → List Nat × List Entry
  | [] => (applied, [])
  | entry :: entries =>
    match normalizeHistoryEntry entry with
    | none => apply applied entries
    | some normalized =>
      match normalized.id with
      | none => ((apply applied entries).1, normalized :: (apply applied entries).2)
      | some id =>
        if id ∈ applied then apply applied entries
        else ((apply (id :: applied) entries).1, normalized :: (apply (id :: applied) entries).2)

variable (s : ChatRail)

def start : ChatRail where
  localParticipantID := none
  applied := []
  articles := []
  hidden := true
  unreadMessages := 0

/-- The articles that the rail keeps. -/
def maxArticles : Nat := 300

/-- The oldest articles are dropped. -/
def keepLast (articles : List Article) : List Article :=
  articles.drop (articles.length - maxArticles)

def addChatMessage (article : Article) : ChatRail :=
  { s with
    articles := keepLast (s.articles ++ [article])
    unreadMessages :=
      if !article.system && s.hidden then s.unreadMessages + 1 else s.unreadMessages }

/-- The article of `addChatSystem`. -/
def systemArticle (message : List Char) : Article := ⟨"System".toList, message, true, false⟩

def historyArticle (localParticipantID : Nat) (entry : Entry) : Article :=
  ⟨entry.author, entry.text, false, entry.participantId = localParticipantID⟩

/-- What `resetMediaConnection` and `leaveMeeting` leave of the rail. -/
def reset : ChatRail := { s with applied := [], articles := [], unreadMessages := 0 }

/-- The socket's `message` event. -/
def receive : Signaling.Message → ChatRail
  | .participant participant _ history =>
    let fresh := apply s.applied history
    (fresh.2.map (historyArticle participant.id)).foldl addChatMessage
      { s with localParticipantID := some participant.id, applied := fresh.1 }
  | .chat msg =>
    if msg.text = [] then s
    else s.addChatMessage ⟨nameOr msg.name "Participant", msg.text, false, false⟩
  | .joined participant =>
    s.addChatMessage (systemArticle (participant.name ++ " joined the room".toList))
  | .left participant =>
    s.addChatMessage
      (systemArticle (nameOr participant.name "A participant" ++ " left the room".toList))
  | _ => s

/-- The chat form is submitted; `socketOpen` is whether the socket is open,
`sent` whether its `send` returns. -/
def submit (name input : List Char) (socketOpen sent : Bool) : ChatRail :=
  if trim input = [] ∨ trim (trim input) = [] then s
  else if !socketOpen || s.localParticipantID.isNone then
    s.addChatMessage
      (systemArticle "Chat is unavailable while the meeting reconnects.".toList)
  else if !sent then
    s.addChatMessage (systemArticle "Message could not be sent. Try again.".toList)
  else s.addChatMessage ⟨nameOr (trim name) "You", trim input, false, true⟩

/-- What happens to the rail of one socket. -/
inductive Event
  | message (msg : Signaling.Message)
  | submit (name input : List Char) (socketOpen sent : Bool)
  /-- Another part of the page adds a system message. -/
  | system (message : List Char)
  | openChat
  /-- The timer of `setChatOpen(false)`. -/
  | hideChat
  deriving DecidableEq, Repr

def handle : Event → ChatRail
  | .message msg => s.receive msg
  | .submit name input socketOpen sent => s.submit name input socketOpen sent
  | .system message => s.addChatMessage (systemArticle message)
  | .openChat => { s with hidden := false, unreadMessages := 0 }
  | .hideChat => { s with hidden := true }

def run (events : List Event) : ChatRail := events.foldl handle s

/-- The messages among the events. -/
def received (events : List Event) : List Signaling.Message :=
  events.filterMap fun
    | .message msg => some msg
    | _ => none

/-! ## What is added -/

variable {s} {article : Article} {event : Event} {events : List Event}

theorem keepLast_append (before after : List Article) :
    keepLast (keepLast before ++ after) = keepLast (before ++ after) := by
  unfold keepLast
  generalize maxArticles = limit
  rw [List.length_append, List.length_drop, List.length_append]
  by_cases hshort : before.length ≤ limit
  · have hall : before.length - limit = 0 := by omega
    rw [hall, List.drop_zero, Nat.sub_zero]
  · have hleft : before.length - (before.length - limit) = limit := by omega
    have hcut : before.length + after.length - limit =
        (before.length - limit) + after.length := by omega
    have hwithin : before.length - limit ≤ before.length := Nat.sub_le _ _
    rw [hleft, hcut, ← List.drop_drop, List.drop_append_of_le_length hwithin,
      Nat.add_sub_cancel_left]

theorem articles_addChatMessage : (s.addChatMessage article).articles =
    keepLast (s.articles ++ [article]) := by
  unfold addChatMessage
  dsimp only

theorem applied_addChatMessage : (s.addChatMessage article).applied = s.applied := by
  unfold addChatMessage
  dsimp only

theorem hidden_addChatMessage : (s.addChatMessage article).hidden = s.hidden := by
  unfold addChatMessage
  dsimp only

theorem foldl_addChatMessage {before : List Article} (h : s.articles = keepLast before)
    (added : List Article) :
    (added.foldl addChatMessage s).articles = keepLast (before ++ added) := by
  induction added generalizing s before with
  | nil =>
    rw [List.append_nil]
    exact h
  | cons article rest ih =>
    have hnext : (s.addChatMessage article).articles = keepLast (before ++ [article]) := by
      rw [articles_addChatMessage, h, keepLast_append]
    rw [List.foldl_cons, ih hnext, List.append_assoc]
    dsimp only [List.cons_append, List.nil_append]

/-- A message of someone else. -/
def ofOther (article : Article) : Bool := !article.system && !article.own

/-- The article of a live message. -/
def liveArticle (msg : Signaling.ChatMessage) : Option Article :=
  if msg.text = [] then none
  else some ⟨nameOr msg.name "Participant", msg.text, false, false⟩

/-- The article of a history's entry, if it is someone else's. -/
def replayedArticle (localParticipantID : Nat) (entry : Signaling.ChatHistoryEntry) :
    Option Article :=
  if trim entry.text = [] ∨ entry.participantID = localParticipantID then none
  else some ⟨nameOr entry.author "Participant", entry.text, false, false⟩

/-- A tracker that has applied none of the entries passes all of them. -/
theorem apply_of_fresh {applied : List Nat} {entries : List Signaling.ChatHistoryEntry}
    (hnew : ∀ entry ∈ entries, entry.id ∉ applied) (hnodup : (entries.map (·.id)).Nodup) :
    (apply applied entries).2 = entries.filterMap normalizeHistoryEntry := by
  induction entries generalizing applied with
  | nil => rfl
  | cons entry rest ih =>
    obtain ⟨hfirst, hrest⟩ := List.nodup_cons.mp hnodup
    have hold : ∀ other ∈ rest, other.id ∉ applied := fun other hother =>
      hnew other (List.mem_cons_of_mem _ hother)
    by_cases hblank : trim entry.text = []
    · have hnone : normalizeHistoryEntry entry = none := by
        unfold normalizeHistoryEntry
        rw [if_pos hblank]
      rw [List.filterMap_cons_none hnone, ← ih hold hrest, apply, hnone]
    · have hsome : normalizeHistoryEntry entry = some ⟨some entry.id,
          nameOr entry.author "Participant", entry.text, entry.participantID⟩ := by
        unfold normalizeHistoryEntry
        rw [if_neg hblank]
      have hnext : ∀ other ∈ rest, other.id ∉ entry.id :: applied := by
        intro other hother hmem
        rcases List.mem_cons.mp hmem with hsame | hmem
        · have hmem := List.mem_map_of_mem (f := fun e : Signaling.ChatHistoryEntry => e.id) hother
          rw [hsame] at hmem
          exact hfirst hmem
        · exact hold other hother hmem
      rw [List.filterMap_cons_some hsome, ← ih hnext hrest, apply, hsome]
      dsimp only
      rw [if_neg (hnew entry List.mem_cons_self)]

theorem filter_history (own : Nat) (entries : List Signaling.ChatHistoryEntry) :
    ((entries.filterMap normalizeHistoryEntry).map (historyArticle own)).filter ofOther =
      entries.filterMap (replayedArticle own) := by
  induction entries with
  | nil => rfl
  | cons entry rest ih =>
    by_cases hblank : trim entry.text = []
    · have hnone : normalizeHistoryEntry entry = none := if_pos hblank
      have hhidden : replayedArticle own entry = none := if_pos (Or.inl hblank)
      rw [List.filterMap_cons_none hnone, List.filterMap_cons_none hhidden, ih]
    · have hsome : normalizeHistoryEntry entry = some ⟨some entry.id,
          nameOr entry.author "Participant", entry.text, entry.participantID⟩ := if_neg hblank
      rw [List.filterMap_cons_some hsome, List.map_cons, List.filter_cons, ih]
      by_cases hown : entry.participantID = own
      · have hhidden : replayedArticle own entry = none := if_pos (Or.inr hown)
        rw [List.filterMap_cons_none hhidden, if_neg]
        simp [ofOther, historyArticle, hown]
      · have hshown : replayedArticle own entry =
            some ⟨nameOr entry.author "Participant", entry.text, false, false⟩ :=
          if_neg (not_or.mpr ⟨hblank, hown⟩)
        rw [List.filterMap_cons_some hshown, if_pos]
        · simp [historyArticle, hown]
        · simp [ofOther, historyArticle, hown]

/-! ## What is shown -/

/-- To a rail that showed the end of `before` articles were added, of which
`shown` are someone else's. -/
def Gains (t : ChatRail) (before shown : List Article) : Prop :=
  ∃ added, t.articles = keepLast (before ++ added) ∧ added.filter ofOther = shown

variable {t : ChatRail} {before shown shown' : List Article}

theorem gains_nil (h : s.articles = keepLast before) : s.Gains before [] := by
  refine ⟨[], ?_, rfl⟩
  rw [List.append_nil]
  exact h

theorem gains_foldl (h : s.articles = keepLast before) (added : List Article) :
    (added.foldl addChatMessage s).Gains before (added.filter ofOther) :=
  ⟨added, foldl_addChatMessage h added, rfl⟩

/-- One article is added. -/
theorem gains_add (h : s.articles = keepLast before) (hshown : [article].filter ofOther = shown) :
    (s.addChatMessage article).Gains before shown := by
  rw [← hshown]
  exact gains_foldl h [article]

theorem gains_system (h : s.articles = keepLast before) (message : List Char) :
    (s.addChatMessage (systemArticle message)).Gains before [] :=
  gains_add h rfl

theorem Gains.append (h : s.Gains before shown)
    (hnext : ∀ before', s.articles = keepLast before' → t.Gains before' shown') :
    t.Gains before (shown ++ shown') := by
  obtain ⟨added, harticles, hfilter⟩ := h
  obtain ⟨added', harticles', hfilter'⟩ := hnext _ harticles
  refine ⟨added ++ added', ?_, ?_⟩
  · rw [harticles', List.append_assoc]
  · rw [List.filter_append, hfilter, hfilter']

/-- A note of the page, or a message of its own, is no one else's. -/
theorem gains_submit (h : s.articles = keepLast before) {name input : List Char}
    {socketOpen sent : Bool} : (s.submit name input socketOpen sent).Gains before [] := by
  unfold submit
  split_ifs
  · exact gains_nil h
  · exact gains_system h _
  · exact gains_system h _
  · exact gains_add h (List.filter_cons_of_neg (by simp [ofOther]))

theorem applied_submit {name input : List Char} {socketOpen sent : Bool} :
    (s.submit name input socketOpen sent).applied = s.applied := by
  unfold submit
  split_ifs
  · rfl
  · exact applied_addChatMessage
  · exact applied_addChatMessage
  · exact applied_addChatMessage

/-- An event that tells nothing of the chat shows nothing of the others. -/
theorem gains_quiet (h : s.articles = keepLast before)
    (hquiet : chatTold (received [event]) = []) :
    (s.handle event).Gains before [] ∧ (s.handle event).applied = s.applied := by
  cases event with
  | message msg =>
    cases msg with
    | participant p token history => cases hquiet
    | chat msg => cases hquiet
    | joined p => exact ⟨gains_system h _, applied_addChatMessage⟩
    | left p => exact ⟨gains_system h _, applied_addChatMessage⟩
    | _ => exact ⟨gains_nil h, rfl⟩
  | submit name input socketOpen sent => exact ⟨gains_submit h, applied_submit⟩
  | system message => exact ⟨gains_system h message, applied_addChatMessage⟩
  | openChat => exact ⟨gains_nil h, rfl⟩
  | hideChat => exact ⟨gains_nil h, rfl⟩

theorem gains_live (h : s.articles = keepLast before) (msg : Signaling.ChatMessage) :
    (s.handle (.message (.chat msg))).Gains before (liveArticle msg).toList := by
  show (if msg.text = [] then s else _ : ChatRail).Gains before _
  unfold liveArticle
  split_ifs
  · exact gains_nil h
  · exact gains_add h rfl

theorem chatTold_received_cons (event : Event) (events : List Event) :
    chatTold (received (event :: events)) =
      chatTold (received [event]) ++ chatTold (received events) := by
  rw [← chatTold_append, received, received, received, ← List.filterMap_append]
  rfl

/-- What an event tells of the chat is one message at most. -/
theorem chatTold_received_one (event : Event) :
    chatTold (received [event]) = [] ∨ (∃ msg, event = .message (.chat msg)) ∨
      ∃ p token history, event = .message (.participant p token history) := by
  cases event with
  | message msg =>
    cases msg with
    | participant p token history => exact Or.inr (Or.inr ⟨p, token, history, rfl⟩)
    | chat msg => exact Or.inr (Or.inl ⟨msg, rfl⟩)
    | _ => exact Or.inl rfl
  | _ => exact Or.inl rfl

/-- While live messages come in, these are what is shown of the others. -/
theorem gains_of_live (h : s.articles = keepLast before) {live : List Signaling.ChatMessage}
    (htold : chatTold (received events) = live.map .chat) :
    (s.run events).Gains before (live.filterMap liveArticle) := by
  induction events generalizing s before live with
  | nil =>
    obtain rfl : live = [] := List.map_eq_nil_iff.mp htold.symm
    exact gains_nil h
  | cons event rest ih =>
    rw [chatTold_received_cons] at htold
    rcases chatTold_received_one event with hquiet | ⟨msg, rfl⟩ | ⟨p, token, history, rfl⟩
    · rw [hquiet, List.nil_append] at htold
      have hfirst := (gains_quiet h hquiet).1
      exact hfirst.append fun before' h' => ih h' htold
    · cases live with
      | nil => cases htold
      | cons first others =>
        obtain ⟨hsame, hothers⟩ := List.cons.inj htold
        obtain rfl : msg = first := Signaling.Message.chat.inj hsame
        have hrest : (s.run (.message (.chat msg) :: rest)).Gains before
            ((liveArticle msg).toList ++ others.filterMap liveArticle) :=
          (gains_live h msg).append fun before' h' => ih h' hothers
        cases hshown : liveArticle msg with
        | none =>
          rw [List.filterMap_cons_none hshown]
          rw [hshown] at hrest
          exact hrest
        | some article =>
          rw [List.filterMap_cons_some hshown]
          rw [hshown] at hrest
          exact hrest
    · cases live with
      | nil => cases htold
      | cons first others =>
        obtain ⟨hsame, -⟩ := List.cons.inj htold
        cases hsame

/-- The history comes first, and each of its entries is shown. -/
theorem gains_of_replay (h : s.articles = keepLast before) (happlied : s.applied = [])
    {q : Participant} {token : Token} {history : List Signaling.ChatHistoryEntry}
    {live : List Signaling.ChatMessage} (hnodup : (history.map (·.id)).Nodup)
    (htold : chatTold (received events) = .participant q token history :: live.map .chat) :
    (s.run events).Gains before
      (history.filterMap (replayedArticle q.id) ++ live.filterMap liveArticle) := by
  induction events generalizing s before with
  | nil => cases htold
  | cons event rest ih =>
    rw [chatTold_received_cons] at htold
    rcases chatTold_received_one event with hquiet | ⟨msg, rfl⟩ | ⟨p, token', history', rfl⟩
    · rw [hquiet, List.nil_append] at htold
      obtain ⟨hfirst, happlied'⟩ := gains_quiet h hquiet
      exact hfirst.append fun before' h' => ih h' (happlied'.trans happlied) htold
    · cases htold
    · obtain ⟨hsame, hlive⟩ := List.cons.inj htold
      obtain ⟨rfl, rfl, rfl⟩ := Signaling.Message.participant.inj hsame
      have hfresh : (apply s.applied history').2 = history'.filterMap normalizeHistoryEntry := by
        rw [happlied]
        exact apply_of_fresh (fun entry _ => List.not_mem_nil) hnodup
      have hreplayed : (s.handle (.message (.participant p token' history'))).Gains before
          (history'.filterMap (replayedArticle p.id)) := by
        rw [← filter_history, ← hfresh]
        exact gains_foldl (s := { s with
          localParticipantID := some p.id, applied := (apply s.applied history').1 }) h _
      exact hreplayed.append fun before' h' => gains_of_live h' hlive

/-! ## The badge -/

/-- While the rail is open nothing is unread. -/
def Read (s : ChatRail) : Prop := s.hidden = false → s.unreadMessages = 0

theorem Read.addChatMessage (h : s.Read) (article : Article) : (s.addChatMessage article).Read := by
  intro hopen
  rw [hidden_addChatMessage] at hopen
  unfold ChatRail.addChatMessage
  dsimp only
  rw [hopen, Bool.and_false, if_neg Bool.false_ne_true]
  exact h hopen

theorem Read.foldl (h : s.Read) (added : List Article) :
    (added.foldl ChatRail.addChatMessage s).Read := by
  induction added generalizing s with
  | nil => exact h
  | cons article rest ih =>
    rw [List.foldl_cons]
    exact ih (h.addChatMessage article)

theorem Read.submit (h : s.Read) {name input : List Char} {socketOpen sent : Bool} :
    (s.submit name input socketOpen sent).Read := by
  unfold ChatRail.submit
  split_ifs
  · exact h
  · exact h.addChatMessage _
  · exact h.addChatMessage _
  · exact h.addChatMessage _

theorem Read.receive (h : s.Read) (msg : Signaling.Message) : (s.receive msg).Read := by
  cases msg with
  | participant p token history =>
    exact Read.foldl (s := { s with
      localParticipantID := some p.id, applied := (ChatRail.apply s.applied history).1 }) h _
  | chat msg =>
    unfold ChatRail.receive
    dsimp only
    split_ifs
    · exact h
    · exact h.addChatMessage _
  | joined p => exact h.addChatMessage _
  | left p => exact h.addChatMessage _
  | _ => exact h

/-- **The badge** counts nothing while the rail is open, over every run. -/
theorem Read.run (h : s.Read) (events : List Event) : (s.run events).Read := by
  induction events generalizing s with
  | nil => exact h
  | cons event rest ih =>
    apply ih
    cases event with
    | message msg => exact h.receive msg
    | submit name input socketOpen sent => exact h.submit
    | system message => exact h.addChatMessage _
    | openChat => exact fun _ => rfl
    | hideChat => exact fun hopen => absurd hopen Bool.true_eq_false.mp

/-! ## The hub and the page -/

/-- Of a history and live messages the socket may have brought a part. -/
theorem told_of_part {q : Participant} {token : Token}
    {history : List Signaling.ChatHistoryEntry} {live : List Signaling.ChatMessage}
    {told : List Signaling.Message}
    (h : told <+: .participant q token history :: live.map .chat) :
    told = [] ∨ ∃ n, told = .participant q token history :: (live.take n).map .chat := by
  rcases List.prefix_cons_iff.mp h with hnil | ⟨rest, hrest, hlive⟩
  · exact Or.inl hnil
  · right
    refine ⟨rest.length, ?_⟩
    rw [hrest, List.map_take, ← List.prefix_iff_eq_take.mp hlive]

/-- **A member's rail shows the chat.** Whatever part of what the hub sent it
the socket of a member has brought, and whatever the page does in between,
the rail shows the end of what was added, and of the others' messages there
were added, each once and in the order of the record: the history the hub
replayed, and what the others said since; all of it, once all is received. -/
theorem chat_of_others {cfg : Config} {h : Hub} {d : Signaling.ClientId}
    (hr : (Hub.lts cfg).Reachable Hub.Retaining h) (hd : d ∈ h.roomMembers)
    (hadmitted : h.ledger.admittedAt d ≠ 0) (s : ChatRail) (events : List Event)
    (hreceived : received events <+: (h.client d).outbound) :
    ∃ q added, (h.client d).participantID = some q ∧
      (s.reset.run events).articles = keepLast added ∧
      added.filter ofOther <+: (h.replayedHistory d).filterMap (replayedArticle q) ++
        (h.toldSince d).filterMap liveArticle ∧
      (received events = (h.client d).outbound →
        added.filter ofOther = (h.replayedHistory d).filterMap (replayedArticle q) ++
          (h.toldSince d).filterMap liveArticle) := by
  obtain ⟨q, token, hq, htold⟩ := Hub.chatTold_of_reachable hr hd hadmitted
  have hnodup := (Hub.chatted_of_reachable hr).nodup_replayedHistory d
  have hempty : s.reset.articles = keepLast [] := rfl
  have hpart : chatTold (received events) <+: chatTold (h.client d).outbound :=
    hreceived.filter _
  rw [htold] at hpart
  rcases told_of_part hpart with hnone | ⟨n, hsome⟩
  · have hlive : chatTold (received events) =
        ([] : List Signaling.ChatMessage).map .chat := hnone
    obtain ⟨added, harticles, hfilter⟩ := gains_of_live hempty hlive
    have hnothing : added.filter ofOther = [] := hfilter
    refine ⟨q.id, added, hq, harticles, ?_, ?_⟩
    · rw [hnothing]
      exact List.nil_prefix
    · intro hall
      rw [hall, htold] at hnone
      cases hnone
  · obtain ⟨added, harticles, hfilter⟩ := gains_of_replay hempty rfl hnodup hsome
    refine ⟨q.id, added, hq, harticles, ?_, ?_⟩
    · have htaken := List.take_prefix n (h.toldSince d)
      rw [hfilter, List.prefix_append_right_inj]
      exact htaken.filterMap _
    · intro hall
      rw [hall, htold] at hsome
      have hlive := (List.cons.inj hsome).2
      have hmsgs : h.toldSince d = (h.toldSince d).take n :=
        List.map_injective_iff.mpr (fun _ _ => Signaling.Message.chat.inj) hlive
      rw [hfilter, ← hmsgs]

/-- 0 says something before 2 joins, and something after. -/
theorem chat_of_others_joined : ∃ (h : Hub) (events : List Event) (added : List Article),
    (Hub.lts Hub.sampleConfig).Reachable Hub.Retaining h ∧
      received events = (h.client 2).outbound ∧
      (start.reset.run events).articles = keepLast added ∧
      (added.filter ofOther).map (·.body) = [['h'], ['b']] := by
  obtain ⟨h, hr, ho⟩ := Lts.exists_reachable_of_execWhen
    (fun (h : Hub) (_ : Hub.Label) => h.config.retainChatHistory) Hub.step
    (Hub.new Hub.sampleConfig)
    (Hub.joins 0 ++ [.receive 0 true (some (.chat ['h']))] ++ Hub.runs 0 1 ++ Hub.joins 2 ++
      [.receive 0 true (some (.chat ['b']))] ++ Hub.runs 0 1)
    (fun h => decide (2 ∈ h.roomMembers ∧ h.ledger.admittedAt 2 ≠ 0 ∧
      ((h.client 2).participantID.map fun q =>
        ((h.replayedHistory 2).filterMap (replayedArticle q) ++
          (h.toldSince 2).filterMap liveArticle).map (·.body)) = some [['h'], ['b']])) true
    (by decide +kernel)
  obtain ⟨hmember, hadmitted, hshown⟩ := of_decide_eq_true ho
  have hall : received ((h.client 2).outbound.map .message) = (h.client 2).outbound := by
    unfold received
    rw [List.filterMap_map]
    exact List.filterMap_some
  obtain ⟨q, added, hq, harticles, -, hfilter⟩ :=
    chat_of_others hr hmember hadmitted start _ (by rw [hall])
  rw [hq] at hshown
  refine ⟨h, _, added, hr, hall, harticles, ?_⟩
  rw [hfilter hall]
  exact Option.some.inj hshown

end ChatRail

end SlowMeet.Client
