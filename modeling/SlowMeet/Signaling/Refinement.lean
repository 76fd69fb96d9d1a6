import SlowMeet.Signaling.Frame
import SlowMeet.Signaling.Roster

/-!
# The hub runs the session protocol

`Hub.session` reads a session off a hub, at a `rank` and a `slot` the hub
does not record. Each step of the hub is one event of the protocol, `draw`
for the many that concern no participant's presence, so what holds in every
run of the protocol holds of the hub.
-/

namespace SlowMeet.Signaling

open Lib Media

/-! ## Reading a session off a hub -/

/-- Reading, handling and closing say nothing before a participant is
`known`. -/
def Phase.stage (phase : Phase) (known : Bool) : Stage :=
  match phase with
  | .absent | .upgrading | .opening | .reclaiming _ _ | .joining _ | .refusing _ => .outside
  | .reading | .handling _ => if known then .settled else .outside
  | .entering participant => .entering participant.id
  | .superseding previous | .waiting previous => .waiting previous
  | .cancelling | .peering | .registering | .admitting => .joining
  | .releasing | .announcing => .announcing
  | .closing => if known then .closing else .outside
  | .disconnecting => .ending
  | .parting departure _ => .parting departure
  | .forgetting | .leaving => .removing
  | .casting => .casting
  | .notifying clients => .notifying clients
  | .armingGrace => .notifying ∅
  | .scheduling | .arming | .finished => .over

/-- The grace timer has taken the pending entry and not yet left. -/
def Reaper.reaping : Reaper → Bool
  | .unregistering | .closingPeer | .leaving => true
  | _ => false

def Client.life (me : Client) : Life where
  stage := me.phase.stage me.participant.isSome
  pid := me.participantID
  resumed := me.resumed
  joined := me.joined
  announced := me.announced
  intentional := me.intentionalLeave
  takeover := me.activeTakeover
  reaping := me.reaper.reaping
  shown p := inRoster p me.outbound

namespace Hub

variable (h : Hub)

/-- The client of the pending entry of `p`, and whether its timer is armed. -/
def pendingOf (p : ParticipantID) : Option (ClientId × Bool) :=
  (h.pending.lookup ⟨p⟩).map fun reconnect => (reconnect.client, reconnect.armed)

def session (rank : ClientId → Nat) (slot : ParticipantID → Slot) : Session where
  life c := (h.client c).life
  ids := h.meeting.has
  active p := h.activeTokens.lookup ⟨p⟩
  pending := h.pendingOf
  closingIDs := h.closingIDs
  members := h.roomMembers
  closed := h.closed
  timeout := h.config.reconnectTimeout
  next := h.nextID
  admissions := h.ledger.admissions
  joinedAt := h.ledger.joinedAt
  admittedAt := h.ledger.admittedAt
  rank := rank
  slot := slot

/-- A pending entry is stored under its participant's token. -/
def Keyed (h : Hub) : Prop :=
  ∀ token reconnect, h.pending.lookup token = some reconnect →
    reconnectToken reconnect.participant = token

/-! ## The event of a step -/

/-- The event of the next section of the handler of `c`. -/
def runEvent (c : ClientId) (ok : Bool) : Session.Event :=
  let me := h.client c
  match me.phase with
  | .upgrading => if ok then .draw else .quit c
  | .opening => if h.closed then .quit c else .draw
  | .reclaiming _ token =>
    if (h.pending.lookup token).isSome then .resume c token.participant
    else if (h.activeTokens.lookup token).isSome then .takeover c token.participant
    else .draw
  | .waiting _ => .proceed c
  | .joining name =>
    match h.meeting.join name h.nextID with
    | .ok _ => .join c
    | .error _ => .draw
  | .entering _ => .enter c
  | .peering => if ok then .draw else .fail c false
  | .admitting => if h.closed || me.admissionExpired then .fail c false else .admission c ok
  | .announcing => .announce c
  | .closing => if me.participant.isSome then .depart c else .quit c
  | .disconnecting => .part c
  | .parting _ .settle => .settle c
  | .leaving => .leave c
  | .casting => .castLeft c
  | .armingGrace => .arm c
  | _ => .draw

/-- The event of what the read loop of `c` does with a message. -/
def receiveEvent (c : ClientId) (input : Option Request) : Session.Event :=
  match input, (h.client c).participant with
  | none, some _ => .fail c false
  | some (.leave id), some p => if id = p.id then .fail c true else .draw
  | _, _ => .draw

def event : Label → Session.Event
  | .connect c =>
    if h.closed || h.pendingConnections ≥ maxPendingConnections then .quit c else .draw
  | .receive c _ input => h.receiveEvent c input
  | .run c ok => h.runEvent c ok
  | .notify c d => .notify c d
  | .graceFire c => .expire c
  | .reap c => if (h.client c).reaper = .leaving then .reapLeave c else .draw
  | .close => .close
  | .closeLeave id => .closeLeave id
  | _ => .draw

/-! ## Sessions and the primitives -/

theorem mk_eq_token {p : ParticipantID} {token : Token} :
    (⟨p⟩ : Token) = token ↔ p = token.participant := by
  cases token
  simp

/-- A map from tokens, read at the participants they belong to. -/
theorem lookup_insert_token {β : Type} (m : GoMap Token β) (token : Token) (b : β)
    (p : ParticipantID) : (m.insert token b).lookup ⟨p⟩ =
      Function.update (fun p => m.lookup ⟨p⟩) token.participant (some b) p := by
  simp only [GoMap.lookup_insert, mk_eq_token, Function.update_apply]

theorem lookup_erase_token {β : Type} (m : GoMap Token β) (token : Token) (p : ParticipantID) :
    (m.erase token).lookup ⟨p⟩ =
      Function.update (fun p => m.lookup ⟨p⟩) token.participant none p := by
  simp only [GoMap.lookup_erase, mk_eq_token, Function.update_apply]

variable {h} {h' : Hub} {c d : ClientId} {rank : ClientId → Nat} {slot : ParticipantID → Slot}

theorem session_update (c : ClientId) (f : Client → Client) :
    (h.update c f).session rank slot =
      (h.session rank slot).setLife c (f (h.client c)).life := by
  refine Session.ext ?_ rfl rfl rfl rfl rfl rfl rfl rfl rfl rfl rfl rfl rfl
  funext d
  by_cases hd : d = c
  · subst hd
    simp [session, update, Session.setLife]
  · simp [session, update, Session.setLife, hd]

theorem setLife_self (s : Session) (c : ClientId) (l : Life) (hl : l = s.life c) :
    s.setLife c l = s := by
  subst hl
  simp [Session.setLife]

/-- A change that does not show in a client's life. -/
theorem session_update_self {f : Client → Client} (hf : (f (h.client c)).life = (h.client c).life) :
    (h.update c f).session rank slot = h.session rank slot := by
  rw [session_update, hf]
  exact setLife_self _ c _ rfl

theorem life_write_of_neutral (me : Client) {msg : Message} (hmsg : msg.isRosterNeutral = true) :
    (me.write msg).life = me.life := by
  refine Life.ext rfl rfl rfl rfl rfl rfl rfl rfl (funext fun p => ?_)
  simp [Client.life, Client.write, shows_of_neutral p hmsg]

theorem life_write_joined (me : Client) (p : Participant) :
    (me.write (.joined p)).life =
      { me.life with shown := Function.update me.life.shown p.id true } := by
  refine Life.ext rfl rfl rfl rfl rfl rfl rfl rfl (funext fun q => ?_)
  simp only [Client.life, Client.write, inRoster_concat, Message.shows, Function.update_apply]
  grind

theorem life_write_left (me : Client) (p : Participant) :
    (me.write (.left p)).life =
      { me.life with shown := Function.update me.life.shown p.id false } := by
  refine Life.ext rfl rfl rfl rfl rfl rfl rfl rfl (funext fun q => ?_)
  simp only [Client.life, Client.write, inRoster_concat, Message.shows, Function.update_apply]
  grind

/-- A message that moves no one in or out changes no session. -/
theorem session_write_of_neutral (c : ClientId) {msg : Message}
    (hmsg : msg.isRosterNeutral = true) :
    (h.write c msg).session rank slot = h.session rank slot := by
  rw [write, session_update, life_write_of_neutral _ hmsg]
  exact setLife_self _ c _ rfl

theorem session_refuse (c : ClientId) (text : String) :
    (h.refuse c text).session rank slot = h.session rank slot :=
  session_write_of_neutral c rfl

theorem session_broadcastToRoom_of_neutral {msg : Message} (hmsg : msg.isRosterNeutral = true) :
    (h.broadcastToRoom msg).session rank slot = h.session rank slot := by
  refine Session.ext ?_ rfl rfl rfl rfl rfl rfl rfl rfl rfl rfl rfl rfl rfl
  funext d
  simp only [session, broadcastToRoom]
  split
  · exact life_write_of_neutral _ hmsg
  · rfl

theorem session_broadcastExcept_of_neutral (c : ClientId) {msg : Message}
    (hmsg : msg.isRosterNeutral = true) :
    (h.broadcastExcept c msg).session rank slot = h.session rank slot := by
  refine Session.ext ?_ rfl rfl rfl rfl rfl rfl rfl rfl rfl rfl rfl rfl rfl
  funext d
  simp only [session, broadcastExcept]
  split
  · exact life_write_of_neutral _ hmsg
  · rfl

theorem session_cancelChatHistoryExpiry :
    h.cancelChatHistoryExpiry.session rank slot = h.session rank slot := by
  obtain ⟨timers, ht⟩ := h.stopExpiry_eq
  rw [cancelChatHistoryExpiry, ht]
  rfl

theorem session_clearChatHistory :
    h.clearChatHistory.session rank slot = h.session rank slot := by
  obtain ⟨timers, ht⟩ := h.stopExpiry_eq
  rw [clearChatHistory, ht]
  rfl

theorem session_recordAndBroadcastChat (c : ClientId) (msg : ChatMessage)
    (entry : Option ChatHistoryEntry) :
    (h.recordAndBroadcastChat c msg entry).session rank slot = h.session rank slot := by
  obtain ⟨timers, ht⟩ := h.stopExpiry_eq
  refine (session_broadcastExcept_of_neutral c rfl).trans ?_
  cases entry with
  | none => rfl
  | some entry =>
    dsimp only
    rw [recordChatMessageLocked, ht]
    rfl

/-- A new expiry timer is a draw. -/
theorem session_scheduleChatHistoryExpiry (h : Hub) (rank : ClientId → Nat)
    (slot : ParticipantID → Slot) :
    h.scheduleChatHistoryExpiry.session rank slot =
        { h.session rank slot with next := h.scheduleChatHistoryExpiry.nextID } ∧
      h.nextID ≤ h.scheduleChatHistoryExpiry.nextID := by
  obtain ⟨timers, ht⟩ := h.stopExpiry_eq
  unfold scheduleChatHistoryExpiry
  cases h.chatHistory with
  | none => exact ⟨rfl, le_rfl⟩
  | some history =>
    dsimp only
    rw [ht]
    exact ⟨rfl, Nat.le_succ _⟩

theorem session_goto (c : ClientId) (phase : Phase) :
    (h.goto c phase).session rank slot =
      (h.session rank slot).setStage c (phase.stage (h.client c).participant.isSome) :=
  session_update c _

/-- A client that moves on within its stage. -/
theorem session_goto_self {c : ClientId} {phase : Phase}
    (hstage : phase.stage (h.client c).participant.isSome = (h.client c).life.stage) :
    (h.goto c phase).session rank slot = h.session rank slot := by
  rw [session_goto, hstage]
  exact setLife_self _ c _ rfl

/-- The same after steps that leave the session alone. -/
theorem session_goto_of {g : Hub} {phase : Phase}
    (hs : g.session rank slot = h.session rank slot)
    (hstage : phase.stage (h.client c).participant.isSome = (h.client c).life.stage) :
    (g.goto c phase).session rank slot = h.session rank slot := by
  have hlife : (g.client c).life = (h.client c).life := congrFun (congrArg Session.life hs) c
  have hsome : (g.client c).participant.isSome = (h.client c).participant.isSome := by
    simpa [Client.life, Client.participantID] using congrArg (fun l => l.pid.isSome) hlife
  rw [← hs]
  refine session_goto_self ?_
  rw [hsome, hstage, hlife]

/-! ## The events, one at a time -/

theorem step_to {s t t' : Session} {e : Session.Event} (hstep : s.Step e t) (ht : t' = t) :
    s.Step e t' :=
  ht ▸ hstep

/-- Nothing but a draw of identifiers. -/
theorem step_draw {g : Hub}
    (hs : g.session rank slot = { h.session rank slot with next := g.nextID })
    (hnext : h.nextID ≤ g.nextID) :
    ∃ rank' slot', (h.session rank slot).Step .draw (g.session rank' slot') :=
  ⟨rank, slot, step_to (.draw g.nextID hnext) hs⟩

theorem step_same {g : Hub} (hs : g.session rank slot = h.session rank slot) :
    ∃ rank' slot', (h.session rank slot).Step .draw (g.session rank' slot') := by
  have hnext : g.nextID = h.nextID := congrArg Session.next hs
  exact step_draw (by rw [hs, hnext]; rfl) hnext.ge

theorem step_quit (rank : ClientId → Nat) (slot : ParticipantID → Slot) {c : ClientId}
    (hstage : (h.client c).life.stage = .outside) :
    ∃ rank' slot', (h.session rank slot).Step (.quit c)
      ((h.goto c .finished).session rank' slot') :=
  ⟨rank, slot, step_to (.quit c hstage) (session_goto c _)⟩

theorem step_reserve {c : ClientId} (hphase : (h.client c).phase = .absent) :
    ∃ rank' slot', (h.session rank slot).Step (h.event (.connect c))
      ((h.reserve c).session rank' slot') := by
  have hstage : (h.client c).life.stage = .outside := by simp [Client.life, hphase, Phase.stage]
  simp only [event, reserve]
  split
  · exact step_quit _ _ hstage
  · refine step_same ((session_update c _).trans (setLife_self _ c _ ?_))
    exact Life.ext hstage.symm rfl rfl rfl rfl rfl rfl rfl rfl

theorem step_reclaim (hk : h.Keyed) (ho : (h.session rank slot).Owned) {ok : Bool}
    {name : Name} {token : Token} (hphase : (h.client c).phase = .reclaiming name token) :
    ∃ rank' slot', (h.session rank slot).Step (h.runEvent c ok)
      ((h.reclaim c name token).session rank' slot') := by
  have hstage : (h.client c).life.stage = .outside := by simp [Client.life, hphase, Phase.stage]
  simp only [runEvent, hphase, reclaim]
  cases hp : h.pending.lookup token with
  | some reconnect =>
    refine ⟨Function.update rank c (rank reconnect.client + 1),
      Function.update slot token.participant (.held c),
      step_to (.resume c token.participant reconnect.client reconnect.armed hstage
        (by simp [session, pendingOf, hp])) ?_⟩
    dsimp only
    rw [session_update]
    refine Session.ext ?_ rfl (funext fun q => lookup_insert_token _ _ _ q) (funext fun q => ?_)
      rfl rfl rfl rfl rfl rfl rfl rfl rfl rfl
    · simp [session, Session.setLife, Client.life, Client.participantID, Phase.stage,
        ← hk token reconnect hp, reconnectToken]
    · simp only [session, Session.setLife, pendingOf, lookup_erase_token, Function.update_apply]
      split <;> rfl
  | none =>
    cases hactive : h.activeTokens.lookup token with
    | some previous =>
      have hpid : (h.client previous).participantID = some token.participant :=
        ho.pid_of_active hactive
      refine ⟨Function.update rank c (rank previous + 1),
        Function.update slot token.participant (.held c),
        step_to (.takeover c token.participant previous hstage
          (by simp [session, pendingOf, hp]) hactive) ?_⟩
      dsimp only
      rw [session_update]
      refine Session.ext ?_ rfl (funext fun q => lookup_insert_token _ _ _ q) rfl
        rfl rfl rfl rfl rfl rfl rfl rfl rfl rfl
      simp only [Client.participantID] at hpid
      simp [session, Session.setLife, Client.life, Client.participantID, Phase.stage, hpid]
    | none =>
      exact step_same (session_goto_self (by simp [Client.life, hphase, Phase.stage]))

theorem step_join {ok : Bool} {name : Name}
    (hphase : (h.client c).phase = .joining name) :
    ∃ rank' slot', (h.session rank slot).Step (h.runEvent c ok)
      ((h.join c name).session rank' slot') := by
  have hstage : (h.client c).life.stage = .outside := by simp [Client.life, hphase, Phase.stage]
  simp only [runEvent, hphase, join]
  cases hjoin : h.meeting.join name h.nextID with
  | error err => exact step_same (session_goto_self (by simp [Client.life, hphase, Phase.stage]))
  | ok joined =>
    obtain ⟨hid, hmeeting⟩ := h.meeting.join_ok joined.1 joined.2 hjoin
    refine ⟨rank, Function.update slot h.nextID (.held c), step_to (.join c hstage) ?_⟩
    dsimp only
    rw [session_goto]
    refine Session.ext ?_ (funext fun q => ?_) rfl rfl rfl rfl rfl rfl rfl rfl rfl rfl rfl rfl
    · simp [session, Session.setLife, Session.setStage, Phase.stage, hid]
    · simp [session, Session.setStage, Session.setLife, hmeeting, Meeting.has_store, hid,
        Function.update_apply]

theorem step_enter {ok : Bool} {participant : Participant}
    (hphase : (h.client c).phase = .entering participant) :
    ∃ rank' slot', (h.session rank slot).Step (h.runEvent c ok)
      ((h.enter c participant).session rank' slot') := by
  have hstage : (h.client c).life.stage = .entering participant.id := by
    simp [Client.life, hphase, Phase.stage]
  simp only [runEvent, hphase, enter]
  refine ⟨rank, slot, step_to (.enter c participant.id hstage) ?_⟩
  rw [session_update]
  exact Session.ext rfl rfl (funext fun q => lookup_insert_token _ _ _ q)
    rfl rfl rfl rfl rfl rfl rfl rfl rfl rfl rfl

/-- The participants of the pending entries. -/
theorem mem_pendingIDs (hk : h.Keyed) {q : ParticipantID} :
    q ∈ h.pending.values.map (·.participant.id) ↔ (h.pendingOf q).isSome := by
  simp only [List.mem_map, GoMap.mem_values, pendingOf, Option.isSome_map, Option.isSome_iff_exists]
  constructor
  · rintro ⟨reconnect, ⟨token, ht⟩, rfl⟩
    have htoken := hk token reconnect ht
    exact ⟨reconnect, by rw [← ht, ← htoken]; rfl⟩
  · rintro ⟨reconnect, hr⟩
    exact ⟨reconnect, ⟨_, hr⟩, congrArg Token.participant (hk _ reconnect hr)⟩

/-- What the replay of an admission adds to a roster. -/
theorem inRoster_admissionReplay (hk : h.Keyed) (participant : Participant) (takeover : Bool)
    (out : List Message) (q : ParticipantID) :
    inRoster q (out ++ h.admissionReplay participant takeover) =
      (inRoster q out || (q ≠ participant.id && h.meeting.has q && (h.pendingOf q).isNone)) := by
  have hreplay : ((h.rosterReplay participant).any fun p => p.id = q) =
      (q ≠ participant.id && h.meeting.has q && (h.pendingOf q).isNone) := by
    rw [Bool.eq_iff_iff]
    simp only [rosterReplay, List.any_eq_true, List.mem_filter, decide_eq_true_eq, Bool.and_eq_true]
    constructor
    · rintro ⟨p, ⟨hp, hne, hnot⟩, rfl⟩
      rw [mem_pendingIDs hk] at hnot
      exact ⟨⟨by simpa using hne, Meeting.exists_mem_list_iff.mp ⟨p, hp, rfl⟩⟩, by simpa using hnot⟩
    · rintro ⟨⟨hne, hhas⟩, hnone⟩
      obtain ⟨p, hp, rfl⟩ := Meeting.exists_mem_list_iff.mpr hhas
      refine ⟨p, ⟨hp, by simpa using hne, ?_⟩, rfl⟩
      rw [mem_pendingIDs hk]
      simpa using hnone
  rw [← hreplay]
  simp only [admissionReplay, ← List.append_assoc]
  rw [inRoster_append_neutral, inRoster_append_neutral, inRoster_append_joined,
    inRoster_append_neutral]
  · simp [Message.isRosterNeutral]
  · simp [Message.isRosterNeutral]
  · intro msg hmsg
    split at hmsg
    · simp at hmsg
      simp [hmsg, screenShareMessage, Message.isRosterNeutral]
    · split at hmsg <;> simp at hmsg
      simp [hmsg, screenShareMessage, Message.isRosterNeutral]

theorem step_admission (hk : h.Keyed) {ok : Bool} {p : Participant}
    (hphase : (h.client c).phase = .admitting) (hp : (h.client c).participant = some p) :
    ∃ rank' slot', (h.session rank slot).Step (h.runEvent c ok)
      ((h.admitClient c p ok).session rank' slot') := by
  have hstage : (h.client c).life.stage = .joining := by simp [Client.life, hphase, Phase.stage]
  have hpid : (h.client c).life.pid = some p.id := by simp [Client.life, Client.participantID, hp]
  simp only [runEvent, hphase, admitClient]
  by_cases hclosed : (h.closed || (h.client c).admissionExpired) = true
  · rw [if_pos hclosed, if_pos hclosed]
    refine ⟨rank, slot, step_to (.fail c false (Or.inl ⟨hstage, rfl⟩)) ?_⟩
    rw [session_goto]
    refine Session.ext ?_ rfl rfl rfl rfl rfl rfl rfl rfl rfl rfl rfl rfl rfl
    simp [session, Session.setStage, Session.setLife, Phase.stage, hp, Client.life]
  · rw [if_neg hclosed, if_neg hclosed]
    have hopen : h.closed = false := by
      cases hc : h.closed <;> simp_all
    cases ok with
    | true =>
      refine ⟨rank, slot, step_to (.admission c p.id hstage hpid hopen) ?_⟩
      simp only [if_true]
      rw [session_update]
      refine Session.ext ?_ rfl rfl rfl rfl rfl rfl rfl rfl rfl rfl rfl rfl rfl
      refine congrArg (Function.update (h.session rank slot).life c) (Life.ext rfl rfl rfl rfl rfl rfl rfl rfl (funext fun q => ?_))
      exact inRoster_admissionReplay (h := { h with roomMembers := insert c h.roomMembers }) hk
        p _ _ q
    | false =>
      refine ⟨rank, slot, step_to (.admissionFail c hstage) ?_⟩
      simp only [Bool.false_eq_true, if_false]
      rw [session_goto]
      refine Session.ext ?_ rfl rfl rfl rfl rfl rfl rfl rfl rfl rfl rfl rfl rfl
      simp [session, Session.setStage, Session.setLife, Phase.stage, hp]

/-- The broadcast that ends a join reaches whom the protocol says. -/
theorem session_announced (c : ClientId) (p : Participant) :
    (if (h.client c).activeTakeover then h else h.broadcastExcept c (.joined p)).session rank slot =
      { h.session rank slot with
        life := (h.session rank slot).tell ((h.session rank slot).Hears c) p.id true } := by
  refine Session.ext (funext fun d => ?_) ?_ ?_ ?_ ?_ ?_ ?_ ?_ ?_ ?_ ?_ ?_ ?_ ?_
  · by_cases ht : (h.client c).activeTakeover = true
    · simp [session, Session.tell, Session.Hears, ht, Client.life]
    · have htakeover : (h.client c).life.takeover = false := by simpa [Client.life] using ht
      by_cases hd : d ∈ h.roomMembers ∧ d ≠ c
      · simpa [session, Session.tell, Session.Hears, broadcastExcept, ht, htakeover, hd] using
          life_write_joined (h.client d) p
      · simp [session, Session.tell, Session.Hears, broadcastExcept, ht, htakeover, hd]
  all_goals split <;> rfl

theorem step_announce {ok : Bool} {p : Participant}
    (hphase : (h.client c).phase = .announcing) (hp : (h.client c).participant = some p) :
    ∃ rank' slot', (h.session rank slot).Step (h.runEvent c ok)
      ((h.announce c p).session rank' slot') := by
  have hstage : (h.client c).life.stage = .announcing := by simp [Client.life, hphase, Phase.stage]
  have hpid : (h.client c).life.pid = some p.id := by simp [Client.life, Client.participantID, hp]
  have hself : (if (h.client c).activeTakeover then h else h.broadcastExcept c (.joined p)).client c =
      h.client c := by
    split <;> simp [broadcastExcept]
  simp only [runEvent, hphase, announce]
  refine ⟨rank, slot, step_to (.announce c p.id hstage hpid) ?_⟩
  rw [session_update, session_announced, hself]
  refine congrArg (Session.setLife _ c) (Life.ext ?_ rfl rfl rfl rfl rfl rfl rfl rfl)
  simp [Client.life, Phase.stage, hp]

theorem step_cleanup (hm : (h.session rank slot).Membered) {ok : Bool}
    (hphase : (h.client c).phase = .closing) :
    ∃ rank' slot', (h.session rank slot).Step (h.runEvent c ok)
      ((h.cleanup c).session rank' slot') := by
  simp only [runEvent, hphase, cleanup]
  cases hp : (h.client c).participant with
  | some p =>
    have hstage : (h.client c).life.stage = .closing := by
      simp [Client.life, hphase, Phase.stage, hp]
    refine ⟨rank, slot, step_to (.depart c hstage) ?_⟩
    rw [session_goto]
    rfl
  | none =>
    have hstage : (h.client c).life.stage = .outside := by
      simp [Client.life, hphase, Phase.stage, hp]
    have hmember : c ∉ h.roomMembers := fun hc => by
      have := hm.late c hc
      simp [session, hstage, Stage.early] at this
    obtain ⟨rank', slot', hstep⟩ := step_quit rank slot hstage
    refine ⟨rank', slot', ?_⟩
    simpa [Finset.erase_eq_of_notMem hmember] using hstep

theorem step_disconnect {ok : Bool} {p : Participant}
    (hphase : (h.client c).phase = .disconnecting) (hp : (h.client c).participant = some p) :
    ∃ rank' slot', (h.session rank slot).Step (h.runEvent c ok)
      ((h.disconnect c p).session rank' slot') := by
  have hstage : (h.client c).life.stage = .ending := by simp [Client.life, hphase, Phase.stage]
  have hpid : (h.client c).life.pid = some p.id := by simp [Client.life, Client.participantID, hp]
  simp only [runEvent, hphase, disconnect]
  refine ⟨rank, slot, step_to (.part c p.id hstage hpid) ?_⟩
  rw [session_goto]
  refine Session.ext ?_ rfl (funext fun q => ?_) rfl rfl rfl rfl rfl rfl rfl rfl rfl rfl rfl
  · refine congrArg (Function.update (h.session rank slot).life c) (Life.ext ?_ rfl rfl rfl rfl rfl rfl rfl rfl)
    refine congrArg Stage.parting ?_
    by_cases hactive : h.activeTokens.lookup ⟨p.id⟩ = some c
    · simp [Session.departure, session, Client.life, reconnectToken, hactive]
      rfl
    · simp [Session.departure, session, Client.life, reconnectToken, hactive]
  · by_cases hactive : h.activeTokens.lookup ⟨p.id⟩ = some c
    · simp [session, Session.setStage, Session.setLife, reconnectToken, hactive, lookup_erase_token]
    · simp [session, Session.setStage, Session.setLife, reconnectToken, hactive]

theorem step_settle {ok : Bool} {p : Participant} {departure : Departure}
    (hphase : (h.client c).phase = .parting departure .settle)
    (hp : (h.client c).participant = some p) :
    ∃ rank' slot', (h.session rank slot).Step (h.runEvent c ok)
      ((h.settle c p departure).session rank' slot') := by
  have hstage : (h.client c).life.stage = .parting departure := by
    simp [Client.life, hphase, Phase.stage]
  have hpid : (h.client c).life.pid = some p.id := by simp [Client.life, Client.participantID, hp]
  simp only [runEvent, hphase, settle]
  cases hsup : departure.superseded with
  | true =>
    refine ⟨rank, slot, step_to (.settleSuperseded c departure hstage hsup) ?_⟩
    exact session_goto c _
  | false =>
    have hgives : (h.session rank slot).givesUp c departure =
        ((h.client c).intentionalLeave || h.closed ||
          (!(h.client c).joined && !(h.client c).resumed) || decide (departure.timeout = 0)) := rfl
    simp only [Bool.false_eq_true, if_false]
    by_cases hleave : ((h.client c).intentionalLeave || h.closed ||
        (!(h.client c).joined && !(h.client c).resumed)) = true
    · refine ⟨rank, slot, step_to (.settleRemove c departure hstage hsup ?_) ?_⟩
      · rw [hgives, hleave, Bool.true_or]
      · rw [if_pos hleave]
        exact session_goto c _
    · by_cases htimeout : departure.timeout = 0
      · refine ⟨rank, slot, step_to (.settleRemove c departure hstage hsup ?_) ?_⟩
        · simp [hgives, htimeout]
        · rw [if_neg hleave, if_pos htimeout]
          exact session_goto c _
      · refine ⟨rank, Function.update slot p.id (.graced c),
          step_to (.settleGrace c p.id departure hstage hpid hsup ?_) ?_⟩
        · rw [hgives]
          simpa [htimeout] using hleave
        · rw [if_neg hleave, if_neg htimeout, session_goto]
          refine Session.ext rfl rfl rfl (funext fun q => ?_) rfl rfl rfl rfl rfl rfl rfl rfl rfl rfl
          simp only [session, Session.setStage, Session.setLife, pendingOf, lookup_insert_token,
            Function.update_apply, reconnectToken]
          split <;> rfl

theorem step_leave {ok : Bool} {p : Participant}
    (hphase : (h.client c).phase = .leaving) (hp : (h.client c).participant = some p) :
    ∃ rank' slot', (h.session rank slot).Step (h.runEvent c ok)
      ((h.leave c p).session rank' slot') := by
  have hstage : (h.client c).life.stage = .removing := by simp [Client.life, hphase, Phase.stage]
  have hpid : (h.client c).life.pid = some p.id := by simp [Client.life, Client.participantID, hp]
  simp only [runEvent, hphase, leave]
  refine ⟨rank, Function.update slot p.id .free, step_to (.leave c p.id hstage hpid) ?_⟩
  rw [session_goto]
  refine Session.ext ?_ (funext fun q => ?_) rfl rfl rfl rfl rfl rfl rfl rfl rfl rfl rfl rfl
  · refine congrArg (Function.update (h.session rank slot).life c) (Life.ext ?_ rfl rfl rfl rfl rfl rfl rfl rfl)
    by_cases hcast : ((h.client c).announced && h.meeting.has p.id) = true
    · have hcast' : ((h.client c).life.announced && h.meeting.has p.id) = true := hcast
      simp only [session, Meeting.leave_snd, hcast, hcast', if_true]
      rfl
    · have hcast' : ¬ ((h.client c).life.announced && h.meeting.has p.id) = true := hcast
      simp only [session, Meeting.leave_snd, hcast, hcast']
      rfl
  · simp [session, Session.setStage, Session.setLife, Meeting.has_leave, Function.update_apply]

theorem session_left (p : Participant) :
    (h.broadcastToRoom (.left p)).session rank slot =
      { h.session rank slot with
        life := (h.session rank slot).tell (· ∈ (h.session rank slot).members) p.id false } := by
  refine Session.ext (funext fun d => ?_) rfl rfl rfl rfl rfl rfl rfl rfl rfl rfl rfl rfl rfl
  by_cases hd : d ∈ h.roomMembers
  · simpa [session, Session.tell, broadcastToRoom, hd] using life_write_left (h.client d) p
  · simp [session, Session.tell, broadcastToRoom, hd]

theorem step_castLeft {ok : Bool} {p : Participant}
    (hphase : (h.client c).phase = .casting) (hp : (h.client c).participant = some p) :
    ∃ rank' slot', (h.session rank slot).Step (h.runEvent c ok)
      (((h.broadcastToRoom (.left p)).goto c .scheduling).session rank' slot') := by
  have hstage : (h.client c).life.stage = .casting := by simp [Client.life, hphase, Phase.stage]
  have hpid : (h.client c).life.pid = some p.id := by simp [Client.life, Client.participantID, hp]
  simp only [runEvent, hphase]
  refine ⟨rank, slot, step_to (.castLeft c p.id hstage hpid) ?_⟩
  rw [session_goto, session_left]
  rfl

theorem step_armGrace {ok : Bool} {p : Participant}
    (hphase : (h.client c).phase = .armingGrace) (hp : (h.client c).participant = some p) :
    ∃ rank' slot', (h.session rank slot).Step (h.runEvent c ok)
      ((h.armGrace c p).session rank' slot') := by
  have hstage : (h.client c).life.stage = .notifying ∅ := by simp [Client.life, hphase, Phase.stage]
  have hpid : (h.client c).life.pid = some p.id := by simp [Client.life, Client.participantID, hp]
  simp only [runEvent, hphase]
  refine ⟨rank, slot, step_to (.arm c p.id hstage hpid) ?_⟩
  simp only [armGrace]
  have hentry : (h.session rank slot).pending p.id =
      (h.pending.lookup (reconnectToken p)).map fun reconnect => (reconnect.client, reconnect.armed) :=
    rfl
  by_cases hown : ((h.session rank slot).pending p.id).map Prod.fst = some c
  · rw [hentry] at hown
    obtain ⟨reconnect, hp', hc⟩ : ∃ reconnect, h.pending.lookup (reconnectToken p) = some reconnect ∧
        reconnect.client = c := by simpa using hown
    simp only [hp', hc, if_true]
    rw [session_goto]
    refine Session.ext rfl rfl rfl ?_ rfl rfl rfl rfl rfl rfl rfl rfl rfl rfl
    rw [← hentry] at hown
    dsimp only
    rw [if_pos hown]
    funext q
    simp only [session, Session.setStage, Session.setLife, pendingOf, lookup_insert_token,
      Function.update_apply, reconnectToken]
    split <;> simp
  · have hsame : h.armGrace c p = h.goto c .finished := by
      rw [hentry] at hown
      unfold armGrace
      cases hp' : h.pending.lookup (reconnectToken p) with
      | none => rfl
      | some reconnect =>
        have hc : reconnect.client ≠ c := by simpa [hp'] using hown
        simp [hc]
    have hgoto := @session_goto h rank slot c .finished
    rw [armGrace] at hsame
    rw [hsame, hgoto]
    refine Session.ext rfl rfl rfl ?_ rfl rfl rfl rfl rfl rfl rfl rfl rfl rfl
    dsimp only
    rw [if_neg hown]
    rfl

theorem step_notify {p : Participant} {clients : Finset ClientId}
    (hphase : (h.client c).phase = .notifying clients) (hp : (h.client c).participant = some p)
    (hd : d ∈ clients) :
    ∃ rank' slot', (h.session rank slot).Step (.notify c d)
      (((h.write d (.left p)).goto c (.notifying (clients.erase d))).session rank' slot') := by
  have hstage : (h.client c).life.stage = .notifying clients := by
    simp [Client.life, hphase, Phase.stage]
  have hpid : (h.client c).life.pid = some p.id := by simp [Client.life, Client.participantID, hp]
  refine ⟨rank, slot, step_to (.notify c d p.id clients hstage hpid hd) ?_⟩
  rw [session_goto, write, session_update, life_write_left]
  rfl

theorem step_graceFire {p : Participant} {reconnect : PendingReconnect}
    (hp : (h.client c).participant = some p)
    (hentry : h.pending.lookup (reconnectToken p) = some reconnect) (hc : reconnect.client = c)
    (harmed : reconnect.armed = true) :
    ∃ rank' slot', (h.session rank slot).Step (.expire c)
      (({ h with pending := h.pending.erase (reconnectToken p) }.setReaper c
        .unregistering).session rank' slot') := by
  have hpid : (h.client c).life.pid = some p.id := by simp [Client.life, Client.participantID, hp]
  refine ⟨rank, Function.update slot p.id (.reaping c), step_to (.expire c p.id hpid ?_) ?_⟩
  · simp only [session, pendingOf]
    rw [← reconnectToken, hentry]
    simp [hc, harmed]
  · rw [setReaper, session_update]
    refine Session.ext rfl rfl rfl (funext fun q => ?_) rfl rfl rfl rfl rfl rfl rfl rfl rfl rfl
    simp only [session, Session.setLife, pendingOf, lookup_erase_token, Function.update_apply,
      reconnectToken]
    split <;> rfl

theorem session_closePeer : (h.closePeer c).session rank slot = h.session rank slot :=
  session_update_self rfl

theorem session_setReaper {reaper : Reaper}
    (hreaper : reaper.reaping = (h.client c).reaper.reaping) :
    (h.setReaper c reaper).session rank slot = h.session rank slot :=
  session_update_self (Life.ext rfl rfl rfl rfl rfl rfl rfl hreaper rfl)

theorem step_reapLeave {p : Participant} (hp : (h.client c).participant = some p)
    (hreaper : (h.client c).reaper = .leaving) :
    ∃ rank' slot', (h.session rank slot).Step (h.event (.reap c))
      (({ h with meeting := (h.meeting.leave p.id).1 }.setReaper c .forgetting).session
        rank' slot') := by
  have hpid : (h.client c).life.pid = some p.id := by simp [Client.life, Client.participantID, hp]
  have hreaping : (h.client c).life.reaping = true := by
    simp [Client.life, hreaper, Reaper.reaping]
  simp only [event, hreaper, if_true]
  refine ⟨rank, Function.update slot p.id .free, step_to (.reapLeave c p.id hreaping hpid) ?_⟩
  rw [setReaper, session_update]
  refine Session.ext rfl (funext fun q => ?_) rfl rfl rfl rfl rfl rfl rfl rfl rfl rfl rfl rfl
  simp [session, Session.setLife, Meeting.has_leave, Function.update_apply]

theorem step_close (hk : h.Keyed) :
    ∃ rank' slot', (h.session rank slot).Step .close (h.close.session rank' slot') := by
  refine ⟨rank, fun p => if (h.pendingOf p).isSome then .closing else slot p,
    step_to (.close h.close.closingIDs fun p => ?_) ?_⟩
  · simp only [close, Finset.mem_union, List.mem_toFinset, mem_pendingIDs hk]
    rfl
  · obtain ⟨timers, ht⟩ := h.stopExpiry_eq
    rw [close, clearChatHistory, ht]
    rfl

theorem step_closeLeave {id : ParticipantID} (hid : id ∈ h.closingIDs) :
    ∃ rank' slot', (h.session rank slot).Step (.closeLeave id)
      (session { h with closingIDs := h.closingIDs.erase id, meeting := (h.meeting.leave id).1 }
        rank' slot') := by
  refine ⟨rank, Function.update slot id .free, step_to (.closeLeave id hid) ?_⟩
  refine Session.ext rfl (funext fun q => ?_) rfl rfl rfl rfl rfl rfl rfl rfl rfl rfl rfl rfl
  simp [session, Meeting.has_leave, Function.update_apply]

/-! ## Sections that move nobody, and the rest of a handler -/

theorem session_releasePending : (h.releasePending c).session rank slot = h.session rank slot := by
  unfold releasePending
  split
  · exact session_update_self rfl
  · rfl

theorem session_requestScreenShare {active : Bool} {streamID trackID : String} {handler : Handler}
    (hphase : (h.client c).phase = .handling handler) :
    (h.requestScreenShare c active streamID trackID).session rank slot = h.session rank slot := by
  have hstage : (h.client c).life.stage = Phase.stage .reading (h.client c).participant.isSome := by
    rw [Client.life, hphase]
    rfl
  have hset : ∀ (sharer : Option ClientId) (stream track : String),
      ({ h with screenSharer := sharer }.update c fun me => { me with
        activeScreenMediaStreamID := stream, activeScreenMediaTrackID := track }).session rank slot =
        h.session rank slot := fun _ _ _ => session_update_self rfl
  unfold requestScreenShare
  dsimp only
  split
  · exact session_goto_of (session_refuse c _) hstage.symm
  · refine session_goto_of ?_ hstage.symm
    split
    · exact hset _ _ _
    · split
      · exact hset _ _ _
      · rfl

/-- A message handler moves nobody. -/
theorem session_runHandler {p : Participant} {handler : Handler}
    (hphase : (h.client c).phase = .handling handler) (hp : (h.client c).participant = some p) :
    (h.runHandler c p handler).session rank slot = h.session rank slot := by
  have hstage : (h.client c).life.stage = Phase.stage .reading (h.client c).participant.isSome := by
    rw [Client.life, hphase]
    rfl
  cases handler with
  | relaying state =>
    exact session_goto_of (session_broadcastExcept_of_neutral c rfl) hstage.symm
  | reacting id name emoji =>
    exact session_goto_of (session_broadcastToRoom_of_neutral rfl) hstage.symm
  | raising changed =>
    cases changed with
    | nil => exact session_goto_self hstage.symm
    | cons q changed =>
      refine session_goto_of ?_ hstage.symm
      split
      · rename_i hq
        exact session_update_self (Life.ext (by simp [Client.life, hp]) (by simp [Client.life, Client.participantID, hp, hq]) rfl rfl rfl rfl rfl rfl rfl)
      · rfl
  | raisedCast q changed =>
    exact session_goto_of (session_broadcastToRoom_of_neutral rfl) hstage.symm
  | sharing active streamID trackID => exact session_requestScreenShare hphase
  | shared active change =>
    refine session_goto_of (g := { h with media := _ }) rfl ?_
    cases change <;> exact hstage.symm
  | sharedCast owner =>
    exact session_goto_of (session_broadcastToRoom_of_neutral rfl) hstage.symm
  | chatting msg entry =>
    exact session_goto_of (session_recordAndBroadcastChat c msg entry) hstage.symm

/-- Between its two decisions a departure moves nobody. -/
theorem session_runTeardown {p : Participant} {departure : Departure} {at_ : Teardown}
    (hat : at_ ≠ .settle) (hphase : (h.client c).phase = .parting departure at_) :
    (h.runTeardown c p departure at_).session rank slot = h.session rank slot := by
  have hstage : (h.client c).life.stage = .parting departure := by rw [Client.life, hphase]; rfl
  cases at_ with
  | unregister => exact session_goto_of (g := { h with media := _ }) rfl hstage.symm
  | closePeer => exact session_goto_of session_closePeer hstage.symm
  | releaseScreen =>
    simp only [runTeardown, releaseScreenShare]
    split
    · exact session_update_self (Life.ext hstage.symm rfl rfl rfl rfl rfl rfl rfl rfl)
    · exact session_goto_self hstage.symm
  | unpublish => exact session_goto_of (g := { h with media := _ }) rfl hstage.symm
  | screenCast => exact session_goto_of (session_broadcastToRoom_of_neutral rfl) hstage.symm
  | settle => exact absurd rfl hat

theorem step_run (hk : h.Keyed) (ho : (h.session rank slot).Owned)
    (hm : (h.session rank slot).Membered) {ok : Bool} (hrun : h.Runs c ok h') :
    ∃ rank' slot', (h.session rank slot).Step (h.runEvent c ok) (h'.session rank' slot') := by
  have hstage : ∀ phase, (h.client c).phase = phase →
      (h.client c).life.stage = phase.stage (h.client c).participant.isSome := by
    rintro _ rfl
    rfl
  -- before a participant is known there is none, and after there is one
  have hnone : (h.client c).life.stage = .outside → (h.client c).participant = none := fun hout => by
    have hpid := ho.fresh c (Or.inl (by simp [session, Life.kind, hout, Stage.kind]))
    simpa [session, Client.life, Client.participantID] using hpid
  have hsome : (h.client c).life.kind = .present → (h.client c).participant.isSome = true :=
    fun hpresent => by
      have hknown := ho.known c
      simp only [session, hpresent] at hknown
      cases hp : (h.client c).participant with
      | none => simp [Client.life, Client.participantID, hp] at hknown
      | some p => rfl
  cases hrun with
  | upgrading hphase =>
    simp only [runEvent, hphase]
    cases ok with
    | true => exact step_same (session_goto_self (hstage _ hphase).symm)
    | false => exact step_quit _ _ (hstage _ hphase)
  | opening hphase =>
    simp only [runEvent, hphase]
    split
    · exact step_quit _ _ (hstage _ hphase)
    · refine step_same (session_goto_self ?_)
      rw [hnone (hstage _ hphase), hstage _ hphase]
      rfl
  | reclaiming name token hphase => exact step_reclaim hk ho hphase
  | joining name hphase => exact step_join hphase
  | refusing err hphase =>
    simp only [runEvent, hphase]
    refine step_same (session_goto_of ((session_refuse c _).trans ?_) ?_)
    · cases err with
      | meetingFull => exact session_broadcastToRoom_of_neutral rfl
      | invalidName => rfl
    · rw [hnone (hstage _ hphase), hstage _ hphase]
      rfl
  | entering participant hphase => exact step_enter hphase
  | superseding previous hphase =>
    simp only [runEvent, hphase]
    refine step_same (session_goto_of ?_ (hstage _ hphase).symm)
    split
    · exact session_update_self rfl
    · rfl
  | waiting previous hphase hover =>
    simp only [runEvent, hphase]
    refine ⟨rank, slot, step_to (.proceed c previous (hstage _ hphase) ?_) (session_goto c _)⟩
    simp [session, Client.life, hover, Phase.stage]
  | cancelling hphase =>
    simp only [runEvent, hphase]
    exact step_same (session_goto_of session_cancelChatHistoryExpiry (hstage _ hphase).symm)
  | peering hphase =>
    simp only [runEvent, hphase, newPeer]
    cases ok with
    | true =>
      refine step_same (session_update_self (f := fun me => { me with
        phase := .registering, hasPeer := true }) ?_)
      exact Life.ext (hstage _ hphase).symm rfl rfl rfl rfl rfl rfl rfl rfl
    | false =>
      refine ⟨rank, slot, step_to (.fail c false (Or.inl ⟨hstage _ hphase, rfl⟩)) ?_⟩
      have hp := hsome (by rw [Life.kind, hstage _ hphase]; rfl)
      simp only [Bool.false_eq_true, if_false]
      rw [session_goto, session_refuse]
      refine congrArg (Session.setLife _ c) (Life.ext ?_ rfl rfl rfl rfl ?_ rfl rfl rfl)
      · simp [refuse, write, client_update, Client.write, hp, Phase.stage]
      · simp [session]
  | registering p hp hphase =>
    simp only [runEvent, hphase]
    exact step_same (session_goto_of (g := { h with media := _ }) rfl (hstage _ hphase).symm)
  | admitting p hp hphase => exact step_admission hk hphase hp
  | releasing hphase =>
    simp only [runEvent, hphase]
    exact step_same (session_goto_of session_releasePending (hstage _ hphase).symm)
  | announcing p hp hphase => exact step_announce hphase hp
  | handling p handler hp hphase =>
    simp only [runEvent, hphase]
    exact step_same (session_runHandler hphase hp)
  | closing hphase => exact step_cleanup hm hphase
  | disconnecting p hp hphase => exact step_disconnect hphase hp
  | parting p departure at_ hp hphase =>
    by_cases hat : at_ = .settle
    · subst hat
      exact step_settle hphase hp
    · have hevent : h.runEvent c ok = .draw := by
        cases at_ <;> simp_all [runEvent]
      rw [hevent]
      exact step_same (session_runTeardown hat hphase)
  | forgetting p hp hphase =>
    simp only [runEvent, hphase]
    exact step_same (session_goto_of (g := h.forgetMediaState p.id) rfl (hstage _ hphase).symm)
  | leaving p hp hphase => exact step_leave hphase hp
  | casting p hp hphase => exact step_castLeft hphase hp
  | scheduling hphase =>
    simp only [runEvent, hphase]
    exact step_same (session_goto_self (by rw [hstage _ hphase]; split <;> rfl))
  | arming hphase =>
    simp only [runEvent, hphase]
    obtain ⟨hs, hnext⟩ := h.session_scheduleChatHistoryExpiry rank slot
    refine step_draw ?_ hnext
    rw [session_goto, hs, client_scheduleChatHistoryExpiry]
    exact setLife_self _ c _ (Life.ext (hstage _ hphase).symm rfl rfl rfl rfl rfl rfl rfl rfl)
  | notifying hphase =>
    simp only [runEvent, hphase]
    exact step_same (session_goto_self (hstage _ hphase).symm)
  | armingGrace p hp hphase => exact step_armGrace hphase hp
  | finished hphase hreserved =>
    simp only [runEvent, hphase]
    exact step_same session_releasePending

/-! ## Every step is an event -/

theorem session_countJoin : (h.countJoin c).session rank slot = h.session rank slot :=
  session_update_self rfl

/-- What the read loop does moves only a client that leaves. -/
theorem step_receive {input : Option Request} (hphase : (h.client c).phase = .reading)
    (hreceive : h.Receives c input h') :
    ∃ rank' slot', (h.session rank slot).Step (h.receiveEvent c input)
      (h'.session rank' slot') := by
  have hstage : (h.client c).life.stage = Phase.stage .reading (h.client c).participant.isSome := by
    rw [Client.life, hphase]
  have hgoto : ∀ {g : Hub} {handler : Handler}, g.session rank slot = h.session rank slot →
      (g.goto c (.handling handler)).session rank slot = h.session rank slot := fun hg =>
    session_goto_of hg hstage.symm
  have hdraw : ∀ request, (∀ p, (h.client c).participant = some p → request ≠ .leave p.id) →
      h.receiveEvent c (some request) = .draw := by
    intro request hstay
    unfold receiveEvent
    split
    · simp_all
    · rename_i id p hinput hp
      have := hstay p hp
      grind
    · rfl
  cases hreceive with
  | lost =>
    cases hp : (h.client c).participant with
    | none =>
      simp only [receiveEvent, hp]
      exact step_same (session_goto_self (by rw [hstage, hp]; rfl))
    | some p =>
      rw [hp] at hstage
      simp only [receiveEvent, hp]
      refine ⟨rank, slot, step_to (.fail c false (Or.inr hstage)) ?_⟩
      rw [session_goto]
      refine congrArg (Session.setLife _ c) (Life.ext ?_ rfl rfl rfl rfl ?_ rfl rfl rfl)
      · simp [hp, Phase.stage]
      · simp [session]
  | ignored request hstay =>
    rw [hdraw request hstay]
    exact step_same rfl
  | refused request text hstay =>
    rw [hdraw request hstay]
    exact step_same (session_refuse c _)
  | refusedJoin request text hp =>
    rw [hdraw request (by simp [hp])]
    exact step_same ((session_refuse c _).trans session_countJoin)
  | expelled request text hp =>
    rw [hdraw request (by simp [hp])]
    refine step_same (session_goto_of ((session_refuse c _).trans session_countJoin) ?_)
    rw [hstage, hp]
    rfl
  | reclaiming request name token hp =>
    rw [hdraw request (by simp [hp])]
    refine step_same (session_goto_of session_countJoin ?_)
    rw [hstage, hp]
    rfl
  | joining request name hp =>
    rw [hdraw request (by simp [hp])]
    refine step_same (session_goto_of session_countJoin ?_)
    rw [hstage, hp]
    rfl
  | leave p hp =>
    rw [hp] at hstage
    simp only [receiveEvent, hp, if_true]
    refine ⟨rank, slot, step_to (.fail c true (Or.inr hstage)) ?_⟩
    rw [session_update]
    refine congrArg (Session.setLife _ c) (Life.ext ?_ rfl rfl rfl rfl ?_ rfl rfl rfl)
    · simp [Client.life, hp, Phase.stage]
    · simp [Client.life]
  | mediaState p audio video paused hp => exact step_same (hgoto (g := { h with mediaStates := _ }) rfl)
  | videoSubscriptions p ids layer hp => exact step_same (g := { h with media := _ }) rfl
  | handState p raised meeting changed hp hraised =>
    refine step_same (hgoto (g := { h with meeting := meeting }) ?_)
    exact Session.ext rfl (funext fun q => Meeting.has_setRaisedHand hraised q)
      rfl rfl rfl rfl rfl rfl rfl rfl rfl rfl rfl rfl
  | retainedChat p text hp hretain =>
    refine step_draw (g := ({ h with nextID := h.nextID + 1 } : Hub).goto c _) ?_ (Nat.le_succ _)
    rw [session_goto]
    exact setLife_self _ c _ (Life.ext hstage.symm rfl rfl rfl rfl rfl rfl rfl rfl)
  | screenShare _ _ _ _ _ _ | chat _ _ _ _ | reaction _ _ _ => exact step_same (hgoto rfl)

/-- **Each step of a hub is the event of its label.** -/
theorem step_event (hk : h.Keyed) (ho : (h.session rank slot).Owned)
    (hm : (h.session rank slot).Membered) {l : Label} (hstep : h.Steps l h') :
    ∃ rank' slot', (h.session rank slot).Step (h.event l) (h'.session rank' slot') := by
  cases hstep with
  | connect c hphase => exact step_reserve hphase
  | receive c allowed input _ hphase hreceive => exact step_receive hphase hreceive
  | run c ok _ hrun => exact step_run hk ho hm hrun
  | notify c d p clients hphase hp hd => exact step_notify hphase hp hd
  | expireAdmission c hphase =>
    refine step_same ?_
    unfold expireAdmission
    split
    · rfl
    · exact session_update_self rfl
  | graceFire c p reconnect hp hentry hc harmed => exact step_graceFire hp hentry hc harmed
  | reapUnregister c p hp hreaper =>
    simp only [event, hreaper, reduceCtorEq, if_false]
    exact step_same (session_setReaper (by rw [hreaper]; rfl))
  | reapClosePeer c p hp hreaper =>
    simp only [event, hreaper, reduceCtorEq, if_false]
    refine step_same ((session_setReaper ?_).trans session_closePeer)
    simp [closePeer, client_update, hreaper, Reaper.reaping]
  | reapLeave c p hp hreaper => exact step_reapLeave hp hreaper
  | reapForget c p hp hreaper =>
    simp only [event, hreaper, reduceCtorEq, if_false]
    exact step_same (session_setReaper (by simp [forgetMediaState, hreaper, Reaper.reaping]))
  | reapSchedule c p hp hreaper =>
    simp only [event, hreaper, reduceCtorEq, if_false]
    refine step_same (session_setReaper ?_)
    rw [hreaper]
    split <;> rfl
  | reapArm c p hp hreaper =>
    simp only [event, hreaper, reduceCtorEq, if_false]
    obtain ⟨hs, hnext⟩ := h.session_scheduleChatHistoryExpiry rank slot
    refine step_draw ((session_setReaper ?_).trans hs) hnext
    rw [client_scheduleChatHistoryExpiry, hreaper]
    rfl
  | closeSuperseded c htimer => exact step_same (session_closePeer.trans (session_update_self rfl))
  | close => exact step_close hk
  | closeLeave id hid => exact step_closeLeave hid
  | adminLimit a cfg hadmin =>
    refine step_same (Session.ext rfl (funext fun q => ?_) rfl rfl rfl rfl rfl rfl rfl rfl rfl rfl rfl rfl)
    exact Meeting.has_setMaxParticipants _ _ q
  | adminRelease a cfg hadmin =>
    refine step_same ?_
    unfold releaseDisabledShare
    split
    · split
      · rfl
      · exact session_update_self (h := { h with screenSharer := none }) (f := fun me => { me with
          activeScreenMediaStreamID := "", activeScreenMediaTrackID := "" }) rfl
    · rfl
  | adminPause a cfg released hadmin => cases released <;> exact step_same rfl
  | adminAnnounce a cfg released hadmin =>
    exact step_same (session_broadcastToRoom_of_neutral rfl)
  | adminClear a cfg released hadmin =>
    refine step_same ?_
    split
    · rfl
    · exact session_clearChatHistory
  | adminScreenCast a hadmin => exact step_same (session_broadcastToRoom_of_neutral rfl)
  | chatTimer _ _ | chatCheck _ _ | chatDelete _ _ | adminUpdate _ _ _ | adminSnapshot _ _
    | onTrack _ _ _ _ | trackStarted _ _ _ _ _ _ _ | trackChecked _ _ _ _ _ _
    | trackPublish _ _ _ _ _ _ _ _ _ | trackOp _ _ _ _ | readStop _ _ _ => exact step_same rfl

/-! ## Pending entries under their tokens -/

/-- The pending entries after a step, by the step. -/
inductive PendingChange (h : Hub) : Label → GoMap Token PendingReconnect → Prop
  | same (l : Label) : PendingChange h l h.pending
  | taken (c : ClientId) (ok : Bool) (name : Name) (token : Token) (reconnect : PendingReconnect)
      (hphase : (h.client c).phase = .reclaiming name token)
      (hentry : h.pending.lookup token = some reconnect) :
      PendingChange h (.run c ok) (h.pending.erase token)
  | handed (c : ClientId) (ok : Bool) (p : Participant) (departure : Departure)
      (hp : (h.client c).participant = some p)
      (hphase : (h.client c).phase = .parting departure .settle)
      (hsuperseded : departure.superseded = false) :
      PendingChange h (.run c ok) (h.pending.insert (reconnectToken p) ⟨p, c, false⟩)
  | armed (c : ClientId) (ok : Bool) (p : Participant) (reconnect : PendingReconnect)
      (hp : (h.client c).participant = some p) (hphase : (h.client c).phase = .armingGrace)
      (hentry : h.pending.lookup (reconnectToken p) = some reconnect)
      (hc : reconnect.client = c) :
      PendingChange h (.run c ok)
        (h.pending.insert (reconnectToken p) { reconnect with armed := true })
  | fired (c : ClientId) (p : Participant) (reconnect : PendingReconnect)
      (hp : (h.client c).participant = some p)
      (hentry : h.pending.lookup (reconnectToken p) = some reconnect)
      (hc : reconnect.client = c) (harmed : reconnect.armed = true) :
      PendingChange h (.graceFire c) (h.pending.erase (reconnectToken p))
  | closed : PendingChange h .close ∅

theorem pending_stopExpiry : h.stopExpiry.pending = h.pending := by
  obtain ⟨timers, ht⟩ := h.stopExpiry_eq
  rw [ht]

theorem pending_scheduleChatHistoryExpiry : h.scheduleChatHistoryExpiry.pending = h.pending := by
  unfold scheduleChatHistoryExpiry
  cases h.chatHistory with
  | none => rfl
  | some history => exact pending_stopExpiry

theorem pending_runHandler {p : Participant} {handler : Handler} :
    (h.runHandler c p handler).pending = h.pending := by
  cases handler with
  | raising changed =>
    cases changed with
    | nil => rfl
    | cons q changed =>
      simp only [runHandler, goto, update]
      split <;> rfl
  | sharing active streamID trackID =>
    simp only [runHandler, requestScreenShare]
    split
    · rfl
    · simp only [goto, update]
      split
      · rfl
      · split <;> rfl
  | chatting msg entry =>
    cases entry with
    | none => rfl
    | some entry => exact pending_stopExpiry
  | relaying _ | reacting _ _ _ | raisedCast _ _ | shared _ _ | sharedCast _ => rfl

theorem pending_run {ok : Bool} (hrun : h.Runs c ok h') :
    h.PendingChange (.run c ok) h'.pending := by
  cases hrun with
  | reclaiming name token hphase =>
    unfold reclaim
    cases hentry : h.pending.lookup token with
    | some reconnect => exact .taken c ok name token reconnect hphase hentry
    | none => cases h.activeTokens.lookup token <;> exact .same _
  | superseding previous hphase =>
    simp only [supersede, goto, update]
    split <;> exact .same _
  | joining name hphase =>
    unfold join
    split <;> exact .same _
  | refusing err hphase => cases err <;> exact .same _
  | cancelling hphase =>
    rw [show (h.cancelChatHistoryExpiry.goto c .peering).pending = h.pending from
      pending_stopExpiry]
    exact .same _
  | peering hphase => cases ok <;> exact .same _
  | admitting p hp hphase =>
    unfold admitClient
    split
    · exact .same _
    · cases ok <;> exact .same _
  | releasing hphase =>
    simp only [releasePending, goto, update]
    split <;> exact .same _
  | announcing p hp hphase =>
    simp only [announce, update]
    split <;> exact .same _
  | handling p handler hp hphase =>
    rw [pending_runHandler]
    exact .same _
  | parting p departure at_ hp hphase =>
    cases at_ with
    | settle =>
      simp only [runTeardown, settle]
      split
      · exact .same _
      · split
        · exact .same _
        · split
          · exact .same _
          · exact .handed c ok p departure hp hphase (Bool.eq_false_iff.mpr ‹_›)
    | releaseScreen =>
      simp only [runTeardown, releaseScreenShare]
      split <;> exact .same _
    | unregister | closePeer | unpublish | screenCast => exact .same _
  | arming hphase =>
    rw [show (h.scheduleChatHistoryExpiry.goto c .finished).pending = h.pending from
      pending_scheduleChatHistoryExpiry]
    exact .same _
  | armingGrace p hp hphase =>
    unfold armGrace
    cases hentry : h.pending.lookup (reconnectToken p) with
    | none => exact .same _
    | some reconnect =>
      dsimp only
      split
      · exact .armed c ok p reconnect hp hphase hentry ‹_›
      · exact .same _
  | finished hphase hreserved =>
    simp only [releasePending]
    split <;> exact .same _
  | upgrading _ | opening _ | waiting _ _ _ | entering _ _ | registering _ _ _ | closing _
    | disconnecting _ _ _ | forgetting _ _ _ | leaving _ _ _ | casting _ _ _ | scheduling _
    | notifying _ => exact .same _

/-- **What a step does to the pending entries.** -/
theorem pending_step {l : Label} (hstep : h.Steps l h') : h.PendingChange l h'.pending := by
  cases hstep with
  | run c ok _ hrun => exact pending_run hrun
  | receive c allowed input _ hphase hreceive => cases hreceive <;> exact .same _
  | connect c hphase =>
    unfold reserve
    split <;> exact .same _
  | expireAdmission c hphase =>
    unfold expireAdmission
    split <;> exact .same _
  | graceFire c p reconnect hp hentry hc harmed => exact .fired c p reconnect hp hentry hc harmed
  | reapArm c p hp hreaper =>
    rw [show (h.scheduleChatHistoryExpiry.setReaper c .done).pending = h.pending from
      pending_scheduleChatHistoryExpiry]
    exact .same _
  | close => exact .closed
  | adminRelease a cfg hadmin =>
    unfold releaseDisabledShare
    repeat' split
    all_goals exact .same _
  | adminPause a cfg released hadmin => cases released <;> exact .same _
  | adminClear a cfg released hadmin =>
    split
    · exact .same _
    · rw [show (h.clearChatHistory.setAdmin a (if released then .screenCast else .idle)).pending =
        h.pending from pending_stopExpiry]
      exact .same _
  | _ => exact .same _

theorem Keyed.step (hk : h.Keyed) {l : Label} (hstep : h.Steps l h') : h'.Keyed := by
  have hpending := pending_step hstep
  intro token reconnect' ht
  generalize h'.pending = pending at ht hpending
  cases hpending with
  | same _ => exact hk token reconnect' ht
  | taken _ _ _ _ _ _ _ | fired _ _ _ _ _ _ _ =>
    rw [GoMap.lookup_erase] at ht
    split at ht
    · cases ht
    · exact hk token reconnect' ht
  | handed c ok p departure hp hphase hsuperseded =>
    rw [GoMap.lookup_insert] at ht
    split at ht
    · next heq =>
      cases ht
      exact heq.symm
    · exact hk token reconnect' ht
  | armed c ok p reconnect hp hphase hentry hc =>
    rw [GoMap.lookup_insert] at ht
    split at ht
    · next heq =>
      cases ht
      exact (hk _ reconnect hentry).trans heq.symm
    · exact hk token reconnect' ht
  | closed => cases ht

/-! ## The simulation -/

/-- The session a hub is at, at some rank and slot. -/
def At (h : Hub) (s : Session) : Prop := ∃ rank slot, s = h.session rank slot

/-- **Every run of the hub is one of the session protocol.** A condition on
the hub's steps may carry over to their events. -/
theorem reachable_session {cfg : Config} {ok : Hub → Label → Prop}
    (okS : Session → Session.Event → Prop)
    (hok : ∀ h l rank slot, ok h l → okS (h.session rank slot) (h.event l))
    (hr : (lts cfg).Reachable ok h) :
    h.Keyed ∧ ∃ s, (Session.lts cfg.reconnectTimeout).Reachable okS s ∧ h.At s := by
  have hkeyed : ∀ {g}, (lts cfg).Reachable ok g → g.Keyed := fun hg =>
    hg.invariant_ofStep (by simp [Keyed, Hub.new]) fun _ _ _ hk _ htr =>
      hk.step (steps_of_step htr)
  refine ⟨hkeyed hr, hr.simulate (fun g s => g.At s) ?_ ?_⟩
  · rintro _ rfl
    exact ⟨_, rfl, fun _ => 0, fun _ => .free, rfl⟩
  · rintro g l g' _ hg hs ⟨rank, slot, rfl⟩ hokg htr
    obtain ⟨rank', slot', hstep⟩ := step_event (hkeyed hg) (.reachable hs) (.reachable hs)
      (steps_of_step htr)
    exact ⟨_, _, hok g l rank slot hokg, hstep, rank', slot', rfl⟩

/-- The slots are owned in every reachable hub. -/
theorem owned_of_reachable {cfg : Config} {ok : Hub → Label → Prop}
    (hr : (lts cfg).Reachable ok h) :
    h.Keyed ∧ ∃ rank slot, (h.session rank slot).Owned ∧ (h.session rank slot).Membered := by
  obtain ⟨hk, _, hs, rank, slot, rfl⟩ := reachable_session Lts.Any (fun _ _ _ _ _ => trivial) hr
  exact ⟨hk, rank, slot, .reachable hs, .reachable hs⟩

end Hub

end SlowMeet.Signaling
