import SlowMeet.Signaling.Frame

/-!
# What a step writes

`sent d l` is what the step `l` appends to the queue of the client `d`,
errors of the read loop apart. It is the one place where the write sites of
the hub are gathered: what a client makes of its messages is followed from
here, without unfolding the sections again.
-/

namespace SlowMeet.Signaling

open Lib Media

namespace Hub

variable {h h' g : Hub} {c d : ClientId}

/-- `msg` reaches every room member. -/
def toRoom (h : Hub) (d : ClientId) (msg : Message) : List Message :=
  if d ∈ h.roomMembers then [msg] else []

/-- `msg` reaches every room member but `c`. -/
def toOthers (h : Hub) (c d : ClientId) (msg : Message) : List Message :=
  if d ∈ h.roomMembers ∧ d ≠ c then [msg] else []

/-- `msgs` reach `c` alone. -/
def toSelf (c d : ClientId) (msgs : List Message) : List Message :=
  if d = c then msgs else []

section Last

variable {β : Type} (f : Message → Option β)

theorem lastOf_toRoom (msg : Message) :
    lastOf f (h.toRoom d msg) = if d ∈ h.roomMembers then f msg else none := by
  simp only [toRoom]
  split <;> simp

theorem lastOf_toOthers (msg : Message) :
    lastOf f (h.toOthers c d msg) = if d ∈ h.roomMembers ∧ d ≠ c then f msg else none := by
  simp only [toOthers]
  split <;> simp

theorem lastOf_toSelf (msgs : List Message) :
    lastOf f (toSelf c d msgs) = if d = c then lastOf f msgs else none := by
  simp only [toSelf]
  split <;> simp

end Last

/-- Whether `requestScreenShare` finds another client sharing. -/
def shareTaken (h : Hub) (c : ClientId) (active : Bool) : Bool :=
  active && h.screenSharer.isSome && h.screenSharer ≠ some c

/-- What the rest of a message handler writes. -/
def sentHandling (h : Hub) (c d : ClientId) : Handler → List Message
  | .relaying state => h.toOthers c d (.mediaState state)
  | .reacting id name emoji => h.toRoom d (.reaction id name emoji)
  | .raising _ => []
  | .raisedCast q _ => h.toRoom d (.handState q.id q.raisedHand q.handOrder)
  | .sharing active _ _ =>
    if h.shareTaken c active then toSelf c d [.error "screen sharing is already active"] else []
  | .shared _ _ => []
  | .sharedCast owner => h.toRoom d (screenShareMessage owner.isSome owner)
  | .chatting msg _ => h.toOthers c d (.chat msg)

/-- What one section of a handler writes. -/
def sentRunning (h : Hub) (c d : ClientId) (ok : Bool) : List Message :=
  match (h.client c).phase, (h.client c).participant with
  | .refusing err, _ =>
    (match err with
      | .meetingFull => h.toRoom d .roomFull
      | .invalidName => []) ++ toSelf c d [.error err.text]
  | .peering, _ => if ok then [] else toSelf c d [.error "unable to initialize WebRTC"]
  | .admitting, some p =>
    if h.closed || (h.client c).admissionExpired || !ok then []
    else toSelf c d (h.admissionReplay p (h.client c).activeTakeover)
  | .announcing, some p => if (h.client c).activeTakeover then [] else h.toOthers c d (.joined p)
  | .handling handler, some _ => h.sentHandling c d handler
  | .parting _ .screenCast, some _ => h.toRoom d (screenShareMessage false none)
  | .casting, some p => h.toRoom d (.left p)
  | _, _ => []

/-- What a step writes to `d`, but for the errors of the read loop. -/
def sent (h : Hub) (d : ClientId) : Label → List Message
  | .run c ok => h.sentRunning c d ok
  | .notify c e =>
    match (h.client c).participant with
    | some p => toSelf e d [.left p]
    | none => []
  | .admin a =>
    match h.admin a with
    | .announcing cfg _ => h.toRoom d (.configUpdate cfg.toPublic)
    | .screenCast => h.toRoom d (screenShareMessage false none)
    | _ => []
  | _ => []

/-! ## One lemma for each way of writing -/

/-- From `h` to `g`, `msgs` are appended to the queue of `d`. -/
def Appends (d : ClientId) (msgs : List Message) (h g : Hub) : Prop :=
  (g.client d).outbound = (h.client d).outbound ++ msgs

theorem appends_nil (he : (g.client d).outbound = (h.client d).outbound) : Appends d [] h g := by
  rw [Appends, List.append_nil, he]

theorem appends_of_client (he : g.client = h.client) : Appends d [] h g :=
  appends_nil (by rw [he])

/-- Changes of `c` that leave its queue alone write nothing. -/
theorem Appends.update {msgs : List Message} {f : Client → Client} (hg : Appends d msgs h g)
    (hf : (f (g.client c)).outbound = (g.client c).outbound) :
    Appends d msgs h (g.update c f) := by
  rw [Appends, client_update]
  split
  · next hd =>
    subst hd
    rw [hf, hg]
  · exact hg

theorem Appends.goto {msgs : List Message} {phase : Phase} (hg : Appends d msgs h g) :
    Appends d msgs h (g.goto c phase) :=
  hg.update rfl

theorem Appends.closePeer {msgs : List Message} (hg : Appends d msgs h g) :
    Appends d msgs h (g.closePeer c) :=
  hg.update rfl

theorem Appends.trans {a b : List Message} {g' : Hub} (hg : Appends d a h g)
    (hg' : Appends d b g g') : Appends d (a ++ b) h g' := by
  rw [Appends, hg', hg, List.append_assoc]

theorem appends_write (e : ClientId) (msg : Message) :
    Appends d (toSelf e d [msg]) h (h.write e msg) := by
  rw [Appends, Hub.write, client_update, toSelf]
  split
  · next hd =>
    subst hd
    rfl
  · rw [List.append_nil]

theorem appends_refuse (e : ClientId) (text : String) :
    Appends d (toSelf e d [.error text]) h (h.refuse e text) :=
  appends_write e _

theorem appends_broadcastToRoom (msg : Message) :
    Appends d (h.toRoom d msg) h (h.broadcastToRoom msg) := by
  by_cases hd : d ∈ h.roomMembers <;> simp [Appends, broadcastToRoom, toRoom, hd, Client.write]

theorem appends_broadcastExcept (msg : Message) :
    Appends d (h.toOthers c d msg) h (h.broadcastExcept c msg) := by
  by_cases hd : d ∈ h.roomMembers ∧ d ≠ c
  · simp only [Appends, broadcastExcept, toOthers, if_pos hd, Client.write]
  · simp only [Appends, broadcastExcept, toOthers, if_neg hd, List.append_nil]

theorem appends_recordAndBroadcastChat (msg : ChatMessage) (entry : Option ChatHistoryEntry) :
    Appends d (h.toOthers c d (.chat msg)) h (h.recordAndBroadcastChat c msg entry) := by
  cases entry with
  | none => exact appends_broadcastExcept _
  | some entry =>
    obtain ⟨timers, ht⟩ := h.stopExpiry_eq
    have hrecord : Appends d [] h (h.recordChatMessageLocked c entry) :=
      appends_of_client (by simp [recordChatMessageLocked, ht])
    have hmembers : (h.recordChatMessageLocked c entry).roomMembers = h.roomMembers := by
      simp [recordChatMessageLocked, ht]
    have hcast := hrecord.trans
      (appends_broadcastExcept (h := h.recordChatMessageLocked c entry) (c := c) (.chat msg))
    rwa [toOthers, hmembers, List.nil_append] at hcast

theorem appends_requestScreenShare {active : Bool} {streamID trackID : String} :
    Appends d (h.sentHandling c d (.sharing active streamID trackID)) h
      (h.requestScreenShare c active streamID trackID) := by
  simp only [requestScreenShare]
  split
  · next htaken =>
    rw [sentHandling, if_pos (show h.shareTaken c active = true from htaken)]
    exact (appends_refuse c _).goto
  · next htaken =>
    rw [sentHandling, if_neg (show ¬ h.shareTaken c active = true from htaken)]
    refine Appends.goto ?_
    split
    · exact Appends.update (appends_of_client rfl) rfl
    · split
      · exact Appends.update (appends_of_client rfl) rfl
      · exact appends_nil rfl

theorem appends_runHandler {p : Participant} {handler : Handler} :
    Appends d (h.sentHandling c d handler) h (h.runHandler c p handler) := by
  cases handler with
  | relaying state => exact (appends_broadcastExcept _).goto
  | reacting id name emoji => exact (appends_broadcastToRoom _).goto
  | raising changed =>
    cases changed with
    | nil => exact (appends_nil rfl).goto
    | cons q changed =>
      refine Appends.goto ?_
      split
      · exact (appends_nil rfl).update rfl
      · exact appends_nil rfl
  | raisedCast q changed => exact (appends_broadcastToRoom _).goto
  | sharing active streamID trackID => exact appends_requestScreenShare
  | shared active change => exact (appends_of_client rfl).goto
  | sharedCast owner => exact (appends_broadcastToRoom _).goto
  | chatting msg entry => exact (appends_recordAndBroadcastChat msg entry).goto

/-! ## The spec -/

theorem appends_admitClient {p : Participant} {ok : Bool} :
    Appends d (if h.closed || (h.client c).admissionExpired || !ok then []
      else toSelf c d (h.admissionReplay p (h.client c).activeTakeover)) h (h.admitClient c p ok) := by
  unfold admitClient
  cases hrefused : h.closed || (h.client c).admissionExpired with
  | true =>
    simp only [Bool.true_or, if_true]
    exact (appends_nil rfl).goto
  | false =>
    cases ok with
    | false =>
      simp only [Bool.not_false, Bool.or_true, if_true, Bool.false_eq_true, if_false]
      exact (appends_of_client rfl).goto
    | true =>
      simp only [Bool.not_true, Bool.or_self, Bool.false_eq_true, if_false, if_true, Appends,
        client_update, toSelf]
      split
      · next hd =>
        subst hd
        rfl
      · rw [List.append_nil]

theorem appends_run {ok : Bool} (hrun : h.Runs c ok h') :
    Appends d (h.sentRunning c d ok) h h' := by
  cases hrun with
  | reclaiming name token hphase =>
    simp only [sentRunning, hphase, reclaim]
    split
    · exact Appends.update (appends_of_client rfl) rfl
    · split
      · exact Appends.update (appends_of_client rfl) rfl
      · exact (appends_nil rfl).goto
  | superseding previous hphase =>
    simp only [sentRunning, hphase]
    refine Appends.goto ?_
    split
    · exact (appends_nil rfl).update rfl
    · exact appends_nil rfl
  | joining name hphase =>
    simp only [sentRunning, hphase, join]
    split
    · exact (appends_of_client rfl).goto
    · exact (appends_nil rfl).goto
  | refusing err hphase =>
    simp only [sentRunning, hphase]
    refine Appends.goto (Appends.trans ?_ (appends_refuse c _))
    cases err with
    | meetingFull => exact appends_broadcastToRoom _
    | invalidName => exact appends_nil rfl
  | entering p hphase =>
    simp only [sentRunning, hphase]
    exact Appends.update (appends_of_client rfl) rfl
  | cancelling hphase =>
    simp only [sentRunning, hphase]
    exact (appends_of_client client_cancelChatHistoryExpiry).goto
  | peering hphase =>
    simp only [sentRunning, hphase, newPeer]
    split
    · exact (appends_nil rfl).update rfl
    · exact (appends_refuse c _).goto
  | admitting p hp hphase =>
    simp only [sentRunning, hphase, hp]
    exact appends_admitClient
  | releasing hphase =>
    simp only [sentRunning, hphase]
    refine Appends.goto ?_
    simp only [releasePending]
    split
    · exact Appends.update (appends_of_client rfl) rfl
    · exact appends_nil rfl
  | announcing p hp hphase =>
    simp only [sentRunning, hphase, hp]
    refine Appends.update ?_ rfl
    split
    · exact appends_nil rfl
    · exact appends_broadcastExcept _
  | handling p handler hp hphase =>
    simp only [sentRunning, hphase, hp]
    exact appends_runHandler
  | parting p departure at_ hp hphase =>
    simp only [sentRunning, hphase, hp]
    cases at_ with
    | closePeer => exact ((appends_nil rfl).update rfl).goto
    | releaseScreen =>
      simp only [runTeardown, releaseScreenShare]
      split
      · exact Appends.update (appends_of_client rfl) rfl
      · exact (appends_nil rfl).goto
    | screenCast => exact (appends_broadcastToRoom _).goto
    | settle =>
      simp only [runTeardown, settle]
      repeat' split
      all_goals exact (appends_of_client rfl).goto
    | unregister | unpublish => exact (appends_of_client rfl).goto
  | casting p hp hphase =>
    simp only [sentRunning, hphase, hp]
    exact (appends_broadcastToRoom _).goto
  | arming hphase =>
    simp only [sentRunning, hphase]
    exact (appends_of_client client_scheduleChatHistoryExpiry).goto
  | armingGrace p hp hphase =>
    simp only [sentRunning, hphase, armGrace]
    repeat' split
    all_goals exact (appends_of_client rfl).goto
  | finished hphase hreserved =>
    simp only [sentRunning, hphase, releasePending, hreserved, if_true]
    exact Appends.update (appends_of_client rfl) rfl
  | upgrading hphase | opening hphase | waiting _ hphase _ | registering _ _ hphase
    | closing hphase | disconnecting _ _ hphase | forgetting _ _ hphase | leaving _ _ hphase
    | scheduling hphase | notifying hphase =>
    simp only [sentRunning, hphase]
    exact (appends_of_client rfl).goto

/-- The read loop answers what it rejects with one error, to its own client. -/
theorem appends_receive {input : Option Request} (hreceive : h.Receives c input h') :
    Appends d [] h h' ∨ d = c ∧ ∃ text, Appends d [.error text] h h' := by
  have hrefuse : ∀ {g} text, Appends d [] h g → Appends d [] h (g.refuse c text) ∨
      d = c ∧ ∃ error, Appends d [.error error] h (g.refuse c text) := by
    intro g text hg
    have hwrite := hg.trans (appends_refuse (d := d) c text)
    rw [List.nil_append, toSelf] at hwrite
    split at hwrite
    · exact Or.inr ⟨‹_›, text, hwrite⟩
    · exact Or.inl hwrite
  have hcount : Appends d [] h (h.countJoin c) := (appends_nil rfl).update rfl
  cases hreceive with
  | ignored _ _ => exact Or.inl (appends_nil rfl)
  | refused _ _ _ => exact hrefuse _ (appends_nil rfl)
  | refusedJoin _ _ _ => exact hrefuse _ hcount
  | expelled _ text _ =>
    rcases hrefuse text hcount with hquiet | ⟨hd, error, hwrite⟩
    · exact Or.inl hquiet.goto
    · exact Or.inr ⟨hd, error, hwrite.goto⟩
  | reclaiming _ _ _ _ | joining _ _ _ => exact Or.inl hcount.goto
  | leave _ _ => exact Or.inl ((appends_nil rfl).update rfl)
  | videoSubscriptions _ _ _ _ => exact Or.inl (appends_of_client rfl)
  | lost | mediaState _ _ _ _ _ | handState _ _ _ _ _ _ | screenShare _ _ _ _ _ _
    | retainedChat _ _ _ _ | chat _ _ _ _ | reaction _ _ _ =>
    exact Or.inl (appends_of_client rfl).goto

/-- **What a step writes**: what `sent` says, or the read loop answers its
own client with an error. -/
theorem appends_step {l : Label} (hstep : h.Steps l h') (d : ClientId) :
    Appends d (h.sent d l) h h' ∨
      (∃ allowed input, l = .receive d allowed input) ∧ ∃ text, Appends d [.error text] h h' := by
  cases hstep with
  | receive c allowed input _ hphase hreceive =>
    rcases appends_receive (d := d) hreceive with hquiet | ⟨hd, hwrite⟩
    · exact Or.inl hquiet
    · exact Or.inr ⟨⟨allowed, input, by rw [hd]⟩, hwrite⟩
  | run c ok _ hrun => exact Or.inl (appends_run hrun)
  | notify c e p clients hphase hp he =>
    left
    simp only [sent, hp]
    exact (appends_write e _).goto
  | connect c hphase =>
    left
    simp only [sent, reserve]
    split
    · exact (appends_nil rfl).goto
    · exact Appends.update (appends_of_client rfl) rfl
  | expireAdmission c hphase =>
    left
    simp only [sent, expireAdmission]
    split
    · exact appends_nil rfl
    · exact (appends_nil rfl).update rfl
  | reapArm c p hp hreaper =>
    exact Or.inl (Appends.update (appends_of_client client_scheduleChatHistoryExpiry) rfl)
  | reapClosePeer c p hp hreaper => exact Or.inl (((appends_nil rfl).update rfl).update rfl)
  | closeSuperseded c htimer =>
    have hstop : Appends d [] h (h.update c fun me => { me with closeTimer := false }) :=
      (appends_nil rfl).update rfl
    exact Or.inl hstop.closePeer
  | graceFire _ _ _ _ _ _ _ | reapUnregister _ _ _ _ | reapLeave _ _ _ _ | reapForget _ _ _ _
    | reapSchedule _ _ _ _ => exact Or.inl (Appends.update (appends_of_client rfl) rfl)
  | close =>
    obtain ⟨timers, ht⟩ := h.stopExpiry_eq
    exact Or.inl (appends_of_client (by simp [close, clearChatHistory, ht]))
  | adminRelease a cfg hadmin =>
    left
    simp only [sent, hadmin, releaseDisabledShare]
    split
    · split
      · exact appends_of_client rfl
      · next sharer _ _ =>
        have hrelease : Appends d [] h (({ h with screenSharer := none } : Hub).update sharer
            fun me => { me with activeScreenMediaStreamID := "", activeScreenMediaTrackID := "" }) :=
          Appends.update (appends_of_client rfl) rfl
        exact hrelease
    · exact appends_of_client rfl
  | adminPause a cfg released hadmin =>
    left
    simp only [sent, hadmin]
    cases released <;> exact appends_of_client rfl
  | adminAnnounce a cfg released hadmin =>
    left
    simp only [sent, hadmin]
    exact appends_broadcastToRoom _
  | adminClear a cfg released hadmin =>
    obtain ⟨timers, ht⟩ := h.stopExpiry_eq
    left
    simp only [sent, hadmin]
    refine appends_of_client ?_
    split
    · rfl
    · simp [setAdmin, clearChatHistory, ht]
  | adminScreenCast a hadmin =>
    left
    simp only [sent, hadmin]
    exact appends_broadcastToRoom _
  | adminSnapshot a hadmin | adminLimit a _ hadmin =>
    left
    simp only [sent, hadmin]
    exact appends_of_client rfl
  | closeLeave _ _ | chatTimer _ _ | chatCheck _ _ | chatDelete _ _ | adminUpdate _ _ _
    | onTrack _ _ _ _ | trackStarted _ _ _ _ _ _ _ | trackChecked _ _ _ _ _ _
    | trackPublish _ _ _ _ _ _ _ _ _ | trackOp _ _ _ _ | readStop _ _ _ =>
    exact Or.inl (appends_of_client rfl)

end Hub

end SlowMeet.Signaling
