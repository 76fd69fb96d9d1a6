import SlowMeet.Signaling.MediaStates

/-!
# The chat of an empty room expires

A leave that empties the meeting arms the expiry timer of the room history,
a join cancels it, and the callback checks the meeting before it deletes.
The history of an empty room is on its way to be deleted as long as every
slot is given up by a path that goes on to arm the timer; a callback deletes
the history of an empty room as long as nobody joins behind its check.
-/

namespace SlowMeet.Signaling

open Lib Media

/-- On the way from a freed slot to the expiry timer. -/
def Phase.schedules : Phase → Bool
  | .casting | .scheduling | .arming => true
  | _ => false

def Reaper.schedules : Reaper → Bool
  | .forgetting | .scheduling | .arming => true
  | _ => false

namespace Hub

/-- The room history has messages. -/
def HasHistory (h : Hub) : Prop := h.chatHistorySnapshotLocked ≠ []

/-- An expiry timer is armed for the room history. -/
def ExpiryArmed (h : Hub) : Prop :=
  ∃ history timer, h.chatHistory = some history ∧ history.expiry = some timer ∧ timer ∈ h.timers

/-- The timer of the history is armed, its callback is running, or somebody
is on the way to arm it. -/
inductive Watched (h : Hub) : Prop
  | armed (harmed : h.ExpiryArmed)
  | expiring (hexpiring : 0 < h.expiring)
  | deleting (hdeleting : 0 < h.deleting)
  | leaver (c : ClientId) (hphase : (h.client c).phase.schedules = true)
  | expiry (c : ClientId) (hreaper : (h.client c).reaper.schedules = true)

/-- The participant whose slot a step gives up without going on to arm the
timer: of a client whose join was never announced, or of an entry that
`Close` has taken. -/
def frees (h : Hub) : Label → Option ParticipantID
  | .run c _ =>
    match (h.client c).phase, (h.client c).participant with
    | .leaving, some p => if (h.client c).announced then none else some p.id
    | _, _ => none
  | .closeLeave id => some id
  | _ => none

/-- No step turns the retention of the chat off. -/
def Label.retains : Label → Bool
  | .adminUpdate _ update => update.retainChatHistory != some false
  | _ => true

/-- A slot given up so leaves no unwatched history in an empty meeting. -/
def FreesWatched (h : Hub) (l : Label) : Prop :=
  ∀ p, h.frees l = some p → (h.meeting.leave p).1.count = 0 → h.HasHistory → h.Watched

/-- Nobody joins between the check of a callback and its deletion. -/
def JoinsApart (h : Hub) (l : Label) : Prop :=
  ∀ c ok name, l = .run c ok → (h.client c).phase = .joining name →
    (∃ joined, h.meeting.join name h.nextID = .ok joined) → h.deleting = 0

/-- No operation is in progress. -/
structure Quiet (h : Hub) : Prop where
  handlers : ∀ c, (h.client c).phase = .absent ∨ (h.client c).phase = .reading ∨
    (h.client c).phase = .finished
  reapers : ∀ c, (h.client c).reaper = .idle ∨ (h.client c).reaper = .done
  expiring : h.expiring = 0
  deleting : h.deleting = 0

variable {h h' : Hub} {c : ClientId} {p : ParticipantID} {l : Label}

/-! ## What a step does to the expiry -/

/-- What the expiry of the room history rests on. -/
structure Expiry where
  history : Option RoomChatHistory
  timers : Finset TimerId
  expiring : Nat
  deleting : Nat

def expiry (h : Hub) : Expiry := ⟨h.chatHistory, h.timers, h.expiring, h.deleting⟩

inductive ExpiryChange (h : Hub) : Label → Expiry → Prop
  | same (l : Label) : ExpiryChange h l h.expiry
  | cancelled (c : ClientId) (ok : Bool) (hphase : (h.client c).phase = .cancelling)
      (history : Option RoomChatHistory) (timers : Finset TimerId) :
      ExpiryChange h (.run c ok) { h.expiry with history := history, timers := timers }
  | recorded (c : ClientId) (ok : Bool) (q : Participant) (handler : Handler)
      (hq : (h.client c).participant = some q) (hphase : (h.client c).phase = .handling handler)
      (history : Option RoomChatHistory) (timers : Finset TimerId) :
      ExpiryChange h (.run c ok) { h.expiry with history := history, timers := timers }
  | cleared (l : Label) (timers : Finset TimerId) :
      ExpiryChange h l { h.expiry with history := none, timers := timers }
  | armed (l : Label) (history : RoomChatHistory) (timer : TimerId) (timers : Finset TimerId)
      (hexpiry : history.expiry = some timer) (htimer : timer ∈ timers) :
      ExpiryChange h l { h.expiry with history := some history, timers := timers }
  | fired (timer : TimerId) :
      ExpiryChange h (.chatTimer timer)
        { h.expiry with timers := h.timers.erase timer, expiring := h.expiring + 1 }
  | checked (n : Nat) (hn : h.expiring = n + 1) :
      ExpiryChange h .chatCheck
        { h.expiry with
          expiring := n
          deleting := if h.meeting.count = 0 then h.deleting + 1 else h.deleting }
  | deleted (n : Nat) (hn : h.deleting = n + 1) :
      ExpiryChange h .chatDelete { h.expiry with history := none, deleting := n }

theorem expiry_schedule (l : Label) : h.ExpiryChange l h.scheduleChatHistoryExpiry.expiry := by
  obtain ⟨timers, ht⟩ := h.stopExpiry_eq
  unfold scheduleChatHistoryExpiry
  cases h.chatHistory with
  | none => exact .same l
  | some history =>
    rw [ht]
    exact .armed l { history with expiry := some h.nextID } h.nextID (insert h.nextID timers) rfl
      (Finset.mem_insert_self _ _)

theorem expiry_clear (l : Label) : h.ExpiryChange l h.clearChatHistory.expiry := by
  obtain ⟨timers, ht⟩ := h.stopExpiry_eq
  unfold clearChatHistory
  rw [ht]
  exact .cleared l timers

theorem expiry_runHandler {q : Participant} {handler : Handler} (ok : Bool)
    (hq : (h.client c).participant = some q) (hphase : (h.client c).phase = .handling handler) :
    h.ExpiryChange (.run c ok) (h.runHandler c q handler).expiry := by
  cases handler with
  | raising changed =>
    cases changed with
    | nil => exact .same _
    | cons q' changed =>
      unfold runHandler
      dsimp only
      split <;> exact .same _
  | sharing active streamID trackID =>
    unfold runHandler requestScreenShare
    dsimp only
    split
    · exact .same _
    · cases active with
      | true => exact .same _
      | false =>
        simp only [Bool.false_eq_true, if_false]
        split <;> exact .same _
  | chatting msg entry =>
    cases entry with
    | none => exact .same _
    | some entry =>
      obtain ⟨timers, ht⟩ := h.stopExpiry_eq
      unfold runHandler recordAndBroadcastChat recordChatMessageLocked
      dsimp only
      rw [ht]
      exact .recorded c ok q _ hq hphase _ timers
  | relaying _ | reacting _ _ _ | raisedCast _ _ | shared _ _ | sharedCast _ => exact .same _

theorem expiry_run {ok : Bool} (hrun : h.Runs c ok h') : h.ExpiryChange (.run c ok) h'.expiry := by
  cases hrun with
  | cancelling hphase =>
    obtain ⟨timers, ht⟩ := h.stopExpiry_eq
    unfold cancelChatHistoryExpiry
    rw [ht]
    exact .cancelled c ok hphase _ timers
  | handling p handler hp hphase => exact expiry_runHandler ok hp hphase
  | arming hphase => exact expiry_schedule _
  | joining name hphase =>
    unfold join
    split <;> exact .same _
  | admitting p hp hphase =>
    unfold admitClient
    split
    · exact .same _
    · cases ok <;> exact .same _
  | parting p departure at_ hp hphase =>
    cases at_ with
    | releaseScreen =>
      unfold runTeardown releaseScreenShare
      dsimp only
      split <;> exact .same _
    | settle =>
      unfold runTeardown settle
      dsimp only
      repeat' split
      all_goals exact .same _
    | unregister | closePeer | unpublish | screenCast => exact .same _
  | reclaiming name token hphase =>
    unfold reclaim
    repeat' split
    all_goals exact .same _
  | refusing err hphase => cases err <;> exact .same _
  | superseding previous hphase =>
    unfold supersede
    split <;> exact .same _
  | peering hphase =>
    unfold newPeer
    split <;> exact .same _
  | releasing hphase =>
    unfold releasePending
    split <;> exact .same _
  | announcing p hp hphase =>
    unfold announce
    split <;> exact .same _
  | armingGrace p hp hphase =>
    unfold armGrace
    repeat' split
    all_goals exact .same _
  | finished hphase hreserved =>
    unfold releasePending
    split <;> exact .same _
  | upgrading _ | opening _ | waiting _ _ _ | entering _ _ | registering _ _ _ | closing _
    | disconnecting _ _ _ | forgetting _ _ _ | leaving _ _ _ | casting _ _ _ | scheduling _
    | notifying _ => exact .same _

/-- **What a step does to the expiry.** -/
theorem expiry_step (hstep : h.Steps l h') : h.ExpiryChange l h'.expiry := by
  cases hstep with
  | run c ok _ hrun => exact expiry_run hrun
  | receive c allowed input _ hphase hreceive => cases hreceive <;> exact .same _
  | connect c hphase =>
    unfold reserve
    split <;> exact .same _
  | expireAdmission c hphase =>
    unfold expireAdmission
    split <;> exact .same _
  | reapArm c p hp hreaper => exact expiry_schedule _
  | close =>
    obtain ⟨timers, ht⟩ := h.stopExpiry_eq
    unfold close clearChatHistory
    rw [ht]
    exact .cleared _ timers
  | chatTimer timer htimer => exact .fired timer
  | chatCheck n hn => exact .checked n hn
  | chatDelete n hn => exact .deleted n hn
  | adminRelease a cfg hadmin =>
    unfold releaseDisabledShare
    repeat' split
    all_goals exact .same _
  | adminPause a cfg released hadmin => cases released <;> exact .same _
  | adminClear a cfg released hadmin =>
    cases hcfg : cfg.retainChatHistory with
    | true => exact .same _
    | false =>
      rw [if_neg (by simp)]
      exact expiry_clear _
  | _ => exact .same _

/-! ## An empty meeting is watched -/

theorem expiryArmed_iff : h.ExpiryArmed ↔ ∃ history timer, h.expiry.history = some history ∧
    history.expiry = some timer ∧ timer ∈ h.expiry.timers := Iff.rfl

theorem hasHistory_iff :
    h.HasHistory ↔ ∃ history, h.expiry.history = some history ∧ history.messages ≠ [] := by
  unfold HasHistory chatHistorySnapshotLocked
  show _ ↔ ∃ history, h.chatHistory = some history ∧ history.messages ≠ []
  cases h.chatHistory with
  | none => simp
  | some history => simp

theorem count_ne_zero_of_has (hp : h.meeting.has p = true) : h.meeting.count ≠ 0 := by
  intro hcount
  rw [Meeting.count_eq_zero_iff] at hcount
  rw [hcount p] at hp
  cases hp

/-- The meeting is not empty while somebody is served in it. -/
theorem count_ne_zero_of_serves (hpresent : h.Present) (hstep : h.Steps l h') (hserves : h.Serves c p)
    (hphase : (h.client c).phase ≠ .leaving) : h'.meeting.count ≠ 0 :=
  count_ne_zero_of_has (has_of_serving hpresent hstep hserves hphase)

theorem serves_of_cancelling (hpresent : h.Present) (hphase : (h.client c).phase = .cancelling) :
    ∃ p, h.Serves c p := by
  cases hq : (h.client c).participant with
  | none =>
    have hknown := hpresent.known c hq
    rw [hphase] at hknown
    simp [Phase.unknown, Phase.anonymous] at hknown
  | some q => exact ⟨q.id, participantID_of_some hq, by rw [hphase]; rfl⟩

/-- An armed timer stays armed, or its callback runs. -/
theorem Watched.of_armed (hpresent : h.Present) (hstep : h.Steps l h') (harmed : h.ExpiryArmed)
    (hempty : h'.meeting.count = 0) (hhistory : h'.HasHistory) : h'.Watched := by
  have hchange := expiry_step hstep
  rw [hasHistory_iff] at hhistory
  obtain ⟨history, hsome, -⟩ := hhistory
  generalize he : h'.expiry = expiry at hchange hsome
  cases hchange with
  | same =>
    apply Watched.armed
    rw [expiryArmed_iff, he]
    exact harmed
  | cancelled c ok hphase history timers =>
    obtain ⟨p, hserves⟩ := serves_of_cancelling hpresent hphase
    exact absurd hempty (count_ne_zero_of_serves hpresent hstep hserves (by rw [hphase]; simp))
  | recorded c ok q handler hq hphase history timers =>
    have hserves : h.Serves c q.id := ⟨participantID_of_some hq, by rw [hphase]; rfl⟩
    exact absurd hempty (count_ne_zero_of_serves hpresent hstep hserves (by rw [hphase]; simp))
  | cleared timers => cases hsome
  | armed _ history timer timers hexpiry htimer =>
    apply Watched.armed
    rw [expiryArmed_iff, he]
    exact ⟨history, timer, rfl, hexpiry, htimer⟩
  | fired timer =>
    apply Watched.expiring
    have hexpiring : h'.expiring = h.expiring + 1 := congrArg Expiry.expiring he
    omega
  | checked n hn =>
    apply Watched.armed
    rw [expiryArmed_iff, he]
    exact harmed
  | deleted n hn => cases hsome

theorem shouldScheduleExpiry_of_empty (hretain : h.config.retainChatHistory = true)
    (hempty : h.meeting.count = 0) : h.shouldScheduleExpiry = true := by
  unfold shouldScheduleExpiry
  rw [hretain, hempty]
  rfl

theorem armed_of_schedule (hhistory : h.scheduleChatHistoryExpiry.HasHistory) :
    h.scheduleChatHistoryExpiry.ExpiryArmed := by
  unfold scheduleChatHistoryExpiry at hhistory ⊢
  cases hsome : h.chatHistory with
  | none =>
    rw [hsome] at hhistory
    unfold HasHistory chatHistorySnapshotLocked at hhistory
    rw [hsome] at hhistory
    exact absurd rfl hhistory
  | some history =>
    exact ⟨{ history with expiry := some h.nextID }, h.nextID, rfl, rfl, Finset.mem_insert_self _ _⟩

/-- A leaver in an empty meeting arms the timer before it is done. -/
theorem Watched.of_leaver (hretain : h.config.retainChatHistory = true) (hstep : h.Steps l h')
    (hphase : (h.client c).phase.schedules = true) (hempty : h'.meeting.count = 0)
    (hhistory : h'.HasHistory) : h'.Watched := by
  rcases next_step hstep c with hsame | ⟨hhandler, hnext⟩
  · exact .leaver c (hsame ▸ hphase)
  · cases hstep with
    | run e ok _ hrun =>
      obtain rfl : e = c := by simpa [Label.handler] using hhandler
      cases hrun with
      | casting q hq hcasting =>
        apply Watched.leaver e
        rw [phase_goto]
        rfl
      | scheduling hscheduling =>
        apply Watched.leaver e
        rw [phase_goto, if_pos (shouldScheduleExpiry_of_empty hretain hempty)]
        rfl
      | arming harming => exact .armed (armed_of_schedule hhistory)
      | _ => simp_all [Phase.schedules]
    | connect e habsent =>
      obtain rfl : e = c := by simpa [Label.handler] using hhandler
      rw [habsent] at hphase
      cases hphase
    | receive e allowed input _ hread hreceive =>
      obtain rfl : e = c := by simpa [Label.handler] using hhandler
      rw [hread] at hphase
      cases hphase
    | notify e e' q clients hnotifying hq he =>
      obtain rfl : e = c := by simpa [Label.handler] using hhandler
      rw [hnotifying] at hphase
      cases hphase
    | _ => simp [Label.handler] at hhandler

/-- So does a grace expiry. -/
theorem Watched.of_expiry (hpresent : h.Present) (hretain : h.config.retainChatHistory = true)
    (hstep : h.Steps l h') (hreaper : (h.client c).reaper.schedules = true)
    (hempty : h'.meeting.count = 0) (hhistory : h'.HasHistory) : h'.Watched := by
  rcases reaper_step hstep c with hsame | ⟨rfl, hfired⟩ | ⟨rfl, hnext⟩
  · exact .expiry c (hsame ▸ hreaper)
  · -- the entry of the timer still holds a slot
    cases hstep with
    | graceFire _ q reconnect hq hentry hc harmed =>
      exact absurd hempty (count_ne_zero_of_has (hpresent.entry q.id reconnect hentry))
  · cases hstep with
    | reapForget _ q hq hforgetting =>
      apply Watched.expiry c
      rw [setReaper, client_update, if_pos rfl]
      rfl
    | reapSchedule _ q hq hscheduling =>
      apply Watched.expiry c
      rw [setReaper, client_update, if_pos rfl,
        if_pos (shouldScheduleExpiry_of_empty hretain hempty)]
      rfl
    | reapArm _ q hq harming => exact .armed (armed_of_schedule hhistory)
    | reapUnregister _ q hq hr | reapClosePeer _ q hq hr | reapLeave _ q hq hr =>
      rw [hr] at hreaper
      cases hreaper

/-- A callback past its check deletes the history, one before it finds the
meeting empty. -/
theorem Watched.of_callback (hstep : h.Steps l h') (hcallback : 0 < h.expiring ∨ 0 < h.deleting)
    (hempty : h'.meeting.count = 0) (hhistory : h'.HasHistory) : h'.Watched := by
  have hchange := expiry_step hstep
  rw [hasHistory_iff] at hhistory
  obtain ⟨history, hsome, -⟩ := hhistory
  have hkept : h'.expiring = h.expiring → h'.deleting = h.deleting → h'.Watched := by
    intro hexpiring hdeleting
    rcases hcallback with hpos | hpos
    · exact .expiring (hexpiring ▸ hpos)
    · exact .deleting (hdeleting ▸ hpos)
  generalize he : h'.expiry = expiry at hchange hsome
  have hexpiring : h'.expiring = expiry.expiring := congrArg Expiry.expiring he
  have hdeleting : h'.deleting = expiry.deleting := congrArg Expiry.deleting he
  cases hchange with
  | same | cancelled _ _ _ _ _ | recorded _ _ _ _ _ _ _ _ | cleared _ _ | armed _ _ _ _ _ _ =>
    exact hkept hexpiring hdeleting
  | fired timer =>
    apply Watched.expiring
    dsimp only at hexpiring
    omega
  | checked n hn =>
    cases hstep with
    | chatCheck _ _ =>
      apply Watched.deleting
      rw [hdeleting]
      show 0 < if h.meeting.count = 0 then h.deleting + 1 else h.deleting
      rw [if_pos hempty]
      omega
  | deleted n hn => cases hsome

/-- **What watches an empty meeting goes on to watch it.** -/
theorem Watched.step (hpresent : h.Present) (hretain : h.config.retainChatHistory = true)
    (hstep : h.Steps l h') (hwatched : h.Watched) (hempty : h'.meeting.count = 0)
    (hhistory : h'.HasHistory) : h'.Watched := by
  cases hwatched with
  | armed harmed => exact .of_armed hpresent hstep harmed hempty hhistory
  | leaver c hphase => exact .of_leaver hretain hstep hphase hempty hhistory
  | expiry c hreaper => exact .of_expiry hpresent hretain hstep hreaper hempty hhistory
  | expiring hexpiring => exact .of_callback hstep (Or.inl hexpiring) hempty hhistory
  | deleting hdeleting => exact .of_callback hstep (Or.inr hdeleting) hempty hhistory

/-! ## Runs -/

/-- The retention is on and the history of an empty meeting is watched. -/
structure Expires (h : Hub) : Prop where
  retains : h.config.retainChatHistory = true
  watched : h.meeting.count = 0 → h.HasHistory → h.Watched

theorem retains_step (hstep : h.Steps l h') (hretain : h.config.retainChatHistory = true)
    (hretains : l.retains = true) : h'.config.retainChatHistory = true := by
  have hroom := room_step hstep
  have hconfig : h'.config = h'.room.config := rfl
  rw [hconfig]
  generalize h'.room = room at hroom
  cases hroom with
  | configured a update hadmin =>
    show (update.retainChatHistory.getD h.config.retainChatHistory) = true
    have hne : update.retainChatHistory ≠ some false := bne_iff_ne.mp hretains
    cases hupdate : update.retainChatHistory with
    | none => exact hretain
    | some retain =>
      cases retain with
      | true => rfl
      | false => exact absurd hupdate hne
  | _ => exact hretain

theorem hasHistory_room :
    h.HasHistory ↔ ∃ messages, h.room.history = some messages ∧ messages ≠ [] := by
  unfold HasHistory chatHistorySnapshotLocked room
  cases h.chatHistory with
  | none => simp
  | some history => simp

/-- A history is recorded by somebody who is served. -/
theorem hasHistory_of_step (hpresent : h.Present) (hstep : h.Steps l h')
    (hempty : h'.meeting.count = 0) (hhistory : h'.HasHistory) : h.HasHistory := by
  have hroom := room_step hstep
  rw [hasHistory_room] at hhistory ⊢
  generalize h'.room = room at hroom hhistory
  cases hroom with
  | recorded c ok q msg entry hq hphase =>
    have hserves : h.Serves c q.id := ⟨participantID_of_some hq, by rw [hphase]; rfl⟩
    exact absurd hempty (count_ne_zero_of_serves hpresent hstep hserves (by rw [hphase]; simp))
  | closed closing | cleared a cfg released hadmin hoff | expired =>
    obtain ⟨messages, hnone, -⟩ := hhistory
    cases hnone
  | _ => exact hhistory

/-- What a step does to an inhabited meeting that it leaves empty. -/
theorem watched_of_emptied (hpresent : h.Present) (hretain : h.config.retainChatHistory = true)
    (hstep : h.Steps l h') (hfrees : h.FreesWatched l) (hcount : h.meeting.count ≠ 0)
    (hempty : h'.meeting.count = 0) (hhistory : h'.HasHistory) : h'.Watched := by
  have hbefore := hasHistory_of_step hpresent hstep hempty hhistory
  have hroom := room_step hstep
  have hmeeting : h'.meeting = h'.room.meeting := rfl
  have hsame : (∀ q, h'.meeting.has q = h.meeting.has q) → h'.Watched := by
    intro hhas
    rw [Meeting.count_eq_zero_iff] at hempty
    exact absurd (Meeting.count_eq_zero_iff.mpr fun q => (hhas q).symm.trans (hempty q)) hcount
  generalize h'.room = room at hroom hmeeting
  cases hroom with
  | left c ok q hq hphase =>
    have hserves : h.Serves c q.id := ⟨participantID_of_some hq, by rw [hphase]; rfl⟩
    cases hannounced : (h.client c).announced with
    | true =>
      apply Watched.leaver c
      cases hstep with
      | run _ _ _ hrun =>
        cases hrun with
        | leaving q' hq' _ =>
          obtain rfl : q' = q := Option.some.inj (hq'.symm.trans hq)
          unfold leave
          dsimp only
          rw [phase_goto, hannounced, Meeting.leave_snd, hpresent.has c q'.id hserves]
          rfl
        | _ => simp_all
    | false =>
      have hfree : h.frees (.run c ok) = some q.id := by
        unfold frees
        simp only [hphase, hq, hannounced]
        rfl
      rw [hmeeting] at hempty
      have hwatched := hfrees q.id hfree hempty hbefore
      rw [← hmeeting] at hempty
      exact hwatched.step hpresent hretain hstep hempty hhistory
  | reaped c q hq hreaper =>
    apply Watched.expiry c
    cases hstep with
    | reapLeave _ q' hq' _ =>
      rw [setReaper, client_update, if_pos rfl]
      rfl
    | reapUnregister _ _ _ hr | reapClosePeer _ _ _ hr | reapForget _ _ _ hr | reapSchedule _ _ _ hr
      | reapArm _ _ _ hr =>
      rw [hr] at hreaper
      cases hreaper
  | closeLeft id hid =>
    rw [hmeeting] at hempty
    have hwatched := hfrees id rfl hempty hbefore
    rw [← hmeeting] at hempty
    exact hwatched.step hpresent hretain hstep hempty hhistory
  | joined c ok name meeting q hphase hjoin =>
    obtain ⟨-, hstore⟩ := Meeting.join_ok _ _ _ hjoin
    have hhas : h'.meeting.has q.id = true := by
      rw [hmeeting]
      show meeting.has q.id = true
      rw [hstore, Meeting.has_store]
      simp
    exact absurd hempty (count_ne_zero_of_has hhas)
  | raised c allowed q raised meeting changed hphase hq hraised =>
    apply hsame
    intro r
    rw [hmeeting]
    exact Meeting.has_setRaisedHand hraised r
  | limited a cfg hadmin =>
    apply hsame
    intro r
    rw [hmeeting]
    exact Meeting.has_setMaxParticipants _ _ _
  | _ =>
    apply hsame
    intro r
    rw [hmeeting]
    rfl

theorem Expires.new {cfg : Config} (hretain : cfg.retainChatHistory = true) :
    (Hub.new cfg).Expires where
  retains := hretain
  watched _ hhistory := absurd rfl hhistory

theorem Expires.step (he : h.Expires) (hpresent : h.Present) (hstep : h.Steps l h')
    (hretains : l.retains = true) (hfrees : h.FreesWatched l) : h'.Expires where
  retains := retains_step hstep he.retains hretains
  watched := by
    intro hempty hhistory
    by_cases hcount : h.meeting.count = 0
    · have hbefore := hasHistory_of_step hpresent hstep hempty hhistory
      exact (he.watched hcount hbefore).step hpresent he.retains hstep hempty hhistory
    · exact watched_of_emptied hpresent he.retains hstep hfrees hcount hempty hhistory

theorem expires_of_reachable {cfg : Config} (hretain : cfg.retainChatHistory = true)
    (hr : (lts cfg).Reachable (fun h l => l.retains = true ∧ h.FreesWatched l) h) : h.Expires := by
  refine hr.invariant_of (fun _ hr => present_of_reachable hr) ?_ ?_
  · intro h₀ hinit
    obtain rfl : h₀ = Hub.new cfg := hinit
    exact .new hretain
  · intro g l g' hpresent _ he hok htr
    exact he.step hpresent (steps_of_step htr) hok.1 hok.2

theorem armed_of_quiet (hquiet : h.Quiet) (hwatched : h.Watched) : h.ExpiryArmed := by
  cases hwatched with
  | armed harmed => exact harmed
  | expiring hexpiring =>
    have hzero := hquiet.expiring
    omega
  | deleting hdeleting =>
    have hzero := hquiet.deleting
    omega
  | leaver c hphase =>
    rcases hquiet.handlers c with hc | hc | hc <;> rw [hc] at hphase <;> cases hphase
  | expiry c hreaper =>
    rcases hquiet.reapers c with hc | hc <;> rw [hc] at hreaper <;> cases hreaper

/-! ## The check of a callback -/

/-- A callback past its check finds the meeting empty. -/
def DeletesEmpty (h : Hub) : Prop := 0 < h.deleting → h.meeting.count = 0

/-- An empty meeting stays empty unless somebody joins. -/
theorem count_eq_zero_of_step (hstep : h.Steps l h') (hempty : h.meeting.count = 0)
    (hjoin : ∀ c ok name, l = .run c ok → (h.client c).phase = .joining name →
      ¬∃ joined, h.meeting.join name h.nextID = .ok joined) : h'.meeting.count = 0 := by
  have hroom := room_step hstep
  have hmeeting : h'.meeting = h'.room.meeting := rfl
  generalize h'.room = room at hroom hmeeting
  rw [Meeting.count_eq_zero_iff] at hempty ⊢
  intro p
  rw [hmeeting]
  cases hroom with
  | joined c ok name meeting q hphase hjoined =>
    exact absurd ⟨_, hjoined⟩ (hjoin c ok name rfl hphase)
  | left c ok q hq hphase | reaped c q hq hreaper =>
    show (h.meeting.leave q.id).1.has p = false
    rw [Meeting.has_leave, hempty p, Bool.and_false]
  | closeLeft id hid =>
    show (h.meeting.leave id).1.has p = false
    rw [Meeting.has_leave, hempty p, Bool.and_false]
  | raised c allowed q raised meeting changed hphase hq hraised =>
    exact (Meeting.has_setRaisedHand hraised p).trans (hempty p)
  | limited a cfg hadmin => exact (Meeting.has_setMaxParticipants _ _ _).trans (hempty p)
  | _ => exact hempty p

theorem DeletesEmpty.step (hd : h.DeletesEmpty) (hstep : h.Steps l h') (hjoins : h.JoinsApart l) :
    h'.DeletesEmpty := by
  have hkept : 0 < h.deleting → h'.meeting.count = 0 := by
    intro hpos
    apply count_eq_zero_of_step hstep (hd hpos)
    intro c ok name hl hphase hjoined
    have hzero := hjoins c ok name hl hphase hjoined
    omega
  have hchange := expiry_step hstep
  intro hpos
  generalize he : h'.expiry = expiry at hchange
  have hdeleting : h'.deleting = expiry.deleting := congrArg Expiry.deleting he
  rw [hdeleting] at hpos
  cases hchange with
  | checked n hn =>
    by_cases hempty : h.meeting.count = 0
    · cases hstep with
      | chatCheck _ _ => exact hempty
    · dsimp only at hpos
      rw [if_neg hempty] at hpos
      exact hkept hpos
  | deleted n hn =>
    apply hkept
    omega
  | same | cancelled _ _ _ _ _ | recorded _ _ _ _ _ _ _ _ | cleared _ _ | armed _ _ _ _ _ _
    | fired _ => exact hkept hpos

theorem deletesEmpty_of_reachable {cfg : Config} (hr : (lts cfg).Reachable JoinsApart h) :
    h.DeletesEmpty :=
  hr.invariant_ofStep (fun hpos => absurd hpos (Nat.lt_irrefl 0)) fun _ _ _ hd hjoins hstep =>
    hd.step (steps_of_step hstep) hjoins

/-- **The chat of an empty room expires, and only that of an empty room.**
With the retention on, at every quiet state of a run whose slots are freed
under watch the history of an empty meeting has its timer armed; and a
callback deletes the history of an empty meeting where nobody joins between
its check and its deletion. -/
theorem expiry_kept {cfg : Config} (hretain : cfg.retainChatHistory = true) :
    (∀ h, (lts cfg).Reachable (fun h l => l.retains = true ∧ h.FreesWatched l) h → h.Quiet →
      h.meeting.count = 0 → h.HasHistory → h.ExpiryArmed) ∧
    ∀ h h', (lts cfg).Reachable JoinsApart h → h.step .chatDelete = some h' →
      h.meeting.count = 0 := by
  constructor
  · intro h hr hquiet hempty hhistory
    exact armed_of_quiet hquiet ((expires_of_reachable hretain hr).watched hempty hhistory)
  · intro h h' hr hstep
    apply deletesEmpty_of_reachable hr
    cases steps_of_step hstep with
    | chatDelete n hn => omega

/-- The first client joins, writes and leaves. -/
def chatsAndLeaves : List Label :=
  joins 0 ++ [.receive 0 true (some (.chat ['h'])), .run 0 true,
    .receive 0 true (some (.leave 0))] ++ runs 0 11

/-- Neither slot is given up unwatched, and nobody joins behind a check. -/
def keepsWatch (h : Hub) (l : Label) : Bool :=
  l.retains && (h.frees l).isNone && h.deleting == 0

theorem quiet_of_unborn {n : Nat} (hunborn : h.Unborn n)
    (hphases : ∀ c ∈ List.range n, (h.client c).phase = .finished ∧ (h.client c).reaper = .idle)
    (hexpiring : h.expiring = 0) (hdeleting : h.deleting = 0) : h.Quiet where
  handlers c := by
    by_cases hc : c < n
    · exact Or.inr (Or.inr (hphases c (List.mem_range.mpr hc)).1)
    · exact Or.inl (hunborn c (Nat.le_of_not_lt hc)).1
  reapers c := by
    by_cases hc : c < n
    · exact Or.inl (hphases c (List.mem_range.mpr hc)).2
    · exact Or.inl (hunborn c (Nat.le_of_not_lt hc)).2.2
  expiring := hexpiring
  deleting := hdeleting

/-- The last one to leave arms the timer, and its callback deletes. -/
theorem expiry_kept_left : (∃ h : Hub, h.Quiet ∧ h.meeting.count = 0 ∧ h.HasHistory ∧ h.ExpiryArmed) ∧
    ∃ h h' : Hub, h.step .chatDelete = some h' ∧ h.HasHistory ∧ ¬h'.HasHistory ∧
      h.meeting.count = 0 := by
  constructor
  · obtain ⟨h, hr, hunborn, ho⟩ := exists_checked_within sampleConfig 1 keepsWatch chatsAndLeaves
      (fun h => decide ((∀ c ∈ List.range 1, (h.client c).phase = .finished ∧ (h.client c).reaper = .idle) ∧
        (h.expiring = 0 ∧ h.deleting = 0) ∧ h.meeting.count = 0 ∧
        h.chatHistorySnapshotLocked ≠ [])) true (by decide)
    obtain ⟨hphases, ⟨hexpiring, hdeleting⟩, hempty, hhistory⟩ := of_decide_eq_true ho
    have hquiet := quiet_of_unborn hunborn hphases hexpiring hdeleting
    refine ⟨h, hquiet, hempty, hhistory, (@expiry_kept sampleConfig rfl).1 h ?_ hquiet hempty
      hhistory⟩
    apply hr.mono
    intro g l hok
    unfold keepsWatch at hok
    rw [Bool.and_eq_true, Bool.and_eq_true] at hok
    refine ⟨hok.1.1, ?_⟩
    intro p hfrees
    rw [hfrees] at hok
    cases hok.1.2
  · obtain ⟨h, hr, -, ho⟩ := exists_checked_within sampleConfig 1 keepsWatch
      (chatsAndLeaves ++ [.chatTimer 2, .chatCheck])
      (fun h => decide (h.deleting = 1 ∧ h.chatHistorySnapshotLocked ≠ [])) true (by decide)
    obtain ⟨hdeleting, hhistory⟩ := of_decide_eq_true ho
    have hstep : ∃ h', h.step .chatDelete = some h' ∧ ¬h'.HasHistory := by
      simp only [step, chatDelete, hdeleting]
      exact ⟨_, rfl, fun hne => hne rfl⟩
    obtain ⟨h', hstep, hgone⟩ := hstep
    refine ⟨h, h', hstep, hhistory, hgone, (@expiry_kept sampleConfig rfl).2 h h' ?_ hstep⟩
    apply hr.mono
    intro g l hok c ok name hl hphase hjoined
    unfold keepsWatch at hok
    rw [Bool.and_eq_true] at hok
    exact beq_iff_eq.mp hok.2

/-- A join that fails behind the last leave takes the timer with it, and a
join behind the check of a callback loses its history. -/
theorem not_expiry_kept :
    (∃ h : Hub, (lts sampleConfig).Reachable (fun _ l => l.retains = true) h ∧ h.Quiet ∧
      h.meeting.count = 0 ∧ h.HasHistory ∧ ¬h.ExpiryArmed) ∧
    ∃ h h' : Hub, (lts sampleConfig).Reachable (fun _ l => l.retains = true) h ∧
      h.step .chatDelete = some h' ∧ h.meeting.count ≠ 0 := by
  constructor
  · obtain ⟨h, hr, hunborn, ho⟩ := exists_checked_within sampleConfig 2 (fun _ l => l.retains)
      (chatsAndLeaves ++ requests 1 none ++ runs 1 3 ++ [.run 1 false] ++ runs 1 8)
      (fun h => decide ((∀ c ∈ List.range 2, (h.client c).phase = .finished ∧ (h.client c).reaper = .idle) ∧
        (h.expiring = 0 ∧ h.deleting = 0) ∧ (h.meeting.count = 0 ∧
        h.chatHistorySnapshotLocked ≠ []) ∧ h.timers = ∅)) true (by decide)
    obtain ⟨hphases, ⟨hexpiring, hdeleting⟩, ⟨hempty, hhistory⟩, htimers⟩ := of_decide_eq_true ho
    refine ⟨h, hr, quiet_of_unborn hunborn hphases hexpiring hdeleting, hempty, hhistory, ?_⟩
    intro harmed
    obtain ⟨history, timer, -, -, htimer⟩ := harmed
    rw [htimers] at htimer
    exact Finset.notMem_empty _ htimer
  · obtain ⟨h, hr, -, ho⟩ := exists_checked_within sampleConfig 2 (fun _ l => l.retains)
      (chatsAndLeaves ++ [.chatTimer 2, .chatCheck] ++ joins 1)
      (fun h => decide (h.deleting = 1 ∧ h.meeting.count ≠ 0)) true (by decide)
    obtain ⟨hdeleting, hcount⟩ := of_decide_eq_true ho
    have hstep : ∃ h', h.step .chatDelete = some h' := by
      simp only [step, chatDelete, hdeleting]
      exact ⟨_, rfl⟩
    obtain ⟨h', hstep⟩ := hstep
    exact ⟨h, h', hr, hstep, hcount⟩

end Hub

end SlowMeet.Signaling
