import SlowMeet.Signaling.Serve

/-!
# What a step leaves alone

A step moves the goroutine it belongs to. To any other connection it may
write a message, arm the delayed close of a superseded peer, or clear what an
admin update revokes; and a connection that has not arrived does nothing.
-/

namespace SlowMeet.Signaling

open Lib Media

namespace Hub

variable {h h' : Hub} {c d : ClientId}

theorem client_update (c : ClientId) (f : Client → Client) (d : ClientId) :
    (h.update c f).client d = if d = c then f (h.client c) else h.client d := by
  simp [update, Function.update_apply]

/-- Stopping the expiry timer touches the timers alone. -/
theorem stopExpiry_eq (h : Hub) : ∃ timers, h.stopExpiry = { h with timers := timers } := by
  unfold stopExpiry
  split
  · exact ⟨_, rfl⟩
  · exact ⟨h.timers, rfl⟩

theorem client_scheduleChatHistoryExpiry : h.scheduleChatHistoryExpiry.client = h.client := by
  obtain ⟨timers, ht⟩ := h.stopExpiry_eq
  unfold scheduleChatHistoryExpiry
  cases h.chatHistory with
  | none => rfl
  | some history => simp [ht]

theorem client_cancelChatHistoryExpiry : h.cancelChatHistoryExpiry.client = h.client := by
  obtain ⟨timers, ht⟩ := h.stopExpiry_eq
  simp [cancelChatHistoryExpiry, ht]

/-! ## Other connections -/

/-- The client whose goroutine a step belongs to. -/
def Label.actor : Label → Option ClientId
  | .connect c | .receive c _ _ | .run c _ | .notify c _ | .expireAdmission c | .graceFire c
  | .reap c | .closeSuperseded c => some c
  | _ => none

/-- From `h` to `h'`, of the connection `d` nothing differs but what another
goroutine may change. -/
def Beside (d : ClientId) (h h' : Hub) : Prop :=
  ∃ outbound closeTimer streamID trackID, h'.client d = { h.client d with
    outbound := outbound
    closeTimer := closeTimer
    activeScreenMediaStreamID := streamID
    activeScreenMediaTrackID := trackID }

theorem Beside.refl (d : ClientId) (h : Hub) : Beside d h h := ⟨_, _, _, _, rfl⟩

theorem Beside.trans {h₁ h₂ h₃ : Hub} (h₁₂ : Beside d h₁ h₂) (h₂₃ : Beside d h₂ h₃) :
    Beside d h₁ h₃ := by
  obtain ⟨_, _, _, _, h₂'⟩ := h₁₂
  obtain ⟨_, _, _, _, h₃'⟩ := h₂₃
  exact ⟨_, _, _, _, by rw [h₃', h₂']⟩

theorem beside_of_eq' (he : h'.client d = h.client d) : Beside d h h' :=
  ⟨_, _, _, _, by rw [he]⟩

theorem beside_of_eq (he : h'.client = h.client) : Beside d h h' :=
  ⟨_, _, _, _, by rw [he]⟩

/-- A change of `c` in a hub that left `d` beside. -/
theorem beside_update {g : Hub} {f : Client → Client} (hd : d ≠ c)
    (hg : Beside d h g) : Beside d h (g.update c f) := by
  obtain ⟨_, _, _, _, hg⟩ := hg
  exact ⟨_, _, _, _, by rw [client_update, if_neg hd, hg]⟩

theorem beside_write (e : ClientId) (msg : Message) : Beside d h (h.write e msg) := by
  by_cases he : d = e
  · subst he
    exact ⟨_, _, _, _, by rw [write, client_update, if_pos rfl]; rfl⟩
  · exact beside_update he (.refl _ _)

theorem beside_goto {g : Hub} {phase : Phase} (hd : d ≠ c) (hg : Beside d h g) :
    Beside d h (g.goto c phase) :=
  beside_update hd hg

theorem beside_refuse (e : ClientId) (text : String) : Beside d h (h.refuse e text) :=
  beside_write e _

theorem beside_closePeer (hd : d ≠ c) : Beside d h (h.closePeer c) :=
  beside_update hd (.refl _ _)

theorem beside_setReaper {g : Hub} {reaper : Reaper} (hd : d ≠ c) (hg : Beside d h g) :
    Beside d h (g.setReaper c reaper) :=
  beside_update hd hg

theorem beside_countJoin (hd : d ≠ c) : Beside d h (h.countJoin c) :=
  beside_update hd (.refl _ _)

theorem beside_broadcastToRoom (msg : Message) :
    Beside d h (h.broadcastToRoom msg) := by
  by_cases hd : d ∈ h.roomMembers
  · exact ⟨_, _, _, _, by simp only [broadcastToRoom, hd, if_true]; rfl⟩
  · exact beside_of_eq' (by simp only [broadcastToRoom, hd, if_false])

theorem beside_broadcastExcept (msg : Message) :
    Beside d h (h.broadcastExcept c msg) := by
  by_cases hd : d ∈ h.roomMembers ∧ d ≠ c
  · exact ⟨_, _, _, _, by simp only [broadcastExcept, if_pos hd]; rfl⟩
  · exact beside_of_eq' (by simp only [broadcastExcept, if_neg hd])

theorem beside_recordAndBroadcastChat (msg : ChatMessage) (entry : Option ChatHistoryEntry) :
    Beside d h (h.recordAndBroadcastChat c msg entry) := by
  obtain ⟨timers, ht⟩ := h.stopExpiry_eq
  cases entry with
  | none => exact beside_broadcastExcept _
  | some entry =>
    refine Beside.trans (beside_of_eq ?_) (beside_broadcastExcept _)
    simp [recordChatMessageLocked, ht]

theorem beside_requestScreenShare {active : Bool} {streamID trackID : String} (hd : d ≠ c) :
    Beside d h (h.requestScreenShare c active streamID trackID) := by
  simp only [requestScreenShare]
  split
  · exact beside_goto hd (beside_refuse c _)
  · refine beside_goto hd ?_
    split
    · exact beside_update hd (beside_of_eq rfl)
    · split
      · exact beside_update hd (beside_of_eq rfl)
      · exact .refl _ _

theorem beside_runHandler {p : Participant} {handler : Handler} (hd : d ≠ c) :
    Beside d h (h.runHandler c p handler) := by
  cases handler with
  | relaying state => exact beside_goto hd (beside_broadcastExcept _)
  | reacting id name emoji => exact beside_goto hd (beside_broadcastToRoom _)
  | raising changed =>
    cases changed with
    | nil => exact beside_goto hd (.refl _ _)
    | cons q changed =>
      refine beside_goto hd ?_
      split
      · exact beside_update hd (.refl _ _)
      · exact .refl _ _
  | raisedCast q changed => exact beside_goto hd (beside_broadcastToRoom _)
  | sharing active streamID trackID => exact beside_requestScreenShare hd
  | shared active change => exact beside_goto hd (beside_of_eq rfl)
  | sharedCast owner => exact beside_goto hd (beside_broadcastToRoom _)
  | chatting msg entry => exact beside_goto hd (beside_recordAndBroadcastChat msg entry)

theorem beside_run {ok : Bool} (hrun : h.Runs c ok h') (hd : d ≠ c) :
    Beside d h h' := by
  cases hrun with
  | reclaiming name token hphase =>
    simp only [reclaim]
    split
    · exact beside_update hd (beside_of_eq rfl)
    · split
      · exact beside_update hd (beside_of_eq rfl)
      · exact beside_update hd (.refl _ _)
  | superseding previous hphase =>
    refine beside_goto hd ?_
    split
    · by_cases hprev : d = previous
      · subst hprev
        exact ⟨_, _, _, _, by rw [client_update, if_pos rfl]⟩
      · exact beside_update hprev (.refl _ _)
    · exact .refl _ _
  | joining name hphase =>
    simp only [join]
    split
    · exact beside_update hd (beside_of_eq rfl)
    · exact beside_update hd (.refl _ _)
  | refusing err hphase =>
    refine beside_goto hd (Beside.trans ?_ (beside_refuse c _))
    cases err with
    | meetingFull => exact beside_broadcastToRoom _
    | invalidName => exact .refl _ _
  | cancelling hphase => exact beside_update hd (beside_of_eq client_cancelChatHistoryExpiry)
  | peering hphase =>
    simp only [newPeer]
    split
    · exact beside_update hd (.refl _ _)
    · exact beside_goto hd (beside_refuse c _)
  | admitting p hp hphase =>
    simp only [admitClient]
    split
    · exact beside_update hd (.refl _ _)
    · split
      · exact beside_update hd (beside_of_eq rfl)
      · exact beside_update hd (beside_of_eq rfl)
  | releasing hphase =>
    refine beside_update hd ?_
    simp only [releasePending]
    split
    · exact beside_update hd (beside_of_eq rfl)
    · exact .refl _ _
  | announcing p hp hphase =>
    refine beside_update hd ?_
    split
    · exact .refl _ _
    · exact beside_broadcastExcept _
  | handling p handler hp hphase => exact beside_runHandler hd
  | parting p departure at_ hp hphase =>
    cases at_ with
    | closePeer => exact beside_goto hd (beside_closePeer hd)
    | releaseScreen =>
      simp only [runTeardown, releaseScreenShare]
      split
      · exact beside_update hd (beside_of_eq rfl)
      · exact beside_update hd (.refl _ _)
    | screenCast => exact beside_goto hd (beside_broadcastToRoom _)
    | settle =>
      simp only [runTeardown, settle]
      split
      · exact beside_update hd (.refl _ _)
      · split
        · exact beside_update hd (.refl _ _)
        · split
          · exact beside_update hd (.refl _ _)
          · exact beside_update hd (beside_of_eq rfl)
    | unregister | unpublish => exact beside_goto hd (beside_of_eq rfl)
  | casting p hp hphase => exact beside_update hd (beside_broadcastToRoom _)
  | arming hphase => exact beside_update hd (beside_of_eq client_scheduleChatHistoryExpiry)
  | armingGrace p hp hphase =>
    simp only [armGrace]
    split
    · split
      · exact beside_update hd (beside_of_eq rfl)
      · exact beside_update hd (.refl _ _)
    · exact beside_update hd (.refl _ _)
  | finished hphase hreserved =>
    simp only [releasePending, hreserved, if_true]
    exact beside_update hd (beside_of_eq rfl)
  | entering _ _ => exact beside_update hd (beside_of_eq rfl)
  | upgrading _ | opening _ | waiting _ _ _ | registering _ _ _ | closing _ | disconnecting _ _ _
    | forgetting _ _ _ | leaving _ _ _ | scheduling _ | notifying _ =>
    exact beside_goto hd (beside_of_eq rfl)

theorem beside_receive {input : Option Request} (hreceive : h.Receives c input h') (hd : d ≠ c) :
    Beside d h h' := by
  cases hreceive with
  | ignored _ _ => exact .refl _ _
  | videoSubscriptions _ _ _ _ => exact beside_of_eq rfl
  | refused _ _ _ => exact beside_refuse c _
  | refusedJoin _ _ _ => exact (beside_countJoin hd).trans (beside_refuse c _)
  | expelled _ _ _ => exact beside_goto hd ((beside_countJoin hd).trans (beside_refuse c _))
  | reclaiming _ _ _ _ | joining _ _ _ => exact beside_goto hd (beside_countJoin hd)
  | leave _ _ => exact beside_update hd (.refl _ _)
  | lost | mediaState _ _ _ _ _ | handState _ _ _ _ _ _ | screenShare _ _ _ _ _ _
    | retainedChat _ _ _ _ | chat _ _ _ _ | reaction _ _ _ =>
    exact beside_goto hd (beside_of_eq rfl)

/-- **A step leaves every other connection beside.** -/
theorem beside_step {l : Label} (hstep : h.Steps l h') (hd : l.actor ≠ some d) :
    Beside d h h' := by
  have hne : ∀ {c}, l.actor = some c → d ≠ c := fun hc heq => hd (heq ▸ hc)
  cases hstep with
  | connect c hphase =>
    simp only [reserve]
    split <;> exact beside_update (hne rfl) (beside_of_eq rfl)
  | receive c allowed input _ hphase hreceive => exact beside_receive hreceive (hne rfl)
  | run c ok _ hrun => exact beside_run hrun (hne rfl)
  | notify c d' p clients hphase hp hd' =>
    exact beside_update (hne rfl) (beside_write d' _)
  | expireAdmission c hphase =>
    simp only [expireAdmission]
    split
    · exact .refl _ _
    · exact beside_update (hne rfl) (.refl _ _)
  | reapClosePeer c p hp hreaper => exact beside_setReaper (hne rfl) (beside_closePeer (hne rfl))
  | reapArm c p hp hreaper =>
    exact beside_setReaper (hne rfl) (beside_of_eq client_scheduleChatHistoryExpiry)
  | closeSuperseded c htimer =>
    exact Beside.trans (beside_update (hne rfl) (.refl _ _)) (beside_closePeer (hne rfl))
  | close =>
    obtain ⟨timers, ht⟩ := h.stopExpiry_eq
    exact beside_of_eq (by simp [close, clearChatHistory, ht])
  | adminRelease a cfg hadmin =>
    simp only [releaseDisabledShare]
    split
    · split
      · exact .refl _ _
      · rename_i sharer _ _
        by_cases hs : d = sharer
        · subst hs
          exact ⟨_, _, _, _, by rw [setAdmin, client_update, if_pos rfl]⟩
        · exact Beside.trans (beside_update (g := { h with screenSharer := none })
            (f := fun me => { me with
              activeScreenMediaStreamID := "", activeScreenMediaTrackID := "" }) hs
            (beside_of_eq rfl)) (beside_of_eq rfl)
    · exact .refl _ _
  | adminPause a cfg released hadmin => cases released <;> exact beside_of_eq rfl
  | adminAnnounce a cfg released hadmin => exact beside_broadcastToRoom _
  | adminClear a cfg released hadmin =>
    obtain ⟨timers, ht⟩ := h.stopExpiry_eq
    refine beside_of_eq ?_
    split
    · rfl
    · simp [setAdmin, clearChatHistory, ht]
  | adminScreenCast a hadmin => exact beside_broadcastToRoom _
  | graceFire _ _ _ _ _ _ _ | reapUnregister _ _ _ _ | reapLeave _ _ _ _ | reapForget _ _ _ _
    | reapSchedule _ _ _ _ => exact beside_setReaper (hne rfl) (beside_of_eq rfl)
  | closeLeave _ _ | chatTimer _ _ | chatCheck _ _ | chatDelete _ _ | adminUpdate _ _ _
    | adminSnapshot _ _ | adminLimit _ _ _ | onTrack _ _ _ _ | trackStarted _ _ _ _ _ _ _
    | trackChecked _ _ _ _ _ _ | trackPublish _ _ _ _ _ _ _ _ _ | trackOp _ _ _ _
    | readStop _ _ _ => exact beside_of_eq rfl

/-! ## Connections that have not arrived -/

/-- Connections from `n` on have not arrived. -/
def Unborn (h : Hub) (n : Nat) : Prop :=
  ∀ c, n ≤ c → (h.client c).phase = .absent ∧ (h.client c).participant = none ∧
    (h.client c).reaper = .idle

/-- Only its own handler brings a connection in. -/
theorem Unborn.step {n : Nat} (hn : h.Unborn n) {l : Label} (hstep : h.Steps l h')
    (hl : ∀ c, l = .connect c → c < n) : h'.Unborn n := by
  intro d hd
  obtain ⟨hphase, hp, hreaper⟩ := hn d hd
  by_cases hactor : l.actor = some d
  · cases hstep <;> simp only [Label.actor, Option.some.injEq, reduceCtorEq] at hactor <;>
      subst hactor
    case connect hphase' => exact absurd (hl _ rfl) (Nat.not_lt_of_le hd)
    case run hrun => cases hrun <;> simp_all
    case expireAdmission hphase' => exact absurd hphase hphase'.1
    case closeSuperseded htimer =>
      simp [closeSuperseded, closePeer, client_update, hphase, hp, hreaper]
    all_goals simp_all
  · obtain ⟨_, _, _, _, he⟩ := beside_step hstep hactor
    rw [he]
    exact ⟨hphase, hp, hreaper⟩

/-- The connections below `n` arrive. -/
def Label.within (n : Nat) : Label → Bool
  | .connect c => c < n
  | _ => true

/-- A step that brings no connection from `n` on. -/
theorem Unborn.tr {n : Nat} {cfg : Config} (check : Hub → Label → Bool) (h : Hub) (l : Label)
    (h' : Hub) (hn : h.Unborn n) (hok : (l.within n && check h l) = true)
    (htr : (lts cfg).tr h l h') : h'.Unborn n := by
  refine hn.step (steps_of_step htr) ?_
  rintro c rfl
  simp only [Label.within, Bool.and_eq_true, decide_eq_true_eq] at hok
  exact hok.1

theorem unborn_new (cfg : Config) (n : Nat) : (Hub.new cfg).Unborn n := fun _ _ => ⟨rfl, rfl, rfl⟩

/-- A spelled-out run of the first `n` connections and what follows it under
`check`; the others do not arrive. -/
theorem exists_run_within {ω : Type} (cfg : Config) (n : Nat) (check : Hub → Label → Bool)
    (ls ls' : List Label) (observe : Hub → Hub → ω) (o : ω)
    (hexec : ((Lts.execWhen (fun _ l => l.within n && true) step (Hub.new cfg) ls).bind fun h =>
      (Lts.execWhen (fun h l => l.within n && check h l) step h ls').map (observe h)) = some o) :
    ∃ h h', (lts cfg).Reachable Lts.Any h ∧
      (lts cfg).Run (fun h l => h.Unborn n ∧ check h l = true) h h' ∧ h'.Unborn n ∧
      observe h h' = o := by
  obtain ⟨h, h', hr, hr', ho⟩ := Lts.exists_run_of_execWhen _ _ _ _ _ _ _ _ hexec
  have hn : h.Unborn n := by
    obtain ⟨s, rfl, hrun⟩ := hr
    exact hrun.invariant (I := fun h => h.Unborn n) (Unborn.tr fun _ _ => true)
      (unborn_new cfg n)
  refine ⟨h, h', hr.any, ?_, hr'.invariant (I := fun h => h.Unborn n) (Unborn.tr _) hn, ho⟩
  refine hr'.strengthen (I := fun h => h.Unborn n) (Unborn.tr _) (fun s l hs hok => ?_) hn
  simp only [Bool.and_eq_true] at hok
  exact ⟨hs, hok.2⟩

/-- What a spelled-out run of the first `n` connections under `check` ends
in; the others have not arrived there. -/
theorem exists_checked_within {ω : Type} (cfg : Config) (n : Nat) (check : Hub → Label → Bool)
    (ls : List Label) (observe : Hub → ω) (o : ω)
    (hexec : (Lts.execWhen (fun h l => l.within n && check h l) step (Hub.new cfg) ls).map observe =
      some o) :
    ∃ h, (lts cfg).Reachable (fun h l => check h l = true) h ∧ h.Unborn n ∧ observe h = o := by
  obtain ⟨h, hr, ho⟩ := Lts.exists_reachable_of_execWhen _ _ _ _ _ _ hexec
  refine ⟨h, hr.mono fun s l hok => ?_, ?_, ho⟩
  · rw [Bool.and_eq_true] at hok
    exact hok.2
  · obtain ⟨s, rfl, hrun⟩ := hr
    exact hrun.invariant (I := fun h => h.Unborn n) (Unborn.tr check) (unborn_new cfg n)

/-- So does one whose steps need no check. -/
theorem exists_reachable_within {ω : Type} (cfg : Config) (n : Nat) (ls : List Label)
    (observe : Hub → ω) (o : ω)
    (hexec : (Lts.execWhen (fun _ l => l.within n) step (Hub.new cfg) ls).map observe = some o) :
    ∃ h, (lts cfg).Reachable Lts.Any h ∧ h.Unborn n ∧ observe h = o := by
  obtain ⟨h, hr, hunborn, ho⟩ := exists_checked_within cfg n (fun _ _ => true) ls observe o
    (by simpa using hexec)
  exact ⟨h, hr.any, hunborn, ho⟩

end Hub

end SlowMeet.Signaling
