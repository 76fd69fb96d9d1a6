import SlowMeet.Signaling.Handlers

/-!
# What an administrator turns off

Screen sharing and chat retention are settings of one kind: a handler checks
the setting, takes the lock later and then acts on the check, and an admin
update revokes what was granted in a section of `BroadcastConfig`. The
revocation is final when that section finds no handler past its check.
-/

namespace SlowMeet.Signaling

open Lib Media

/-! ## Where an admin update stands -/

namespace AdminPhase

/-- The snapshot an admin update works with. -/
def snapshot : AdminPhase → Option Config
  | .limiting cfg | .releasing cfg | .pausing cfg _ | .announcing cfg _ | .clearing cfg _ =>
    some cfg
  | .idle | .snapshotting | .screenCast => none

/-- The place of a section in the update handler. -/
def place : AdminPhase → Nat
  | .snapshotting => 0
  | .limiting _ => 1
  | .releasing _ => 2
  | .pausing _ _ => 3
  | .announcing _ _ => 4
  | .clearing _ _ => 5
  | .screenCast => 6
  | .idle => 7

end AdminPhase

namespace Hub

variable {h h' h₁ h₂ h₃ : Hub} {a : AdminId} {c d : ClientId} {l : Label}

theorem admin_stopExpiry : h.stopExpiry.admin = h.admin := by
  obtain ⟨timers, ht⟩ := h.stopExpiry_eq
  rw [ht]

theorem admin_scheduleChatHistoryExpiry : h.scheduleChatHistoryExpiry.admin = h.admin := by
  unfold scheduleChatHistoryExpiry
  split
  · rfl
  · exact admin_stopExpiry

/-- No connection moves an admin update. -/
theorem admin_run {ok : Bool} (hrun : h.Runs c ok h') : h'.admin = h.admin := by
  cases hrun with
  | handling p handler hp hphase =>
    cases handler with
    | raising changed =>
      cases changed with
      | nil => rfl
      | cons q changed =>
        simp only [runHandler]
        split <;> rfl
    | sharing active streamID trackID =>
      simp only [runHandler, requestScreenShare]
      repeat' split
      all_goals rfl
    | chatting msg entry =>
      cases entry with
      | none => rfl
      | some entry => exact admin_stopExpiry
    | relaying _ | reacting _ _ _ | raisedCast _ _ | shared _ _ | sharedCast _ => rfl
  | parting p departure at_ hp hphase =>
    cases at_ with
    | releaseScreen =>
      simp only [runTeardown, releaseScreenShare]
      split <;> rfl
    | settle =>
      simp only [runTeardown, settle]
      repeat' split
      all_goals rfl
    | unregister | closePeer | unpublish | screenCast => rfl
  | cancelling hphase => exact admin_stopExpiry
  | arming hphase => exact admin_scheduleChatHistoryExpiry
  | refusing err hphase => cases err <;> rfl
  | upgrading _ | opening _ | waiting _ _ _ | entering _ _ | registering _ _ _ | closing _
    | disconnecting _ _ _ | forgetting _ _ _ | leaving _ _ _ | casting _ _ _ | scheduling _
    | notifying _ => rfl
  | _ =>
    simp only [reclaim, supersede, join, newPeer, admitClient, announce, armGrace, releasePending]
    repeat' split
    all_goals rfl

/-- How an admin update goes on: up to the clearing of the history to its
next section, with the snapshot it has or takes. -/
def AdminMoves (h h' : Hub) (a : AdminId) : Prop :=
  (h.admin a).place < 5 → (h'.admin a).place = (h.admin a).place + 1 ∧
    (h'.admin a).snapshot = some ((h.admin a).snapshot.getD h.config)

/-- An admin update under way is moved by its own steps. -/
theorem admin_step (hstep : h.Steps l h') (a : AdminId) (hbusy : h.admin a ≠ .idle) :
    l ≠ .admin a ∧ h'.admin a = h.admin a ∨ l = .admin a ∧ h.AdminMoves h' a := by
  have hset : ∀ {g : Hub} {b : AdminId} {phase : AdminPhase}, g.admin = h.admin →
      (h.AdminMoves (h.setAdmin b phase) b) →
      (.admin b : Label) ≠ .admin a ∧ (g.setAdmin b phase).admin a = h.admin a ∨
        (.admin b : Label) = .admin a ∧ h.AdminMoves (g.setAdmin b phase) a := by
    intro g b phase hg hmove
    by_cases hab : a = b
    · subst hab
      exact Or.inr ⟨rfl, by simpa [AdminMoves, setAdmin] using hmove⟩
    · left
      exact ⟨by simpa using Ne.symm hab, by simp [setAdmin, hab, hg]⟩
  cases hstep with
  | adminRelease b cfg hadmin =>
    have hmove : ∀ released, h.AdminMoves (h.setAdmin b (.pausing cfg released)) b := by
      simp [AdminMoves, setAdmin, hadmin, AdminPhase.place, AdminPhase.snapshot]
    simp only [releaseDisabledShare]
    split
    · split <;> exact hset rfl (hmove _)
    · exact hset rfl (hmove _)
  | adminClear b cfg released hadmin =>
    refine hset ?_ (by simp [AdminMoves, hadmin, AdminPhase.place])
    split
    · rfl
    · exact admin_stopExpiry
  | adminPause b cfg released hadmin =>
    refine hset (by cases released <;> rfl) ?_
    simp [AdminMoves, setAdmin, hadmin, AdminPhase.place, AdminPhase.snapshot]
  | adminSnapshot b hadmin | adminLimit b _ hadmin | adminAnnounce b _ _ hadmin
    | adminScreenCast b hadmin =>
    refine hset rfl ?_
    simp [AdminMoves, setAdmin, hadmin, AdminPhase.place, AdminPhase.snapshot]
  | adminUpdate b update hadmin =>
    have hab : a ≠ b := by
      rintro rfl
      exact hbusy hadmin
    exact Or.inl ⟨by simp, by simp [setAdmin, hab]⟩
  | run c ok _ hrun => exact Or.inl ⟨by simp, by rw [admin_run hrun]⟩
  | receive c allowed input _ hphase hreceive =>
    refine Or.inl ⟨by simp, ?_⟩
    cases hreceive <;> rfl
  | connect c hphase =>
    refine Or.inl ⟨by simp, ?_⟩
    simp only [reserve]
    split <;> rfl
  | expireAdmission c hphase =>
    refine Or.inl ⟨by simp, ?_⟩
    simp only [expireAdmission]
    split <;> rfl
  | reapArm c p hp hreaper =>
    exact Or.inl ⟨by simp, congrFun admin_scheduleChatHistoryExpiry a⟩
  | close => exact Or.inl ⟨by simp, congrFun admin_stopExpiry a⟩
  | _ => exact Or.inl ⟨by simp, rfl⟩

end Hub

/-! ## Switches -/

/-- A setting, what it allows, the handlers that have found it on, and the
section of `BroadcastConfig` that revokes what was granted. -/
structure Switch where
  setting : Config → Bool
  granted : Hub → Prop
  checked : Handler → Bool
  place : Nat
  place_pos : 0 < place
  place_le : place ≤ 5
  /-- Nothing is granted but by a handler past its check. -/
  grants : ∀ {h h' : Hub} {l : Hub.Label}, h.Steps l h' → granted h' → ¬ granted h →
    ∃ c handler, (h.client c).phase = .handling handler ∧ checked handler = true
  /-- A handler passes its check while the setting is on. -/
  checks : ∀ {h : Hub} {c : ClientId} {l : Hub.Label} {handler : Handler}, h.Handles c l handler →
    checked handler = true → setting h.config = true
  /-- The revoking section leaves nothing granted. -/
  revokes : ∀ {h h' : Hub} {a : AdminId} {cfg : Config}, h.Steps (.admin a) h' →
    (h.admin a).place = place → (h.admin a).snapshot = some cfg → setting cfg = false →
    ¬ granted h'

namespace Switch

variable {sw : Switch} {cfg : Config} {ok : Hub → Hub.Label → Prop} {a : AdminId}
  {h h' h₁ h₂ h₃ : Hub} {l : Hub.Label}

/-- The setting is off after the step. -/
def keepsOff (sw : Switch) (h : Hub) : Hub.Label → Bool
  | .adminUpdate _ update => !sw.setting (h.config.updatedConfig update)
  | _ => true

/-- No handler past its check is left when `a` revokes. -/
def RevokesLast (sw : Switch) (a : AdminId) (h : Hub) (l : Hub.Label) : Prop :=
  l = .admin a → (h.admin a).place = sw.place →
    ∀ c handler, (h.client c).phase = .handling handler → sw.checked handler = false

/-- The update `a` has stored the setting as off at `h₁`, its
`BroadcastConfig` has returned at `h₂`, and the setting is off up to `h₃`. -/
structure Disabling (sw : Switch) (cfg : Config) (ok : Hub → Hub.Label → Prop) (a : AdminId)
    (h₁ h₂ h₃ : Hub) : Prop where
  reached : (Hub.lts cfg).Reachable Lts.Any h₁
  stored : h₁.admin a = .snapshotting
  off : sw.setting h₁.config = false
  during : (Hub.lts cfg).Run (fun h l => ok h l ∧ sw.keepsOff h l = true) h₁ h₂
  returned : h₂.admin a = .idle
  after : (Hub.lts cfg).Run (fun h l => sw.keepsOff h l = true) h₂ h₃

/-- `a` has still to revoke, with the setting off in its snapshot. -/
def Outstanding (sw : Switch) (a : AdminId) (h : Hub) : Prop :=
  (h.admin a).place ≤ sw.place ∧
    (h.admin a = .snapshotting ∨
      ∃ cfg, (h.admin a).snapshot = some cfg ∧ sw.setting cfg = false)

/-- Nothing is granted and no handler is past its check. -/
structure Revoked (sw : Switch) (h : Hub) : Prop where
  off : sw.setting h.config = false
  none : ¬ sw.granted h
  last : ∀ c handler, (h.client c).phase = .handling handler → sw.checked handler = false

theorem off_step (hstep : h.Steps l h') (hkeep : sw.keepsOff h l = true)
    (hoff : sw.setting h.config = false) : sw.setting h'.config = false := by
  have hroom := Hub.room_step hstep
  have hconfig : h'.config = h'.room.config := rfl
  rw [hconfig]
  generalize h'.room = room at hroom
  cases hroom with
  | configured a update hadmin => simpa [keepsOff] using hkeep
  | _ => exact hoff

/-- While the setting is off no handler passes its check. -/
theorem last_step (hstep : h.Steps l h') (hoff : sw.setting h.config = false)
    (hlast : ∀ c handler, (h.client c).phase = .handling handler → sw.checked handler = false) :
    ∀ c handler, (h'.client c).phase = .handling handler → sw.checked handler = false := by
  intro c handler hphase'
  rcases Hub.handles_step hstep hphase' with ⟨hphase, -⟩ | hhandles
  · exact hlast c handler hphase
  · rw [Bool.eq_false_iff]
    intro hchecked
    have hon := sw.checks hhandles hchecked
    rw [hoff] at hon
    cases hon

/-- Revocation is final. -/
theorem Revoked.step (hr : sw.Revoked h) (hstep : h.Steps l h') (hkeep : sw.keepsOff h l = true) :
    sw.Revoked h' where
  off := off_step hstep hkeep hr.off
  none hgranted := by
    obtain ⟨c, handler, hphase, hchecked⟩ := sw.grants hstep hgranted hr.none
    have hunchecked := hr.last c handler hphase
    rw [hchecked] at hunchecked
    cases hunchecked
  last := last_step hstep hr.off hr.last

/-- Until `a` revokes, it is going to; what it then leaves stays. -/
theorem outstanding_step (hstep : h.Steps l h') (hok : sw.RevokesLast a h l)
    (hkeep : sw.keepsOff h l = true) (hoff : sw.setting h.config = false)
    (hout : sw.Outstanding a h) : sw.Outstanding a h' ∨ sw.Revoked h' := by
  obtain ⟨hplace, hsnapshot⟩ := hout
  have hoff' := off_step hstep hkeep hoff
  by_cases hrevokes : l = .admin a ∧ (h.admin a).place = sw.place
  · obtain ⟨rfl, hat⟩ := hrevokes
    right
    obtain ⟨cfg, hcfg, hcfgoff⟩ : ∃ cfg, (h.admin a).snapshot = some cfg ∧
        sw.setting cfg = false := by
      rcases hsnapshot with hstored | hcfg
      · have hpos := sw.place_pos
        simp [hstored, AdminPhase.place, ← hat] at hpos
      · exact hcfg
    exact ⟨hoff', sw.revokes hstep hat hcfg hcfgoff, last_step hstep hoff (hok rfl hat)⟩
  · left
    have hbusy : h.admin a ≠ .idle := by
      intro hidle
      have hle := sw.place_le
      simp only [hidle, AdminPhase.place] at hplace
      omega
    rcases Hub.admin_step hstep a hbusy with ⟨-, hsame⟩ | ⟨rfl, hmoves⟩
    · exact ⟨by rwa [hsame], by rwa [hsame]⟩
    · have hlt : (h.admin a).place < sw.place := by
        have hne : (h.admin a).place ≠ sw.place := fun hat => hrevokes ⟨rfl, hat⟩
        omega
      obtain ⟨hnext, hkept⟩ := hmoves (by have hle := sw.place_le; omega)
      refine ⟨by omega, Or.inr ⟨_, hkept, ?_⟩⟩
      rcases hsnapshot with hstored | ⟨cfg, hcfg, hcfgoff⟩
      · rwa [hstored]
      · rwa [hcfg]

/-- **A revocation that finds no handler past its check is final.** -/
theorem Disabling.revoked (hrun : sw.Disabling cfg (sw.RevokesLast a) a h₁ h₂ h₃) :
    sw.Revoked h₃ := by
  have hstep : ∀ {h h' : Hub} {l : Hub.Label}, (Hub.lts cfg).tr h l h' → h.Steps l h' :=
    fun htr => Hub.steps_of_step htr
  have hreturned : sw.setting h₂.config = false ∧ (sw.Outstanding a h₂ ∨ sw.Revoked h₂) := by
    refine hrun.during.invariant
      (I := fun h => sw.setting h.config = false ∧ (sw.Outstanding a h ∨ sw.Revoked h)) ?_ ?_
    · intro h l h' ⟨hoff, hcase⟩ ⟨hok, hkeep⟩ htr
      refine ⟨off_step (hstep htr) hkeep hoff, ?_⟩
      rcases hcase with hout | hrevoked
      · exact outstanding_step (hstep htr) hok hkeep hoff hout
      · exact Or.inr (hrevoked.step (hstep htr) hkeep)
    · exact ⟨hrun.off, Or.inl ⟨by simp [hrun.stored, AdminPhase.place], Or.inl hrun.stored⟩⟩
  have hrevoked : sw.Revoked h₂ := by
    rcases hreturned.2 with hout | hrevoked
    · have hle := hout.1
      have hmax := sw.place_le
      simp only [hrun.returned, AdminPhase.place] at hle
      omega
    · exact hrevoked
  exact hrun.after.invariant (fun h l h' hr hkeep htr => hr.step (hstep htr) hkeep) hrevoked

end Switch

namespace Hub

/-- No handler of a connection is running. -/
def AllReading (h : Hub) : Prop :=
  ∀ c, (h.client c).phase = .absent ∨ (h.client c).phase = .reading

/-- The handlers of the first `n` connections read, the others have not
arrived. -/
theorem Unborn.allReading {h : Hub} {n : Nat} (hn : h.Unborn n)
    (hread : ∀ c < n, (h.client c).phase = .reading) : h.AllReading := by
  intro c
  by_cases hc : c < n
  · exact Or.inr (hread c hc)
  · exact Or.inl (hn c (Nat.le_of_not_lt hc)).1

/-- With every connection reading nothing is past a check. -/
theorem AllReading.revokesLast {h : Hub} (hread : h.AllReading) (sw : Switch) (a : AdminId)
    (l : Label) : sw.RevokesLast a h l := by
  intro _ _ c handler hphase
  rcases hread c with habsent | hreading
  · rw [habsent] at hphase
    cases hphase
  · rw [hreading] at hphase
    cases hphase

end Hub

/-! ## Screen sharing -/

/-- A screen share request that has found sharing enabled. -/
def Handler.sharesScreen : Handler → Bool
  | .sharing active _ _ => active
  | _ => false

/-- The lease on screen sharing, which the first section of
`BroadcastConfig` revokes. -/
def screenSharing : Switch where
  setting cfg := cfg.enableScreenShare
  granted h := h.screenSharer ≠ none
  checked := Handler.sharesScreen
  place := 2
  place_pos := by decide
  place_le := by decide
  grants := by
    intro h h' l hstep hgranted hnone
    have hroom := Hub.room_step hstep
    have hsharer : h'.screenSharer = h'.room.sharer := rfl
    rw [hsharer] at hgranted
    generalize h'.room = room at hroom hgranted
    cases hroom with
    | shared c ok p streamID trackID hp hphase hfree => exact ⟨c, _, hphase, rfl⟩
    | unshared | released | revoked => exact absurd rfl hgranted
    | _ => exact absurd hgranted hnone
  checks := by
    intro h c l handler hhandles hchecked
    cases hhandles with
    | screenShare allowed p active streamID trackID hp hallowed => exact hallowed hchecked
    | _ => simp [Handler.sharesScreen] at hchecked
  revokes := by
    intro h h' a cfg hstep hplace hsnapshot hoff
    cases hstep with
    | adminRelease b cfg' hadmin =>
      obtain rfl : cfg' = cfg := by simpa [hadmin, AdminPhase.snapshot] using hsnapshot
      simp only [Hub.releaseDisabledShare, hoff, not_not]
      split
      · rfl
      · assumption
    | adminSnapshot b hadmin | adminLimit b _ hadmin | adminPause b _ _ hadmin
      | adminAnnounce b _ _ hadmin | adminClear b _ _ hadmin | adminScreenCast b hadmin =>
      simp [hadmin, AdminPhase.place] at hplace

/-- **Disabled screen sharing stays disabled**, when the revocation finds no
request past its check. -/
theorem screenSharer_eq_none_of_disabling {cfg : Config} {a : AdminId} {h₁ h₂ h₃ : Hub}
    (hrun : screenSharing.Disabling cfg (screenSharing.RevokesLast a) a h₁ h₂ h₃) :
    h₃.screenSharer = none :=
  not_not.mp hrun.revoked.none

open Hub in
/-- Sharing is turned off while the member 0 shares and sends nothing. -/
theorem screenSharer_eq_none_between : ∃ h₁ h₂, h₁.screenSharer = some 0 ∧
    screenSharing.Disabling sampleConfig (screenSharing.RevokesLast 0) 0 h₁ h₂ h₂ ∧
      h₂.screenSharer = none := by
  obtain ⟨h₁, h₂, hr, hr', -, ho⟩ := exists_run_within sampleConfig 1
    (fun h l => decide ((h.client 0).phase = .reading) && screenSharing.keepsOff h l)
    (joins 0 ++ [.receive 0 true (some (.screenShare true "stream" "track"))] ++ runs 0 3 ++
      [.adminUpdate 0 { screenShare := some false }])
    (List.replicate 7 (.admin 0))
    (fun h h' => decide ((h.admin 0 = .snapshotting ∧ h.config.enableScreenShare = false) ∧
      h'.admin 0 = .idle ∧ h.screenSharer = some 0))
    true (by decide)
  obtain ⟨⟨hstored, hoff⟩, hreturned, hsharer⟩ := of_decide_eq_true ho
  have hduring : (lts sampleConfig).Run
      (fun h l => screenSharing.RevokesLast 0 h l ∧ screenSharing.keepsOff h l = true) h₁ h₂ := by
    refine hr'.mono ?_
    intro h l ⟨hunborn, hok⟩
    rw [Bool.and_eq_true, decide_eq_true_eq] at hok
    refine ⟨(hunborn.allReading fun c hc => ?_).revokesLast _ _ _, hok.2⟩
    obtain rfl : c = 0 := by omega
    exact hok.1
  have hrun : screenSharing.Disabling sampleConfig (screenSharing.RevokesLast 0) 0 h₁ h₂ h₂ :=
    ⟨hr, hstored, hoff, hduring, hreturned, .refl _⟩
  exact ⟨h₁, h₂, hsharer, hrun, screenSharer_eq_none_of_disabling hrun⟩

/-! ### A request past its check

The request of the member 0 has found screen sharing enabled when an update
turns it off, and takes the lock after `BroadcastConfig`. -/

open Hub in
theorem screenSharer_ne_none_of_request : ∃ h₁ h₂,
    screenSharing.Disabling sampleConfig Lts.Any 0 h₁ h₂ h₂ ∧ h₂.AllReading ∧
      h₂.screenSharer = some 0 := by
  obtain ⟨h₁, h₂, hr, hr', hunborn, ho⟩ := exists_run_within sampleConfig 1 screenSharing.keepsOff
    (joins 0 ++ [.receive 0 true (some (.screenShare true "stream" "track")),
      .adminUpdate 0 { screenShare := some false }])
    (List.replicate 6 (.admin 0) ++ runs 0 3)
    (fun h h' => decide ((h.admin 0 = .snapshotting ∧ h.config.enableScreenShare = false) ∧
      h'.admin 0 = .idle ∧ (h'.client 0).phase = .reading ∧ h'.screenSharer = some 0))
    true (by decide)
  obtain ⟨⟨hstored, hoff⟩, hreturned, hphase, hsharer⟩ := of_decide_eq_true ho
  have hread : h₂.AllReading := hunborn.allReading fun c hc => by
    obtain rfl : c = 0 := by omega
    exact hphase
  have hduring : (lts sampleConfig).Run (fun h l => Lts.Any h l ∧ screenSharing.keepsOff h l = true) h₁ h₂ :=
    hr'.mono fun _ _ hok => ⟨trivial, hok.2⟩
  exact ⟨h₁, h₂, ⟨hr, hstored, hoff, hduring, hreturned, .refl _⟩, hread, hsharer⟩

/-! ## Chat retention -/

/-- A chat handler that has found retention on. -/
def Handler.retainsChat : Handler → Bool
  | .chatting _ entry => entry.isSome
  | _ => false

/-- The chat history, which the last section of `BroadcastConfig` but one
clears. -/
def chatRetention : Switch where
  setting cfg := cfg.retainChatHistory
  granted h := h.chatHistory ≠ none
  checked := Handler.retainsChat
  place := 5
  place_pos := by decide
  place_le := by decide
  grants := by
    intro h h' l hstep hgranted hnone
    have hroom := Hub.room_step hstep
    have hhistory : ∀ g : Hub, g.chatHistory ≠ none ↔ g.room.history ≠ none := by
      simp [Hub.room]
    rw [hhistory] at hgranted hnone
    generalize h'.room = room at hroom hgranted
    cases hroom with
    | recorded c ok p msg entry hp hphase => exact ⟨c, _, hphase, rfl⟩
    | closed | cleared | expired => exact absurd rfl hgranted
    | _ => exact absurd hgranted hnone
  checks := by
    intro h c l handler hhandles hchecked
    cases hhandles with
    | retainedChat allowed p text hp hretain => exact hretain
    | _ => simp [Handler.retainsChat] at hchecked
  revokes := by
    intro h h' a cfg hstep hplace hsnapshot hoff
    cases hstep with
    | adminClear b cfg' released hadmin =>
      obtain rfl : cfg' = cfg := by simpa [hadmin, AdminPhase.snapshot] using hsnapshot
      simp [hoff, Hub.setAdmin, Hub.clearChatHistory]
    | adminSnapshot b hadmin | adminLimit b _ hadmin | adminRelease b _ hadmin
      | adminPause b _ _ hadmin | adminAnnounce b _ _ hadmin | adminScreenCast b hadmin =>
      simp [hadmin, AdminPhase.place] at hplace

namespace Hub

variable {h : Hub} {d : ClientId} {l : Label}

/-- An admission response carries the history there is. -/
theorem eq_of_mem_sent {p : Participant} {token : Token} {history : List ChatHistoryEntry}
    (hmem : .participant p token history ∈ h.sent d l) : history = h.chatHistorySnapshotLocked := by
  have hroom : ∀ {msg}, Message.participant p token history ∈ h.toRoom d msg →
      msg = .participant p token history := by
    intro msg hmsg
    simp only [toRoom] at hmsg
    split at hmsg <;> simp_all
  have hothers : ∀ {c msg}, Message.participant p token history ∈ h.toOthers c d msg →
      msg = .participant p token history := by
    intro c msg hmsg
    simp only [toOthers] at hmsg
    split at hmsg <;> simp_all
  have hself : ∀ {c msgs}, Message.participant p token history ∈ toSelf c d msgs →
      .participant p token history ∈ msgs := by
    intro c msgs hmsg
    simp only [toSelf] at hmsg
    split at hmsg <;> simp_all
  cases l with
  | run c ok =>
    simp only [sent, sentRunning] at hmem
    split at hmem
    · rcases List.mem_append.mp hmem with hfull | herror
      · split at hfull
        · simpa using hroom hfull
        · simp at hfull
      · simpa using hself herror
    · split at hmem
      · simp at hmem
      · simpa using hself hmem
    · split at hmem
      · simp at hmem
      · have hreplay := hself hmem
        simp only [admissionReplay, screenShareMessage] at hreplay
        split at hreplay <;> simp_all
    · split at hmem
      · simp at hmem
      · simpa using hothers hmem
    · rename_i handler q hphase hp
      cases handler with
      | relaying _ | chatting _ _ => simpa using hothers hmem
      | reacting _ _ _ | raisedCast _ _ => simpa using hroom hmem
      | sharedCast _ => simpa [screenShareMessage] using hroom hmem
      | raising _ | shared _ _ => simp [sentHandling] at hmem
      | sharing active _ _ =>
        simp only [sentHandling] at hmem
        split at hmem
        · simpa using hself hmem
        · simp at hmem
    · simpa [screenShareMessage] using hroom hmem
    · simpa using hroom hmem
    · simp at hmem
  | notify c e =>
    simp only [sent] at hmem
    split at hmem
    · simpa using hself hmem
    · simp at hmem
  | admin a =>
    simp only [sent] at hmem
    split at hmem
    · simpa using hroom hmem
    · simpa [screenShareMessage] using hroom hmem
    · simp at hmem
  | _ => simp [sent] at hmem

/-- Without a history nothing a step writes carries one. -/
theorem quiet_step {h' : Hub} (hstep : h.Steps l h') (hnone : h.chatHistory = none) (d : ClientId) :
    ∃ msgs, (h'.client d).outbound = (h.client d).outbound ++ msgs ∧
      ∀ p token history, .participant p token history ∈ msgs → history = [] := by
  rcases appends_step hstep d with hsent | ⟨-, text, herror⟩
  · refine ⟨_, hsent, fun p token history hmem => ?_⟩
    rw [eq_of_mem_sent hmem, chatHistorySnapshotLocked, hnone]
  · exact ⟨_, herror, by simp⟩

/-- **Disabling retention is final**, when the history is cleared with no
handler past its check: there is no history, and no admission response since
has carried one. -/
theorem chatHistory_eq_none_of_disabling {cfg : Config} {a : AdminId} {h₁ h₂ h₃ : Hub}
    (hrun : chatRetention.Disabling cfg (chatRetention.RevokesLast a) a h₁ h₂ h₃) :
    h₃.chatHistory = none ∧ ∀ d, ∃ msgs, (h₃.client d).outbound = (h₂.client d).outbound ++ msgs ∧
      ∀ p token history, .participant p token history ∈ msgs → history = [] := by
  have hrevoked : chatRetention.Revoked h₂ :=
    Switch.Disabling.revoked ⟨hrun.reached, hrun.stored, hrun.off, hrun.during, hrun.returned, .refl _⟩
  refine ⟨not_not.mp hrun.revoked.none, fun d => ?_⟩
  refine (hrun.after.invariant (I := fun h => chatRetention.Revoked h ∧
    ∃ msgs, (h.client d).outbound = (h₂.client d).outbound ++ msgs ∧
      ∀ p token history, .participant p token history ∈ msgs → history = []) ?_
    ⟨hrevoked, [], by simp, by simp⟩).2
  intro h l h' ⟨hr, msgs, hmsgs, hquiet⟩ hkeep htr
  obtain ⟨more, hmore, hquiet'⟩ := quiet_step (steps_of_step htr) (not_not.mp hr.none) d
  refine ⟨hr.step (steps_of_step htr) hkeep, msgs ++ more, by rw [hmore, hmsgs, List.append_assoc], ?_⟩
  intro p token history hmem
  rcases List.mem_append.mp hmem with hold | hnew
  · exact hquiet p token history hold
  · exact hquiet' p token history hnew

/-- Retention is turned off after the member 0 has left a message. -/
theorem chatHistory_eq_none_between : ∃ h₁ h₂, h₁.chatHistory ≠ none ∧
    chatRetention.Disabling sampleConfig (chatRetention.RevokesLast 0) 0 h₁ h₂ h₂ ∧
      h₂.chatHistory = none := by
  obtain ⟨h₁, h₂, hr, hr', -, ho⟩ := exists_run_within sampleConfig 1
    (fun h l => decide ((h.client 0).phase = .reading) && chatRetention.keepsOff h l)
    (joins 0 ++ [.receive 0 true (some (.chat ['a']))] ++ runs 0 1 ++
      [.adminUpdate 0 { retainChatHistory := some false }])
    (List.replicate 6 (.admin 0))
    (fun h h' => decide ((h.admin 0 = .snapshotting ∧ h.config.retainChatHistory = false) ∧
      h'.admin 0 = .idle ∧ h.chatHistory ≠ none))
    true (by decide)
  obtain ⟨⟨hstored, hoff⟩, hreturned, hhistory⟩ := of_decide_eq_true ho
  have hduring : (lts sampleConfig).Run
      (fun h l => chatRetention.RevokesLast 0 h l ∧ chatRetention.keepsOff h l = true) h₁ h₂ := by
    refine hr'.mono ?_
    intro h l ⟨hunborn, hok⟩
    rw [Bool.and_eq_true, decide_eq_true_eq] at hok
    refine ⟨(hunborn.allReading fun c hc => ?_).revokesLast _ _ _, hok.2⟩
    obtain rfl : c = 0 := by omega
    exact hok.1
  have hrun : chatRetention.Disabling sampleConfig (chatRetention.RevokesLast 0) 0 h₁ h₂ h₂ :=
    ⟨hr, hstored, hoff, hduring, hreturned, .refl _⟩
  exact ⟨h₁, h₂, hhistory, hrun, (chatHistory_eq_none_of_disabling hrun).1⟩

/-! ### A message past its check

The chat message of the member 0 has found retention on when an update turns
it off, and is recorded after the history was cleared. -/

theorem chatHistory_ne_none_of_message : ∃ h₁ h₂,
    chatRetention.Disabling sampleConfig Lts.Any 0 h₁ h₂ h₂ ∧ h₂.AllReading ∧
      h₂.chatHistory ≠ none := by
  obtain ⟨h₁, h₂, hr, hr', hunborn, ho⟩ := exists_run_within sampleConfig 1 chatRetention.keepsOff
    (joins 0 ++ [.receive 0 true (some (.chat ['a'])),
      .adminUpdate 0 { retainChatHistory := some false }])
    (List.replicate 6 (.admin 0) ++ runs 0 1)
    (fun h h' => decide ((h.admin 0 = .snapshotting ∧ h.config.retainChatHistory = false) ∧
      h'.admin 0 = .idle ∧ (h'.client 0).phase = .reading ∧ h'.chatHistory ≠ none))
    true (by decide)
  obtain ⟨⟨hstored, hoff⟩, hreturned, hphase, hhistory⟩ := of_decide_eq_true ho
  have hread : h₂.AllReading := hunborn.allReading fun c hc => by
    obtain rfl : c = 0 := by omega
    exact hphase
  have hduring : (lts sampleConfig).Run (fun h l => Lts.Any h l ∧ chatRetention.keepsOff h l = true) h₁ h₂ :=
    hr'.mono fun _ _ hok => ⟨trivial, hok.2⟩
  exact ⟨h₁, h₂, ⟨hr, hstored, hoff, hduring, hreturned, .refl _⟩, hread, hhistory⟩

end Hub

end SlowMeet.Signaling
