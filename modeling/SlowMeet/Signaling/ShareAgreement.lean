import SlowMeet.Signaling.ShareStates

/-!
# The room agrees on who shares

A change of the lease is told to the room by the one who made it, after the
lock is gone. As long as nobody tells the room what is no longer so while it is
the last to speak, and no screen is forwarded that nobody is going to pause,
the members and the router agree with the lease whenever nobody has a change
left to tell.
-/

namespace SlowMeet.Signaling

open Lib Media

namespace Hub

variable {h h' : Hub} {c d : ClientId} {p : ParticipantID} {q : Participant} {l : Label}
  {who : ClientId ⊕ AdminId}

/-- `who` tells the room that `owner` shares: it does, or another will tell
the room after it. -/
def MayTell (h : Hub) (who : ClientId ⊕ AdminId) (owner : Option ParticipantID) : Prop :=
  owner = h.screenOwner ∨ ∃ other, other ≠ who ∧ h.Casts other

/-- The screen of `p` is forwarded: it holds the lease, or somebody is going
to pause it. -/
def MayShare (h : Hub) (p : ParticipantID) : Prop :=
  h.screenOwner = some p ∨ h.Pauses p

/-- A step after which the room and the router can still agree with the
lease. -/
def TellsShare (h : Hub) : Label → Prop
  | .run c _ =>
    match (h.client c).phase with
    | .handling (.sharedCast owner) => h.MayTell (.inl c) owner
    | .parting _ .screenCast => h.MayTell (.inl c) none
    | .handling (.shared true _) => ∀ p, (h.client c).participantID = some p →
        h.media.router.Screened p → h.MayShare p
    | _ => True
  | .admin a => h.admin a = .screenCast → h.MayTell (.inr a) none
  | .track index _ => ∀ c track p, h.callbacks[index]? = some (.publishing c track .screen) →
      (h.client c).participantID = some p → h.MayShare p
  | _ => True

/-! ## What is forwarded -/

/-- A screen that comes to be forwarded is one that may be. -/
theorem screenActive_step (htells : h.TellsShare l) (hstep : h.Steps l h')
    (hactive : h'.media.router.ScreenActive p) : h.media.router.ScreenActive p ∨ h.MayShare p := by
  have hchange := media_step hstep
  generalize h'.media = media at hchange hactive
  cases hchange with
  | quiet => exact Or.inl hactive
  | registered c ok q hq hphase => exact Or.inl hactive
  | requested c allowed q ids layer hphase hq =>
    exact Or.inl (Router.screenActive_setVideoSubscriptions hactive)
  | unregistered c ok q departure hq hphase => exact Or.inl (Router.screenActive_unregister hactive)
  | reaped c q hq hreaper => exact Or.inl (Router.screenActive_unregister hactive)
  | unpublished c ok q departure hq hphase =>
    exact Or.inl (Router.screenActive_removePublications hactive)
  | activated c ok q active change hq hphase =>
    by_cases hp : p = q.id
    · subst hp
      cases active with
      | false => exact absurd hactive Router.not_screenActive_pause
      | true =>
        right
        simp only [TellsShare, hphase] at htells
        exact htells q.id (participantID_of_some hq) (Router.screened_of_setPublicationActive hactive)
    · exact Or.inl (Router.screenActive_setPublicationActive hactive hp)
  | paused a cfg owner hadmin =>
    by_cases hp : p = owner
    · subst hp
      exact absurd hactive Router.not_screenActive_pause
    · exact Or.inl (Router.screenActive_setPublicationActive hactive hp)
  | published index failed c track role layer q hcallback hq =>
    rcases Plane.screenActive_publish hactive with hold | ⟨rfl, rfl⟩
    · exact Or.inl hold
    · exact Or.inr (htells c track q.id hcallback (participantID_of_some hq))
  | operated index ok media htrack => exact Or.inl (Plane.screenActive_trackOp htrack hactive)
  | stopped index media hstop => exact Or.inl (Plane.screenActive_readStop hstop hactive)

/-- Whoever loses the lease is paused. -/
theorem MayShare.step (hmay : h.MayShare p) (hknown : h.SharerKnown) (hpresent : h.Present)
    (hstep : h.Steps l h') (hactive : h'.media.router.ScreenActive p) : h'.MayShare p := by
  rcases hmay with howner | hpauses
  · have hsame : ∀ {q}, h.screenOwner = some q → q = p := by
      intro q hq
      rw [howner, Option.some.injEq] at hq
      exact hq.symm
    cases (lease_step hknown hpresent hstep).1 with
    | same he => exact Or.inl (he.trans howner)
    | granted c hfree hphase =>
      rw [hfree] at howner
      cases howner
    | returned c q hq hown hnone hphase =>
      obtain rfl := hsame hown
      exact Or.inr (.client c hq (by rw [hphase]; rfl))
    | released c q departure hq hown hnone hphase =>
      obtain rfl := hsame hown
      exact Or.inr (.client c hq (by rw [hphase]; rfl))
    | revoked a cfg q hown hnone hadmin =>
      obtain rfl := hsame hown
      exact Or.inr (.admin a cfg hadmin)
  · rcases pauses_step hpresent hstep hpauses with hpauses' | hpaused
    · exact Or.inr hpauses'
    · exact absurd hactive hpaused

/-! ## What the members are told -/

theorem member_of_admitting (hphase : (h.client c).phase = .admitting) (hopen : h.closed = false)
    (hlate : (h.client c).admissionExpired = false) (hstep : h.Steps (.run c true) h') :
    c ∈ h'.roomMembers := by
  cases hstep with
  | run _ _ _ hrun =>
    cases hrun with
    | admitting q hq _ => simp [admitClient, hopen, hlate, update]
    | _ => simp_all

/-- What is told to `d` is told by a broadcast or by its own admission. -/
theorem of_sentShare {owner : Option ParticipantID} (hstep : h.Steps l h')
    (hsent : h.sentShare d l = some owner) :
    d ∈ h.roomMembers ∧ (∃ who, h.castBy l = some who ∧
        (h.TellsShare l → h.MayTell who owner)) ∨
      d ∈ h'.roomMembers ∧ owner = h.screenOwner := by
  cases l with
  | run c ok =>
    unfold sentShare at hsent
    dsimp only at hsent
    split at hsent
    · next owner' q hphase hq =>
      rw [Option.ite_none_right_eq_some, Option.some.injEq] at hsent
      obtain ⟨hd, rfl⟩ := hsent
      exact Or.inl ⟨hd, .inl c, by simp only [castBy, hphase], by simp only [TellsShare, hphase, imp_self]⟩
    · next departure q hphase hq =>
      rw [Option.ite_none_right_eq_some, Option.some.injEq] at hsent
      obtain ⟨hd, rfl⟩ := hsent
      exact Or.inl ⟨hd, .inl c, by simp only [castBy, hphase], by simp only [TellsShare, hphase, imp_self]⟩
    · next q hphase hq =>
      right
      rw [Option.ite_none_left_eq_some] at hsent
      obtain ⟨haccepted, hreplayed⟩ := hsent
      simp only [Bool.or_eq_true, Bool.not_eq_true', decide_eq_true_eq, not_or, ne_eq, not_not,
        Bool.not_eq_true, Bool.not_eq_false] at haccepted
      obtain ⟨⟨⟨hopen, hlate⟩, rfl⟩, rfl⟩ := haccepted
      refine ⟨member_of_admitting hphase hopen hlate hstep, ?_⟩
      unfold replayedShare at hreplayed
      cases hown : h.screenOwner with
      | some p =>
        rw [hown] at hreplayed
        exact (Option.some.inj hreplayed).symm
      | none =>
        rw [hown] at hreplayed
        simp only [Option.ite_none_right_eq_some, Option.some.injEq] at hreplayed
        exact hreplayed.2.symm
    · cases hsent
  | admin a =>
    unfold sentShare at hsent
    dsimp only at hsent
    split at hsent
    · next hadmin =>
      rw [Option.ite_none_right_eq_some, Option.some.injEq] at hsent
      obtain ⟨hd, rfl⟩ := hsent
      exact Or.inl ⟨hd, .inr a, by simp only [castBy, hadmin], fun htells => htells hadmin⟩
    · cases hsent
  | _ => cases hsent

/-- The broadcast of the lease reaches every member. -/
theorem sentShare_of_castBy (hstep : h.Steps l h') (hcast : h.castBy l = some who)
    (hd : d ∈ h.roomMembers) : h.sentShare d l ≠ none := by
  cases l with
  | run c ok =>
    cases hstep with
    | run _ _ _ hrun =>
      cases hrun with
      | handling q handler hq hphase =>
        cases handler with
        | sharedCast owner => simp [sentShare, hphase, hq, hd]
        | _ => simp [castBy, hphase] at hcast
      | parting q departure at_ hq hphase =>
        cases at_ with
        | screenCast => simp [sentShare, hphase, hq, hd]
        | _ => simp [castBy, hphase] at hcast
      | _ => simp_all [castBy]
  | admin a =>
    unfold castBy at hcast
    dsimp only at hcast
    split at hcast
    · next hadmin => simp [sentShare, hadmin, hd]
    · cases hcast
  | _ => cases hcast

/-- Whoever changes the lease has still to tell the room. -/
theorem LeaseChange.casts (hchange : h.LeaseChange h') :
    h'.screenOwner = h.screenOwner ∨ ∃ who, h'.Casts who := by
  cases hchange with
  | same he => exact Or.inl he
  | granted c hfree hphase => exact Or.inr ⟨.inl c, by rw [Casts, hphase]; rfl⟩
  | returned c p hp howner hnone hphase => exact Or.inr ⟨.inl c, by rw [Casts, hphase]; rfl⟩
  | released c p departure hp howner hnone hphase =>
    exact Or.inr ⟨.inl c, by rw [Casts, hphase]; rfl⟩
  | revoked a cfg p howner hnone hadmin => exact Or.inr ⟨.inr a, by rw [Casts, hadmin]; rfl⟩

/-- What `d` was last told is the lease, or somebody has still to tell the
room. -/
def ShareTold (h : Hub) (d : ClientId) : Prop :=
  h.toldShare d = h.screenOwner ∨ ∃ who, h.Casts who

/-- What the members know of the lease, and the router forwards. -/
structure SharesTold (h : Hub) : Prop where
  known : h.SharerKnown
  early : ∀ d, h.Early d → lastOf Message.screenOf (h.client d).outbound = none
  told : ∀ d, h.InRoom d → h.ShareTold d
  paused : ∀ p, h.media.router.ScreenActive p → h.MayShare p

theorem sharesTold_new (cfg : Config) : (Hub.new cfg).SharesTold where
  known _ hsharer := by cases hsharer
  early _ _ := rfl
  told d hroom := absurd hroom.1 (Finset.notMem_empty d)
  paused p hactive := by
    obtain ⟨key, pub, hlookup, -⟩ := hactive
    cases hlookup

theorem SharesTold.early_step (hs : h.SharesTold) (hpresent : h.Present) (hpresent' : h'.Present)
    (hstep : h.Steps l h') (hearly : h'.Early d) :
    lastOf Message.screenOf (h'.client d).outbound = none := by
  have hbefore := early_of_step hpresent hstep hearly
  rw [lastShare_step hstep, hs.early d hbefore, Option.or_none]
  cases hsent : h.sentShare d l with
  | none => rfl
  | some owner =>
    exfalso
    rcases of_sentShare hstep hsent with ⟨hd, -⟩ | ⟨hd, -⟩
    · exact not_member_of_early hpresent hbefore hd
    · exact not_member_of_early hpresent' hearly hd

theorem SharesTold.told_step (hs : h.SharesTold) (hpresent : h.Present) (htells : h.TellsShare l)
    (hstep : h.Steps l h') (hroom' : h'.InRoom d) : h'.ShareTold d := by
  rcases (lease_step hs.known hpresent hstep).1.casts with hsame | hcasts
  · cases hsent : h.sentShare d l with
    | some owner =>
      have htold : h'.toldShare d = owner := by
        rw [toldShare, lastShare_step hstep, hsent, Option.some_or]
        rfl
      rcases of_sentShare hstep hsent with ⟨hd, who, hcast, hmay⟩ | ⟨-, howner⟩
      · rcases hmay htells with howner | ⟨other, hne, hother⟩
        · exact Or.inl (htold.trans (howner.trans hsame.symm))
        · rcases casts_step hstep hother with hother' | hcast'
          · exact Or.inr ⟨other, hother'⟩
          · rw [hcast, Option.some.injEq] at hcast'
            exact absurd hcast'.symm hne
      · exact Or.inl (htold.trans (howner.trans hsame.symm))
    | none =>
      have htold : h'.toldShare d = h.toldShare d := by
        rw [toldShare, lastShare_step hstep, hsent, Option.none_or]
        rfl
      rcases admitted_of_step hstep hroom' with hroom | ⟨q, hphase, hq, haccepted, rfl, rfl⟩
      · rcases hs.told d hroom with howner | ⟨who, hcasts⟩
        · exact Or.inl (htold.trans (howner.trans hsame.symm))
        · rcases casts_step hstep hcasts with hcasts' | hcast
          · exact Or.inr ⟨who, hcasts'⟩
          · exact absurd hsent (sentShare_of_castBy hstep hcast hroom.1)
      · -- an admission that replays no lease finds none
        left
        have hnone : h.screenOwner = none := by
          cases hown : h.screenOwner with
          | none => rfl
          | some p => simp [sentShare, hphase, hq, haccepted, replayedShare, hown] at hsent
        rw [htold, hsame, hnone, toldShare, hs.early d (Or.inr (by rw [hphase]; rfl))]
        rfl
  · exact Or.inr hcasts

theorem SharesTold.step (hs : h.SharesTold) (hpresent : h.Present) (hpresent' : h'.Present)
    (htells : h.TellsShare l) (hstep : h.Steps l h') : h'.SharesTold where
  known := (lease_step hs.known hpresent hstep).2
  early d hearly := hs.early_step hpresent hpresent' hstep hearly
  told d hroom' := hs.told_step hpresent htells hstep hroom'
  paused p hactive := by
    have hmay : h.MayShare p := by
      rcases screenActive_step htells hstep hactive with hold | hmay
      · exact hs.paused p hold
      · exact hmay
    exact hmay.step hs.known hpresent hstep hactive

theorem sharesTold_of_reachable {cfg : Config} (hr : (lts cfg).Reachable TellsShare h) :
    h.SharesTold := by
  refine hr.invariant_of (J := Present) (fun _ hs => present_of_reachable hs) ?_ ?_
  · rintro h₀ rfl
    exact sharesTold_new cfg
  · intro h l h' hpresent hpresent' hs htells htr
    exact hs.step hpresent hpresent' htells (steps_of_step htr)

/-- Nobody has a change of the lease left to tell or to pause. -/
structure ShareIdle (h : Hub) : Prop where
  casts : ∀ who, ¬ h.Casts who
  pauses : ∀ p, ¬ h.Pauses p
  closing : ∀ c, (h.client c).phase ≠ .closing

/-- What every member was last told names whoever holds the lease, nobody
when it is free; and the only screen that is forwarded is the holder's. -/
def SharesAgree (h : Hub) : Prop :=
  (∀ d ∈ h.roomMembers, h.toldShare d = h.screenOwner) ∧
    ∀ key pub, h.media.router.pubs.lookup key = some pub → pub.role = .screen →
      pub.paused = false → h.screenOwner = some pub.sourceID

/-- **Screen-share agreement** in every run in which the room can be told
right, whenever no change is left to tell. -/
theorem shares_agree {cfg : Config} (hr : (lts cfg).Reachable TellsShare h)
    (hidle : h.ShareIdle) : h.SharesAgree := by
  have hs := sharesTold_of_reachable hr
  refine ⟨fun d hd => ?_, fun key pub hlookup hrole hpaused => ?_⟩
  · rcases hs.told d ⟨hd, hidle.closing d⟩ with htold | ⟨who, hcasts⟩
    · exact htold
    · exact absurd hcasts (hidle.casts who)
  · rcases hs.paused pub.sourceID ⟨key, pub, hlookup, rfl, hrole, hpaused⟩ with howner | hpauses
    · exact howner
    · exact absurd hpauses (hidle.pauses pub.sourceID)

/-! ## One share after another -/

/-- `TellsShare` at a hub where nothing outdated is told and no screen is
published, checked. -/
def shareCheck (h : Hub) : Label → Bool
  | .run c _ =>
    match (h.client c).phase with
    | .handling (.sharedCast owner) => owner == h.screenOwner
    | .parting _ .screenCast => h.screenOwner == none
    | .handling (.shared true _) => h.screenOwner == (h.client c).participantID
    | _ => true
  | .adminUpdate _ _ | .admin _ | .track _ _ => false
  | _ => true

theorem tellsShare_of_check (hl : h.shareCheck l = true) : h.TellsShare l := by
  cases l with
  | run c ok =>
    cases hphase : (h.client c).phase with
    | handling handler =>
      cases handler with
      | sharedCast owner =>
        simp only [shareCheck, hphase, beq_iff_eq] at hl
        simp only [TellsShare, hphase]
        exact Or.inl hl
      | shared active change =>
        cases active with
        | false => simp only [TellsShare, hphase]
        | true =>
          simp only [shareCheck, hphase, beq_iff_eq] at hl
          simp only [TellsShare, hphase]
          exact fun p hp _ => Or.inl (hl.trans hp)
      | _ => simp only [TellsShare, hphase]
    | parting departure at_ =>
      cases at_ with
      | screenCast =>
        simp only [shareCheck, hphase, beq_iff_eq] at hl
        simp only [TellsShare, hphase]
        exact Or.inl hl.symm
      | _ => simp only [TellsShare, hphase]
    | _ => simp only [TellsShare, hphase]
  | adminUpdate _ _ | admin _ | track _ _ => cases hl
  | _ => trivial

/-- Nothing but `Store.Update` starts an admin update. -/
theorem admin_idle_step (hstep : h.Steps l h') (hl : ∀ a update, l ≠ .adminUpdate a update)
    (hidle : ∀ a, h.admin a = .idle) : h'.admin = h.admin := by
  cases hstep with
  | adminUpdate a update hadmin => exact absurd rfl (hl a update)
  | adminSnapshot a hadmin | adminLimit a cfg hadmin | adminRelease a cfg hadmin
    | adminPause a cfg released hadmin | adminAnnounce a cfg released hadmin
    | adminClear a cfg released hadmin | adminScreenCast a hadmin => simp [hidle a] at hadmin
  | run c ok _ hrun => exact admin_run hrun
  | receive c allowed input _ hphase hreceive => cases hreceive <;> rfl
  | connect c hphase =>
    simp only [reserve]
    split <;> rfl
  | expireAdmission c hphase =>
    simp only [expireAdmission]
    split <;> rfl
  | reapArm c p hp hreaper => exact admin_scheduleChatHistoryExpiry
  | close => exact admin_stopExpiry
  | _ => rfl

/-- A run without updates leaves every update handler idle. -/
theorem admin_idle_of_run {cfg : Config} {ok : Hub → Label → Prop} (hr : (lts cfg).Reachable ok h)
    (hok : ∀ h l, ok h l → ∀ a update, l ≠ .adminUpdate a update) (a : AdminId) :
    h.admin a = .idle := by
  revert a
  refine Lts.Reachable.invariant (I := fun h => ∀ a, h.admin a = .idle) ?_ ?_ hr
  · rintro h₀ rfl a
    rfl
  · intro h l h' hidle hl htr a
    rw [admin_idle_step (steps_of_step htr) (hok h l hl) hidle]
    exact hidle a

theorem AllReading.shareIdle (hread : h.AllReading) (hadmin : ∀ a, h.admin a = .idle) :
    h.ShareIdle := by
  refine ⟨fun who hcasts => ?_, fun p hpauses => ?_, fun c => ?_⟩
  · cases who with
    | inl c =>
      have hcasts : (h.client c).phase.castsShare = true := hcasts
      rcases hread c with hc | hc <;> simp [hc, Phase.castsShare] at hcasts
    | inr a =>
      have hcasts : (h.admin a).castsShare = true := hcasts
      simp [hadmin a, AdminPhase.castsShare] at hcasts
  · cases hpauses with
    | client c hp hpausing => rcases hread c with hc | hc <;> simp [hc, Phase.pausesShare] at hpausing
    | admin a cfg ha => simp [hadmin a] at ha
  · rcases hread c with hc | hc <;> simp [hc]

/-- `c` starts or stops sharing, up to the read loop. -/
def sharing (c : ClientId) (active : Bool) : List Label :=
  .receive c true (some (.screenShare active "stream" "track")) :: runs c 3

/-- The member 0 stops sharing before 1 starts. -/
theorem shares_agree_handed : ∃ h : Hub, h.SharesAgree ∧ 0 ∈ h.roomMembers ∧
    h.screenOwner = some 1 := by
  obtain ⟨h, hr, hunborn, ho⟩ := exists_checked_within sampleConfig 2 shareCheck
    (joins 0 ++ joins 1 ++ sharing 0 true ++ sharing 0 false ++ sharing 1 true)
    (fun h => decide ((∀ c ∈ List.range 2, (h.client c).phase = .reading) ∧ 0 ∈ h.roomMembers ∧
      h.screenOwner = some 1)) true (by decide)
  obtain ⟨hread, hmember, howner⟩ := of_decide_eq_true ho
  have hread : h.AllReading := hunborn.allReading fun c hc => hread c (List.mem_range.mpr hc)
  have hadmin : ∀ a, h.admin a = .idle := admin_idle_of_run hr fun h l hl a update he => by
    subst he
    cases hl
  have hr := hr.mono fun h l hl => tellsShare_of_check hl
  exact ⟨h, shares_agree hr (hread.shareIdle hadmin), hmember, howner⟩

/-! ## A stop told after the next start

The member 0 stops sharing and has yet to tell the room when 1 is granted the
lease and tells it; the stop of 0 comes last. -/

/-- A step of an admission or of a share request. -/
def sharesOnly : Label → Bool
  | .connect _ | .run _ true => true
  | .receive _ _ (some (.join _ _ _)) | .receive _ _ (some (.screenShare _ _ _)) => true
  | _ => false

theorem not_shares_agree : ∃ h : Hub,
    (lts sampleConfig).Reachable (fun _ l => sharesOnly l = true) h ∧ h.AllReading ∧
      (∀ a, h.admin a = .idle) ∧ ¬ h.SharesAgree := by
  obtain ⟨h, hr, hunborn, ho⟩ := exists_checked_within sampleConfig 2 (fun _ l => sharesOnly l)
    (joins 0 ++ joins 1 ++ sharing 0 true ++
      [.receive 0 true (some (.screenShare false "stream" "track"))] ++ runs 0 2 ++
      sharing 1 true ++ runs 0 1)
    (fun h => decide ((∀ c ∈ List.range 2, (h.client c).phase = .reading) ∧ 0 ∈ h.roomMembers ∧
      h.screenOwner = some 1 ∧ h.toldShare 0 = none)) true (by decide)
  obtain ⟨hread, hmember, howner, htold⟩ := of_decide_eq_true ho
  have hread : h.AllReading := hunborn.allReading fun c hc => hread c (List.mem_range.mpr hc)
  have hadmin : ∀ a, h.admin a = .idle := admin_idle_of_run hr fun h l hl a update he => by
    subst he
    cases hl
  refine ⟨h, hr, hread, hadmin, fun hagree => ?_⟩
  have hright := hagree.1 0 hmember
  rw [htold, howner] at hright
  cases hright

end Hub

end SlowMeet.Signaling
