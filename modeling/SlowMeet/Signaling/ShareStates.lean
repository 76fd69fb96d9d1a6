import SlowMeet.Signaling.MediaStates
import SlowMeet.Signaling.Revocation
import SlowMeet.Signaling.Streams

/-!
# Every member sees who shares the screen

The lease changes under the hub's lock; the router is told to pause or resume
the screen publication after it, and the room after that. A member was last
told who holds the lease, or somebody has still to tell the room, as long as
the last one to do so tells what is so then.
-/

namespace SlowMeet.Media.Router

open Lib

variable {r : Router} {id p : ParticipantID}

/-- A screen publication of `p` is forwarded. -/
def ScreenActive (r : Router) (p : ParticipantID) : Prop :=
  ∃ key pub, r.pubs.lookup key = some pub ∧ pub.sourceID = p ∧ pub.role = .screen ∧
    pub.paused = false

/-- A screen publication of `p` is registered. -/
def Screened (r : Router) (p : ParticipantID) : Prop :=
  ∃ key pub, r.pubs.lookup key = some pub ∧ pub.sourceID = p ∧ pub.role = .screen

/-- Publications that were registered before, up to their targets, are no
more active than they were. -/
theorem ScreenActive.of_pubs {t : Router} (h : t.ScreenActive p)
    (hpubs : ∀ key pub, t.pubs.lookup key = some pub → ∃ old, r.pubs.lookup key = some old ∧
      old.info = pub.info ∧ old.paused = pub.paused) : r.ScreenActive p := by
  obtain ⟨key, pub, hlookup, hsource, hrole, hpaused⟩ := h
  obtain ⟨old, hold, hinfo, heq⟩ := hpubs key pub hlookup
  refine ⟨key, old, hold, ?_, ?_, heq.trans hpaused⟩
  · rw [Publication.sourceID, hinfo]
    exact hsource
  · rw [Publication.role, hinfo]
    exact hrole

theorem screenActive_removePublications {gone : Publication → Bool}
    (h : (r.removePublicationsLocked gone).router.ScreenActive p) : r.ScreenActive p := by
  refine h.of_pubs fun key pub hlookup => ?_
  rw [removePublicationsLocked_pubs, Option.filter_eq_some_iff] at hlookup
  exact ⟨pub, hlookup.1, rfl, rfl⟩

theorem screenActive_unregister (h : (r.unregister id).router.ScreenActive p) :
    r.ScreenActive p := by
  refine h.of_pubs fun key pub hlookup => ?_
  rw [unregister_pubs] at hlookup
  obtain ⟨old, hold, rfl⟩ := Option.map_eq_some_iff.mp hlookup
  exact ⟨old, (Option.filter_eq_some_iff.mp hold).1, rfl, rfl⟩

theorem screenActive_setVideoSubscriptions {ids : List ParticipantID} {layer : Option CameraLayer}
    (h : (r.setVideoSubscriptionsWithLayer id ids layer).router.ScreenActive p) :
    r.ScreenActive p := by
  refine h.of_pubs fun key pub hlookup => ?_
  rw [setVideoSubscriptionsWithLayer_pubs] at hlookup
  obtain ⟨old, hold, rfl⟩ := Option.map_eq_some_iff.mp hlookup
  refine ⟨old, hold, ?_, ?_⟩ <;> split <;> rfl

/-- A paused screen publication stays registered and is not forwarded. -/
theorem not_screenActive_pause : ¬ (r.setPublicationActive id .screen false).ScreenActive id := by
  rintro ⟨key, pub, hlookup, hsource, hrole, hpaused⟩
  simp only [setPublicationActive, GoMap.lookup_mapValues] at hlookup
  obtain ⟨old, hold, rfl⟩ := Option.map_eq_some_iff.mp hlookup
  by_cases hmatch : old.sourceID = id ∧ old.role = .screen
  · rw [if_pos hmatch] at hpaused
    cases hpaused
  · rw [if_neg hmatch] at hsource hrole
    exact hmatch ⟨hsource, hrole⟩

/-- `SetPublicationActive` concerns its own participant alone. -/
theorem screenActive_setPublicationActive {active : Bool}
    (h : (r.setPublicationActive id .screen active).ScreenActive p) (hp : p ≠ id) :
    r.ScreenActive p := by
  obtain ⟨key, pub, hlookup, hsource, hrole, hpaused⟩ := h
  simp only [setPublicationActive, GoMap.lookup_mapValues] at hlookup
  obtain ⟨old, hold, rfl⟩ := Option.map_eq_some_iff.mp hlookup
  by_cases hmatch : old.sourceID = id ∧ old.role = .screen
  · rw [if_pos hmatch] at hsource
    exact absurd (hsource.symm.trans hmatch.1) hp
  · rw [if_neg hmatch] at hsource hrole hpaused
    exact ⟨key, old, hold, hsource, hrole, hpaused⟩

theorem screened_of_setPublicationActive {role : SourceRole} {active : Bool}
    (h : (r.setPublicationActive id role active).ScreenActive p) : r.Screened p := by
  obtain ⟨key, pub, hlookup, hsource, hrole, -⟩ := h
  simp only [setPublicationActive, GoMap.lookup_mapValues] at hlookup
  obtain ⟨old, hold, rfl⟩ := Option.map_eq_some_iff.mp hlookup
  by_cases hmatch : old.sourceID = id ∧ old.role = role
  · rw [if_pos hmatch] at hsource hrole
    exact ⟨key, old, hold, hsource, hrole⟩
  · rw [if_neg hmatch] at hsource hrole
    exact ⟨key, old, hold, hsource, hrole⟩

theorem not_screenActive_unpublish : ¬ (r.unpublish id .screen).router.ScreenActive id := by
  rintro ⟨key, pub, hlookup, hsource, hrole, -⟩
  rw [unpublish, removePublicationsLocked_pubs, Option.filter_eq_some_iff] at hlookup
  simp [hsource, hrole] at hlookup

theorem screenActive_installSubscription {info : PublicationInfo} {sender : RTPSender}
    {holder : Holder} (h : (r.installSubscription info id sender holder).ScreenActive p) :
    r.ScreenActive p := by
  refine h.of_pubs fun key pub hlookup => ?_
  unfold installSubscription at hlookup
  split at hlookup
  · exact ⟨pub, hlookup, rfl, rfl⟩
  · next old hold =>
    simp only [GoMap.lookup_insert] at hlookup
    split at hlookup
    · next hkey =>
      cases hlookup
      exact ⟨old, hkey ▸ hold, rfl, rfl⟩
    · exact ⟨pub, hlookup, rfl, rfl⟩

/-- `Publish` makes no other publication active than its own. -/
theorem screenActive_publish {info : PublicationInfo} {replaceOk : ParticipantID → Bool}
    {d : Decision} (hpublish : r.publish info replaceOk = some d) (h : d.router.ScreenActive p) :
    r.ScreenActive p ∨ info.key.sourceID = p ∧ info.key.role = .screen := by
  obtain ⟨pub, hpublished⟩ := publish_published hpublish
  obtain ⟨key, pub', hlookup, hsource, hrole, hpaused⟩ := h
  rw [hpublished.pubs, GoMap.lookup_insert] at hlookup
  split at hlookup
  · cases hlookup
    rw [Publication.sourceID, hpublished.info_eq] at hsource
    rw [Publication.role, hpublished.info_eq] at hrole
    exact Or.inr ⟨hsource, hrole⟩
  · exact Or.inl ⟨key, pub', hlookup, hsource, hrole, hpaused⟩

end SlowMeet.Media.Router

namespace SlowMeet.Media.Plane

open Lib

variable {m t : Plane} {p : ParticipantID}

theorem screenActive_publish {sourceID : ParticipantID} {role : SourceRole} {source : Option PeerId}
    {remote : Option TrackRemote} {layer : Option CameraLayer} {failed : Finset ParticipantID}
    (h : (m.publish sourceID role source remote layer failed).router.ScreenActive p) :
    m.router.ScreenActive p ∨ sourceID = p ∧ role = .screen := by
  unfold publish at h
  split at h
  · dsimp only at h
    split at h
    · exact Or.inl h
    · next hpublish => exact Router.screenActive_publish hpublish h
  · exact Or.inl h

theorem screenActive_trackOp {index : Nat} {ok : Bool} (htrack : m.trackOp index ok = some t)
    (h : t.router.ScreenActive p) : m.router.ScreenActive p := by
  obtain ⟨op, rest, -, -, rfl⟩ := trackOp_eq_some htrack
  cases op with
  | subscribe info id peer => cases ok <;> exact h
  | remove peer sender => cases ok <;> exact h
  | install info id peer sender =>
    unfold applyTrackOp at h
    dsimp only at h
    split at h
    · exact Router.screenActive_installSubscription h
    · exact h

theorem screenActive_readStop {index : Nat} (hstop : m.readStop index = some t)
    (h : t.router.ScreenActive p) : m.router.ScreenActive p := by
  obtain ⟨info, -, rfl⟩ := Option.map_eq_some_iff.mp hstop
  exact Router.screenActive_removePublications h

end SlowMeet.Media.Plane

namespace SlowMeet.Signaling

open Lib Media

/-- What a message says about who shares. -/
def Message.screenOf : Message → Option (Option ParticipantID)
  | .screenState active owner => some (if active then owner else none)
  | _ => none

/-- Before the broadcast of a change of the lease. -/
def Phase.castsShare : Phase → Bool
  | .handling (.shared _ change) => change.isSome
  | .handling (.sharedCast _) => true
  | .parting _ .unpublish | .parting _ .screenCast => true
  | _ => false

def AdminPhase.castsShare : AdminPhase → Bool
  | .pausing _ released => released.isSome
  | .announcing _ released | .clearing _ released => released
  | .screenCast => true
  | _ => false

/-- Before the call that takes a screen publication out of the room. -/
def Phase.pausesShare : Phase → Bool
  | .handling (.shared false _) => true
  | .parting _ .unpublish => true
  | _ => false

namespace Hub

variable {h h' : Hub} {c d : ClientId} {p : ParticipantID} {q : Participant} {l : Label}
  {handler : Handler} {who : ClientId ⊕ AdminId}

/-- Who `d` was last told is sharing; nobody, before it is told. -/
def toldShare (h : Hub) (d : ClientId) : Option ParticipantID :=
  (lastOf Message.screenOf (h.client d).outbound).getD none

/-! ## What a step says -/

/-- What an admission replays of the lease. -/
def replayedShare (h : Hub) (activeTakeover : Bool) : Option (Option ParticipantID) :=
  match h.screenOwner with
  | some owner => some (some owner)
  | none => if activeTakeover then some none else none

/-- What a step tells `d` about the lease. -/
def sentShare (h : Hub) (d : ClientId) : Label → Option (Option ParticipantID)
  | .run c ok =>
    match (h.client c).phase, (h.client c).participant with
    | .handling (.sharedCast owner), some _ => if d ∈ h.roomMembers then some owner else none
    | .parting _ .screenCast, some _ => if d ∈ h.roomMembers then some none else none
    | .admitting, some _ =>
      if h.closed || (h.client c).admissionExpired || !ok || d ≠ c then none
      else h.replayedShare (h.client c).activeTakeover
    | _, _ => none
  | .admin a =>
    match h.admin a with
    | .screenCast => if d ∈ h.roomMembers then some none else none
    | _ => none
  | _ => none

theorem screenOf_shareMessage (owner : Option ParticipantID) :
    (screenShareMessage owner.isSome owner).screenOf = some owner := by
  cases owner <;> rfl

theorem lastOf_replayedShare (takeover : Bool) :
    lastOf Message.screenOf (h.admissionReplay q takeover) = h.replayedShare takeover := by
  have hjoined : lastOf Message.screenOf ((h.rosterReplay q).map Message.joined) = none := by
    refine lastOf_eq_none _ fun msg hmsg => ?_
    obtain ⟨r, -, rfl⟩ := List.mem_map.mp hmsg
    rfl
  have hstates : lastOf Message.screenOf (h.mediaStates.values.map Message.mediaState) = none := by
    refine lastOf_eq_none _ fun msg hmsg => ?_
    obtain ⟨state, -, rfl⟩ := List.mem_map.mp hmsg
    rfl
  have hown : lastOf Message.screenOf
      [.participant q (reconnectToken q) h.chatHistorySnapshotLocked] = none := rfl
  simp only [admissionReplay, lastOf_append, hjoined, hstates, hown, Option.or_none]
  unfold replayedShare
  cases h.screenOwner with
  | some owner => rfl
  | none => cases takeover <;> rfl

theorem share_sentHandling (hphase : (h.client c).phase = .handling handler)
    (hq : (h.client c).participant = some q) (ok : Bool) :
    lastOf Message.screenOf (h.sentHandling c d handler) = h.sentShare d (.run c ok) := by
  simp only [sentShare, hphase, hq]
  cases handler with
  | sharedCast owner => simp only [sentHandling, lastOf_toRoom, screenOf_shareMessage]
  | relaying state => simp [sentHandling, lastOf_toOthers, Message.screenOf]
  | chatting msg entry => simp [sentHandling, lastOf_toOthers, Message.screenOf]
  | sharing active streamID trackID =>
    simp only [sentHandling]
    split <;> simp [lastOf_toSelf, Message.screenOf]
  | raising _ | shared _ _ => rfl
  | reacting _ _ _ | raisedCast _ _ => simp [sentHandling, lastOf_toRoom, Message.screenOf]

theorem share_sent (l : Label) : lastOf Message.screenOf (h.sent d l) = h.sentShare d l := by
  cases l with
  | run c ok =>
    cases hphase : (h.client c).phase with
    | refusing err =>
      simp only [sent, sentRunning, sentShare, hphase, lastOf_append, lastOf_toSelf]
      cases err <;> simp [Message.screenOf, lastOf_toRoom]
    | peering =>
      simp only [sent, sentRunning, sentShare, hphase]
      cases ok <;> simp [lastOf_toSelf, Message.screenOf]
    | admitting =>
      cases hq : (h.client c).participant with
      | none => simp [sent, sentRunning, sentShare, hphase, hq]
      | some q =>
        simp only [sent, sentRunning, sentShare, hphase, hq]
        cases h.closed || (h.client c).admissionExpired || !ok with
        | true => simp
        | false =>
          simp only [Bool.false_eq_true, if_false, lastOf_toSelf, lastOf_replayedShare]
          by_cases hd : d = c <;> simp [hd]
    | announcing =>
      cases hq : (h.client c).participant with
      | none => simp [sent, sentRunning, sentShare, hphase, hq]
      | some q =>
        simp only [sent, sentRunning, sentShare, hphase, hq]
        split <;> simp [lastOf_toOthers, Message.screenOf]
    | handling handler =>
      cases hq : (h.client c).participant with
      | none => cases handler <;> simp [sent, sentRunning, sentShare, hphase, hq]
      | some q =>
        rw [← share_sentHandling hphase hq ok]
        simp only [sent, sentRunning, hphase, hq]
    | parting departure at_ =>
      cases hq : (h.client c).participant <;> cases at_ <;>
        simp [sent, sentRunning, sentShare, hphase, hq, lastOf_toRoom, screenShareMessage,
          Message.screenOf]
    | casting =>
      cases hq : (h.client c).participant <;>
        simp [sent, sentRunning, sentShare, hphase, hq, lastOf_toRoom, Message.screenOf]
    | _ => simp [sent, sentRunning, sentShare, hphase]
  | notify c e =>
    simp only [sent, sentShare]
    split <;> simp [lastOf_toSelf, Message.screenOf]
  | admin a =>
    cases hadmin : h.admin a <;>
      simp [sent, sentShare, hadmin, lastOf_toRoom, screenShareMessage, Message.screenOf]
  | _ => rfl

/-- What a step does to what `d` was last told. -/
theorem lastShare_step (hstep : h.Steps l h') (d : ClientId) :
    lastOf Message.screenOf (h'.client d).outbound =
      (h.sentShare d l).or (lastOf Message.screenOf (h.client d).outbound) := by
  rcases appends_step hstep d with hsent | ⟨⟨allowed, input, rfl⟩, text, herror⟩
  · rw [hsent, lastOf_append, share_sent]
  · rw [herror, lastOf_append]
    rfl

/-! ## Who is still to speak -/

/-- A client's handler or an admin update that has still to tell the room. -/
def Casts (h : Hub) : ClientId ⊕ AdminId → Prop
  | .inl c => (h.client c).phase.castsShare = true
  | .inr a => (h.admin a).castsShare = true

/-- Somebody has still to take the screen publication of `p` out. -/
inductive Pauses (h : Hub) (p : ParticipantID) : Prop
  | client (c : ClientId) (hp : (h.client c).participantID = some p)
      (hphase : (h.client c).phase.pausesShare = true)
  | admin (a : AdminId) (cfg : Config) (hadmin : h.admin a = .pausing cfg (some p))

/-- Whose broadcast of the lease a step is. -/
def castBy (h : Hub) : Label → Option (ClientId ⊕ AdminId)
  | .run c _ =>
    match (h.client c).phase with
    | .handling (.sharedCast _) | .parting _ .screenCast => some (.inl c)
    | _ => none
  | .admin a =>
    match h.admin a with
    | .screenCast => some (.inr a)
    | _ => none
  | _ => none

theorem admin_setAdmin {a : AdminId} {phase : AdminPhase} : (h.setAdmin a phase).admin a = phase := by
  simp [setAdmin]

/-- Whoever has to tell the room does so before anything else. -/
theorem casts_step (hstep : h.Steps l h') (hcasts : h.Casts who) :
    h'.Casts who ∨ h.castBy l = some who := by
  cases who with
  | inl c =>
    have hphase : (h.client c).phase.castsShare = true := hcasts
    have hstays : (h.client c).phase ≠ .absent ∧ (h.client c).phase ≠ .reading ∧
        ∀ clients, (h.client c).phase ≠ .notifying clients := by
      refine ⟨fun he => ?_, fun he => ?_, fun clients he => ?_⟩ <;>
        simp [he, Phase.castsShare] at hphase
    rcases stays_step (c := c) hstep hstays.1 hstays.2.1 hstays.2.2 with hkept | ⟨ok, rfl⟩
    · left
      show (h'.client c).phase.castsShare = true
      rw [hkept, hphase]
    · cases hstep with
      | run _ _ _ hrun =>
        cases hrun with
        | handling q handler hq hc =>
          rw [hc] at hphase
          cases handler with
          | shared active change =>
            cases change with
            | none => cases hphase
            | some owner =>
              left
              show ((h.runHandler c q (.shared active (some owner))).client c).phase.castsShare = true
              rw [runHandler, phase_goto]
              rfl
          | sharedCast owner => exact Or.inr (by simp only [castBy, hc])
          | _ => cases hphase
        | parting q departure at_ hq hc =>
          rw [hc] at hphase
          cases at_ with
          | unpublish =>
            left
            show ((h.runTeardown c q departure .unpublish).client c).phase.castsShare = true
            rw [runTeardown, phase_goto]
            rfl
          | screenCast => exact Or.inr (by simp only [castBy, hc])
          | _ => cases hphase
        | _ => simp_all [Phase.castsShare]
  | inr a =>
    have hadmin : (h.admin a).castsShare = true := hcasts
    have hbusy : h.admin a ≠ .idle := fun he => by simp [he, AdminPhase.castsShare] at hadmin
    rcases Hub.admin_step hstep a hbusy with ⟨-, hkept⟩ | ⟨rfl, -⟩
    · left
      show (h'.admin a).castsShare = true
      rw [hkept, hadmin]
    · cases hstep with
      | adminPause _ cfg released ha =>
        rw [ha] at hadmin
        exact Or.inl ((congrArg AdminPhase.castsShare admin_setAdmin).trans hadmin)
      | adminAnnounce _ cfg released ha =>
        rw [ha] at hadmin
        exact Or.inl ((congrArg AdminPhase.castsShare admin_setAdmin).trans hadmin)
      | adminClear _ cfg released ha =>
        rw [ha] at hadmin
        have hadmin : released = true := hadmin
        refine Or.inl ((congrArg AdminPhase.castsShare admin_setAdmin).trans ?_)
        rw [if_pos hadmin]
        rfl
      | adminScreenCast _ ha => exact Or.inr (by simp only [castBy, ha])
      | adminSnapshot _ ha | adminLimit _ _ ha | adminRelease _ _ ha =>
        rw [ha] at hadmin
        cases hadmin

/-- Whoever has to pause `p` does so before anything else. -/
theorem pauses_step (hpresent : h.Present) (hstep : h.Steps l h') (hpauses : h.Pauses p) :
    h'.Pauses p ∨ ¬ h'.media.router.ScreenActive p := by
  cases hpauses with
  | client c hp hphase =>
    have hstays : (h.client c).phase ≠ .absent ∧ (h.client c).phase ≠ .reading ∧
        ∀ clients, (h.client c).phase ≠ .notifying clients := by
      refine ⟨fun he => ?_, fun he => ?_, fun clients he => ?_⟩ <;>
        simp [he, Phase.pausesShare] at hphase
    rcases stays_step (c := c) hstep hstays.1 hstays.2.1 hstays.2.2 with hkept | ⟨ok, rfl⟩
    · exact Or.inl (.client c (participantID_step hpresent hstep hp) (by rw [hkept, hphase]))
    · right
      cases hstep with
      | run _ _ _ hrun =>
        cases hrun with
        | handling q handler hq hc =>
          have hid := participantID_of_some hq
          rw [hp, Option.some.injEq] at hid
          subst hid
          rw [hc] at hphase
          cases handler with
          | shared active change =>
            cases active with
            | true => cases hphase
            | false => exact Router.not_screenActive_pause
          | _ => cases hphase
        | parting q departure at_ hq hc =>
          have hid := participantID_of_some hq
          rw [hp, Option.some.injEq] at hid
          subst hid
          rw [hc] at hphase
          cases at_ with
          | unpublish => exact Router.not_screenActive_unpublish
          | _ => cases hphase
        | _ => simp_all [Phase.pausesShare]
  | admin a cfg hadmin =>
    rcases Hub.admin_step hstep a (by simp [hadmin]) with ⟨-, hkept⟩ | ⟨rfl, -⟩
    · exact Or.inl (.admin a cfg (hkept.trans hadmin))
    · right
      cases hstep with
      | adminPause _ cfg' released ha =>
        rw [hadmin, AdminPhase.pausing.injEq] at ha
        obtain ⟨-, rfl⟩ := ha
        exact Router.not_screenActive_pause
      | _ => simp_all

/-! ## The lease -/

/-- What a step does to the lease. -/
inductive LeaseChange (h h' : Hub) : Prop
  | same (he : h'.screenOwner = h.screenOwner)
  | granted (c : ClientId) (hfree : h.screenOwner = none)
      (hphase : (h'.client c).phase = .handling (.shared true (some h'.screenOwner)))
  | returned (c : ClientId) (p : ParticipantID) (hp : (h'.client c).participantID = some p)
      (howner : h.screenOwner = some p) (hnone : h'.screenOwner = none)
      (hphase : (h'.client c).phase = .handling (.shared false (some none)))
  | released (c : ClientId) (p : ParticipantID) (departure : Departure)
      (hp : (h'.client c).participantID = some p) (howner : h.screenOwner = some p)
      (hnone : h'.screenOwner = none) (hphase : (h'.client c).phase = .parting departure .unpublish)
  | revoked (a : AdminId) (cfg : Config) (p : ParticipantID) (howner : h.screenOwner = some p)
      (hnone : h'.screenOwner = none) (hadmin : h'.admin a = .pausing cfg (some p))

/-- The lease is a participant's. -/
def SharerKnown (h : Hub) : Prop :=
  ∀ c, h.screenSharer = some c → ∃ p, (h.client c).participantID = some p

theorem screenOwner_of_sharer (hsharer : h.screenSharer = some c) :
    h.screenOwner = (h.client c).participantID := by
  rw [screenOwner, hsharer]
  rfl

theorem screenOwner_of_free (hsharer : h.screenSharer = none) : h.screenOwner = none := by
  rw [screenOwner, hsharer]
  rfl

/-- The locked section of `requestScreenShare`, once it is granted. -/
theorem requestScreenShare_granted {active : Bool} {streamID trackID : String}
    (hfree : h.shareTaken c active = false) :
    ((h.requestScreenShare c active streamID trackID).client c).phase =
      .handling (.shared active (if (h.requestScreenShare c active streamID trackID).screenOwner ≠
        h.screenOwner then some (h.requestScreenShare c active streamID trackID).screenOwner
      else none)) := by
  have hgoto : ∀ (g : Hub) (phase : Phase), (g.goto c phase).screenOwner = g.screenOwner := by
    intro g phase
    unfold screenOwner
    show g.screenSharer.bind (fun e => ((g.goto c phase).client e).participantID) = _
    congr 1
    funext e
    rw [goto, client_update]
    split
    · next he => rw [he]; rfl
    · rfl
  have hopen : ¬ ((active && h.screenSharer.isSome && decide (h.screenSharer ≠ some c)) = true) :=
    Bool.eq_false_iff.mp hfree
  unfold requestScreenShare
  dsimp only
  rw [if_neg hopen, phase_goto, hgoto]

theorem lease_step (hknown : h.SharerKnown) (hpresent : h.Present) (hstep : h.Steps l h') :
    h.LeaseChange h' ∧ h'.SharerKnown := by
  have hroom := room_step hstep
  have hsharer : h'.screenSharer = h'.room.sharer := rfl
  generalize h'.room = room at hroom hsharer
  -- a lease that stays with its client
  have hkept : h'.screenSharer = h.screenSharer → h.LeaseChange h' ∧ h'.SharerKnown := by
    intro he
    cases hs : h.screenSharer with
    | none =>
      rw [hs] at he
      exact ⟨.same (by rw [screenOwner_of_free he, screenOwner_of_free hs]),
        fun c hc => by rw [he] at hc; cases hc⟩
    | some c =>
      obtain ⟨p, hp⟩ := hknown c hs
      have hp' := participantID_step hpresent hstep hp
      rw [hs] at he
      refine ⟨.same ?_, fun e hc => ?_⟩
      · rw [screenOwner_of_sharer he, screenOwner_of_sharer hs, hp, hp']
      · rw [he, Option.some.injEq] at hc
        exact ⟨p, hc ▸ hp'⟩
  cases hroom with
  | shared c ok q streamID trackID hq hphase hfree =>
    have hp' := participantID_step hpresent hstep (participantID_of_some hq)
    refine ⟨?_, fun e he => ?_⟩
    · cases hstep with
      | run _ _ _ hrun =>
        cases hrun with
        | handling q' handler hq' hphase' =>
          rw [hphase, Phase.handling.injEq] at hphase'
          subst hphase'
          have hgranted := @requestScreenShare_granted h c true streamID trackID hfree
          have howner := screenOwner_of_sharer hsharer
          by_cases hchanged : (h.requestScreenShare c true streamID trackID).screenOwner = h.screenOwner
          · exact .same hchanged
          · rw [if_pos hchanged] at hgranted
            refine .granted c ?_ hgranted
            cases hs : h.screenSharer with
            | none => exact screenOwner_of_free hs
            | some e =>
              have he : e = c := by simpa [shareTaken, hs] using hfree
              subst he
              refine absurd ?_ hchanged
              rw [screenOwner_of_sharer hs]
              exact howner.trans (hp'.trans (participantID_of_some hq).symm)
        | _ => simp_all
    · rw [hsharer, Option.some.injEq] at he
      exact ⟨q.id, he ▸ hp'⟩
  | unshared c ok q streamID trackID hq hphase hs =>
    have hp' := participantID_step hpresent hstep (participantID_of_some hq)
    have howner : h.screenOwner = some q.id := by
      rw [screenOwner_of_sharer hs, participantID_of_some hq]
    have hnone := screenOwner_of_free hsharer
    refine ⟨.returned c q.id hp' howner hnone ?_, fun e he => by rw [hsharer] at he; cases he⟩
    cases hstep with
    | run _ _ _ hrun =>
      cases hrun with
      | handling q' handler hq' hphase' =>
        rw [hphase, Phase.handling.injEq] at hphase'
        subst hphase'
        have hgranted := @requestScreenShare_granted h c false streamID trackID rfl
        have hnone : (h.requestScreenShare c false streamID trackID).screenOwner = none := hnone
        rw [hnone, howner, if_pos (by simp)] at hgranted
        exact hgranted
      | _ => simp_all
  | released c ok q departure hq hphase hs =>
    have hp' := participantID_step hpresent hstep (participantID_of_some hq)
    have howner : h.screenOwner = some q.id := by
      rw [screenOwner_of_sharer hs, participantID_of_some hq]
    refine ⟨.released c q.id departure hp' howner (screenOwner_of_free hsharer) ?_,
      fun e he => by rw [hsharer] at he; cases he⟩
    cases hstep with
    | run _ _ _ hrun =>
      cases hrun with
      | parting q' departure' at_ hq' hphase' =>
        rw [hphase, Phase.parting.injEq] at hphase'
        obtain ⟨rfl, rfl⟩ := hphase'
        show ((h.releaseScreenShare c departure).client c).phase = _
        unfold releaseScreenShare
        rw [if_pos hs, phase_update]
      | _ => simp_all
  | revoked a cfg hadmin hoff =>
    cases hs : h.screenSharer with
    | none => exact hkept (hsharer.trans hs.symm)
    | some c =>
      obtain ⟨p, hp⟩ := hknown c hs
      have howner : h.screenOwner = some p := by rw [screenOwner_of_sharer hs, hp]
      refine ⟨.revoked a cfg p howner (screenOwner_of_free hsharer) ?_,
        fun e he => by rw [hsharer] at he; cases he⟩
      cases hstep with
      | adminRelease _ cfg' hadmin' =>
        rw [hadmin, AdminPhase.releasing.injEq] at hadmin'
        subst hadmin'
        simp only [releaseDisabledShare, hs, hoff, Bool.false_eq_true, if_false, setAdmin,
          Function.update_self, hp]
      | _ => simp_all
  | _ => exact hkept hsharer

end Hub

end SlowMeet.Signaling
