import SlowMeet.Media.Retries
import SlowMeet.Media.Shedding

/-!
# One layer for a receiver

Which layer of a camera a receiver gets, and that it is asked a key frame for
whenever it enters one. The pacers of a source's layers choose alone, but from
the same maps; the marker on a target tells its pacer whom the last frame went
to.
-/

namespace SlowMeet.Media

open Lib

/-! ## The choice -/

/-- How far a layer is from the preferred one. -/
def layerDistance (preferred layer : CameraLayer) : Nat :=
  (cameraLayerRank layer - cameraLayerRank preferred) +
    (cameraLayerRank preferred - cameraLayerRank layer)

/-- The active layer nearest to the preferred one, the lower of two. -/
def Nearest (preferred : CameraLayer) (active : CameraLayer → Prop) (layer : CameraLayer) : Prop :=
  active layer ∧ ∀ other, active other →
    layerDistance preferred layer < layerDistance preferred other ∨
      layerDistance preferred layer = layerDistance preferred other ∧
        cameraLayerRank layer ≤ cameraLayerRank other

theorem rank_injective {layer other : CameraLayer}
    (h : cameraLayerRank layer = cameraLayerRank other) : layer = other := by
  cases layer <;> cases other <;> first | rfl | cases h

theorem Nearest.unique {preferred layer other : CameraLayer} {active : CameraLayer → Prop}
    (h : Nearest preferred active layer) (h' : Nearest preferred active other) : layer = other := by
  apply rank_injective
  have hle := h.2 other h'.1
  have hle' := h'.2 layer h.1
  omega

namespace Router

/-- What the loop of `selectedCameraLayerLocked` has found among the layers it
has seen. -/
def Selection.Best (preferred : CameraLayer) (active : CameraLayer → Prop)
    (best : Selection) : Prop :=
  (best = ⟨none, 3, 3⟩ ∧ ∀ layer, ¬ active layer) ∨
    ∃ layer, best = ⟨some layer, layerDistance preferred layer, cameraLayerRank layer⟩ ∧
      Nearest preferred active layer

/-- One round of the loop. -/
theorem Selection.Best.consider {preferred : CameraLayer} {active : CameraLayer → Prop}
    {best : Selection} (h : best.Best preferred active) (candidate : CameraLayer → Bool)
    (layer : CameraLayer) :
    (Router.consider candidate (cameraLayerRank preferred) best layer).Best preferred
      fun other => active other ∨ other = layer ∧ candidate layer = true := by
  have hfar : layerDistance preferred layer < 3 := by
    cases preferred <;> cases layer <;> decide
  unfold Router.consider
  by_cases hcandidate : candidate layer = true
  · rw [if_pos hcandidate]
    rcases h with ⟨rfl, hnone⟩ | ⟨found, rfl, hfound⟩
    · -- The first candidate is taken.
      right
      refine ⟨layer, if_pos ?_, Or.inr ⟨rfl, hcandidate⟩, ?_⟩
      · simp only [Bool.or_eq_true, decide_eq_true_eq]
        exact Or.inl hfar
      · rintro other (hactive | ⟨rfl, -⟩)
        · exact absurd hactive (hnone other)
        · exact Or.inr ⟨rfl, Nat.le_refl _⟩
    · right
      by_cases hnearer : layerDistance preferred layer < layerDistance preferred found ∨
          layerDistance preferred layer = layerDistance preferred found ∧
            cameraLayerRank layer < cameraLayerRank found
      · refine ⟨layer, if_pos ?_, Or.inr ⟨rfl, hcandidate⟩, ?_⟩
        · simp only [Bool.or_eq_true, Bool.and_eq_true, decide_eq_true_eq]
          exact hnearer
        · rintro other (hactive | ⟨rfl, -⟩)
          · have hle := hfound.2 other hactive
            omega
          · exact Or.inr ⟨rfl, Nat.le_refl _⟩
      · refine ⟨found, if_neg ?_, Or.inl hfound.1, ?_⟩
        · simp only [Bool.or_eq_true, Bool.and_eq_true, decide_eq_true_eq]
          exact hnearer
        · rintro other (hactive | ⟨rfl, -⟩)
          · exact hfound.2 other hactive
          · omega
  · rw [if_neg hcandidate]
    rcases h with ⟨rfl, hnone⟩ | ⟨found, rfl, hfound⟩
    · refine Or.inl ⟨rfl, fun other => ?_⟩
      rintro (hactive | ⟨-, hlayer⟩)
      · exact hnone other hactive
      · exact hcandidate hlayer
    · refine Or.inr ⟨found, rfl, Or.inl hfound.1, ?_⟩
      rintro other (hactive | ⟨-, hlayer⟩)
      · exact hfound.2 other hactive
      · exact absurd hlayer hcandidate

/-- The preference of a receiver. -/
def preferredLayer (r : Router) (receiverID : ParticipantID) : CameraLayer :=
  (r.cameraLayers.lookup receiverID).getD .medium

/-- **What `selectedCameraLayerLocked` selects.** -/
theorem selectedCameraLayerLocked_best (r : Router) (lastPacketAt : Nat → Instant)
    (sourceID receiverID : ParticipantID) (now : Instant) :
    (∀ layer, r.selectedCameraLayerLocked lastPacketAt sourceID receiverID now = some layer ↔
      Nearest (r.preferredLayer receiverID)
        (fun layer => r.candidate lastPacketAt sourceID receiverID now layer = true) layer) ∧
      ((∃ layer, r.candidate lastPacketAt sourceID receiverID now layer = true) →
        ∃ layer, r.selectedCameraLayerLocked lastPacketAt sourceID receiverID now = some layer) := by
  generalize hc : r.candidate lastPacketAt sourceID receiverID now = candidate
  have hstart : Selection.Best (r.preferredLayer receiverID) (fun _ => False) ⟨none, 3, 3⟩ :=
    Or.inl ⟨rfl, fun _ h => h⟩
  have hbest := ((hstart.consider candidate .low).consider candidate .medium).consider
    candidate .high
  have hactive : ∀ layer, (((False ∨ layer = .low ∧ candidate .low = true) ∨
      layer = .medium ∧ candidate .medium = true) ∨ layer = .high ∧ candidate .high = true) ↔
      candidate layer = true := by
    intro layer
    cases layer <;> simp
  simp only [hactive] at hbest
  have hselected : r.selectedCameraLayerLocked lastPacketAt sourceID receiverID now =
      (Router.consider candidate (cameraLayerRank (r.preferredLayer receiverID))
        (Router.consider candidate (cameraLayerRank (r.preferredLayer receiverID))
          (Router.consider candidate (cameraLayerRank (r.preferredLayer receiverID))
            ⟨none, 3, 3⟩ .low) .medium) .high).selected := by
    unfold selectedCameraLayerLocked
    rw [hc]
    rfl
  rw [hselected]
  rcases hbest with ⟨hnothing, hnone⟩ | ⟨found, hfound, hnearest⟩
  · rw [hnothing]
    refine ⟨fun layer => ⟨fun h => ?_, fun h => absurd h.1 (hnone layer)⟩, ?_⟩
    · cases h
    · rintro ⟨layer, hlayer⟩
      exact absurd hlayer (hnone layer)
  · rw [hfound]
    refine ⟨fun layer => ⟨fun h => ?_, fun h => ?_⟩, fun _ => ⟨found, rfl⟩⟩
    · obtain rfl := Option.some.inj h
      exact hnearest
    · exact congrArg some (hnearest.unique h)

theorem current_eq_some {r : Router} {info : PublicationInfo} {pub : Publication} :
    r.current info = some pub ↔ r.pubs.lookup info.key = some pub ∧ pub.info = info := by
  unfold current
  rw [Option.filter_eq_some_iff, decide_eq_true_eq]

/-- **Whom a frame of a layer goes to.** -/
theorem mem_targets_iff {r : Router} {lastPacketAt : Nat → Instant} {info : PublicationInfo}
    {now : Instant} {sourceID receiverID : ParticipantID} {layer : CameraLayer}
    (hkey : info.key = ⟨sourceID, .camera, some layer⟩) :
    receiverID ∈ (r.resolveFrameTargets lastPacketAt info now).targets ↔
      (∃ pub, r.current info = some pub ∧ pub.paused = false) ∧
        r.selectedCameraLayerLocked lastPacketAt sourceID receiverID now = some layer := by
  unfold resolveFrameTargets
  cases hcurrent : r.current info with
  | none => simp
  | some pub =>
    cases hpaused : pub.paused with
    | true => simp [hpaused]
    | false =>
      have hsubscribed : r.selectedCameraLayerLocked lastPacketAt sourceID receiverID now =
          some layer → receiverID ∈ pub.tracks.keys := by
        intro hselected
        have hactive : r.candidate lastPacketAt sourceID receiverID now layer = true :=
          (((r.selectedCameraLayerLocked_best lastPacketAt sourceID receiverID now).1 layer).mp
            hselected).1
        unfold candidate at hactive
        have hcamera : publicationKey sourceID .camera (some layer) = info.key := hkey.symm
        rw [hcamera, (current_eq_some.mp hcurrent).1] at hactive
        dsimp only at hactive
        rw [Bool.and_eq_true] at hactive
        exact AList.lookup_isSome.mp hactive.1
      have hkeys : pub.tracks.keys.isEmpty = true → receiverID ∉ pub.tracks.keys := by
        intro hempty
        rw [List.isEmpty_iff.mp hempty]
        exact List.not_mem_nil
      have hlayer : info.key.layer = some layer := by rw [hkey]
      have hsource : info.key.sourceID = sourceID := by rw [hkey]
      by_cases hempty : pub.tracks.keys.isEmpty = true
      · simp only [hpaused, hempty, Bool.or_true, if_true, List.not_mem_nil, false_iff]
        rintro ⟨-, hselected⟩
        exact hkeys hempty (hsubscribed hselected)
      · simp only [hpaused, hempty, Bool.or_self, Bool.false_eq_true, if_false, hlayer, hsource,
          List.mem_filter, decide_eq_true_eq]
        constructor
        · rintro ⟨-, hselected⟩
          exact ⟨⟨pub, rfl, hpaused⟩, hselected⟩
        · rintro ⟨-, hselected⟩
          exact ⟨hsubscribed hselected, hselected⟩

end Router

/-! ## What the router leaves of the markers -/

namespace Publication

/-- No target has been sent a layer. -/
def Unmarked (pub : Publication) : Prop :=
  ∀ id target, pub.tracks.lookup id = some target → target.lastSentLayer = none

/-- A marked target of `pub'` is the same target of `pub`. -/
def Keeps (pub pub' : Publication) : Prop :=
  pub'.info = pub.info ∧ ∀ id target, pub'.tracks.lookup id = some target →
    target.lastSentLayer ≠ none →
    pub.tracks.lookup id = some target ∧ pub'.senders.lookup id = pub.senders.lookup id

theorem Keeps.refl (pub : Publication) : pub.Keeps pub := ⟨rfl, fun _ _ h _ => ⟨h, rfl⟩⟩

theorem keeps_removeTarget (pub : Publication) (id : ParticipantID) :
    pub.Keeps (pub.removeTarget id) := by
  refine ⟨rfl, fun other target htarget _ => ?_⟩
  have hlookup : (pub.tracks.erase id).lookup other = some target := htarget
  rw [GoMap.lookup_erase] at hlookup
  by_cases hother : other = id
  · rw [if_pos hother] at hlookup
    cases hlookup
  · rw [if_neg hother] at hlookup
    rw [removeTarget_senders, if_neg hother]
    exact ⟨hlookup, rfl⟩

theorem addTarget_tracks (pub : Publication) (id : ParticipantID) (sender : RTPSender)
    (other : ParticipantID) :
    (pub.addTarget id sender).tracks.lookup other =
      if other = id then some {} else pub.tracks.lookup other :=
  GoMap.lookup_insert ..

theorem keeps_addTarget (pub : Publication) (id : ParticipantID) (sender : RTPSender) :
    pub.Keeps (pub.addTarget id sender) := by
  refine ⟨rfl, fun other target htarget hmarked => ?_⟩
  rw [addTarget_tracks] at htarget
  by_cases hother : other = id
  · rw [if_pos hother] at htarget
    obtain rfl := Option.some.inj htarget
    exact absurd rfl hmarked
  · rw [if_neg hother] at htarget
    rw [addTarget_senders, if_neg hother]
    exact ⟨htarget, rfl⟩

theorem Unmarked.addTarget {pub : Publication} (h : pub.Unmarked) (id : ParticipantID)
    (sender : RTPSender) : (pub.addTarget id sender).Unmarked := by
  intro other target htarget
  rw [addTarget_tracks] at htarget
  by_cases hother : other = id
  · rw [if_pos hother] at htarget
    exact Option.some.inj htarget ▸ rfl
  · rw [if_neg hother] at htarget
    exact h other target htarget

end Publication

namespace Router

theorem unmarked_migrateTargets {replaceOk : ParticipantID → Bool} (ids : List ParticipantID)
    {state : Router × Publication × Publication} (h : state.2.2.Unmarked) :
    (ids.foldl (migrateTarget replaceOk) state).2.2.Unmarked := by
  induction ids generalizing state with
  | nil => exact h
  | cons id rest ih =>
    apply ih
    obtain ⟨r, existing, replacement⟩ := state
    unfold migrateTarget
    dsimp only
    split
    · exact h
    · split
      · exact h.addTarget _ _
      · exact h

/-- The publication `Publish` registers has sent no target anything. -/
theorem publish_unmarked {r : Router} {info : PublicationInfo} {replaceOk : ParticipantID → Bool}
    {d : Decision} (h : r.publish info replaceOk = some d) :
    ∃ pub, d.router.pubs = r.pubs.insert info.key pub ∧ pub.info = info ∧ pub.Unmarked := by
  have hstart : (Publication.start info).Unmarked := fun _ _ h => by cases h
  obtain ⟨pub, hpub⟩ := publish_published h
  refine ⟨pub, hpub.pubs, hpub.info_eq, ?_⟩
  have hlookup : d.router.pubs.lookup info.key = some pub := by
    rw [hpub.pubs, AList.lookup_insert]
  unfold publish at h
  cases hexisting : r.pubs.lookup info.key with
  | none =>
    simp only [hexisting, Option.some.injEq] at h
    subst h
    rw [AList.lookup_insert] at hlookup
    exact Option.some.inj hlookup ▸ hstart
  | some existing =>
    simp only [hexisting] at h
    split at h
    · cases h
    · obtain rfl := Option.some.inj h
      rw [AList.lookup_insert] at hlookup
      obtain rfl := Option.some.inj hlookup
      split
      · exact unmarked_migrateTargets _ hstart
      · exact hstart

/-- What a section of the router leaves registered: parts of what was, and at
most a new publication with the address `fresh`. -/
def Leaves (r r' : Router) (fresh : Nat) : Prop :=
  ∀ key pub', r'.pubs.lookup key = some pub' →
    (∃ pub, r.pubs.lookup key = some pub ∧ pub.Keeps pub') ∨
      pub'.info.ref = fresh ∧ pub'.info.key = key ∧ pub'.Unmarked

theorem leaves_of_eq {r r' : Router} (fresh : Nat) (h : r'.pubs = r.pubs) : r.Leaves r' fresh := by
  intro key pub' hpub
  rw [h] at hpub
  exact Or.inl ⟨pub', hpub, .refl pub'⟩

theorem leaves_of_map {r r' : Router} (fresh : Nat) (f : Publication → Publication)
    (hf : ∀ pub : Publication, pub.Keeps (f pub))
    (h : ∀ key pub', r'.pubs.lookup key = some pub' →
      ∃ pub, r.pubs.lookup key = some pub ∧ pub' = f pub) : r.Leaves r' fresh := by
  intro key pub' hpub
  obtain ⟨pub, hold, rfl⟩ := h key pub' hpub
  exact Or.inl ⟨pub, hold, hf pub⟩

theorem leaves_removePublications (r : Router) (gone : Publication → Bool) (fresh : Nat) :
    r.Leaves (r.removePublicationsLocked gone).router fresh := by
  apply leaves_of_map fresh id Publication.Keeps.refl
  intro key pub' hpub
  rw [removePublicationsLocked_pubs, Option.filter_eq_some_iff] at hpub
  exact ⟨pub', hpub.1, rfl⟩

theorem leaves_installSubscription (r : Router) (info : PublicationInfo)
    (targetID : ParticipantID) (sender : RTPSender) (holder : Holder) (fresh : Nat) :
    r.Leaves (r.installSubscription info targetID sender holder) fresh := by
  intro key pub' hpub
  unfold installSubscription at hpub
  split at hpub
  · exact Or.inl ⟨pub', hpub, .refl pub'⟩
  · next pub hold =>
    have hlookup : (r.pubs.insert info.key (pub.addTarget targetID sender)).lookup key =
        some pub' := hpub
    rw [GoMap.lookup_insert] at hlookup
    by_cases hkey : key = info.key
    · rw [if_pos hkey] at hlookup
      obtain rfl := Option.some.inj hlookup
      exact Or.inl ⟨pub, hkey ▸ hold, pub.keeps_addTarget targetID sender⟩
    · rw [if_neg hkey] at hlookup
      exact Or.inl ⟨pub', hlookup, .refl pub'⟩

end Router

namespace Plane

variable {m t : Plane}

/-- **What a section of the plane leaves registered.** -/
theorem leaves_step {l : Label} (h : m.step l = some t) :
    m.router.Leaves t.router m.fresh ∧ m.fresh ≤ t.fresh := by
  cases l with
  | register id peer offerer =>
    obtain rfl := Option.some.inj h
    exact ⟨Router.leaves_of_eq _ rfl, Nat.le_refl _⟩
  | unregister id =>
    obtain rfl := Option.some.inj h
    refine ⟨?_, Nat.le_refl _⟩
    apply Router.leaves_of_map _ (fun pub : Publication => pub.removeTarget id)
      fun pub => Publication.keeps_removeTarget pub id
    intro key pub' hpub
    rw [show (m.unregister id).router = (m.router.unregister id).router from rfl,
      Router.unregister_pubs, Option.map_eq_some_iff] at hpub
    obtain ⟨pub, hold, rfl⟩ := hpub
    exact ⟨pub, (Option.filter_eq_some_iff.mp hold).1, rfl⟩
  | publish sourceID role source remote layer failed =>
    obtain rfl := Option.some.inj h
    unfold publish
    dsimp only
    split
    · split
      · exact ⟨Router.leaves_of_eq _ rfl, Nat.le_refl _⟩
      · next d hd =>
        refine ⟨fun key pub' hpub => ?_, Nat.le_succ _⟩
        obtain ⟨pub, hpubs, hinfo, hunmarked⟩ := Router.publish_unmarked hd
        have hlookup : d.router.pubs.lookup key = some pub' := hpub
        rw [hpubs, GoMap.lookup_insert] at hlookup
        split at hlookup
        · next hkey =>
          obtain rfl := Option.some.inj hlookup
          exact Or.inr ⟨by rw [hinfo], by rw [hinfo, hkey], hunmarked⟩
        · exact Or.inl ⟨pub', hlookup, .refl pub'⟩
    · exact ⟨Router.leaves_of_eq _ rfl, Nat.le_refl _⟩
  | setVideoSubscriptionsWithLayer receiverID ids layer =>
    obtain rfl := Option.some.inj h
    refine ⟨fun key pub' hpub => ?_, Nat.le_refl _⟩
    rw [show (m.setVideoSubscriptionsWithLayer receiverID ids layer).router =
        (m.router.setVideoSubscriptionsWithLayer receiverID ids layer).router from rfl,
      Router.setVideoSubscriptionsWithLayer_pubs, Option.map_eq_some_iff] at hpub
    obtain ⟨pub, hold, rfl⟩ := hpub
    refine Or.inl ⟨pub, hold, ?_⟩
    split
    · exact pub.keeps_removeTarget receiverID
    · exact .refl pub
  | unpublish sourceID role =>
    obtain rfl := Option.some.inj h
    exact ⟨m.router.leaves_removePublications _ _, Nat.le_refl _⟩
  | setPublicationActive sourceID role active =>
    obtain rfl := Option.some.inj h
    refine ⟨fun key pub' hpub => ?_, Nat.le_refl _⟩
    rw [show (m.setPublicationActive sourceID role active).router =
        m.router.setPublicationActive sourceID role active from rfl,
      Router.setPublicationActive, GoMap.lookup_mapValues, Option.map_eq_some_iff] at hpub
    obtain ⟨pub, hold, rfl⟩ := hpub
    refine Or.inl ⟨pub, hold, ?_⟩
    split
    · exact ⟨rfl, fun _ _ h _ => ⟨h, rfl⟩⟩
    · exact .refl pub
  | trackOp index ok =>
    obtain ⟨op, rest, -, -, rfl⟩ := trackOp_eq_some h
    cases op with
    | subscribe pub targetID peer =>
      cases ok with
      | true => exact ⟨Router.leaves_of_eq _ rfl, Nat.le_succ _⟩
      | false => exact ⟨Router.leaves_of_eq _ rfl, Nat.le_refl _⟩
    | install info targetID peer sender =>
      unfold applyTrackOp
      dsimp only
      split
      · exact ⟨m.router.leaves_installSubscription info targetID sender _ _, Nat.le_succ _⟩
      · exact ⟨Router.leaves_of_eq _ rfl, Nat.le_refl _⟩
    | remove peer sender =>
      cases ok with
      | true => exact ⟨Router.leaves_of_eq _ rfl, Nat.le_refl _⟩
      | false => exact ⟨Router.leaves_of_eq _ rfl, Nat.le_refl _⟩
  | readStop index =>
    obtain ⟨info, -, rfl⟩ := Option.map_eq_some_iff.mp h
    exact ⟨m.router.leaves_removePublications _ _, Nat.le_refl _⟩

/-- A section starts at most one forwarding goroutine, for the publication it
has just made. -/
theorem forwards_step {l : Label} (h : m.step l = some t) :
    t.forwards.drop m.forwards.length = [] ∨
      ∃ info, t.forwards.drop m.forwards.length = [info] ∧ info.ref = m.fresh ∧
        t.fresh = m.fresh + 1 := by
  have hsame : ∀ {t : Plane}, t.forwards = m.forwards →
      t.forwards.drop m.forwards.length = [] := by
    intro t hforwards
    rw [hforwards, List.drop_length]
  cases l with
  | publish sourceID role source remote layer failed =>
    obtain rfl := Option.some.inj h
    unfold publish
    dsimp only
    split
    · split
      · exact Or.inl (hsame rfl)
      · next source remote _ d _ =>
        exact Or.inr ⟨⟨m.fresh, Router.publicationKey sourceID role layer, remote.codec, remote,
          source⟩, List.drop_left, rfl, rfl⟩
    · exact Or.inl (hsame rfl)
  | trackOp index ok =>
    obtain ⟨op, rest, -, -, rfl⟩ := trackOp_eq_some h
    apply Or.inl
    apply hsame
    unfold applyTrackOp
    cases op with
    | subscribe pub targetID peer => cases ok <;> rfl
    | install info targetID peer sender => dsimp only; split <;> rfl
    | remove peer sender => cases ok <;> rfl
  | readStop index =>
    obtain ⟨info, -, rfl⟩ := Option.map_eq_some_iff.mp h
    apply Or.inl
    show (m.forwards.eraseIdx index).drop m.forwards.length = []
    apply List.drop_eq_nil_of_le
    exact (List.eraseIdx_sublist m.forwards index).length_le
  | register _ _ _ | unregister _ | setVideoSubscriptionsWithLayer _ _ _ | unpublish _ _
  | setPublicationActive _ _ _ =>
    obtain rfl := Option.some.inj h
    exact Or.inl (hsame rfl)

end Plane

/-! ## What a resolved frame leaves -/

namespace Router

theorem Keyed.leaves {r r' : Router} {fresh : Nat} (hr : r.Keyed) (h : r.Leaves r' fresh) :
    r'.Keyed := by
  intro key pub' hpub
  rcases h key pub' hpub with ⟨pub, hold, hkeeps⟩ | ⟨-, hkey, -⟩
  · rw [hkeeps.1]
    exact hr key pub hold
  · exact hkey

/-- A paused publication resolves no frame, nor does one that is gone. -/
theorem resolveFrameTargets_quiet {r : Router} {lastPacketAt : Nat → Instant}
    {info : PublicationInfo} {now : Instant}
    (h : ∀ pub, r.current info = some pub → pub.paused = true) :
    r.resolveFrameTargets lastPacketAt info now = ⟨r, [], []⟩ := by
  unfold resolveFrameTargets
  cases hcurrent : r.current info with
  | none => rfl
  | some pub =>
    dsimp only
    rw [h pub hcurrent, Bool.true_or, if_pos rfl]

/-- **What a resolved frame leaves**: the publication with its senders, and
with its layer only on the targets the frame goes to. -/
theorem resolveFrameTargets_leaves {r : Router} {lastPacketAt : Nat → Instant}
    {info : PublicationInfo} {now : Instant} {pub : Publication}
    (hcurrent : r.current info = some pub) (hpaused : pub.paused = false) :
    ∃ pub', pub'.info = info ∧ pub'.senders = pub.senders ∧
      (∀ key, (r.resolveFrameTargets lastPacketAt info now).router.pubs.lookup key =
        if key = info.key then some pub' else r.pubs.lookup key) ∧
      ∀ layer id target, info.key.layer = some layer → pub'.tracks.lookup id = some target →
        target.lastSentLayer = some layer →
        id ∈ (r.resolveFrameTargets lastPacketAt info now).targets := by
  obtain ⟨hlookup, hinfo⟩ := current_eq_some.mp hcurrent
  have hsame : ∀ key, r.pubs.lookup key =
      if key = info.key then some pub else r.pubs.lookup key := by
    intro key
    by_cases hkey : key = info.key
    · rw [if_pos hkey, hkey, hlookup]
    · rw [if_neg hkey]
  unfold resolveFrameTargets
  simp only [hcurrent, hpaused, Bool.false_or]
  by_cases hempty : pub.tracks.keys.isEmpty = true
  · rw [if_pos hempty]
    refine ⟨pub, hinfo, rfl, hsame, fun layer id target _ htarget _ => ?_⟩
    have hmem : id ∈ pub.tracks.keys := AList.lookup_isSome.mp (by rw [htarget]; rfl)
    rw [List.isEmpty_iff.mp hempty] at hmem
    cases hmem
  · rw [if_neg hempty]
    cases hlayer : info.key.layer with
    | none =>
      refine ⟨pub, hinfo, rfl, hsame, fun layer id target hsome _ _ => ?_⟩
      cases hsome
    | some own =>
      refine ⟨pub.mark _, hinfo, rfl, fun key => GoMap.lookup_insert .., ?_⟩
      intro layer id target hsome htarget hmarked
      obtain rfl := Option.some.inj hsome
      have hentry : (pub.tracks.lookup id).map (fun target => markTarget own
          (decide (r.selectedCameraLayerLocked lastPacketAt info.key.sourceID id now =
            some own)) target) = some target :=
        (GoMap.lookup_mapEntries _ _ _).symm.trans htarget
      obtain ⟨before, hbefore, rfl⟩ := Option.map_eq_some_iff.mp hentry
      have hmem : id ∈ pub.tracks.keys := AList.lookup_isSome.mp (by rw [hbefore]; rfl)
      refine List.mem_filter.mpr ⟨hmem, ?_⟩
      -- A target the frame does not go to has lost the layer.
      by_contra hother
      have hunselected := Bool.eq_false_of_not_eq_true hother
      rw [hunselected] at hmarked
      unfold markTarget at hmarked
      rw [if_neg Bool.false_ne_true] at hmarked
      by_cases hsent : before.lastSentLayer = some own
      · rw [if_pos hsent] at hmarked
        cases hmarked
      · rw [if_neg hsent] at hmarked
        exact hsent hmarked

/-- **Whom a resolved frame asks a key frame for**: every target that did not
have the layer. -/
theorem mem_layerStarts {r : Router} {lastPacketAt : Nat → Instant} {info : PublicationInfo}
    {now : Instant} {pub : Publication} {layer : CameraLayer} {id : ParticipantID}
    (hcurrent : r.current info = some pub) (hlayer : info.key.layer = some layer)
    (hid : id ∈ (r.resolveFrameTargets lastPacketAt info now).targets)
    (hentered : ∀ target, pub.tracks.lookup id = some target → target.lastSentLayer ≠ some layer) :
    id ∈ (r.resolveFrameTargets lastPacketAt info now).layerStarts := by
  unfold resolveFrameTargets at hid ⊢
  simp only [hcurrent, hlayer] at hid ⊢
  split at hid
  · cases hid
  · next hforwards =>
    rw [if_neg hforwards]
    obtain ⟨hmem, hselected⟩ := List.mem_filter.mp hid
    obtain ⟨target, htarget⟩ := Option.isSome_iff_exists.mp (AList.lookup_isSome.mpr hmem)
    refine List.mem_map.mpr ⟨(id, target), List.mem_filter.mpr ⟨GoMap.mem_pairs.mpr htarget, ?_⟩,
      rfl⟩
    rw [Bool.and_eq_true]
    exact ⟨hselected, decide_eq_true (hentered target htarget)⟩

end Router

/-! ## Entering a layer -/

/-- The receivers a pacer has still to ask a key frame for. -/
def PacerPhase.due : PacerPhase → List ParticipantID
  | .waiting => []
  | .sending _ layerStarts => layerStarts
  | .requesting layerStarts => layerStarts

namespace Forwarding

variable {s t : Forwarding} {l : Label}

theorem due_rest (layerStarts : List ParticipantID) :
    (PacerPhase.rest layerStarts).due = layerStarts := by
  cases layerStarts <;> rfl

/-- A target with the marker of its layer was sent the last resolved frame,
and by the sender it has now. -/
def Marked (s : Forwarding) : Prop :=
  ∀ info pub layer id target, s.plane.router.current info = some pub →
    info.key.layer = some layer → pub.tracks.lookup id = some target →
    target.lastSentLayer = some layer → s.ledger.served info id = pub.senders.lookup id

/-- Whoever entered a layer and has had no retry pending since is one its
pacer has still to ask for. -/
structure Asking (s : Forwarding) : Prop where
  due : ∀ pacer ∈ s.pacers, ∀ id ∈ s.ledger.unmet pacer.publication, id ∈ pacer.phase.due
  distinct : (s.pacers.map (·.publication)).Nodup
  minted : ∀ pacer ∈ s.pacers, pacer.publication.ref < s.plane.fresh
  unused : ∀ info, s.plane.fresh ≤ info.ref → s.ledger.unmet info = ∅

theorem Asking.nobody (hs : s.Asking) {info : PublicationInfo} (h : s.plane.fresh ≤ info.ref)
    {id : ParticipantID} : id ∉ s.ledger.unmet info := by
  rw [hs.unused info h]
  exact Finset.notMem_empty id

/-- Nothing is resolved, and pacers at most stop. -/
theorem Asking.shrink (hs : s.Asking) (hfresh : s.plane.fresh ≤ t.plane.fresh)
    (hunmet : ∀ info, t.ledger.unmet info ⊆ s.ledger.unmet info)
    (hpacers : t.pacers.Sublist s.pacers) : t.Asking where
  due pacer hmem id hid := hs.due pacer (hpacers.subset hmem) id (hunmet _ hid)
  distinct := hs.distinct.sublist (hpacers.map _)
  minted pacer hmem := Nat.lt_of_lt_of_le (hs.minted pacer (hpacers.subset hmem)) hfresh
  unused info h := by
    rw [Finset.eq_empty_iff_forall_notMem]
    intro id hid
    exact hs.nobody (Nat.le_trans hfresh h) (hunmet info hid)

/-- A pacer goes on; what the others have to ask for stays theirs. -/
theorem Asking.setPacer (hs : s.Asking) {index : Nat} {pacer : Pacer} {phase : PacerPhase}
    (hpacer : s.pacers[index]? = some pacer) (hfresh : t.plane.fresh = s.plane.fresh)
    (hpacers : t.pacers = s.pacers.set index { pacer with phase := phase })
    (hothers : ∀ info, info ≠ pacer.publication → t.ledger.unmet info ⊆ s.ledger.unmet info)
    (hdue : ∀ id ∈ t.ledger.unmet pacer.publication, id ∈ phase.due) : t.Asking := by
  obtain ⟨hlt, hget⟩ := List.getElem?_eq_some_iff.mp hpacer
  have hpublications : t.pacers.map (·.publication) = s.pacers.map (·.publication) := by
    rw [hpacers, List.map_set]
    show (s.pacers.map (·.publication)).set index pacer.publication = _
    rw [← hget, ← List.getElem_map (fun pacer : Pacer => pacer.publication), List.set_getElem_self]
    rw [List.length_map]
    exact hlt
  have hdistinct : (t.pacers.map (·.publication)).Nodup := hpublications ▸ hs.distinct
  have hself : ({ pacer with phase := phase } : Pacer) ∈ t.pacers := by
    rw [hpacers]
    exact List.mem_set hlt _
  have hminted : ∀ other ∈ t.pacers, other.publication.ref < t.plane.fresh := by
    intro other hmem
    have hmap : other.publication ∈ s.pacers.map (·.publication) :=
      hpublications ▸ List.mem_map_of_mem hmem
    obtain ⟨before, hbefore, hsame⟩ := List.mem_map.mp hmap
    rw [← hsame, hfresh]
    exact hs.minted before hbefore
  refine ⟨fun other hmem id hid => ?_, hdistinct, hminted, fun info h => ?_⟩
  · by_cases hsame : other.publication = pacer.publication
    · obtain rfl : other = { pacer with phase := phase } :=
        List.inj_on_of_nodup_map hdistinct hmem hself hsame
      exact hdue id hid
    · have hid' := hothers _ hsame hid
      rw [hpacers] at hmem
      rcases List.mem_or_eq_of_mem_set hmem with hold | rfl
      · exact hs.due other hold id hid'
      · exact absurd rfl hsame
  · have hother : info ≠ pacer.publication := by
      rintro rfl
      have hlt := hminted _ hself
      exact Nat.not_lt.mpr h hlt
    rw [Finset.eq_empty_iff_forall_notMem]
    intro id hid
    exact hs.nobody (hfresh ▸ h) (hothers info hother hid)

/-- The publications, the markers and the pacers at a reachable state. -/
structure Layered (s : Forwarding) : Prop where
  keyed : s.plane.router.Keyed
  marked : s.Marked
  asking : s.Asking

theorem layered_new : new.Layered where
  keyed key pub h := by cases h
  marked info pub layer id target h := by cases h
  asking := ⟨fun pacer h => (List.not_mem_nil h).elim, List.nodup_nil,
    fun pacer h => (List.not_mem_nil h).elim, fun _ _ => rfl⟩

/-- The section resolves a frame. -/
def Label.resolves : Label → Bool
  | .resolve _ _ => true
  | _ => false

/-- What the history of a step keeps: a retry that is pending meets a
receiver, and nothing else changes but with a resolved frame. -/
theorem unmet_record (h : l.resolves = false) (info : PublicationInfo) :
    (s.record l t).ledger.unmet info ⊆ s.ledger.unmet info := by
  unfold record
  cases l with
  | resolve index now => cases h
  | _ => exact Finset.filter_subset _ _

theorem served_record (h : l.resolves = false) :
    (s.record l t).ledger.served = s.ledger.served := by
  cases l with
  | resolve index now => cases h
  | _ => rfl

/-- A section that leaves the router alone and resolves no frame. -/
theorem Layered.quiet (hs : s.Layered) (h : l.resolves = false) (hplane : t.plane = s.plane)
    (hasking : (s.record l t).Asking) : (s.record l t).Layered where
  keyed := by
    show t.plane.router.Keyed
    rw [hplane]
    exact hs.keyed
  marked := by
    unfold Marked
    rw [served_record h]
    show ∀ info pub layer id target, t.plane.router.current info = some pub → _
    rw [hplane]
    exact hs.marked
  asking := hasking

/-- A section that leaves the pacers where they stand, or stops one. -/
theorem Layered.still (hs : s.Layered) (h : l.resolves = false) (hplane : t.plane = s.plane)
    (hpacers : t.pacers.Sublist s.pacers) : (s.record l t).Layered := by
  apply hs.quiet h hplane
  refine hs.asking.shrink ?_ (unmet_record h) hpacers
  show s.plane.fresh ≤ t.plane.fresh
  rw [hplane]

/-- A section of the router. -/
theorem Layered.router (hs : s.Layered) {l : Plane.Label} (hu : s.routerStep l = some t) :
    (s.record (.router l) t).Layered := by
  obtain ⟨plane, hplane, rfl⟩ := Option.map_eq_some_iff.mp hu
  obtain ⟨hleaves, hfresh⟩ := Plane.leaves_step hplane
  refine ⟨hs.keyed.leaves hleaves, ?_, ?_⟩
  · intro info pub layer id target hcurrent hlayer htarget hmarked
    rw [served_record rfl]
    obtain ⟨hlookup, hinfo⟩ := Router.current_eq_some.mp hcurrent
    rcases hleaves info.key pub hlookup with ⟨before, hbefore, hkeeps⟩ | ⟨-, -, hunmarked⟩
    · obtain ⟨hold, hsender⟩ := hkeeps.2 id target htarget (by rw [hmarked]; simp)
      rw [hsender]
      exact hs.marked info before layer id target
        (Router.current_eq_some.mpr ⟨hbefore, hkeeps.1.symm.trans hinfo⟩) hlayer hold hmarked
    · rw [hunmarked id target htarget] at hmarked
      cases hmarked
  · have hunmet := unmet_record (s := s) (t := { s with
      plane := plane
      keyFrames := s.keyFrames.cancel s.plane l
      pacers := s.pacers ++ ((plane.forwards.drop s.plane.forwards.length).filter
        fun info => info.remote.kind = .video).map fun info => ⟨info, .waiting⟩ })
      (l := .router l) rfl
    rcases Plane.forwards_step hplane with hnone | ⟨info, hstarted, href, hnext⟩
    · apply hs.asking.shrink hfresh hunmet
      show (s.pacers ++ _).Sublist s.pacers
      rw [hnone, List.filter_nil, List.map_nil, List.append_nil]
    · -- The pacer of a publication with a new address.
      have hpacers : ∀ pacer ∈ s.pacers ++ ((plane.forwards.drop
          s.plane.forwards.length).filter fun info => info.remote.kind = .video).map
            fun info => (⟨info, .waiting⟩ : Pacer), pacer ∈ s.pacers ∨ pacer = ⟨info, .waiting⟩ := by
        intro pacer hmem
        rw [hstarted] at hmem
        rcases List.mem_append.mp hmem with hold | hnew
        · exact Or.inl hold
        · obtain ⟨started, hstart, rfl⟩ := List.mem_map.mp hnew
          obtain rfl := List.mem_singleton.mp (List.mem_filter.mp hstart).1
          exact Or.inr rfl
      refine ⟨fun pacer hmem id hid => ?_, ?_, fun pacer hmem => ?_, fun other h => ?_⟩
      · rcases hpacers pacer hmem with hold | rfl
        · exact hs.asking.due pacer hold id (hunmet _ hid)
        · exact absurd (hunmet _ hid) (hs.asking.nobody (Nat.le_of_eq href.symm))
      · show ((s.pacers ++ _).map _).Nodup
        rw [List.map_append, hstarted]
        refine List.Nodup.append hs.asking.distinct ?_ ?_
        · by_cases hvideo : info.remote.kind = .video <;> simp [hvideo]
        · intro publication hold hnew
          obtain ⟨pacer, hpacer, rfl⟩ := List.mem_map.mp hold
          obtain ⟨started, hstart, hsame⟩ := List.mem_map.mp hnew
          obtain ⟨own, hown, rfl⟩ := List.mem_map.mp hstart
          obtain rfl := List.mem_singleton.mp (List.mem_filter.mp hown).1
          have hlt := hs.asking.minted pacer hpacer
          rw [← hsame] at hlt
          exact Nat.ne_of_lt hlt href
      · show pacer.publication.ref < plane.fresh
        rw [hnext]
        rcases hpacers pacer hmem with hold | rfl
        · exact Nat.lt_succ_of_lt (hs.asking.minted pacer hold)
        · exact Nat.lt_succ_of_le (Nat.le_of_eq href)
      · rw [Finset.eq_empty_iff_forall_notMem]
        intro id hid
        exact hs.asking.nobody (Nat.le_trans hfresh h) (hunmet other hid)

/-- The receivers that entered with a frame. -/
theorem mem_unmet_recordFrame {info : PublicationInfo} {now : Instant} {pub : Publication}
    {id : ParticipantID} (hcurrent : s.plane.router.current info = some pub)
    (hpaused : pub.paused = false) (hid : id ∈ (s.recordFrame info now).unmet info) :
    info.key.layer.isSome = true ∧ id ∈ s.targets info now ∧
      s.ledger.served info id ≠ pub.senders.lookup id := by
  unfold recordFrame at hid
  simp only [hcurrent, hpaused, Bool.false_eq_true, if_false, Function.update_self] at hid
  by_cases hlayer : info.key.layer.isSome = true
  · rw [if_pos hlayer, List.mem_toFinset, List.mem_filter, decide_eq_true_eq] at hid
    exact ⟨hlayer, hid⟩
  · rw [if_neg hlayer] at hid
    exact absurd hid (Finset.notMem_empty id)

theorem recordFrame_quiet {info : PublicationInfo} {now : Instant}
    (h : ∀ pub, s.plane.router.current info = some pub → pub.paused = true) :
    s.recordFrame info now = s.ledger := by
  unfold recordFrame
  cases hcurrent : s.plane.router.current info with
  | none => rfl
  | some pub =>
    dsimp only
    rw [if_pos (h pub hcurrent)]

theorem recordFrame_others {info other : PublicationInfo} (now : Instant) (h : other ≠ info) :
    (s.recordFrame info now).served other = s.ledger.served other ∧
      (s.recordFrame info now).unmet other = s.ledger.unmet other := by
  unfold recordFrame
  split
  · exact ⟨rfl, rfl⟩
  · split
    · exact ⟨rfl, rfl⟩
    · exact ⟨Function.update_of_ne h .., Function.update_of_ne h ..⟩

/-- **A pacer resolves a frame.** Whoever enters the layer had no marker, so
that the frame has a key frame asked for. -/
theorem Layered.resolve (hs : s.Layered) {index : Nat} {now : Instant} {pacer : Pacer}
    (hpacer : s.pacers[index]? = some pacer) (hwaiting : pacer.phase = .waiting) :
    (s.record (.resolve index now) (s.resolve pacer index now)).Layered := by
  have hledger : ∀ info, (s.record (.resolve index now)
      (s.resolve pacer index now)).ledger.unmet info ⊆
        (s.recordFrame pacer.publication now).unmet info := by
    intro info
    unfold record
    simp only [hpacer]
    exact Finset.filter_subset _ _
  have hserved : (s.record (.resolve index now) (s.resolve pacer index now)).ledger.served =
      (s.recordFrame pacer.publication now).served := by
    unfold record
    simp only [hpacer]
  have hothers : ∀ info, info ≠ pacer.publication → (s.record (.resolve index now)
      (s.resolve pacer index now)).ledger.unmet info ⊆ s.ledger.unmet info := by
    intro info hinfo
    have hsame : (s.recordFrame pacer.publication now).unmet info = s.ledger.unmet info :=
      (recordFrame_others now hinfo).2
    exact hsame ▸ hledger info
  by_cases hquiet : ∀ pub, s.plane.router.current pacer.publication = some pub → pub.paused = true
  · -- Nothing is forwarded, and nothing recorded.
    have hframe : s.plane.router.resolveFrameTargets s.lastPacketAt pacer.publication now = _ :=
      Router.resolveFrameTargets_quiet hquiet
    rw [recordFrame_quiet hquiet] at hledger hserved
    have hrouter : (s.resolve pacer index now).plane.router = s.plane.router := by
      show (s.plane.router.resolveFrameTargets s.lastPacketAt pacer.publication now).router = _
      rw [hframe]
    refine ⟨?_, ?_, hs.asking.setPacer hpacer rfl rfl hothers ?_⟩
    · show (s.resolve pacer index now).plane.router.Keyed
      rw [hrouter]
      exact hs.keyed
    · unfold Marked
      rw [hserved]
      show ∀ info pub layer id target,
        (s.resolve pacer index now).plane.router.current info = some pub → _
      rw [hrouter]
      exact hs.marked
    · intro id hid
      have hdue := hs.asking.due pacer (List.mem_of_getElem? hpacer) id (hledger _ hid)
      rw [hwaiting] at hdue
      cases hdue
  · simp only [not_forall, Bool.not_eq_true] at hquiet
    obtain ⟨pub, hcurrent, hpaused⟩ := hquiet
    obtain ⟨pub', hinfo, hsenders, hlookup, htargets⟩ :=
      @Router.resolveFrameTargets_leaves _ s.lastPacketAt _ now _ hcurrent hpaused
    refine ⟨?_, ?_, hs.asking.setPacer hpacer rfl rfl hothers ?_⟩
    · intro key other hother
      rw [show (s.record (.resolve index now) (s.resolve pacer index now)).plane.router.pubs.lookup
        key = _ from hlookup key] at hother
      by_cases hkey : key = pacer.publication.key
      · rw [if_pos hkey] at hother
        obtain rfl := Option.some.inj hother
        rw [hinfo, hkey]
      · rw [if_neg hkey] at hother
        exact hs.keyed key other hother
    · intro info other layer id target hother hlayer htarget hmarked
      rw [hserved]
      obtain ⟨hregistered, hown⟩ := Router.current_eq_some.mp hother
      rw [show (s.record (.resolve index now) (s.resolve pacer index now)).plane.router.pubs.lookup
        info.key = _ from hlookup info.key] at hregistered
      by_cases hkey : info.key = pacer.publication.key
      · rw [if_pos hkey] at hregistered
        obtain rfl := Option.some.inj hregistered
        obtain rfl := hown.symm.trans hinfo
        have hid : id ∈ s.targets pacer.publication now :=
          htargets layer id target hlayer htarget hmarked
        unfold recordFrame
        simp only [hcurrent, hpaused, Bool.false_eq_true, if_false, Function.update_self]
        rw [if_pos hid, hsenders]
      · rw [if_neg hkey] at hregistered
        have hne : info ≠ pacer.publication := fun h => hkey (h ▸ rfl)
        rw [(recordFrame_others now hne).1]
        exact hs.marked info other layer id target
          (Router.current_eq_some.mpr ⟨hregistered, hown⟩) hlayer htarget hmarked
    · intro id hid
      obtain ⟨hlayer, hmem, hentered⟩ := mem_unmet_recordFrame hcurrent hpaused (hledger _ hid)
      obtain ⟨layer, hlayer⟩ := Option.isSome_iff_exists.mp hlayer
      have hstart := Router.mem_layerStarts hcurrent hlayer hmem fun target htarget hmarked =>
        hentered (hs.marked pacer.publication pub layer id target hcurrent hlayer htarget hmarked)
      have hsome : ¬ (s.targets pacer.publication now).isEmpty = true := by
        rw [List.isEmpty_iff]
        exact List.ne_nil_of_mem hmem
      rw [show ((s.plane.router.resolveFrameTargets s.lastPacketAt pacer.publication
        now).targets.isEmpty) = (s.targets pacer.publication now).isEmpty from rfl, if_neg hsome]
      exact hstart

/-- A request leaves a retry of its publication pending for the receiver. -/
theorem pendingFor_request (info : PublicationInfo) (receiverID : ParticipantID)
    (h : t.keyFrames = s.keyFrames.requestVideoKeyFrameForPublication info receiverID) :
    t.pendingFor info receiverID = true := by
  unfold pendingFor
  rw [h, decide_eq_true_eq]
  show ((s.keyFrames.scheduleVideoKeyFrameRetryLocked info (some receiverID)).retries.lookup
    _).map _ = _
  rcases s.keyFrames.schedule_cases info (some receiverID) with
    ⟨existing, hentry, hown, hsame⟩ | ⟨-, henter⟩
  · rw [hsame, hentry]
    exact congrArg some hown
  · rw [henter]
    show (AList.lookup _ (s.keyFrames.retries.insert _ _)).map _ = _
    rw [AList.lookup_insert]
    rfl

/-- A pacer asks a key frame for the next receiver, whose retry is then
pending. -/
theorem Layered.request (hs : s.Layered) {index : Nat} (hu : s.request index = some t) :
    (s.record (.request index) t).Layered := by
  obtain ⟨pacer, hpacer, hu⟩ := Option.bind_eq_some_iff.mp hu
  split at hu
  case h_2 => cases hu
  next receiverID rest hphase =>
  obtain rfl := Option.some.inj hu
  refine hs.quiet rfl rfl ?_
  refine hs.asking.setPacer hpacer rfl rfl (fun info _ => unmet_record rfl info) ?_
  intro id hid
  have hdue := hs.asking.due pacer (List.mem_of_getElem? hpacer) id (unmet_record rfl _ hid)
  rw [hphase] at hdue
  rw [due_rest]
  rcases List.mem_cons.mp hdue with rfl | hrest
  · have hpending := (Finset.mem_filter.mp hid).2
    rw [pendingFor_request (s := s) pacer.publication id rfl] at hpending
    cases hpending
  · exact hrest

/-- **One step.** -/
theorem layered_step (hs : s.Layered) (hstep : s.step l = some t) : t.Layered := by
  obtain ⟨u, hu, rfl⟩ := step_eq_some hstep
  cases l with
  | router l => exact hs.router hu
  | request index => exact hs.request hu
  | resolve index now =>
    obtain ⟨pacer, hpacer, hu⟩ := Option.bind_eq_some_iff.mp hu
    by_cases hwaiting : pacer.phase = .waiting
    · rw [if_pos hwaiting] at hu
      obtain rfl := Option.some.inj hu
      exact hs.resolve hpacer hwaiting
    · rw [if_neg hwaiting] at hu
      cases hu
  | sent index =>
    -- The frame is handed on; who entered with it is still to be asked for.
    obtain ⟨pacer, hpacer, hu⟩ := Option.bind_eq_some_iff.mp hu
    split at hu
    case h_2 => cases hu
    next targets layerStarts hphase =>
    obtain rfl := Option.some.inj hu
    refine hs.quiet rfl rfl ?_
    refine hs.asking.setPacer hpacer rfl rfl (fun info _ => unmet_record rfl info) ?_
    intro id hid
    have hdue := hs.asking.due pacer (List.mem_of_getElem? hpacer) id (unmet_record rfl _ hid)
    rw [hphase] at hdue
    rw [due_rest]
    exact hdue
  | stop index =>
    obtain ⟨pacer, hpacer, hu⟩ := Option.bind_eq_some_iff.mp hu
    have hstopped : u = { s with pacers := s.pacers.eraseIdx index } := by
      split at hu
      · cases hu
      · split at hu <;> cases hu
        rfl
    subst hstopped
    exact hs.still rfl rfl (List.eraseIdx_sublist s.pacers index)
  | packet index now =>
    obtain ⟨info, -, rfl⟩ := Option.map_eq_some_iff.mp hu
    exact hs.still rfl rfl (List.Sublist.refl _)
  | requestVideoKeyFrame receiverID =>
    obtain rfl := Option.some.inj hu
    exact hs.still rfl rfl (List.Sublist.refl _)
  | requestVideoKeyFrameForPublisher sourceID =>
    obtain rfl := Option.some.inj hu
    exact hs.still rfl rfl (List.Sublist.refl _)
  | retry index =>
    obtain ⟨keyFrames, -, rfl⟩ := Option.map_eq_some_iff.mp hu
    exact hs.still rfl rfl (List.Sublist.refl _)
  | write index =>
    obtain ⟨keyFrames, -, rfl⟩ := Option.map_eq_some_iff.mp hu
    exact hs.still rfl rfl (List.Sublist.refl _)

theorem layered_of_reachable {ok : Forwarding → Label → Prop} (hr : lts.Reachable ok s) :
    s.Layered :=
  hr.invariant_ofStep (I := Layered) layered_new fun _ _ _ hs _ hstep => layered_step hs hstep

/-- The source's layer is subscribed by the receiver and had a packet lately. -/
def active (s : Forwarding) (sourceID receiverID : ParticipantID) (now : Instant)
    (layer : CameraLayer) : Prop :=
  s.plane.router.candidate s.lastPacketAt sourceID receiverID now layer = true

/-- What a receiver gets of a source's layers, and is asked for. -/
structure OneLayer (s : Forwarding) : Prop where
  /-- A frame goes to those whose nearest active layer is its own. -/
  selected : ∀ info now sourceID receiverID layer, info.key = ⟨sourceID, .camera, some layer⟩ →
    (receiverID ∈ s.targets info now ↔
      (∃ pub, s.plane.router.current info = some pub ∧ pub.paused = false) ∧
        Nearest (s.plane.router.preferredLayer receiverID) (s.active sourceID receiverID now) layer)
  /-- No receiver is in the frames of two layers. -/
  unique : ∀ info info' now sourceID receiverID layer layer',
    info.key = ⟨sourceID, .camera, some layer⟩ → info'.key = ⟨sourceID, .camera, some layer'⟩ →
    receiverID ∈ s.targets info now → receiverID ∈ s.targets info' now → info = info'
  /-- A receiver with an active layer is in the frames of the nearest, unless
  that one is paused. -/
  covered : ∀ now sourceID receiverID, (∃ layer, s.active sourceID receiverID now layer) →
    ∃ layer pub,
      Nearest (s.plane.router.preferredLayer receiverID) (s.active sourceID receiverID now) layer ∧
      pub.info.key = ⟨sourceID, .camera, some layer⟩ ∧
      s.plane.router.current pub.info = some pub ∧
      (pub.paused = false → receiverID ∈ s.targets pub.info now)
  /-- Who entered a layer with the last frame has had a retry pending since, or
  is one its pacer has still to ask for before it takes the next. -/
  asked : ∀ pacer ∈ s.pacers, ∀ id ∈ s.ledger.unmet pacer.publication, id ∈ pacer.phase.due

theorem mem_targets_iff_nearest {info : PublicationInfo} {now : Instant}
    {sourceID receiverID : ParticipantID} {layer : CameraLayer}
    (hkey : info.key = ⟨sourceID, .camera, some layer⟩) :
    receiverID ∈ s.targets info now ↔
      (∃ pub, s.plane.router.current info = some pub ∧ pub.paused = false) ∧
        Nearest (s.plane.router.preferredLayer receiverID) (s.active sourceID receiverID now)
          layer := by
  have hselected := (s.plane.router.selectedCameraLayerLocked_best s.lastPacketAt sourceID
    receiverID now).1 layer
  rw [show receiverID ∈ s.targets info now ↔ _ from Router.mem_targets_iff hkey, hselected]
  rfl

/-- **One layer for a receiver**: in every reachable state a frame of a layer
goes to the receivers whose nearest active layer it is, so that no receiver
gets two; and a pacer that waits for its next frame has asked a key frame for
every receiver that entered its layer with the last one. -/
theorem oneLayer_of_reachable (hr : lts.Reachable Lts.Any s) : s.OneLayer where
  selected info now sourceID receiverID layer hkey := mem_targets_iff_nearest hkey
  unique info info' now sourceID receiverID layer layer' hkey hkey' hmem hmem' := by
    obtain ⟨⟨pub, hcurrent, -⟩, hnearest⟩ := (mem_targets_iff_nearest hkey).mp hmem
    obtain ⟨⟨pub', hcurrent', -⟩, hnearest'⟩ := (mem_targets_iff_nearest hkey').mp hmem'
    obtain rfl := hnearest.unique hnearest'
    obtain ⟨hlookup, hinfo⟩ := Router.current_eq_some.mp hcurrent
    obtain ⟨hlookup', hinfo'⟩ := Router.current_eq_some.mp hcurrent'
    rw [hkey] at hlookup
    rw [hkey', hlookup] at hlookup'
    rw [← hinfo, ← hinfo', Option.some.inj hlookup']
  covered now sourceID receiverID hactive := by
    obtain ⟨hiff, hsome⟩ := s.plane.router.selectedCameraLayerLocked_best s.lastPacketAt sourceID
      receiverID now
    obtain ⟨layer, hselected⟩ := hsome hactive
    have hnearest := (hiff layer).mp hselected
    -- An active layer is registered, under its own key.
    have hregistered : ∃ pub, s.plane.router.pubs.lookup ⟨sourceID, .camera, some layer⟩ =
        some pub := by
      have hcandidate : s.plane.router.candidate s.lastPacketAt sourceID receiverID now layer =
        true := hnearest.1
      unfold Router.candidate at hcandidate
      cases hlookup : s.plane.router.pubs.lookup
          (Router.publicationKey sourceID .camera (some layer)) with
      | none => simp [hlookup] at hcandidate
      | some pub => exact ⟨pub, hlookup⟩
    obtain ⟨pub, hlookup⟩ := hregistered
    have hkey := (layered_of_reachable hr).keyed _ pub hlookup
    have hcurrent : s.plane.router.current pub.info = some pub :=
      Router.current_eq_some.mpr ⟨hkey ▸ hlookup, rfl⟩
    refine ⟨layer, pub, hnearest, hkey, hcurrent, fun hpaused => ?_⟩
    exact (mem_targets_iff_nearest hkey).mpr ⟨⟨pub, hcurrent, hpaused⟩, hnearest⟩
  asked := (layered_of_reachable hr).asking.due

/-- The first frame of a low layer goes to its only receiver, who is then
asked a key frame for. -/
theorem oneLayer_of_reachable_firstFrame : ∃ s, lts.Reachable Lts.Any s ∧ s.OneLayer ∧
    s.pacers.map (·.phase) = [.requesting [1]] := by
  obtain ⟨s, hr, ho⟩ := Lts.exists_reachable_of_exec Lts.Any step new
    (lowLayer ++ [.packet 0 1, .resolve 0 1, .sent 0]) (fun s => s.pacers.map (·.phase))
    [.requesting [1]] (fun _ _ _ => trivial) (by decide)
  exact ⟨s, hr, oneLayer_of_reachable hr, ho⟩

/-- The only active layer of a source is paused: it goes to nobody. -/
theorem not_covered_of_paused : ∃ s now layer, lts.Reachable Lts.Any s ∧ s.active 2 1 now layer ∧
    ∀ info layer', info.key = ⟨2, .camera, some layer'⟩ → 1 ∉ s.targets info now := by
  obtain ⟨s, hr, ho⟩ := Lts.exists_reachable_of_exec Lts.Any step new
    (lowLayer ++ [.packet 0 1, .router (.setPublicationActive 2 .camera false)])
    (fun s => (cameraLayersByQuality.map (s.plane.router.candidate s.lastPacketAt 2 1 1),
      (s.plane.router.pubs.lookup ⟨2, .camera, some .low⟩).map (·.paused)))
    ([true, false, false], some true) (fun _ _ _ => trivial) (by decide)
  simp only [cameraLayersByQuality, List.map_cons, List.map_nil, Prod.mk.injEq, List.cons.injEq,
    and_true] at ho
  obtain ⟨⟨hlow, hmedium, hhigh⟩, hpub⟩ := ho
  refine ⟨s, 1, .low, hr, hlow, fun info layer hkey hmem => ?_⟩
  obtain ⟨⟨pub, hcurrent, hpaused⟩, hactive, -⟩ := (mem_targets_iff_nearest hkey).mp hmem
  have hcandidate : s.plane.router.candidate s.lastPacketAt 2 1 1 layer = true := hactive
  cases layer with
  | low =>
    have hlookup := (Router.current_eq_some.mp hcurrent).1
    rw [hkey] at hlookup
    rw [hlookup, Option.map_some, hpaused] at hpub
    cases hpub
  | medium => exact absurd hcandidate (by rw [hmedium]; exact Bool.false_ne_true)
  | high => exact absurd hcandidate (by rw [hhigh]; exact Bool.false_ne_true)

end Forwarding

end SlowMeet.Media
