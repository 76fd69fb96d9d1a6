import SlowMeet.Media.Sections

/-!
# Locked sections only shed senders

Every locked section of the router but `Register` takes senders out of
publications and adds none. What it takes out it forgets in the SSRC table
and queues for removal, unless the receiver's peer is gone with it.
-/

namespace SlowMeet.Media

open Lib

namespace Router

/-- The publication under `key` serves `id` through `sender`. -/
def StoredAt (r : Router) (key : PublicationKey) (id : ParticipantID) (sender : RTPSender) :
    Prop :=
  ∃ pub, r.pubs.lookup key = some pub ∧ pub.senders.lookup id = some sender

/-- The publications carry the key they are registered under. -/
def Keyed (r : Router) : Prop := ∀ key pub, r.pubs.lookup key = some pub → pub.info.key = key

/-- What a locked section may do to the senders: it adds none, and those it
takes out are forgotten and queued for removal from a peer that is still
registered. -/
structure Sheds (r : Router) (d : Decision) : Prop where
  keyed : r.Keyed → d.router.Keyed
  peers : ∀ id peer, d.router.peers.lookup id = some peer → r.peers.lookup id = some peer
  stored : ∀ key id sender, d.router.StoredAt key id sender → r.StoredAt key id sender
  live : ∀ key id sender, d.router.StoredAt key id sender →
    d.router.peers.lookup id = r.peers.lookup id
  wanted : r.Keyed → ∀ key id sender, d.router.StoredAt key id sender →
    r.shouldSubscribeLocked key id = true → d.router.shouldSubscribeLocked key id = true
  known : ∀ sender,
    d.router.senderSourceSSRC.lookup sender = none ∧
        (∃ key id, r.StoredAt key id sender ∧ ¬ d.router.StoredAt key id sender) ∨
      d.router.senderSourceSSRC.lookup sender = r.senderSourceSSRC.lookup sender ∧
        ∀ key id, r.StoredAt key id sender → d.router.StoredAt key id sender
  released : ∀ key id sender, r.StoredAt key id sender → ¬ d.router.StoredAt key id sender →
    d.router.peers.lookup id = none ∨ ∃ peer, .remove peer sender ∈ d.ops
  ops : ∀ op ∈ d.ops, (∃ info id peer, op = .subscribe info id peer) ∨
    ∃ peer sender, op = .remove peer sender ∧
      ∃ key id, r.StoredAt key id sender ∧ ¬ d.router.StoredAt key id sender

/-! ## The locked sections shed -/

variable {r : Router}

theorem mem_removePublicationLocked_ops_iff {pub : Publication} {op : PendingTrackOp} :
    op ∈ (r.removePublicationLocked pub).ops ↔
      ∃ id sender peer, pub.senders.lookup id = some sender ∧
        r.peers.lookup id = some peer ∧ op = .remove peer sender := by
  simp only [removePublicationLocked, List.mem_filterMap, Option.map_eq_some_iff]
  constructor
  · rintro ⟨⟨id, sender⟩, hmem, peer, hpeer, rfl⟩
    exact ⟨id, sender, peer, GoMap.mem_pairs.mp hmem, hpeer, rfl⟩
  · rintro ⟨id, sender, peer, hsender, hpeer, rfl⟩
    exact ⟨(id, sender), GoMap.mem_pairs.mpr hsender, peer, hpeer, rfl⟩

/-- What `removePublicationsLocked` leaves stored. -/
theorem removePublicationsLocked_storedAt {gone : Publication → Bool} {key : PublicationKey}
    {id : ParticipantID} {sender : RTPSender} :
    (r.removePublicationsLocked gone).router.StoredAt key id sender ↔
      ∃ pub, r.pubs.lookup key = some pub ∧ gone pub = false ∧
        pub.senders.lookup id = some sender := by
  simp only [StoredAt, removePublicationsLocked_pubs, Option.filter_eq_some_iff,
    Bool.not_eq_true', and_assoc]

theorem mem_removePublicationsLocked_ops_iff {gone : Publication → Bool} {op : PendingTrackOp} :
    op ∈ (r.removePublicationsLocked gone).ops ↔
      ∃ key pub id sender peer, r.pubs.lookup key = some pub ∧ gone pub = true ∧
        pub.senders.lookup id = some sender ∧ r.peers.lookup id = some peer ∧
        op = .remove peer sender := by
  simp only [removePublicationsLocked, List.mem_flatMap, List.mem_filter, GoMap.mem_values,
    mem_removePublicationLocked_ops_iff]
  constructor
  · rintro ⟨pub, ⟨⟨key, hpub⟩, hgone⟩, id, sender, peer, hsender, hpeer, rfl⟩
    exact ⟨key, pub, id, sender, peer, hpub, hgone, hsender, hpeer, rfl⟩
  · rintro ⟨key, pub, id, sender, peer, hpub, hgone, hsender, hpeer, rfl⟩
    exact ⟨pub, ⟨⟨key, hpub⟩, hgone⟩, id, sender, peer, hsender, hpeer, rfl⟩

theorem removePublicationsLocked_senderSourceSSRC_lookup (r : Router)
    (gone : Publication → Bool) (sender : RTPSender) :
    (∃ key pub id, r.pubs.lookup key = some pub ∧ gone pub = true ∧
        pub.senders.lookup id = some sender) ∧
        (r.removePublicationsLocked gone).router.senderSourceSSRC.lookup sender = none ∨
      (¬ ∃ key pub id, r.pubs.lookup key = some pub ∧ gone pub = true ∧
        pub.senders.lookup id = some sender) ∧
        (r.removePublicationsLocked gone).router.senderSourceSSRC.lookup sender =
          r.senderSourceSSRC.lookup sender := by
  have hmem : sender ∈ (r.pubs.values.filter gone).flatMap (fun pub => pub.senders.values) ↔
      ∃ key pub id, r.pubs.lookup key = some pub ∧ gone pub = true ∧
        pub.senders.lookup id = some sender := by
    simp only [List.mem_flatMap, List.mem_filter, GoMap.mem_values]
    constructor
    · rintro ⟨pub, ⟨⟨key, hpub⟩, hgone⟩, id, hsender⟩
      exact ⟨key, pub, id, hpub, hgone, hsender⟩
    · rintro ⟨key, pub, id, hpub, hgone, hsender⟩
      exact ⟨pub, ⟨⟨key, hpub⟩, hgone⟩, id, hsender⟩
  rw [← hmem]
  simp only [removePublicationsLocked, forgetSenders_senderSourceSSRC]
  split
  · rename_i h
    exact Or.inl ⟨h, rfl⟩
  · rename_i h
    exact Or.inr ⟨h, rfl⟩

/-- `Unpublish` and `removePublication`. -/
theorem sheds_removePublicationsLocked (gone : Publication → Bool) :
    r.Sheds (r.removePublicationsLocked gone) := by
  have hstored : ∀ key id sender, (r.removePublicationsLocked gone).router.StoredAt key id sender →
      r.StoredAt key id sender := by
    intro key id sender h
    obtain ⟨pub, hpub, -, hsender⟩ := removePublicationsLocked_storedAt.mp h
    exact ⟨pub, hpub, hsender⟩
  have hgone : ∀ key pub id sender, r.pubs.lookup key = some pub → gone pub = true →
      pub.senders.lookup id = some sender →
      ¬ (r.removePublicationsLocked gone).router.StoredAt key id sender := by
    intro key pub id sender hpub hgone hsender h
    obtain ⟨pub', hpub', hkeep, -⟩ := removePublicationsLocked_storedAt.mp h
    obtain rfl := Option.some.inj (hpub.symm.trans hpub')
    simp [hgone] at hkeep
  refine ⟨?_, fun _ _ h => h, hstored, fun _ _ _ _ => rfl,
    fun _ _ _ _ _ h => h, ?_, ?_, ?_⟩
  · intro hkeyed key pub hpub
    rw [removePublicationsLocked_pubs, Option.filter_eq_some_iff] at hpub
    exact hkeyed key pub hpub.1
  · intro sender
    rcases removePublicationsLocked_senderSourceSSRC_lookup r gone sender with
      ⟨⟨key, pub, id, hpub, hg, hsender⟩, hnone⟩ | ⟨hnot, heq⟩
    · exact Or.inl ⟨hnone, key, id, ⟨pub, hpub, hsender⟩, hgone key pub id sender hpub hg hsender⟩
    · refine Or.inr ⟨heq, fun key id hs => ?_⟩
      obtain ⟨pub, hpub, hsender⟩ := hs
      refine removePublicationsLocked_storedAt.mpr ⟨pub, hpub, ?_, hsender⟩
      by_contra hg
      exact hnot ⟨key, pub, id, hpub, by simpa using hg, hsender⟩
  · intro key id sender hs hnot
    obtain ⟨pub, hpub, hsender⟩ := hs
    have hg : gone pub = true := by
      by_contra hg
      exact hnot (removePublicationsLocked_storedAt.mpr ⟨pub, hpub, by simpa using hg, hsender⟩)
    cases hpeer : r.peers.lookup id with
    | none => exact Or.inl hpeer
    | some peer =>
      exact Or.inr ⟨peer, mem_removePublicationsLocked_ops_iff.mpr
        ⟨key, pub, id, sender, peer, hpub, hg, hsender, hpeer, rfl⟩⟩
  · intro op hop
    obtain ⟨key, pub, id, sender, peer, hpub, hg, hsender, -, rfl⟩ :=
      mem_removePublicationsLocked_ops_iff.mp hop
    exact Or.inr ⟨peer, sender, rfl, key, id, ⟨pub, hpub, hsender⟩,
      hgone key pub id sender hpub hg hsender⟩

theorem unregister_storedAt {id target : ParticipantID} {key : PublicationKey}
    {sender : RTPSender} :
    (r.unregister id).router.StoredAt key target sender ↔
      ∃ pub, r.pubs.lookup key = some pub ∧ pub.sourceID ≠ id ∧ target ≠ id ∧
        pub.senders.lookup target = some sender := by
  simp only [StoredAt, unregister_pubs, Option.map_eq_some_iff, Option.filter_eq_some_iff]
  constructor
  · rintro ⟨pub, ⟨old, ⟨hold, hsource⟩, rfl⟩, hsender⟩
    rw [Publication.removeTarget_senders] at hsender
    split at hsender
    · simp at hsender
    · rename_i htarget
      exact ⟨old, hold, by simpa using hsource, htarget, hsender⟩
  · rintro ⟨old, hold, hsource, htarget, hsender⟩
    refine ⟨_, ⟨old, ⟨hold, by simpa using hsource⟩, rfl⟩, ?_⟩
    rw [Publication.removeTarget_senders, if_neg htarget]
    exact hsender

/-- The SSRC table after `Unregister`: the senders of the source's
publications and of the receiver's targets are forgotten. -/
theorem unregister_senderSourceSSRC_lookup (r : Router) (id : ParticipantID)
    (sender : RTPSender) :
    (∃ key pub target, r.pubs.lookup key = some pub ∧ (pub.sourceID = id ∨ target = id) ∧
        pub.senders.lookup target = some sender) ∧
        (r.unregister id).router.senderSourceSSRC.lookup sender = none ∨
      (¬ ∃ key pub target, r.pubs.lookup key = some pub ∧ (pub.sourceID = id ∨ target = id) ∧
        pub.senders.lookup target = some sender) ∧
        (r.unregister id).router.senderSourceSSRC.lookup sender =
          r.senderSourceSSRC.lookup sender := by
  simp only [unregister, forgetSenders_senderSourceSSRC]
  split
  · rename_i hmem
    simp only [List.mem_filterMap, GoMap.mem_values, removePublicationsLocked_pubs,
      Option.filter_eq_some_iff] at hmem
    obtain ⟨pub, ⟨key, hkey, -⟩, hid⟩ := hmem
    exact Or.inl ⟨⟨key, pub, id, hkey, Or.inr rfl, hid⟩, rfl⟩
  · rename_i hmem
    simp only [List.mem_filterMap, GoMap.mem_values, removePublicationsLocked_pubs,
      Option.filter_eq_some_iff] at hmem
    rcases removePublicationsLocked_senderSourceSSRC_lookup
      { r with
        peers := r.peers.erase id
        offerers := r.offerers.erase id
        videoSubscriptions :=
          GoMap.mapValues (fun subscriptions => subscriptions.erase id)
            (r.videoSubscriptions.erase id)
        videoSubscriptionsSet := r.videoSubscriptionsSet.erase id
        cameraLayers := r.cameraLayers.erase id }
      (fun pub => decide (pub.sourceID = id)) sender with
      ⟨⟨key, pub, target, hkey, hgone, hid⟩, hnone⟩ | ⟨hnot, heq⟩
    · exact Or.inl ⟨⟨key, pub, target, hkey, Or.inl (by simpa using hgone), hid⟩, hnone⟩
    · refine Or.inr ⟨?_, heq⟩
      rintro ⟨key, pub, target, hkey, hcase, hid⟩
      by_cases hsource : pub.sourceID = id
      · exact hnot ⟨key, pub, target, hkey, by simpa using hsource, hid⟩
      · obtain rfl : target = id := hcase.resolve_left hsource
        exact hmem ⟨pub, ⟨key, hkey, by simpa using hsource⟩, hid⟩

theorem sheds_unregister (id : ParticipantID) : r.Sheds (r.unregister id) := by
  have hgone : ∀ key pub target sender, r.pubs.lookup key = some pub →
      pub.sourceID = id ∨ target = id →
      ¬ (r.unregister id).router.StoredAt key target sender := by
    intro key pub target sender hpub hcase h
    obtain ⟨pub', hpub', hsource, htarget, -⟩ := unregister_storedAt.mp h
    obtain rfl := Option.some.inj (hpub.symm.trans hpub')
    exact hcase.elim hsource htarget
  refine ⟨?_, ?_, ?_, ?_, ?_, ?_, ?_, ?_⟩
  · intro hkeyed key pub hpub
    rw [unregister_pubs, Option.map_eq_some_iff] at hpub
    obtain ⟨old, hold, rfl⟩ := hpub
    rw [Option.filter_eq_some_iff] at hold
    exact hkeyed key old hold.1
  · intro other peer hpeer
    rw [unregister_peers] at hpeer
    split at hpeer
    · simp at hpeer
    · exact hpeer
  · intro key target sender h
    obtain ⟨pub, hpub, -, -, hsender⟩ := unregister_storedAt.mp h
    exact ⟨pub, hpub, hsender⟩
  · intro key target sender h
    obtain ⟨pub, hpub, -, htarget, hsender⟩ := unregister_storedAt.mp h
    rw [unregister_peers, if_neg htarget]
  · intro hkeyed key target sender h hwant
    obtain ⟨pub, hpub, hsource, htarget, -⟩ := unregister_storedAt.mp h
    obtain rfl := hkeyed key pub hpub
    rw [unregister_shouldSubscribeLocked hsource htarget]
    exact hwant
  · intro sender
    rcases unregister_senderSourceSSRC_lookup r id sender with
      ⟨⟨key, pub, target, hpub, hcase, hsender⟩, hnone⟩ | ⟨hnot, heq⟩
    · exact Or.inl ⟨hnone, key, target, ⟨pub, hpub, hsender⟩, hgone key pub target sender hpub hcase⟩
    · refine Or.inr ⟨heq, fun key target hs => ?_⟩
      obtain ⟨pub, hpub, hsender⟩ := hs
      refine unregister_storedAt.mpr ⟨pub, hpub, fun h => ?_, fun h => ?_, hsender⟩
      · exact hnot ⟨key, pub, target, hpub, Or.inl h, hsender⟩
      · exact hnot ⟨key, pub, target, hpub, Or.inr h, hsender⟩
  · intro key target sender hs hnot
    obtain ⟨pub, hpub, hsender⟩ := hs
    by_cases htarget : target = id
    · exact Or.inl (by rw [unregister_peers, if_pos htarget])
    · have hsource : pub.sourceID = id := by
        by_contra hsource
        exact hnot (unregister_storedAt.mpr ⟨pub, hpub, hsource, htarget, hsender⟩)
      cases hpeer : r.peers.lookup target with
      | none => exact Or.inl (by rw [unregister_peers, if_neg htarget, hpeer])
      | some peer =>
        refine Or.inr ⟨peer, mem_removePublicationsLocked_ops_iff.mpr
          ⟨key, pub, target, sender, peer, hpub, by simpa using hsource, hsender, ?_, rfl⟩⟩
        show (r.peers.erase id).lookup target = some peer
        rw [GoMap.lookup_erase, if_neg htarget, hpeer]
  · intro op hop
    obtain ⟨key, pub, target, sender, peer, hpub, hg, hsender, -, rfl⟩ :=
      mem_removePublicationsLocked_ops_iff.mp hop
    exact Or.inr ⟨peer, sender, rfl, key, target, ⟨pub, hpub, hsender⟩,
      hgone key pub target sender hpub (Or.inl (by simpa using hg))⟩

section SetVideoSubscriptions

variable {receiverID : ParticipantID} {ids : List ParticipantID} {layer : Option CameraLayer}

/-- `receiverID` no longer wants the target it has on `pub`. -/
def Unwanted (r : Router) (receiverID : ParticipantID) (ids : List ParticipantID)
    (layer : Option CameraLayer) (pub : Publication) : Prop :=
  pub.sourceID ≠ receiverID ∧ (pub.senders.lookup receiverID).isSome ∧
    (r.setVideoSubscriptionsWithLayer receiverID ids layer).router.shouldSubscribeLocked
      pub.info.key receiverID = false

theorem setVideoSubscriptionsWithLayer_storedAt {key : PublicationKey} {id : ParticipantID}
    {sender : RTPSender} :
    (r.setVideoSubscriptionsWithLayer receiverID ids layer).router.StoredAt key id sender ↔
      ∃ pub, r.pubs.lookup key = some pub ∧ pub.senders.lookup id = some sender ∧
        ¬ (id = receiverID ∧ r.Unwanted receiverID ids layer pub) := by
  simp only [StoredAt, setVideoSubscriptionsWithLayer_pubs, Option.map_eq_some_iff]
  constructor
  · rintro ⟨pub, ⟨old, hold, rfl⟩, hsender⟩
    split at hsender
    · rw [Publication.removeTarget_senders] at hsender
      split at hsender
      · simp at hsender
      · rename_i hid
        exact ⟨old, hold, hsender, fun h => hid h.1⟩
    · rename_i hkeep
      exact ⟨old, hold, hsender, fun h => hkeep h.2⟩
  · rintro ⟨old, hold, hsender, hkeep⟩
    refine ⟨_, ⟨old, hold, rfl⟩, ?_⟩
    split
    · rename_i hunwanted
      rw [Publication.removeTarget_senders, if_neg fun hid => hkeep ⟨hid, hunwanted⟩]
      exact hsender
    · exact hsender

open Classical in
/-- The senders a new camera set takes from its receiver: they are forgotten,
and queued for removal from the peer the receiver is registered with. -/
theorem mem_setVideoSubscriptionsWithLayer_dropped (r : Router) (receiverID : ParticipantID)
    (ids : List ParticipantID) (layer : Option CameraLayer) (sender : RTPSender) :
    (r.setVideoSubscriptionsWithLayer receiverID ids layer).router.senderSourceSSRC.lookup
        sender =
      (if ∃ key pub, r.pubs.lookup key = some pub ∧ r.Unwanted receiverID ids layer pub ∧
          pub.senders.lookup receiverID = some sender then none
        else r.senderSourceSSRC.lookup sender) ∧
      ∀ peer, .remove peer sender ∈
          (r.setVideoSubscriptionsWithLayer receiverID ids layer).ops ↔
        r.peers.lookup receiverID = some peer ∧
          ∃ key pub, r.pubs.lookup key = some pub ∧ r.Unwanted receiverID ids layer pub ∧
            pub.senders.lookup receiverID = some sender := by
  have hdropped : ∀ s : RTPSender,
      (∃ pub, ((∃ key, r.pubs.lookup key = some pub) ∧
        (decide (pub.sourceID ≠ receiverID) &&
          !(r.setVideoSubscriptionsWithLayer receiverID ids layer).router.shouldSubscribeLocked
            pub.info.key receiverID && (pub.tracks.lookup receiverID).isSome) = true) ∧
        pub.senders.lookup receiverID = some s) ↔
      ∃ key pub, r.pubs.lookup key = some pub ∧ r.Unwanted receiverID ids layer pub ∧
          pub.senders.lookup receiverID = some s := by
    intro s
    simp only [Unwanted, Bool.and_eq_true, decide_eq_true_eq, Bool.not_eq_true',
      Publication.paired]
    constructor
    · rintro ⟨pub, ⟨⟨key, hpub⟩, ⟨hsource, hwant⟩, hsome⟩, hsender⟩
      exact ⟨key, pub, hpub, ⟨hsource, hsome, hwant⟩, hsender⟩
    · rintro ⟨key, pub, hpub, ⟨hsource, hsome, hwant⟩, hsender⟩
      exact ⟨pub, ⟨⟨key, hpub⟩, ⟨hsource, hwant⟩, hsome⟩, hsender⟩
  constructor
  · rw [← hdropped]
    simp only [setVideoSubscriptionsWithLayer, forgetSenders_senderSourceSSRC]
    refine if_congr ?_ rfl rfl
    simp only [List.mem_filterMap, List.mem_filter, GoMap.mem_values]
    rfl
  · intro peer
    rw [← hdropped]
    constructor
    · intro h
      rcases List.mem_append.mp h with hadd | hrem
      · obtain ⟨pub, hmem, hqueue⟩ := List.mem_filterMap.mp hadd
        obtain ⟨-, q, -, hop⟩ := queueSubscriptionLocked_eq_some.mp hqueue
        cases hop
      · simp only [List.mem_filterMap, List.mem_filter, GoMap.mem_values,
          Option.map_eq_some_iff] at hrem
        obtain ⟨s, hs, p, hp, heq⟩ := hrem
        cases heq
        exact ⟨hp, hs⟩
    · rintro ⟨hpeer, hs⟩
      refine List.mem_append_right _ ?_
      simp only [List.mem_filterMap, List.mem_filter, GoMap.mem_values, Option.map_eq_some_iff]
      exact ⟨sender, hs, peer, hpeer, rfl⟩
theorem sheds_setVideoSubscriptionsWithLayer (receiverID : ParticipantID)
    (ids : List ParticipantID) (layer : Option CameraLayer) :
    r.Sheds (r.setVideoSubscriptionsWithLayer receiverID ids layer) := by
  have hdropped := mem_setVideoSubscriptionsWithLayer_dropped r receiverID ids layer
  have hgone : ∀ key pub sender, r.pubs.lookup key = some pub →
      r.Unwanted receiverID ids layer pub →
      ¬ (r.setVideoSubscriptionsWithLayer receiverID ids layer).router.StoredAt key receiverID
        sender := by
    intro key pub sender hpub hunwanted h
    obtain ⟨pub', hpub', -, hkeep⟩ := setVideoSubscriptionsWithLayer_storedAt.mp h
    obtain rfl := Option.some.inj (hpub.symm.trans hpub')
    exact hkeep ⟨rfl, hunwanted⟩
  refine ⟨?_, fun _ _ h => h, ?_, fun _ _ _ _ => rfl, ?_, ?_, ?_, ?_⟩
  · intro hkeyed key pub hpub
    rw [setVideoSubscriptionsWithLayer_pubs, Option.map_eq_some_iff] at hpub
    obtain ⟨old, hold, rfl⟩ := hpub
    split <;> exact hkeyed key old hold
  · intro key id sender h
    obtain ⟨pub, hpub, hsender, -⟩ := setVideoSubscriptionsWithLayer_storedAt.mp h
    exact ⟨pub, hpub, hsender⟩
  · intro hkeyed key id sender h hwant
    by_cases hid : id = receiverID
    · subst hid
      obtain ⟨pub, hpub, hsender, hkeep⟩ := setVideoSubscriptionsWithLayer_storedAt.mp h
      obtain rfl := hkeyed key pub hpub
      by_contra hunwanted
      refine hkeep ⟨rfl, fun hsource => ?_, by simp [hsender], by simpa using hunwanted⟩
      -- nobody is subscribed to a publication of its own
      simp [shouldSubscribeLocked, show pub.info.key.sourceID = id from hsource] at hwant
    · rw [setVideoSubscriptionsWithLayer_shouldSubscribeLocked hid]
      exact hwant
  · intro sender
    rw [(hdropped sender).1]
    split
    · rename_i h
      obtain ⟨key, pub, hpub, hunwanted, hsender⟩ := h
      exact Or.inl ⟨rfl, key, receiverID, ⟨pub, hpub, hsender⟩, hgone key pub sender hpub hunwanted⟩
    · rename_i hnot
      refine Or.inr ⟨rfl, fun key id hs => ?_⟩
      obtain ⟨pub, hpub, hsender⟩ := hs
      refine setVideoSubscriptionsWithLayer_storedAt.mpr ⟨pub, hpub, hsender, fun h => ?_⟩
      exact hnot ⟨key, pub, hpub, h.2, h.1 ▸ hsender⟩
  · intro key id sender hs hnot
    obtain ⟨pub, hpub, hsender⟩ := hs
    obtain ⟨rfl, hunwanted⟩ : id = receiverID ∧ r.Unwanted receiverID ids layer pub := by
      by_contra hkeep
      exact hnot (setVideoSubscriptionsWithLayer_storedAt.mpr ⟨pub, hpub, hsender, hkeep⟩)
    cases hpeer : r.peers.lookup id with
    | none => exact Or.inl hpeer
    | some peer =>
      exact Or.inr ⟨peer, ((hdropped sender).2 peer).mpr
        ⟨hpeer, key, pub, hpub, hunwanted, hsender⟩⟩
  · intro op hop
    rcases setVideoSubscriptionsWithLayer_ops_cases hop with ⟨key, pub, peer, -, rfl⟩ | ⟨peer, sender, rfl⟩
    · exact Or.inl ⟨pub.info, receiverID, peer, rfl⟩
    · obtain ⟨-, key, pub, hpub, hunwanted, hsender⟩ := ((hdropped sender).2 peer).mp hop
      exact Or.inr ⟨peer, sender, rfl, key, receiverID, ⟨pub, hpub, hsender⟩,
        hgone key pub sender hpub hunwanted⟩

end SetVideoSubscriptions

/-- The replacement a `Publish` makes of `existing`, by what the migration
loop left of the router, of `existing` and of the new publication. -/
theorem publish_replaces {info : PublicationInfo} {replaceOk : ParticipantID → Bool}
    {d : Decision} {existing : Publication} (h : r.publish info replaceOk = some d)
    (hexisting : r.pubs.lookup info.key = some existing) :
    ∃ current old new, Migrated r existing (Publication.start info) replaceOk (current, old, new) ∧
      d.router = { current.forgetSenders old.senders.values with
        pubs := current.pubs.insert info.key new } ∧
      ∃ added, d.ops = (current.removePublicationLocked old).ops ++ added ∧
        ∀ op ∈ added, ∃ id peer, op = .subscribe info id peer := by
  simp only [publish, hexisting] at h
  split at h
  · simp at h
  simp only [Option.some.injEq] at h
  subst h
  generalize hstate : (if sameCodecCapability existing.info.codec info.codec = true then
      r.migrateTargetsLocked existing (Publication.start info) replaceOk
    else (r, existing, Publication.start info)) = state
  have hmig : Migrated r existing (Publication.start info) replaceOk state := by
    split at hstate
    · exact hstate ▸ migrateTargets_migrated (fun _ => rfl) _ .refl
    · exact hstate ▸ .refl
  obtain ⟨current, old, new⟩ := state
  refine ⟨current, old, new, hmig, rfl, _, rfl, fun op hop => ?_⟩
  obtain ⟨id, -, hqueue⟩ := List.mem_filterMap.mp hop
  obtain ⟨-, peer, -, rfl⟩ := queueSubscriptionLocked_eq_some.mp hqueue
  exact ⟨id, peer, by rw [show new.info = info from hmig.replacement_info]⟩

/-- The target `sender` of `id` that the publication under `key` does not
hand over to its replacement `pub`. -/
def Superseded (r : Router) (key : PublicationKey) (pub : Publication) (id : ParticipantID)
    (sender : RTPSender) : Prop :=
  ∃ existing, r.pubs.lookup key = some existing ∧ existing.senders.lookup id = some sender ∧
    pub.senders.lookup id = none

open Classical in
/-- The senders a replacement does not take over are forgotten, and queued
for removal from the peers their receivers are registered with. -/
theorem publish_superseded {info : PublicationInfo} {replaceOk : ParticipantID → Bool}
    {d : Decision} {pub : Publication} (h : r.publish info replaceOk = some d)
    (hp : Published r info replaceOk d pub) :
    (∀ sender, d.router.senderSourceSSRC.lookup sender =
      if ∃ id, r.Superseded info.key pub id sender then none
      else r.senderSourceSSRC.lookup sender) ∧
      ∀ peer sender, .remove peer sender ∈ d.ops ↔
        ∃ id, r.peers.lookup id = some peer ∧ r.Superseded info.key pub id sender := by
  cases hexisting : r.pubs.lookup info.key with
  | none =>
    have hnot : ∀ id sender, ¬ r.Superseded info.key pub id sender := by
      rintro id sender ⟨existing, hsome, -⟩
      rw [hexisting] at hsome
      cases hsome
    simp only [publish, hexisting, Option.some.injEq] at h
    subst h
    refine ⟨fun sender => ?_, fun peer sender => ⟨fun hop => ?_, ?_⟩⟩
    · rw [if_neg fun hs => hs.elim fun id => hnot id sender]
    · -- a first publication queues subscriptions only
      obtain ⟨id, -, hqueue⟩ := List.mem_filterMap.mp hop
      obtain ⟨-, peer, -, heq⟩ := queueSubscriptionLocked_eq_some.mp hqueue
      cases heq
    · rintro ⟨id, -, hs⟩
      exact absurd hs (hnot id sender)
  | some existing =>
    obtain ⟨current, old, new, hmig, hrouter, added, hops, hadded⟩ := publish_replaces h hexisting
    have hcurrent : { current with holders := r.holders } = r := hmig.router
    have hpeers : current.peers = r.peers := by rw [← hcurrent]
    have hssrc : current.senderSourceSSRC = r.senderSourceSSRC := by rw [← hcurrent]
    obtain rfl : new = pub := by
      have hnew : d.router.pubs.lookup info.key = some new := by
        rw [hrouter]
        exact AList.lookup_insert _
      rw [hp.pubs, AList.lookup_insert] at hnew
      exact (Option.some.inj hnew).symm
    -- what stays on the replaced publication is what is superseded
    have hold : ∀ id sender, old.senders.lookup id = some sender ↔
        r.Superseded info.key new id sender := by
      intro id sender
      simp only [Superseded, hexisting, Option.some.injEq, exists_eq_left']
      rcases hmig.target id with ⟨hkeep, hnone⟩ | ⟨-, hgone, s, -, hmoved, -⟩
      · rw [show old.senders.lookup id = existing.senders.lookup id from hkeep,
          show new.senders.lookup id = none from hnone]
        simp
      · rw [show old.senders.lookup id = none from hgone,
          show new.senders.lookup id = some s from hmoved]
        simp
    refine ⟨fun sender => ?_, fun peer sender => ⟨fun hop => ?_, ?_⟩⟩
    · rw [hrouter]
      show (current.forgetSenders old.senders.values).senderSourceSSRC.lookup sender = _
      rw [forgetSenders_senderSourceSSRC, hssrc]
      refine if_congr ?_ rfl rfl
      rw [GoMap.mem_values]
      exact exists_congr fun id => hold id sender
    · rw [hops] at hop
      rcases List.mem_append.mp hop with hrem | hadd
      · obtain ⟨id, s, p, hs, hpeer, heq⟩ := mem_removePublicationLocked_ops_iff.mp hrem
        cases heq
        exact ⟨id, hpeers ▸ hpeer, (hold id sender).mp hs⟩
      · obtain ⟨id, p, heq⟩ := hadded _ hadd
        cases heq
    · rintro ⟨id, hpeer, hs⟩
      rw [hops]
      refine List.mem_append_left _ (mem_removePublicationLocked_ops_iff.mpr ?_)
      exact ⟨id, sender, peer, (hold id sender).mpr hs, hpeers.symm ▸ hpeer, rfl⟩

theorem sheds_publish {info : PublicationInfo} {replaceOk : ParticipantID → Bool} {d : Decision}
    (h : r.publish info replaceOk = some d) : r.Sheds d := by
  obtain ⟨pub, hp⟩ := publish_published h
  have hcases : ∀ key id sender, d.router.StoredAt key id sender ↔
      key = info.key ∧ pub.senders.lookup id = some sender ∨
        key ≠ info.key ∧ r.StoredAt key id sender := by
    intro key id sender
    simp only [StoredAt, hp.pubs, GoMap.lookup_insert]
    by_cases hkey : key = info.key
    · simp [hkey]
    · simp [hkey]
  have hstored : ∀ key id sender, d.router.StoredAt key id sender → r.StoredAt key id sender := by
    intro key id sender hs
    rcases (hcases key id sender).mp hs with ⟨rfl, hsender⟩ | ⟨-, hs⟩
    · obtain ⟨existing, hexisting, -, -, -, hs, -⟩ := hp.moved id sender hsender
      exact ⟨existing, hexisting, hs⟩
    · exact hs
  obtain ⟨hssrc, hremove⟩ := publish_superseded h hp
  have hkey : ∀ key id sender, r.StoredAt key id sender → ¬ d.router.StoredAt key id sender →
      key = info.key := by
    intro key id sender hs hnot
    by_contra hkey
    exact hnot ((hcases key id sender).mpr (Or.inr ⟨hkey, hs⟩))
  have hgone : ∀ id sender, r.Superseded info.key pub id sender ↔
      r.StoredAt info.key id sender ∧ ¬ d.router.StoredAt info.key id sender := by
    intro id sender
    constructor
    · rintro ⟨existing, hexisting, hsender, hnone⟩
      refine ⟨⟨existing, hexisting, hsender⟩, fun hd => ?_⟩
      rcases (hcases _ _ _).mp hd with ⟨-, hsome⟩ | ⟨hne, -⟩
      · rw [hnone] at hsome
        cases hsome
      · exact hne rfl
    · rintro ⟨⟨existing, hexisting, hsender⟩, hnot⟩
      refine ⟨existing, hexisting, hsender, ?_⟩
      cases hnew : pub.senders.lookup id with
      | none => rfl
      | some s =>
        obtain ⟨existing', hexisting', -, -, -, hs, -⟩ := hp.moved id s hnew
        obtain rfl := Option.some.inj (hexisting.symm.trans hexisting')
        obtain rfl := Option.some.inj (hsender.symm.trans hs)
        exact absurd ((hcases _ _ _).mpr (Or.inl ⟨rfl, hnew⟩)) hnot
  refine ⟨?_, ?_, hstored, ?_, ?_, ?_, ?_, ?_⟩
  · intro hkeyed key other hother
    rw [hp.pubs, GoMap.lookup_insert] at hother
    split at hother
    · rename_i hkey
      obtain rfl := Option.some.inj hother
      rw [hp.info_eq, hkey]
    · exact hkeyed key other hother
  · intro id peer hpeer
    exact hp.peers ▸ hpeer
  · intro _ _ _ _
    rw [hp.peers]
  · intro _ _ _ _ _ hwant
    rw [hp.wanted]
    exact hwant
  · intro sender
    rw [hssrc]
    split
    · rename_i hs
      obtain ⟨id, hs⟩ := hs
      exact Or.inl ⟨rfl, info.key, id, (hgone id sender).mp hs⟩
    · rename_i hnot
      refine Or.inr ⟨rfl, fun key id hs => ?_⟩
      by_contra hd
      obtain rfl := hkey key id sender hs hd
      exact hnot ⟨id, (hgone id sender).mpr ⟨hs, hd⟩⟩
  · intro key id sender hs hnot
    obtain rfl := hkey key id sender hs hnot
    have hsup := (hgone id sender).mpr ⟨hs, hnot⟩
    cases hpeer : r.peers.lookup id with
    | none => exact Or.inl (by rw [hp.peers, hpeer])
    | some peer => exact Or.inr ⟨peer, (hremove peer sender).mpr ⟨id, hpeer, hsup⟩⟩
  · intro op hop
    rcases hp.ops op hop with ⟨id, peer, rfl⟩ | ⟨peer, sender, rfl⟩
    · exact Or.inl ⟨info, id, peer, rfl⟩
    · obtain ⟨id, -, hs⟩ := (hremove peer sender).mp hop
      exact Or.inr ⟨peer, sender, rfl, info.key, id, (hgone id sender).mp hs⟩

/-- Pausing touches no sender. -/
theorem sheds_setPublicationActive (sourceID : ParticipantID) (role : SourceRole)
    (active : Bool) : r.Sheds ⟨r.setPublicationActive sourceID role active, [], []⟩ := by
  have hpubs : ∀ key pub,
      (r.setPublicationActive sourceID role active).pubs.lookup key = some pub →
      ∃ old, r.pubs.lookup key = some old ∧ pub.info = old.info ∧ pub.senders = old.senders := by
    intro key pub hpub
    rw [setPublicationActive, GoMap.lookup_mapValues, Option.map_eq_some_iff] at hpub
    obtain ⟨old, hold, rfl⟩ := hpub
    refine ⟨old, hold, ?_, ?_⟩
    all_goals split <;> rfl
  have hstored : ∀ key id sender,
      (r.setPublicationActive sourceID role active).StoredAt key id sender ↔
        r.StoredAt key id sender := by
    intro key id sender
    constructor
    · rintro ⟨pub, hpub, hsender⟩
      obtain ⟨old, hold, -, hsenders⟩ := hpubs key pub hpub
      exact ⟨old, hold, hsenders ▸ hsender⟩
    · rintro ⟨old, hold, hsender⟩
      cases hpub : (r.setPublicationActive sourceID role active).pubs.lookup key with
      | none =>
        rw [setPublicationActive, GoMap.lookup_mapValues, hold] at hpub
        cases hpub
      | some pub =>
        obtain ⟨old', hold', -, hsenders⟩ := hpubs key pub hpub
        obtain rfl := Option.some.inj (hold.symm.trans hold')
        exact ⟨pub, hpub, hsenders ▸ hsender⟩
  refine ⟨?_, fun _ _ h => h, fun _ _ _ => (hstored _ _ _).mp, fun _ _ _ _ => rfl,
    fun _ _ _ _ _ h => h, fun _ => Or.inr ⟨rfl, fun _ _ => (hstored _ _ _).mpr⟩, ?_, ?_⟩
  · intro hkeyed key pub hpub
    obtain ⟨old, hold, hinfo, -⟩ := hpubs key pub hpub
    rw [hinfo]
    exact hkeyed key old hold
  · intro key id sender hs hnot
    exact absurd ((hstored _ _ _).mpr hs) hnot
  · intro op hop
    simp at hop

end Router

end SlowMeet.Media
