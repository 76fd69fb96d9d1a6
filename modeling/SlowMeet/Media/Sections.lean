import SlowMeet.Media.Router

/-!
# What the router's locked sections change

For each locked section: the publications, senders and wishes it leaves, the
operations it queues and the SSRC holders it forgets or rewrites. The
invariants of the router are proved from these facts alone.
-/

namespace SlowMeet.Media

open Lib

namespace Router

variable {r : Router}

/-! ## Removing publications and targets -/

@[simp] theorem forgetSenders_pubs (senders : List RTPSender) :
    (r.forgetSenders senders).pubs = r.pubs := rfl

@[simp] theorem forgetSenders_peers (senders : List RTPSender) :
    (r.forgetSenders senders).peers = r.peers := rfl

@[simp] theorem forgetSenders_holders (senders : List RTPSender) :
    (r.forgetSenders senders).holders = r.holders := rfl

theorem forgetSenders_senderSourceSSRC (senders : List RTPSender) (sender : RTPSender) :
    (r.forgetSenders senders).senderSourceSSRC.lookup sender =
      if sender ∈ senders then none else r.senderSourceSSRC.lookup sender := by
  rw [forgetSenders]
  induction senders generalizing r with
  | nil => simp
  | cons first rest ih =>
    have := ih (r := { r with senderSourceSSRC := r.senderSourceSSRC.erase first })
    simp only [List.foldl_cons] at this ⊢
    rw [this, GoMap.lookup_erase]
    by_cases hfirst : sender = first <;> simp [hfirst]

/-- A queued subscription is for an unserved target on its registered peer. -/
theorem queueSubscriptionLocked_eq_some {pub : Publication} {id : ParticipantID}
    {op : PendingTrackOp} :
    r.queueSubscriptionLocked pub id = some op ↔
      pub.senders.lookup id = none ∧
        ∃ peer, r.peers.lookup id = some peer ∧ op = .subscribe pub.info id peer := by
  rw [queueSubscriptionLocked, pub.paired id]
  cases hs : pub.senders.lookup id with
  | none => simp [Option.map_eq_some_iff, eq_comm (a := op)]
  | some sender => simp

theorem removePublicationsLocked_pubs (gone : Publication → Bool) (key : PublicationKey) :
    (r.removePublicationsLocked gone).router.pubs.lookup key =
      (r.pubs.lookup key).filter fun pub => !gone pub := by
  simp [removePublicationsLocked]

theorem mem_removePublicationLocked_ops {pub : Publication} {op : PendingTrackOp}
    (hop : op ∈ (r.removePublicationLocked pub).ops) : ∃ peer sender, op = .remove peer sender := by
  simp only [removePublicationLocked, List.mem_filterMap, Option.map_eq_some_iff] at hop
  obtain ⟨e, -, peer, -, rfl⟩ := hop
  exact ⟨peer, e.2, rfl⟩

theorem mem_removePublicationsLocked_ops {gone : Publication → Bool} {op : PendingTrackOp}
    (hop : op ∈ (r.removePublicationsLocked gone).ops) :
    ∃ peer sender, op = .remove peer sender := by
  simp only [removePublicationsLocked, List.mem_flatMap] at hop
  obtain ⟨pub, -, hop⟩ := hop
  exact mem_removePublicationLocked_ops hop

/-- The senders a removal forgets are those of the publications it deletes. -/
theorem removePublicationsLocked_senderSourceSSRC (gone : Publication → Bool)
    (sender : RTPSender) :
    (r.removePublicationsLocked gone).router.senderSourceSSRC.lookup sender =
        r.senderSourceSSRC.lookup sender ∨
      (r.removePublicationsLocked gone).router.senderSourceSSRC.lookup sender = none ∧
        ∃ key pub id, r.pubs.lookup key = some pub ∧ gone pub = true ∧
          pub.senders.lookup id = some sender := by
  simp only [removePublicationsLocked, forgetSenders_senderSourceSSRC]
  split
  · rename_i hmem
    refine Or.inr ⟨rfl, ?_⟩
    simp only [List.mem_flatMap, List.mem_filter, GoMap.mem_values] at hmem
    obtain ⟨pub, ⟨⟨key, hkey⟩, hgone⟩, id, hid⟩ := hmem
    exact ⟨key, pub, id, hkey, hgone, hid⟩
  · exact Or.inl rfl

theorem unregister_pubs (id : ParticipantID) (key : PublicationKey) :
    (r.unregister id).router.pubs.lookup key =
      ((r.pubs.lookup key).filter fun pub => pub.sourceID ≠ id).map (·.removeTarget id) := by
  simp [unregister, removePublicationsLocked]

theorem unregister_peers (id other : ParticipantID) :
    (r.unregister id).router.peers.lookup other =
      if other = id then none else r.peers.lookup other :=
  GoMap.lookup_erase ..

/-- Leaving a room changes no other pair's wish. -/
theorem unregister_shouldSubscribeLocked {id receiverID : ParticipantID} {key : PublicationKey}
    (hsource : key.sourceID ≠ id) (hreceiver : receiverID ≠ id) :
    (r.unregister id).router.shouldSubscribeLocked key receiverID =
      r.shouldSubscribeLocked key receiverID := by
  have hset : (r.unregister id).router.videoSubscriptionsSet.lookup receiverID =
      r.videoSubscriptionsSet.lookup receiverID := AList.lookup_erase_ne hreceiver
  have hsubs : (r.unregister id).router.videoSubscriptions.lookup receiverID =
      (r.videoSubscriptions.lookup receiverID).map (·.erase id) := by
    simp [unregister, removePublicationsLocked, forgetSenders, AList.lookup_erase_ne hreceiver]
  simp only [shouldSubscribeLocked, hset, hsubs]
  cases r.videoSubscriptions.lookup receiverID <;> simp [hsource]

theorem unregister_senderSourceSSRC (id : ParticipantID) (sender : RTPSender) :
    (r.unregister id).router.senderSourceSSRC.lookup sender =
        r.senderSourceSSRC.lookup sender ∨
      (r.unregister id).router.senderSourceSSRC.lookup sender = none ∧
        ∃ key pub target, r.pubs.lookup key = some pub ∧
          (pub.sourceID = id ∨ target = id) ∧ pub.senders.lookup target = some sender := by
  simp only [unregister, forgetSenders_senderSourceSSRC]
  split
  · rename_i hmem
    refine Or.inr ⟨rfl, ?_⟩
    simp only [List.mem_filterMap, GoMap.mem_values, removePublicationsLocked_pubs,
      Option.filter_eq_some_iff] at hmem
    obtain ⟨pub, ⟨key, hkey, -⟩, hid⟩ := hmem
    exact ⟨key, pub, id, hkey, Or.inr rfl, hid⟩
  · rcases removePublicationsLocked_senderSourceSSRC
      (r := { r with
        peers := r.peers.erase id
        offerers := r.offerers.erase id
        videoSubscriptions :=
          GoMap.mapValues (fun subscriptions => subscriptions.erase id)
            (r.videoSubscriptions.erase id)
        videoSubscriptionsSet := r.videoSubscriptionsSet.erase id
        cameraLayers := r.cameraLayers.erase id })
      (fun pub => decide (pub.sourceID = id)) sender with hkeep | ⟨hnone, key, pub, target, hkey, hgone, hid⟩
    · exact Or.inl hkeep
    · exact Or.inr ⟨hnone, key, pub, target, hkey, Or.inl (by simpa using hgone), hid⟩

/-! ## Subscriptions -/

section SetVideoSubscriptions

variable {receiverID : ParticipantID} {ids : List ParticipantID} {layer : Option CameraLayer}

/-- The publications a new camera set leaves: `receiverID` loses exactly
the targets it no longer wants. -/
theorem setVideoSubscriptionsWithLayer_pubs (key : PublicationKey) :
    (r.setVideoSubscriptionsWithLayer receiverID ids layer).router.pubs.lookup key =
      (r.pubs.lookup key).map fun pub =>
        if pub.sourceID ≠ receiverID ∧ (pub.senders.lookup receiverID).isSome ∧
            (r.setVideoSubscriptionsWithLayer receiverID ids layer).router.shouldSubscribeLocked
              pub.info.key receiverID = false then
          pub.removeTarget receiverID
        else pub := by
  simp only [setVideoSubscriptionsWithLayer, GoMap.lookup_mapValues]
  refine congrFun (congrArg Option.map (funext fun pub => ?_)) _
  refine if_congr ?_ rfl rfl
  simp only [Bool.and_eq_true, decide_eq_true_eq, Bool.not_eq_true', pub.paired receiverID]
  exact ⟨fun ⟨⟨hs, hw⟩, ht⟩ => ⟨hs, ht, hw⟩, fun ⟨hs, ht, hw⟩ => ⟨⟨hs, hw⟩, ht⟩⟩

theorem setVideoSubscriptionsWithLayer_shouldSubscribeLocked {other : ParticipantID}
    (hother : other ≠ receiverID) (key : PublicationKey) :
    (r.setVideoSubscriptionsWithLayer receiverID ids layer).router.shouldSubscribeLocked key other =
      r.shouldSubscribeLocked key other := by
  simp [setVideoSubscriptionsWithLayer, shouldSubscribeLocked, forgetSenders,
    AList.lookup_insert_ne hother]

/-- Every wanted and unserved publication is queued. -/
theorem mem_setVideoSubscriptionsWithLayer_ops {key : PublicationKey} {pub : Publication}
    {peer : PeerId} (hpub : r.pubs.lookup key = some pub)
    (hpeer : r.peers.lookup receiverID = some peer)
    (hwant : (r.setVideoSubscriptionsWithLayer receiverID ids layer).router.shouldSubscribeLocked
      pub.info.key receiverID = true)
    (hnone : pub.senders.lookup receiverID = none) :
    .subscribe pub.info receiverID peer ∈
      (r.setVideoSubscriptionsWithLayer receiverID ids layer).ops := by
  have hsource : pub.sourceID ≠ receiverID := by
    intro h
    simp [shouldSubscribeLocked, show pub.info.key.sourceID = receiverID from h] at hwant
  refine List.mem_append_left _ (List.mem_filterMap.mpr ⟨pub, ?_, ?_⟩)
  · refine List.mem_filter.mpr ⟨List.mem_filter.mpr ⟨GoMap.mem_values.mpr ⟨key, hpub⟩, ?_⟩, hwant⟩
    simpa using hsource
  · exact queueSubscriptionLocked_eq_some.mpr ⟨hnone, peer, hpeer, rfl⟩

/-- A new camera set queues subscriptions to registered publications and
removals. -/
theorem setVideoSubscriptionsWithLayer_ops_cases {op : PendingTrackOp}
    (hop : op ∈ (r.setVideoSubscriptionsWithLayer receiverID ids layer).ops) :
    (∃ key pub peer, r.pubs.lookup key = some pub ∧ op = .subscribe pub.info receiverID peer) ∨
      ∃ peer sender, op = .remove peer sender := by
  rcases List.mem_append.mp hop with hadd | hrem
  · obtain ⟨pub, hmem, hqueue⟩ := List.mem_filterMap.mp hadd
    obtain ⟨key, hkey⟩ := GoMap.mem_values.mp (List.mem_filter.mp (List.mem_filter.mp hmem).1).1
    obtain ⟨-, peer, -, rfl⟩ := queueSubscriptionLocked_eq_some.mp hqueue
    exact Or.inl ⟨key, pub, peer, hkey, rfl⟩
  · simp only [List.mem_filterMap, Option.map_eq_some_iff] at hrem
    obtain ⟨sender, -, peer, -, rfl⟩ := hrem
    exact Or.inr ⟨peer, sender, rfl⟩

theorem setVideoSubscriptionsWithLayer_senderSourceSSRC (r : Router) (receiverID : ParticipantID)
    (ids : List ParticipantID) (layer : Option CameraLayer) (sender : RTPSender) :
    (r.setVideoSubscriptionsWithLayer receiverID ids layer).router.senderSourceSSRC.lookup sender =
        r.senderSourceSSRC.lookup sender ∨
      (r.setVideoSubscriptionsWithLayer receiverID ids layer).router.senderSourceSSRC.lookup
          sender = none ∧
        ∃ key pub, r.pubs.lookup key = some pub ∧ pub.senders.lookup receiverID = some sender ∧
          (r.setVideoSubscriptionsWithLayer receiverID ids layer).router.pubs.lookup key =
            some (pub.removeTarget receiverID) := by
  simp only [setVideoSubscriptionsWithLayer, forgetSenders_senderSourceSSRC,
    GoMap.lookup_mapValues]
  split
  · rename_i hmem
    refine Or.inr ⟨rfl, ?_⟩
    simp only [List.mem_filterMap, List.mem_filter, GoMap.mem_values] at hmem
    obtain ⟨pub, ⟨⟨key, hkey⟩, hunwanted⟩, hid⟩ := hmem
    refine ⟨key, pub, hkey, hid, ?_⟩
    rw [hkey, Option.map_some, if_pos hunwanted]
  · exact Or.inl rfl

end SetVideoSubscriptions

/-! ## Replacing a publication -/

/-- What the migration loop has done so far: it started from `r`, `existing`
and `replacement`, and every target is either untouched or moved with its
sender, whose SSRC holder already names the replacement's track. -/
structure Migrated (r : Router) (existing replacement : Publication)
    (replaceOk : ParticipantID → Bool) (state : Router × Publication × Publication) : Prop where
  router : { state.1 with holders := r.holders } = r
  existing_info : state.2.1.info = existing.info
  replacement_info : state.2.2.info = replacement.info
  target : ∀ id,
    state.2.1.senders.lookup id = existing.senders.lookup id ∧
        state.2.2.senders.lookup id = replacement.senders.lookup id ∨
      replaceOk id = true ∧ state.2.1.senders.lookup id = none ∧
        (∃ sender, existing.senders.lookup id = some sender ∧
          state.2.2.senders.lookup id = some sender ∧
          ∀ holder, r.senderSourceSSRC.lookup sender = some holder →
            state.1.holders holder = replacement.info.remote.ssrc)
  holders : ∀ holder, state.1.holders holder = r.holders holder ∨
    state.1.holders holder = replacement.info.remote.ssrc ∧
      ∃ id sender, state.2.2.senders.lookup id = some sender ∧
        r.senderSourceSSRC.lookup sender = some holder

variable {existing replacement : Publication} {replaceOk : ParticipantID → Bool}

theorem Migrated.refl : Migrated r existing replacement replaceOk (r, existing, replacement) where
  router := rfl
  existing_info := rfl
  replacement_info := rfl
  target _ := Or.inl ⟨rfl, rfl⟩
  holders _ := Or.inl rfl

theorem Migrated.senderSourceSSRC {state : Router × Publication × Publication}
    (h : Migrated r existing replacement replaceOk state) :
    state.1.senderSourceSSRC = r.senderSourceSSRC := by
  rw [← h.router]

theorem storeSourceSSRC_router (sender : RTPSender) (ssrc : UInt32) :
    { r.storeSourceSSRC sender ssrc with holders := r.holders } = r := by
  rw [storeSourceSSRC]
  split <;> rfl

/-- A store reaches the sender's holder and no other. -/
theorem storeSourceSSRC_holders (sender : RTPSender) (ssrc : UInt32) (holder : Holder) :
    (r.storeSourceSSRC sender ssrc).holders holder = r.holders holder ∨
      (r.storeSourceSSRC sender ssrc).holders holder = ssrc ∧
        r.senderSourceSSRC.lookup sender = some holder := by
  rw [storeSourceSSRC]
  cases hs : r.senderSourceSSRC.lookup sender with
  | none => exact Or.inl rfl
  | some own =>
    by_cases heq : holder = own
    · subst heq
      exact Or.inr ⟨by simp, rfl⟩
    · exact Or.inl (by simp [heq])

theorem storeSourceSSRC_self {sender : RTPSender} {holder : Holder}
    (h : r.senderSourceSSRC.lookup sender = some holder) (ssrc : UInt32) :
    (r.storeSourceSSRC sender ssrc).holders holder = ssrc := by
  simp [storeSourceSSRC, h]

/-- One round moves at most one target. -/
theorem Migrated.step {state : Router × Publication × Publication}
    (h : Migrated r existing replacement replaceOk state)
    (hnew : ∀ id, replacement.senders.lookup id = none) (targetID : ParticipantID) :
    Migrated r existing replacement replaceOk (migrateTarget replaceOk state targetID) := by
  have hssrc := h.senderSourceSSRC
  obtain ⟨current, old, new⟩ := state
  cases hsender : old.senders.lookup targetID with
  | none => simpa [migrateTarget, hsender] using h
  | some sender =>
    by_cases hok : replaceOk targetID = true
    swap
    · simpa [migrateTarget, hsender, hok] using h
    have hmove : migrateTarget replaceOk (current, old, new) targetID =
        (current.storeSourceSSRC sender replacement.info.remote.ssrc,
          old.removeTarget targetID, new.addTarget targetID sender) := by
      rw [← h.replacement_info]
      simp [migrateTarget, hsender, hok]
    have hexisting : existing.senders.lookup targetID = some sender := by
      rcases h.target targetID with ⟨he, -⟩ | ⟨-, he, -⟩
      · exact he ▸ hsender
      · simp [hsender] at he
    -- the holder of the moved sender is rewritten, every other one is kept
    have hstore := fun holder =>
      storeSourceSSRC_holders (r := current) sender replacement.info.remote.ssrc holder
    have hself : ∀ holder, r.senderSourceSSRC.lookup sender = some holder →
        (current.storeSourceSSRC sender replacement.info.remote.ssrc).holders holder =
          replacement.info.remote.ssrc :=
      fun holder hholder => storeSourceSSRC_self (hssrc ▸ hholder) _
    rw [hmove]
    refine ⟨?_, h.existing_info, h.replacement_info, fun id => ?_, fun holder => ?_⟩
    · calc ({ current.storeSourceSSRC sender replacement.info.remote.ssrc with
            holders := r.holders } : Router)
          = { { current.storeSourceSSRC sender replacement.info.remote.ssrc with
              holders := current.holders } with holders := r.holders } := rfl
        _ = { current with holders := r.holders } := by rw [storeSourceSSRC_router]
        _ = r := h.router
    · simp only [Publication.removeTarget_senders, Publication.addTarget_senders]
      by_cases hid : id = targetID
      · subst hid
        exact Or.inr ⟨hok, by simp, sender, hexisting, by simp, hself⟩
      · simp only [hid, if_false]
        rcases h.target id with hkeep | ⟨hrep, hnone, s, hs, hs', hheld⟩
        · exact Or.inl hkeep
        · refine Or.inr ⟨hrep, hnone, s, hs, hs', fun holder hholder => ?_⟩
          rcases hstore holder with heq | ⟨heq, -⟩
          · exact heq.trans (hheld holder hholder)
          · exact heq
    · rcases hstore holder with heq | ⟨heq, hholder⟩
      · rcases h.holders holder with hkeep | ⟨hval, id, s, hs, hlook⟩
        · exact Or.inl (heq.trans hkeep)
        · refine Or.inr ⟨heq.trans hval, id, s, ?_, hlook⟩
          by_cases hid : id = targetID
          · -- a target already moved has left the existing publication
            subst hid
            rcases h.target id with ⟨-, hrep⟩ | ⟨-, hgone, -⟩
            · simp [show new.senders.lookup id = _ from hrep, hnew] at hs
            · simp [hsender] at hgone
          · simpa [Publication.addTarget_senders, hid] using hs
      · refine Or.inr ⟨heq, targetID, sender, by simp [Publication.addTarget_senders], ?_⟩
        exact hssrc ▸ hholder

/-- **What the migration loop does**, over any list of targets. -/
theorem migrateTargets_migrated (hnew : ∀ id, replacement.senders.lookup id = none)
    (ids : List ParticipantID) {state : Router × Publication × Publication}
    (h : Migrated r existing replacement replaceOk state) :
    Migrated r existing replacement replaceOk (ids.foldl (migrateTarget replaceOk) state) := by
  induction ids generalizing state with
  | nil => exact h
  | cons id rest ih => exact ih (h.step hnew id)

/-- What the locked section of `Publish` leaves when it registers `info`. -/
structure Published (r : Router) (info : PublicationInfo) (replaceOk : ParticipantID → Bool)
    (d : Decision) (pub : Publication) : Prop where
  pubs : d.router.pubs = r.pubs.insert info.key pub
  info_eq : pub.info = info
  peers : d.router.peers = r.peers
  wanted : d.router.shouldSubscribeLocked = r.shouldSubscribeLocked
  /-- A target of the new publication is one of the replaced publication. -/
  moved : ∀ id sender, pub.senders.lookup id = some sender →
    ∃ existing, r.pubs.lookup info.key = some existing ∧
      existing.info.remote.ref ≠ info.remote.ref ∧
      sameCodecCapability existing.info.codec info.codec = true ∧ replaceOk id = true ∧
      existing.senders.lookup id = some sender ∧
      ∀ holder, r.senderSourceSSRC.lookup sender = some holder →
        d.router.holders holder = info.remote.ssrc
  holders : ∀ holder, d.router.holders holder = r.holders holder ∨
    ∃ id sender, pub.senders.lookup id = some sender ∧
      r.senderSourceSSRC.lookup sender = some holder
  forgotten : ∀ sender,
    d.router.senderSourceSSRC.lookup sender = r.senderSourceSSRC.lookup sender ∨
      d.router.senderSourceSSRC.lookup sender = none ∧
        ∃ existing id, r.pubs.lookup info.key = some existing ∧
          existing.senders.lookup id = some sender ∧ pub.senders.lookup id = none
  queued : ∀ id peer, r.peers.lookup id = some peer → pub.senders.lookup id = none →
    PendingTrackOp.subscribe info id peer ∈ d.ops
  ops : ∀ op ∈ d.ops, (∃ id peer, op = .subscribe info id peer) ∨
    ∃ peer sender, op = .remove peer sender

/-- **What `Publish` does**: nothing for a re-fired track, otherwise it
registers the publication with the targets the migration moved. -/
theorem publish_published {info : PublicationInfo} {d : Decision}
    (h : r.publish info replaceOk = some d) : ∃ pub, Published r info replaceOk d pub := by
  -- the subscriptions queued for the registered peers, in either case
  have hops : ∀ (r : Router) (pub : Publication) (op : PendingTrackOp),
      op ∈ r.peers.keys.filterMap (fun id => r.queueSubscriptionLocked pub id) ↔
        ∃ id peer, r.peers.lookup id = some peer ∧ pub.senders.lookup id = none ∧
          op = .subscribe pub.info id peer := by
    intro r pub op
    simp only [List.mem_filterMap, queueSubscriptionLocked_eq_some]
    constructor
    · rintro ⟨id, -, hnone, peer, hpeer, rfl⟩
      exact ⟨id, peer, hpeer, hnone, rfl⟩
    · rintro ⟨id, peer, hpeer, hnone, rfl⟩
      refine ⟨id, ?_, hnone, peer, hpeer, rfl⟩
      exact AList.lookup_isSome.mp (by simp [hpeer])
  simp only [publish] at h
  cases hexisting : r.pubs.lookup info.key with
  | none =>
    simp only [hexisting, Option.some.injEq] at h
    subst h
    refine ⟨Publication.start info, rfl, rfl, rfl, rfl, by simp, fun _ => Or.inl rfl,
      fun _ => Or.inl rfl, fun id peer hpeer hnone => ?_, fun op hop => ?_⟩
    · exact List.mem_append_right _ ((hops _ _ _).mpr ⟨id, peer, hpeer, hnone, rfl⟩)
    · rcases List.mem_append.mp hop with hrem | hadd
      · simp at hrem
      · obtain ⟨id, peer, -, -, rfl⟩ := (hops _ _ _).mp hadd
        exact Or.inl ⟨id, peer, rfl⟩
  | some existing =>
    simp only [hexisting] at h
    split at h
    · simp at h
    rename_i hremote
    simp only [Option.some.injEq] at h
    subst h
    generalize hstate : (if sameCodecCapability existing.info.codec info.codec = true then
        r.migrateTargetsLocked existing (Publication.start info) replaceOk
      else (r, existing, Publication.start info)) = state
    have hmig : Migrated r existing (Publication.start info) replaceOk state ∧
        (sameCodecCapability existing.info.codec info.codec = false →
          state = (r, existing, Publication.start info)) := by
      by_cases hcodec : sameCodecCapability existing.info.codec info.codec = true
      · rw [if_pos hcodec] at hstate
        refine ⟨hstate ▸ migrateTargets_migrated (fun _ => rfl) _ .refl, fun h => ?_⟩
        simp [hcodec] at h
      · rw [if_neg hcodec] at hstate
        exact ⟨hstate ▸ .refl, fun _ => hstate.symm⟩
    obtain ⟨hmig, hother⟩ := hmig
    clear hstate
    obtain ⟨current, old, new⟩ := state
    have hcurrent : { current with holders := r.holders } = r := hmig.router
    have hpeers : current.peers = r.peers := by rw [← hcurrent]
    have hssrc : current.senderSourceSSRC = r.senderSourceSSRC := by rw [← hcurrent]
    have hmoved : ∀ id sender, new.senders.lookup id = some sender → replaceOk id = true ∧
        existing.senders.lookup id = some sender ∧
        ∀ holder, r.senderSourceSSRC.lookup sender = some holder →
          current.holders holder = info.remote.ssrc := by
      intro id sender hsender
      rcases hmig.target id with ⟨-, hnone⟩ | ⟨hrep, -, s, hs, hs', hheld⟩
      · simp [show new.senders.lookup id = _ from hnone] at hsender
      · obtain rfl : s = sender := Option.some.inj (hs'.symm.trans hsender)
        exact ⟨hrep, hs, hheld⟩
    refine ⟨new, ?_, hmig.replacement_info, hpeers, ?_, fun id sender hsender => ?_,
      fun holder => ?_, fun sender => ?_, fun id peer hpeer hnone => ?_, fun op hop => ?_⟩
    · show current.pubs.insert info.key new = r.pubs.insert info.key new
      rw [← hcurrent]
    · show current.shouldSubscribeLocked = r.shouldSubscribeLocked
      rw [← hcurrent]
      rfl
    · obtain ⟨hrep, hs, hheld⟩ := hmoved id sender hsender
      refine ⟨existing, hexisting, hremote, ?_, hrep, hs, hheld⟩
      by_contra hcodec
      have := hother (by simpa using hcodec)
      simp only [Prod.mk.injEq] at this
      simp [this.2.2] at hsender
    · rcases hmig.holders holder with hkeep | ⟨-, id, sender, hs, hholder⟩
      · exact Or.inl hkeep
      · exact Or.inr ⟨id, sender, hs, hholder⟩
    · show (current.forgetSenders old.senders.values).senderSourceSSRC.lookup sender = _ ∨
        (current.forgetSenders old.senders.values).senderSourceSSRC.lookup sender = _ ∧ _
      rw [forgetSenders_senderSourceSSRC, hssrc]
      split
      · rename_i hmem
        obtain ⟨id, hid⟩ := GoMap.mem_values.mp hmem
        refine Or.inr ⟨rfl, existing, id, hexisting, ?_, ?_⟩
        all_goals
          rcases hmig.target id with ⟨hold, hnew⟩ | ⟨-, hold, -⟩
          · first
              | exact hold ▸ hid
              | exact hnew
          · simp [show old.senders.lookup id = _ from hold] at hid
      · exact Or.inl rfl
    · refine List.mem_append_right _ ((hops _ _ _).mpr ⟨id, peer, ?_, hnone, ?_⟩)
      · exact hpeers ▸ hpeer
      · rw [show new.info = info from hmig.replacement_info]
    · rcases List.mem_append.mp hop with hrem | hadd
      · exact Or.inr (mem_removePublicationLocked_ops hrem)
      · obtain ⟨id, peer, -, -, rfl⟩ := (hops _ _ _).mp hadd
        exact Or.inl ⟨id, peer, by rw [show new.info = info from hmig.replacement_info]⟩

end Router

end SlowMeet.Media
