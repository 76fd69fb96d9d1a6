import SlowMeet.Signaling.Frame

/-!
# What a step does to the media plane

`MediaChange` lists the calls of the hub into the router, each with the
section that makes it. Below it is what a call does to the camera sets the
receivers asked for.
-/

namespace SlowMeet.Media.Router

open Lib

variable {r : Router} {receiver id p : ParticipantID}

/-! ## Camera sets -/

/-- `receiver` asked for the camera of `p`. -/
def Requested (r : Router) (receiver p : ParticipantID) : Prop :=
  p ∈ (r.videoSubscriptions.lookup receiver).getD ∅

instance (r : Router) (receiver p : ParticipantID) : Decidable (r.Requested receiver p) :=
  inferInstanceAs (Decidable (p ∈ _))

/-- Only the camera sets decide. -/
theorem Requested.congr {t : Router} (h : r.Requested receiver p)
    (he : t.videoSubscriptions = r.videoSubscriptions) : t.Requested receiver p := by
  unfold Requested
  rw [he]
  exact h

theorem unregister_requested (hreceiver : receiver ≠ id) (hp : p ≠ id)
    (h : r.Requested receiver p) : (r.unregister id).router.Requested receiver p := by
  have hsubs : (r.unregister id).router.videoSubscriptions.lookup receiver =
      (r.videoSubscriptions.lookup receiver).map (·.erase id) := by
    simp [unregister, removePublicationsLocked, forgetSenders, AList.lookup_erase_ne hreceiver]
  unfold Requested at h ⊢
  rw [hsubs]
  cases hlookup : r.videoSubscriptions.lookup receiver with
  | none =>
    rw [hlookup] at h
    simp at h
  | some ids =>
    rw [hlookup] at h
    exact Finset.mem_erase.mpr ⟨hp, h⟩

theorem setVideoSubscriptionsWithLayer_requested {ids : List ParticipantID}
    {layer : Option CameraLayer} (hreceiver : receiver ≠ id) (h : r.Requested receiver p) :
    (r.setVideoSubscriptionsWithLayer id ids layer).router.Requested receiver p := by
  have hsubs : (r.setVideoSubscriptionsWithLayer id ids layer).router.videoSubscriptions.lookup
      receiver = r.videoSubscriptions.lookup receiver := AList.lookup_insert_ne hreceiver
  unfold Requested at h ⊢
  rw [hsubs]
  exact h

/-- `Publish` changes publications and SSRC holders only. -/
theorem publish_keeps {info : PublicationInfo} {replaceOk : ParticipantID → Bool} {d : Decision}
    (h : r.publish info replaceOk = some d) :
    d.router.offerers = r.offerers ∧ d.router.videoSubscriptions = r.videoSubscriptions ∧
      d.router.videoSubscriptionsSet = r.videoSubscriptionsSet ∧
      d.router.cameraLayers = r.cameraLayers := by
  simp only [publish] at h
  cases hexisting : r.pubs.lookup info.key with
  | none =>
    simp only [hexisting, Option.some.injEq] at h
    subst h
    exact ⟨rfl, rfl, rfl, rfl⟩
  | some existing =>
    simp only [hexisting] at h
    split at h
    · cases h
    · simp only [Option.some.injEq] at h
      subst h
      generalize hstate : (if sameCodecCapability existing.info.codec info.codec = true then
          r.migrateTargetsLocked existing (Publication.start info) replaceOk
        else (r, existing, Publication.start info)) = state
      -- the migration loop writes SSRC holders and nothing else
      have hmig : Migrated r existing (Publication.start info) replaceOk state := by
        rw [← hstate]
        split
        · exact migrateTargets_migrated (fun _ => rfl) _ .refl
        · exact .refl
      have hofferers := congrArg Router.offerers hmig.router
      have hsubscriptions := congrArg Router.videoSubscriptions hmig.router
      have hset := congrArg Router.videoSubscriptionsSet hmig.router
      have hlayers := congrArg Router.cameraLayers hmig.router
      exact ⟨hofferers, hsubscriptions, hset, hlayers⟩

end SlowMeet.Media.Router

namespace SlowMeet.Media.Plane

variable {m t : Plane}

theorem publish_videoSubscriptions (sourceID : ParticipantID) (role : SourceRole)
    (source : Option PeerId) (remote : Option TrackRemote) (layer : Option CameraLayer)
    (failed : Finset ParticipantID) :
    (m.publish sourceID role source remote layer failed).router.videoSubscriptions =
      m.router.videoSubscriptions := by
  unfold publish
  split
  · dsimp only
    split
    · rfl
    · next hpublish => exact (Router.publish_keeps hpublish).2.1
  · rfl

theorem trackOp_videoSubscriptions {index : Nat} {ok : Bool} (h : m.trackOp index ok = some t) :
    t.router.videoSubscriptions = m.router.videoSubscriptions := by
  obtain ⟨op, rest, -, -, rfl⟩ := trackOp_eq_some h
  cases op with
  | subscribe info id peer => cases ok <;> rfl
  | remove peer sender => cases ok <;> rfl
  | install info id peer sender =>
    unfold applyTrackOp
    dsimp only
    split
    · unfold Router.installSubscription
      split <;> rfl
    · rfl

theorem readStop_videoSubscriptions {index : Nat} (h : m.readStop index = some t) :
    t.router.videoSubscriptions = m.router.videoSubscriptions := by
  obtain ⟨info, -, rfl⟩ := Option.map_eq_some_iff.mp h
  rfl

end SlowMeet.Media.Plane

namespace SlowMeet.Signaling.Hub

open Lib Media

variable {h h' : Hub} {c : ClientId} {l : Label}

/-! ## The calls into the router -/

/-- The media plane after a step, by the step. -/
inductive MediaChange (h : Hub) : Label → Plane → Prop
  | quiet (l : Label) : MediaChange h l h.media
  | registered (c : ClientId) (ok : Bool) (p : Participant) (hp : (h.client c).participant = some p)
      (hphase : (h.client c).phase = .registering) :
      MediaChange h (.run c ok) (h.media.register p.id c (some c))
  | requested (c : ClientId) (allowed : Bool) (p : Participant) (ids : List ParticipantID)
      (layer : Option CameraLayer) (hphase : (h.client c).phase = .reading)
      (hp : (h.client c).participant = some p) :
      MediaChange h (.receive c allowed (some (.videoSubscriptions ids layer)))
        (h.media.setVideoSubscriptionsWithLayer p.id ids layer)
  | unregistered (c : ClientId) (ok : Bool) (p : Participant) (departure : Departure)
      (hp : (h.client c).participant = some p)
      (hphase : (h.client c).phase = .parting departure .unregister) :
      MediaChange h (.run c ok) (h.media.unregister p.id)
  | reaped (c : ClientId) (p : Participant) (hp : (h.client c).participant = some p)
      (hreaper : (h.client c).reaper = .unregistering) :
      MediaChange h (.reap c) (h.media.unregister p.id)
  | unpublished (c : ClientId) (ok : Bool) (p : Participant) (departure : Departure)
      (hp : (h.client c).participant = some p)
      (hphase : (h.client c).phase = .parting departure .unpublish) :
      MediaChange h (.run c ok) (h.media.unpublish p.id .screen)
  | activated (c : ClientId) (ok : Bool) (p : Participant) (active : Bool)
      (change : Option (Option ParticipantID)) (hp : (h.client c).participant = some p)
      (hphase : (h.client c).phase = .handling (.shared active change)) :
      MediaChange h (.run c ok) (h.media.setPublicationActive p.id .screen active)
  | paused (a : AdminId) (cfg : Config) (owner : ParticipantID)
      (hadmin : h.admin a = .pausing cfg (some owner)) :
      MediaChange h (.admin a) (h.media.setPublicationActive owner .screen false)
  | published (index : Nat) (failed : Finset ParticipantID) (c : ClientId) (track : TrackRemote)
      (role : SourceRole) (layer : Option CameraLayer) (p : Participant)
      (hcallback : h.callbacks[index]? = some (.publishing c track role))
      (hp : (h.client c).participant = some p) :
      MediaChange h (.track index failed)
        (h.media.publish p.id role (some c) (some track) layer failed)
  | operated (index : Nat) (ok : Bool) (media : Plane)
      (hmedia : h.media.trackOp index ok = some media) : MediaChange h (.trackOp index ok) media
  | stopped (index : Nat) (media : Plane) (hmedia : h.media.readStop index = some media) :
      MediaChange h (.readStop index) media

theorem media_stopExpiry : h.stopExpiry.media = h.media := by
  obtain ⟨timers, ht⟩ := h.stopExpiry_eq
  rw [ht]

theorem media_cancelChatHistoryExpiry : h.cancelChatHistoryExpiry.media = h.media :=
  media_stopExpiry

theorem media_scheduleChatHistoryExpiry : h.scheduleChatHistoryExpiry.media = h.media := by
  unfold scheduleChatHistoryExpiry
  split
  · rfl
  · exact media_stopExpiry

theorem media_clearChatHistory : h.clearChatHistory.media = h.media := media_stopExpiry

theorem media_runHandler {p : Participant} {handler : Handler} (ok : Bool)
    (hp : (h.client c).participant = some p) (hphase : (h.client c).phase = .handling handler) :
    h.MediaChange (.run c ok) (h.runHandler c p handler).media := by
  cases handler with
  | shared active change => exact .activated c ok p active change hp hphase
  | raising changed =>
    cases changed with
    | nil => exact .quiet _
    | cons q changed =>
      simp only [runHandler]
      split <;> exact .quiet _
  | sharing active streamID trackID =>
    simp only [runHandler, requestScreenShare]
    repeat' split
    all_goals exact .quiet _
  | chatting msg entry =>
    cases entry with
    | none => exact .quiet _
    | some entry =>
      have hkeep : (h.runHandler c p (.chatting msg (some entry))).media = h.media :=
        media_stopExpiry
      rw [hkeep]
      exact .quiet _
  | relaying _ | reacting _ _ _ | raisedCast _ _ | sharedCast _ => exact .quiet _

theorem media_run {ok : Bool} (hrun : h.Runs c ok h') : h.MediaChange (.run c ok) h'.media := by
  cases hrun with
  | registering p hp hphase => exact .registered c ok p hp hphase
  | handling p handler hp hphase => exact media_runHandler ok hp hphase
  | parting p departure at_ hp hphase =>
    cases at_ with
    | unregister => exact .unregistered c ok p departure hp hphase
    | unpublish => exact .unpublished c ok p departure hp hphase
    | releaseScreen =>
      simp only [runTeardown, releaseScreenShare]
      split <;> exact .quiet _
    | settle =>
      simp only [runTeardown, settle]
      repeat' split
      all_goals exact .quiet _
    | closePeer | screenCast => exact .quiet _
  | cancelling hphase =>
    rw [show (h.cancelChatHistoryExpiry.goto c .peering).media = h.media from
      media_cancelChatHistoryExpiry]
    exact .quiet _
  | arming hphase =>
    rw [show (h.scheduleChatHistoryExpiry.goto c .finished).media = h.media from
      media_scheduleChatHistoryExpiry]
    exact .quiet _
  | reclaiming name token hphase =>
    simp only [reclaim]
    repeat' split
    all_goals exact .quiet _
  | refusing err hphase => cases err <;> exact .quiet _
  | superseding previous hphase =>
    simp only [supersede]
    split <;> exact .quiet _
  | joining name hphase =>
    simp only [join]
    split <;> exact .quiet _
  | peering hphase =>
    simp only [newPeer]
    split <;> exact .quiet _
  | admitting p hp hphase =>
    simp only [admitClient]
    repeat' split
    all_goals exact .quiet _
  | releasing hphase =>
    simp only [releasePending]
    split <;> exact .quiet _
  | announcing p hp hphase =>
    simp only [announce]
    split <;> exact .quiet _
  | armingGrace p hp hphase =>
    simp only [armGrace]
    repeat' split
    all_goals exact .quiet _
  | finished hphase hreserved =>
    simp only [releasePending]
    split <;> exact .quiet _
  | upgrading _ | opening _ | waiting _ _ _ | entering _ _ | closing _ | disconnecting _ _ _
    | forgetting _ _ _ | leaving _ _ _ | casting _ _ _ | scheduling _ | notifying _ =>
    exact .quiet _

/-- **What a step does to the media plane.** -/
theorem media_step (hstep : h.Steps l h') : h.MediaChange l h'.media := by
  cases hstep with
  | run c ok _ hrun => exact media_run hrun
  | receive c allowed input _ hphase hreceive =>
    cases hreceive with
    | videoSubscriptions p ids layer hp => exact .requested c allowed p ids layer hphase hp
    | _ => exact .quiet _
  | connect c hphase =>
    simp only [reserve]
    split <;> exact .quiet _
  | expireAdmission c hphase =>
    simp only [expireAdmission]
    split <;> exact .quiet _
  | reapUnregister c p hp hreaper => exact .reaped c p hp hreaper
  | reapArm c p hp hreaper =>
    rw [show (h.scheduleChatHistoryExpiry.setReaper c .done).media = h.media from
      media_scheduleChatHistoryExpiry]
    exact .quiet _
  | close =>
    rw [show h.close.media = h.media from media_clearChatHistory]
    exact .quiet _
  | adminRelease a cfg hadmin =>
    simp only [releaseDisabledShare]
    repeat' split
    all_goals exact .quiet _
  | adminPause a cfg released hadmin =>
    cases released with
    | none => exact .quiet _
    | some owner => exact .paused a cfg owner hadmin
  | adminClear a cfg released hadmin =>
    cases hcfg : cfg.retainChatHistory with
    | true => exact .quiet _
    | false =>
      rw [if_neg (by simp), show (h.clearChatHistory.setAdmin a
        (if released then .screenCast else .idle)).media = h.media from media_clearChatHistory]
      exact .quiet _
  | trackPublish index failed c track role layer p hcallback hp =>
    exact .published index failed c track role layer p hcallback hp
  | trackOp index ok media hmedia => exact .operated index ok media hmedia
  | readStop index media hmedia => exact .stopped index media hmedia
  | _ => exact .quiet _

/-! ## Camera sets in a step -/

/-- The participant the step unregisters from the router. -/
def unregisters (h : Hub) : Label → Option ParticipantID
  | .run c _ =>
    match (h.client c).phase with
    | .parting _ .unregister => (h.client c).participantID
    | _ => none
  | .reap c => if (h.client c).reaper = .unregistering then (h.client c).participantID else none
  | _ => none

/-- The participant that sends a new camera set. -/
def requestsVideo (h : Hub) : Label → Option ParticipantID
  | .receive c _ (some (.videoSubscriptions _ _)) => (h.client c).participantID
  | _ => none

/-- **A camera set keeps a participant** until its receiver sends a new set
or one of the two is unregistered. -/
theorem requested_step {receiver p : ParticipantID} (hstep : h.Steps l h')
    (hrequested : h.media.router.Requested receiver p) (hnew : h.requestsVideo l ≠ some receiver)
    (hreceiver : h.unregisters l ≠ some receiver) (hp : h.unregisters l ≠ some p) :
    h'.media.router.Requested receiver p := by
  have hmedia := media_step hstep
  generalize h'.media = media at hmedia
  cases hmedia with
  | quiet _ => exact hrequested
  | requested c allowed q ids layer hphase hq =>
    apply Router.setVideoSubscriptionsWithLayer_requested _ hrequested
    intro hid
    apply hnew
    simp only [requestsVideo, Client.participantID, hq, Option.map_some, hid]
  | unregistered c ok q departure hq hphase =>
    have hid : h.unregisters (.run c ok) = some q.id := by
      simp only [unregisters, hphase, Client.participantID, hq, Option.map_some]
    rw [hid] at hreceiver hp
    exact Router.unregister_requested (fun he => hreceiver (congrArg some he.symm))
      (fun he => hp (congrArg some he.symm)) hrequested
  | reaped c q hq hreaper =>
    have hid : h.unregisters (.reap c) = some q.id := by
      simp only [unregisters, hreaper, if_true, Client.participantID, hq, Option.map_some]
    rw [hid] at hreceiver hp
    exact Router.unregister_requested (fun he => hreceiver (congrArg some he.symm))
      (fun he => hp (congrArg some he.symm)) hrequested
  | published index failed c track role layer q hcallback hq =>
    exact hrequested.congr (Plane.publish_videoSubscriptions _ _ _ _ _ _)
  | operated index ok media hop => exact hrequested.congr (Plane.trackOp_videoSubscriptions hop)
  | stopped index media hstop => exact hrequested.congr (Plane.readStop_videoSubscriptions hstop)
  | registered _ _ _ _ _ | unpublished _ _ _ _ _ _ | activated _ _ _ _ _ _ _ | paused _ _ _ _ =>
    exact hrequested.congr rfl

end SlowMeet.Signaling.Hub
