import Mathlib.Data.Finset.Card
import SlowMeet.Meeting.Queue
import SlowMeet.Signaling.MediaStates
import SlowMeet.Signaling.Outbound
import SlowMeet.Signaling.Privacy
import SlowMeet.Signaling.Revocation

/-!
# The size of a room

No room grows past the largest limit an administrator has set, and what an
admission writes at once grows with the room only, so that the queue of a
client holds it beside the answers to what the client sent before.
-/

namespace SlowMeet.Meeting

open Lib

variable {m m' : Meeting} {id : ParticipantID}

/-- A join finds a free slot. -/
theorem count_lt_of_join {name : Name} {p : Participant} (h : m.join name id = .ok (m', p)) :
    m.count < m.max := by
  simp only [join] at h
  split at h
  · cases h
  · split at h
    · cases h
    · omega

theorem max_setHandOrder (m : Meeting) (id : ParticipantID) (index : Nat) :
    (m.setHandOrder id index).max = m.max := by
  unfold setHandOrder
  split <;> rfl

theorem max_reindex (m : Meeting) : m.reindexRaisedHandsLocked.max = m.max := by
  have key : ∀ (l : List (ParticipantID × Nat)) (m : Meeting),
      (l.foldl (fun m e => m.setHandOrder e.1 e.2) m).max = m.max := by
    intro l
    induction l with
    | nil => intro m; rfl
    | cons e rest ih =>
      intro m
      exact (ih _).trans (max_setHandOrder m e.1 e.2)
  exact key _ m

theorem max_leave (m : Meeting) (id : ParticipantID) : (m.leave id).1.max = m.max := by
  unfold leave
  split
  · rfl
  · dsimp only
    split
    · exact max_reindex _
    · rfl

theorem count_leave_le (m : Meeting) (id : ParticipantID) : (m.leave id).1.count ≤ m.count := by
  refine count_le_of_has fun id' hid' => ?_
  rw [has_leave, Bool.and_eq_true] at hid'
  exact hid'.2

theorem max_setRaisedHand {raised : Bool} {changed : List Participant}
    (h : m.setRaisedHand id raised = some (m', changed)) : m'.max = m.max := by
  unfold setRaisedHand at h
  split at h
  · cases h
  · split at h
    · cases h
      rfl
    · split at h
      · cases h
        rfl
      · cases h
        exact max_reindex _

/-- The roster holds every member once. -/
theorem length_list (m : Meeting) : m.list.length = m.count := List.length_map _

end SlowMeet.Meeting

namespace SlowMeet.Signaling

open Lib Media

namespace Hub

variable {cfg : Config} {h h' : Hub} {c : ClientId} {p : ParticipantID} {q : Participant}
  {l : Label} {N : Nat} {forgetting : Finset ClientId}

/-- No update sets a limit above `N`. -/
def withinLimit (N : Nat) (_ : Hub) : Label → Bool
  | .adminUpdate _ update => decide (update.maxParticipants.getD 0 ≤ N)
  | _ => true

/-! ## The limits in force -/

/-- An admin update works with what was configured when it took its snapshot. -/
theorem snapshot_step (hstep : h.Steps l h') {a : AdminId} {cfg : Config}
    (hsnapshot : (h'.admin a).snapshot = some cfg) :
    (h.admin a).snapshot = some cfg ∨ cfg = h.config := by
  have hset : ∀ {g : Hub} {b : AdminId} {phase : AdminPhase}, g.admin = h.admin →
      ((g.setAdmin b phase).admin a).snapshot = some cfg →
      (phase.snapshot = some cfg → (h.admin b).snapshot = some cfg ∨ cfg = h.config) →
      (h.admin a).snapshot = some cfg ∨ cfg = h.config := by
    intro g b phase hg hs hphase
    by_cases hab : a = b
    · subst hab
      exact hphase (by simpa [setAdmin] using hs)
    · exact .inl (by simpa [setAdmin, hab, hg] using hs)
  have hsame : h'.admin = h.admin → (h.admin a).snapshot = some cfg ∨ cfg = h.config :=
    fun hadmin => .inl (hadmin ▸ hsnapshot)
  cases hstep with
  | adminUpdate b update hadmin =>
    exact hset (g := { h with config := _ }) rfl hsnapshot fun h => (by cases h)
  | adminSnapshot b hadmin =>
    exact hset rfl hsnapshot fun h => .inr (Option.some.inj h).symm
  | adminLimit b cfg' hadmin =>
    refine hset (g := { h with meeting := _ }) rfl hsnapshot fun h => .inl ?_
    rw [hadmin]
    exact h
  | adminRelease b cfg' hadmin =>
    have hphase : ∀ released, (AdminPhase.pausing cfg' released).snapshot = some cfg →
        (h.admin b).snapshot = some cfg ∨ cfg = h.config := by
      intro released h
      rw [hadmin]
      exact .inl h
    simp only [releaseDisabledShare] at hsnapshot
    split at hsnapshot
    · split at hsnapshot
      · exact hset rfl hsnapshot (hphase _)
      · refine hset (g := Hub.update { h with screenSharer := none } _ _) rfl hsnapshot (hphase _)
    · exact hset rfl hsnapshot (hphase _)
  | adminPause b cfg' released hadmin =>
    refine hset (by cases released <;> rfl) hsnapshot fun h => .inl ?_
    rw [hadmin]
    exact h
  | adminAnnounce b cfg' released hadmin =>
    refine hset (g := h.broadcastToRoom _) rfl hsnapshot fun h => .inl ?_
    rw [hadmin]
    exact h
  | adminClear b cfg' released hadmin =>
    refine hset ?_ hsnapshot fun h => ?_
    · split
      · rfl
      · exact admin_stopExpiry
    · split at h <;> cases h
  | adminScreenCast b hadmin =>
    exact hset (g := h.broadcastToRoom _) rfl hsnapshot fun h => (by cases h)
  | run c ok _ hrun => exact hsame (admin_run hrun)
  | receive c allowed input _ hphase hreceive => exact hsame (by cases hreceive <;> rfl)
  | connect c hphase =>
    refine hsame ?_
    simp only [reserve]
    split <;> rfl
  | expireAdmission c hphase =>
    refine hsame ?_
    simp only [expireAdmission]
    split <;> rfl
  | reapArm c p hp hreaper => exact hsame admin_scheduleChatHistoryExpiry
  | close => exact hsame admin_stopExpiry
  | _ => exact hsame rfl

/-- Every limit that is set or about to be is at most `N`, and so is the
number of slots taken. -/
structure Capped (N : Nat) (h : Hub) : Prop where
  config : h.config.maxParticipants ≤ N
  snapshot : ∀ a cfg, (h.admin a).snapshot = some cfg → cfg.maxParticipants ≤ N
  max : h.meeting.max ≤ N
  count : h.meeting.count ≤ N

theorem capped_new (hcfg : cfg.maxParticipants ≤ N) : (Hub.new cfg).Capped N where
  config := hcfg
  snapshot _ _ h := by cases h
  max := hcfg
  count := Nat.zero_le N

/-- What the operations of the meeting leave of its limit and its size. -/
theorem Capped.meeting_step (hs : h.Capped N) (hpresent : h.Present) (hok : withinLimit N h l = true)
    (hstep : h.Steps l h') :
    h'.config.maxParticipants ≤ N ∧ h'.meeting.max ≤ N ∧ h'.meeting.count ≤ N := by
  have hroom := room_step hstep
  have hconfig : h'.config = h'.room.config := rfl
  have hmeeting : h'.meeting = h'.room.meeting := rfl
  rw [hconfig, hmeeting]
  generalize h'.room = room at hroom
  cases hroom with
  | configured a update hadmin =>
    refine ⟨?_, hs.max, hs.count⟩
    show update.maxParticipants.getD h.config.maxParticipants ≤ N
    cases hmax : update.maxParticipants with
    | none => exact hs.config
    | some n =>
      have hle := of_decide_eq_true hok
      rwa [hmax] at hle
  | limited a cfg hadmin =>
    have hcfg : cfg.maxParticipants ≤ N := hs.snapshot a cfg (by rw [hadmin]; rfl)
    refine ⟨hs.config, ?_, ?_⟩
    · show (h.meeting.setMaxParticipants cfg.maxParticipants).max ≤ N
      unfold Meeting.setMaxParticipants
      split
      · exact hs.max
      · exact hcfg
    · refine Nat.le_trans (Meeting.count_le_of_has fun id hid => ?_) hs.count
      rwa [Meeting.has_setMaxParticipants] at hid
  | joined c ok name meeting q hphase hjoin =>
    obtain ⟨hid, rfl⟩ := Meeting.join_ok _ _ _ hjoin
    have hroom := Meeting.count_lt_of_join hjoin
    have hfresh : h.meeting.has h.nextID = false := by
      rw [Bool.eq_false_iff]
      intro hhas
      exact absurd (hpresent.slots _ hhas) (Nat.lt_irrefl _)
    refine ⟨hs.config, hs.max, ?_⟩
    show (h.meeting.store q).count ≤ N
    rw [Meeting.count_store hfresh hid]
    have hmax := hs.max
    omega
  | left c ok q hq hphase | reaped c q hq hreaper =>
    refine ⟨hs.config, (Meeting.max_leave _ _).trans_le hs.max, ?_⟩
    exact Nat.le_trans (Meeting.count_leave_le _ _) hs.count
  | closeLeft id hid =>
    refine ⟨hs.config, (Meeting.max_leave _ _).trans_le hs.max, ?_⟩
    exact Nat.le_trans (Meeting.count_leave_le _ _) hs.count
  | raised c allowed q raised meeting changed hphase hq hraised =>
    refine ⟨hs.config, (Meeting.max_setRaisedHand hraised).trans_le hs.max, ?_⟩
    refine Nat.le_trans (Meeting.count_le_of_has fun id hid => ?_) hs.count
    rwa [Meeting.has_setRaisedHand hraised] at hid
  | _ => exact ⟨hs.config, hs.max, hs.count⟩

theorem Capped.step (hs : h.Capped N) (hpresent : h.Present) (hok : withinLimit N h l = true)
    (hstep : h.Steps l h') : h'.Capped N := by
  obtain ⟨hconfig, hmax, hcount⟩ := hs.meeting_step hpresent hok hstep
  refine ⟨hconfig, fun a cfg hsnapshot => ?_, hmax, hcount⟩
  rcases snapshot_step hstep hsnapshot with hold | rfl
  · exact hs.snapshot a cfg hold
  · exact hs.config

theorem capped_of_reachable (hcfg : cfg.maxParticipants ≤ N)
    (hr : (lts cfg).Reachable (fun h l => withinLimit N h l = true) h) : h.Capped N :=
  hr.invariant_of (J := Present) (fun _ => present_of_reachable)
    (fun t ht => by
      obtain rfl : t = Hub.new cfg := ht
      exact capped_new hcfg)
    fun _ _ _ hpresent _ hs hok htr => hs.step hpresent hok (steps_of_step htr)

/-! ## What is kept for a participant -/

/-- Room members are members of the meeting, each by a connection of its own. -/
theorem members_le (hpresent : h.Present) : h.roomMembers.card ≤ h.meeting.count := by
  have hsubset : h.roomMembers.image (fun c => (h.client c).participantID) ⊆
      (h.meeting.participants.keys.map some).toFinset := by
    intro id hid
    obtain ⟨c, hc, rfl⟩ := Finset.mem_image.mp hid
    obtain ⟨⟨p, hserves⟩, -⟩ := hpresent.member c hc
    have hhas := hpresent.has c p hserves
    rw [List.mem_toFinset, hserves.1]
    exact List.mem_map_of_mem (AList.lookup_isSome.mp hhas)
  have hinj : Set.InjOn (fun c => (h.client c).participantID) h.roomMembers := by
    intro c hc d hd hcd
    obtain ⟨⟨p, hserves⟩, -⟩ := hpresent.member c hc
    obtain ⟨⟨p', hserves'⟩, -⟩ := hpresent.member d hd
    have hp : p' = p := by
      have hsame : some p = some p' := hserves.1.symm.trans (hcd.trans hserves'.1)
      exact (Option.some.inj hsame).symm
    subst hp
    exact hpresent.unique d c p' hserves' hserves
  calc h.roomMembers.card
      = (h.roomMembers.image fun c => (h.client c).participantID).card :=
        (Finset.card_image_of_injOn hinj).symm
    _ ≤ (h.meeting.participants.keys.map some).toFinset.card := Finset.card_le_card hsubset
    _ ≤ (h.meeting.participants.keys.map some).length := List.toFinset_card_le _
    _ = h.meeting.count := by
        simp [Meeting.count, GoMap.size, AList.keys, List.keys]

/-- A media state belongs to a slot, or to a participant whose expiry has
still to forget it. -/
theorem states_le (hs : h.StatesHeld)
    (hforgetting : ∀ c, (h.client c).reaper = .forgetting → c ∈ forgetting) :
    h.mediaStates.size ≤ h.meeting.count + forgetting.card := by
  have hsubset : h.mediaStates.keys ⊆ h.meeting.participants.keys ++
      forgetting.toList.filterMap fun c => (h.client c).participantID := by
    intro p hp
    rw [← AList.mem_keys, ← AList.lookup_isSome, Option.isSome_iff_exists] at hp
    obtain ⟨state, hstate⟩ := hp
    rcases hs.slot p state hstate with hhas | ⟨c, hc, hreaper⟩
    · exact List.mem_append_left _ (AList.lookup_isSome.mp hhas)
    · refine List.mem_append_right _ (List.mem_filterMap.mpr ⟨c, ?_, hc⟩)
      exact Finset.mem_toList.mpr (hforgetting c hreaper)
  have hle := (List.subperm_of_subset h.mediaStates.nodupKeys hsubset).length_le
  have hfilter := List.length_filterMap_le (fun c => (h.client c).participantID) forgetting.toList
  rw [Finset.length_toList] at hfilter
  simp only [AList.keys, List.keys, List.length_append, List.length_map] at hle
  show h.mediaStates.entries.length ≤ h.meeting.participants.entries.length + _
  omega

/-! ## What an admission writes -/

/-- The roster replay leaves out the participant it is for. -/
theorem length_rosterReplay_lt (hhas : h.meeting.has q.id = true) :
    (h.rosterReplay q).length < h.meeting.count := by
  obtain ⟨r, hr⟩ := Option.isSome_iff_exists.mp hhas
  have hid := h.meeting.keyed q.id r hr
  have hmem : r ∈ h.meeting.list := by
    rw [Meeting.mem_list, hid]
    exact hr
  rw [← Meeting.length_list]
  refine List.length_filter_lt_length_iff_exists.mpr ⟨r, hmem, ?_⟩
  simp [hid]

/-- The response, the roster, the media states and the screen share. -/
theorem length_admissionReplay_le (hs : h.StatesHeld) (hhas : h.meeting.has q.id = true)
    (hforgetting : ∀ c, (h.client c).reaper = .forgetting → c ∈ forgetting) (takeover : Bool) :
    (h.admissionReplay q takeover).length ≤ 2 * h.meeting.count + 1 + forgetting.card := by
  have hroster := length_rosterReplay_lt hhas
  have hstates := states_le hs hforgetting
  have hvalues : h.mediaStates.values.length = h.mediaStates.size := List.length_map _
  unfold admissionReplay
  rw [List.length_append, List.length_append, List.length_append, List.length_map,
    List.length_map, List.length_singleton]
  cases h.screenOwner with
  | some owner =>
    show 1 + (h.rosterReplay q).length + h.mediaStates.values.length + 1 ≤ _
    omega
  | none =>
    cases takeover with
    | true =>
      show 1 + (h.rosterReplay q).length + h.mediaStates.values.length + 1 ≤ _
      omega
    | false =>
      show 1 + (h.rosterReplay q).length + h.mediaStates.values.length + 0 ≤ _
      omega

/-- **The room keeps to the limit**: there are never more room members than
slots taken, nor more slots taken than the largest limit ever set, whatever is
lowered in between; and no more media states than participants, but for those
an expiry is about to forget. -/
theorem room_within_limit (hcfg : cfg.maxParticipants ≤ N)
    (hr : (lts cfg).Reachable (fun h l => withinLimit N h l = true) h)
    (hforgetting : ∀ c, (h.client c).reaper = .forgetting → c ∈ forgetting) :
    h.roomMembers.card ≤ h.meeting.count ∧ h.meeting.count ≤ N ∧
      h.mediaStates.size ≤ h.meeting.count + forgetting.card :=
  ⟨members_le (present_of_reachable hr), (capped_of_reachable hcfg hr).count,
    states_le (statesTold_of_reachable hr).1 hforgetting⟩

/-- With two connections whose expiries have not begun none is about to forget
a participant. -/
theorem not_forgetting (hunborn : h.Unborn 2) (hr₀ : (h.client 0).reaper = .idle)
    (hr₁ : (h.client 1).reaper = .idle) (c : ClientId) (hc : (h.client c).reaper = .forgetting) :
    c ∈ (∅ : Finset ClientId) := by
  rcases c with _ | _ | c
  · rw [hr₀] at hc
    cases hc
  · rw [hr₁] at hc
    cases hc
  · rw [(hunborn (c + 2) (by omega)).2.2] at hc
    cases hc

/-- The limit is lowered to one with two in the room. -/
theorem room_within_limit_lowered : ∃ h : Hub,
    (h.roomMembers.card ≤ h.meeting.count ∧ h.meeting.count ≤ 4 ∧
      h.mediaStates.size ≤ h.meeting.count + (∅ : Finset ClientId).card) ∧
    h.meeting.max = 1 ∧ h.meeting.count = 2 := by
  obtain ⟨h, hr, hunborn, ho⟩ := exists_checked_within sampleConfig 2 (withinLimit 4)
    (joins 0 ++ joins 1 ++ [.adminUpdate 0 { maxParticipants := some 1 }, .admin 0, .admin 0])
    (fun h => (h.meeting.max, h.meeting.count, (h.client 0).reaper, (h.client 1).reaper))
    (1, 2, .idle, .idle) (by decide)
  obtain ⟨hmax, ho⟩ := Prod.mk.inj ho
  obtain ⟨hcount, ho⟩ := Prod.mk.inj ho
  obtain ⟨hr₀, hr₁⟩ := Prod.mk.inj ho
  exact ⟨h, room_within_limit (by decide) hr (not_forgetting hunborn hr₀ hr₁), hmax, hcount⟩

end Hub

namespace Service

variable {cfg : Config} {s : Service} {c : ClientId} {q : Participant} {o : Outbound} {N : Nat}
  {forgetting : Finset ClientId}

/-- No update sets a limit above `N`. -/
def withinLimit (N : Nat) : Service → Label → Prop :=
  Keeps fun h l => Hub.withinLimit N h l = true

/-- `o` is the outbound side of a client that is not admitted yet: the hub and
the negotiation wrote to it, and nothing has been flushed. -/
structure Feeds (s : Service) (c : ClientId) (o : Outbound) : Prop where
  reachable : Outbound.lts.Reachable Outbound.Unflushed o
  hub : (s.hub.client c).outbound.Sublist (o.attempted.map Prod.snd)
  attempted : o.attempted.length =
    (s.hub.client c).outbound.length + (s.negotiation c).outbound.length

/-- **An admission fits the queue**: whoever is admitted, all that `admit`
writes at once goes into the client's own queue, unless the client has sent so
much before that the answers could fill the rest. With a limit of 100 an
admission takes 201 of the 512 places, and 311 inputs are too few for that. -/
theorem admission_fits (hcfg : cfg.maxParticipants ≤ N)
    (hr : (lts cfg).Reachable (withinLimit N) s)
    (hphase : (s.hub.client c).phase = .admitting)
    (hq : (s.hub.client c).participant = some q)
    (hforgetting : ∀ c, (s.hub.client c).reaper = .forgetting → c ∈ forgetting)
    (ho : s.Feeds c o) (sender : Sender)
    (hinputs : s.inputs c + (2 * N + 1 + forgetting.card) ≤ outboundQueueSize) :
    ∃ queue, o.queue.offerAll (Outbound.items sender
        (s.hub.admissionReplay q (s.hub.client c).activeTakeover)) = some queue ∧
      queue.pending = o.queue.pending ++ Outbound.items sender
        (s.hub.admissionReplay q (s.hub.client c).activeTakeover) := by
  have hhub := reachable_hub_of_keeps hr
  have hserves : s.hub.Serves c q.id := ⟨Hub.participantID_of_some hq, by rw [hphase]; rfl⟩
  have hhas := (Hub.present_of_reachable hhub).has c q.id hserves
  have hcount := (Hub.capped_of_reachable hcfg hhub).count
  have hlength := Hub.length_admissionReplay_le (Hub.statesTold_of_reachable hhub).1 hhas
    hforgetting (s.hub.client c).activeTakeover
  have hwritten := writes_of_arriving hr.any (c := c) (by rw [hphase]; rfl)
  have hpending := Outbound.pending_le_attempted ho.reachable
  have hattempted := ho.attempted
  refine Mailbox.exists_offerAll ?_
  rw [Outbound.items, List.length_map]
  omega

/-- The answer to a message before the join. -/
def early : Message := .error "join is required before this message"

/-- The second to join has chatted too early, and is about to be admitted with
a media state stored. -/
theorem admission_fits_second : ∃ (s : Service) (q : Participant) (o : Outbound),
    (∃ queue, o.queue.offerAll (Outbound.items 0
        (s.hub.admissionReplay q (s.hub.client 1).activeTakeover)) = some queue ∧
      queue.pending = o.queue.pending ++ Outbound.items 0
        (s.hub.admissionReplay q (s.hub.client 1).activeTakeover)) ∧
    o.queue.pending.length = 1 ∧
    (s.hub.admissionReplay q (s.hub.client 1).activeTakeover).length = 3 := by
  obtain ⟨s, hr, ho⟩ := Lts.exists_reachable_of_execWhen
    (fun (s : Service) l => match l with
      | .negotiate _ _ => true
      | .hub l => l.within 2 && Hub.withinLimit 4 s.hub l)
    step (new Hub.sampleConfig)
    ((Hub.joins 0 ++ [Hub.Label.receive 0 true (some (.mediaState (some false) none none))] ++
      Hub.runs 0 1 ++ [Hub.Label.connect 1] ++ Hub.runs 1 2 ++
      [Hub.Label.receive 1 true (some (.chat ['a'])),
        Hub.Label.receive 1 true (some (.join ['a'] "" none))] ++ Hub.runs 1 5).map Label.hub)
    (fun s => decide (((s.hub.client 1).phase = .admitting ∧
      (s.hub.client 1).participant = some ⟨1, ['a'], false, 0⟩ ∧
      ((s.hub.client 1).participant.map fun q =>
        (s.hub.admissionReplay q (s.hub.client 1).activeTakeover).length) = some 3) ∧
      ((s.hub.client 1).outbound = [early] ∧ (s.negotiation 1).outbound.length = 0 ∧
        s.inputs 1 = 2) ∧
      (s.hub.client 0).reaper = .idle ∧ (s.hub.client 1).reaper = .idle)) true
    (by decide)
  obtain ⟨⟨hphase, hq, hlength⟩, ⟨hhub, hnegotiation, hinputs⟩, hr₀, hr₁⟩ := of_decide_eq_true ho
  rw [hq] at hlength
  have hkeeps : (lts Hub.sampleConfig).Reachable
      (Keeps fun h l => (l.within 2 && Hub.withinLimit 4 h l) = true) s :=
    hr.mono fun _ l hok => by
      cases l with
      | hub l => exact hok
      | negotiate c l => trivial
  have hlimit : (lts Hub.sampleConfig).Reachable (withinLimit 4) s :=
    hkeeps.mono fun _ l hok => by
      cases l with
      | hub l => exact (Bool.and_eq_true_iff.mp hok).2
      | negotiate c l => trivial
  have hunborn : s.hub.Unborn 2 := by
    obtain ⟨h, rfl, hrun⟩ := reachable_hub_of_keeps hkeeps
    exact hrun.invariant (I := fun h => h.Unborn 2) (Hub.Unborn.tr (Hub.withinLimit 4))
      (Hub.unborn_new _ 2)
  have ho : s.Feeds 1 (Outbound.new.write 0 early) := by
    have hnew : Outbound.lts.Reachable Outbound.Unflushed Outbound.new := .init rfl
    refine ⟨hnew.step (l := .write 0 early) (fun f => Outbound.Label.noConfusion) rfl, ?_, ?_⟩
    · rw [hhub]
      exact List.Sublist.refl _
    · rw [hhub, hnegotiation]
      rfl
  exact ⟨s, _, _, admission_fits (by decide) hlimit hphase hq
    (Hub.not_forgetting hunborn hr₀ hr₁) ho 0 (by rw [hinputs]; decide), rfl,
    Option.some.inj hlength⟩

end Service

end SlowMeet.Signaling
