import SlowMeet.Media.Pacers

/-!
# The retry table

Which requests a section takes out of the table, and how often a request is
written. Only a pacer that asks for a publication it no longer has registered
can take out the request of another one; every other section that acts for a
publication looks first whether it is the one registered.
-/

namespace SlowMeet.Media

open Lib

namespace VideoKeyFrames

variable {k k' : VideoKeyFrames} {pub : PublicationInfo} {key : VideoKeyFrameRequestKey}

/-- The picture-loss indications a request has decided on. -/
def issued (k : VideoKeyFrames) (ref : Nat) : Nat := k.writes.count ref + k.written.count ref

/-- Every request has its address to itself, and its entry has as many writes
left as the count allows. -/
structure Bounded (k : VideoKeyFrames) : Prop where
  minted : ∀ key request, k.retries.lookup key = some request → request.ref < k.fresh
  unique : ∀ key key' request request', k.retries.lookup key = some request →
    k.retries.lookup key' = some request' → request.ref = request'.ref → key = key'
  left : ∀ key request, k.retries.lookup key = some request → 0 < request.remaining
  spent : ∀ key request, k.retries.lookup key = some request →
    k.issued request.ref + request.remaining ≤ videoKeyFrameRequestCount
  unissued : ∀ ref, k.fresh ≤ ref → k.issued ref = 0
  bound : ∀ ref, k.issued ref ≤ videoKeyFrameRequestCount

theorem bounded_new : new.Bounded where
  minted key request h := by cases h
  unique key key' request request' h := by cases h
  left key request h := by cases h
  spent key request h := by cases h
  unissued ref h := rfl
  bound ref := Nat.zero_le _

/-! ## Entries that leave -/

/-- The table has lost entries, and nothing else has changed. -/
structure Shrinks (k k' : VideoKeyFrames) : Prop where
  retries : ∀ key request, k'.retries.lookup key = some request →
    k.retries.lookup key = some request
  writes : k'.writes = k.writes
  written : k'.written = k.written
  fresh : k'.fresh = k.fresh

theorem Shrinks.refl (k : VideoKeyFrames) : k.Shrinks k := ⟨fun _ _ h => h, rfl, rfl, rfl⟩

theorem Shrinks.trans {k'' : VideoKeyFrames} (h : k.Shrinks k') (h' : k'.Shrinks k'') :
    k.Shrinks k'' :=
  ⟨fun key request hrequest => h.retries key request (h'.retries key request hrequest),
    h'.writes.trans h.writes, h'.written.trans h.written, h'.fresh.trans h.fresh⟩

theorem Shrinks.issued (h : k.Shrinks k') (ref : Nat) : k'.issued ref = k.issued ref := by
  unfold VideoKeyFrames.issued
  rw [h.writes, h.written]

theorem Bounded.shrink (hk : k.Bounded) (h : k.Shrinks k') : k'.Bounded where
  minted key request hrequest := by
    rw [h.fresh]
    exact hk.minted key request (h.retries key request hrequest)
  unique key key' request request' hrequest hrequest' :=
    hk.unique key key' request request' (h.retries key request hrequest)
      (h.retries key' request' hrequest')
  left key request hrequest := hk.left key request (h.retries key request hrequest)
  spent key request hrequest := by
    rw [h.issued]
    exact hk.spent key request (h.retries key request hrequest)
  unissued ref hfresh := by
    rw [h.issued]
    exact hk.unissued ref (h.fresh ▸ hfresh)
  bound ref := by
    rw [h.issued]
    exact hk.bound ref

theorem shrinks_erase (k : VideoKeyFrames) (key : VideoKeyFrameRequestKey) :
    k.Shrinks { k with retries := k.retries.erase key } := by
  refine ⟨fun key' request h => ?_, rfl, rfl, rfl⟩
  have hlookup : (k.retries.erase key).lookup key' = some request := h
  rw [GoMap.lookup_erase] at hlookup
  split at hlookup
  · cases hlookup
  · exact hlookup

theorem shrinks_filter (k : VideoKeyFrames)
    (p : VideoKeyFrameRequestKey → VideoKeyFrameRetry → Bool) :
    k.Shrinks { k with retries := GoMap.filterEntries p k.retries } :=
  ⟨fun _ _ h => (GoMap.lookup_filterEntries_eq_some.mp h).1, rfl, rfl, rfl⟩

theorem shrinks_cancelPublisher (k : VideoKeyFrames) (pub : Publication) :
    k.Shrinks (k.cancelVideoKeyFramePublisherRetryWithoutSubscribersLocked pub) := by
  unfold cancelVideoKeyFramePublisherRetryWithoutSubscribersLocked
  split
  · exact .refl k
  · exact shrinks_erase k _

/-- A loop whose rounds only take entries out. -/
theorem shrinks_foldl {α : Type} {f : VideoKeyFrames → α → VideoKeyFrames}
    (hf : ∀ k a, Shrinks k (f k a)) (as : List α) (k : VideoKeyFrames) :
    k.Shrinks (as.foldl f k) := by
  induction as generalizing k with
  | nil => exact .refl k
  | cons a rest ih => exact (hf k a).trans (ih (f k a))

/-- **The sections of the router only cancel.** -/
theorem shrinks_cancel (k : VideoKeyFrames) (m : Plane) (l : Plane.Label) :
    k.Shrinks (k.cancel m l) := by
  cases l with
  | unregister id =>
    apply (shrinks_filter k _).trans
    apply shrinks_foldl
    intro k pub
    split
    · exact shrinks_filter k _
    · exact shrinks_cancelPublisher k _
  | publish sourceID role source remote layer failed =>
    show k.Shrinks (k.publish m.router _ source remote)
    unfold publish
    split
    · split
      · split
        · exact .refl k
        · exact shrinks_filter k _
      · exact .refl k
    · exact .refl k
  | setVideoSubscriptionsWithLayer receiverID ids layer =>
    apply shrinks_foldl
    exact fun k pub => shrinks_cancelPublisher k _
  | unpublish sourceID role =>
    apply shrinks_foldl
    exact fun k pub => shrinks_filter k _
  | readStop index =>
    show k.Shrinks (k.removePublication m.router _)
    unfold removePublication
    split
    · split
      · exact shrinks_filter k _
      · exact .refl k
    · exact .refl k
  | register _ _ _ | setPublicationActive _ _ _ | trackOp _ _ => exact .refl k

/-! ## Requests -/

/-- A request that is new has its entry, and takes the place of another
publication's. -/
theorem schedule_cases (k : VideoKeyFrames) (pub : PublicationInfo)
    (receiverID : Option ParticipantID) :
    (∃ existing, k.retries.lookup ⟨receiverID, pub.key⟩ = some existing ∧
        existing.publication = pub ∧ k.scheduleVideoKeyFrameRetryLocked pub receiverID = k) ∨
      (∀ existing, k.retries.lookup ⟨receiverID, pub.key⟩ = some existing →
        existing.publication ≠ pub) ∧
        k.scheduleVideoKeyFrameRetryLocked pub receiverID = k.enter ⟨receiverID, pub.key⟩ pub := by
  cases hentry : k.retries.lookup ⟨receiverID, pub.key⟩ with
  | none =>
    right
    refine ⟨fun existing h => ?_, ?_⟩
    · cases h
    · simp only [scheduleVideoKeyFrameRetryLocked, hentry]
  | some existing =>
    by_cases hsame : existing.publication = pub
    · left
      refine ⟨existing, rfl, hsame, ?_⟩
      simp only [scheduleVideoKeyFrameRetryLocked, hentry, if_pos hsame]
    · right
      refine ⟨fun other h => ?_, ?_⟩
      · obtain rfl := Option.some.inj h
        exact hsame
      · simp only [scheduleVideoKeyFrameRetryLocked, hentry, if_neg hsame]

theorem issued_enter (k : VideoKeyFrames) (key : VideoKeyFrameRequestKey) (pub : PublicationInfo)
    (ref : Nat) : (k.enter key pub).issued ref = k.issued ref + if ref = k.fresh then 1 else 0 := by
  show (k.writes ++ [k.fresh]).count ref + k.written.count ref = _
  unfold issued
  rw [List.count_append, List.count_singleton]
  by_cases href : ref = k.fresh
  · simp [href]
    omega
  · have hne : ¬ k.fresh = ref := fun h => href h.symm
    simp [href, hne]

theorem Bounded.enter (hk : k.Bounded) (key : VideoKeyFrameRequestKey) (pub : PublicationInfo) :
    (k.enter key pub).Bounded := by
  have hlookup : ∀ key' request, (k.enter key pub).retries.lookup key' = some request →
      key' = key ∧ request = ⟨k.fresh, pub, videoKeyFrameRequestCount - 1⟩ ∨
        key' ≠ key ∧ k.retries.lookup key' = some request := by
    intro key' request h
    have hinsert : (k.retries.insert key ⟨k.fresh, pub, videoKeyFrameRequestCount - 1⟩).lookup key' =
        some request := h
    rw [GoMap.lookup_insert] at hinsert
    by_cases hkey : key' = key
    · rw [if_pos hkey] at hinsert
      exact .inl ⟨hkey, (Option.some.inj hinsert).symm⟩
    · rw [if_neg hkey] at hinsert
      exact .inr ⟨hkey, hinsert⟩
  have hnew : k.issued k.fresh = 0 := hk.unissued _ (Nat.le_refl _)
  constructor
  · intro key' request h
    show request.ref < k.fresh + 1
    rcases hlookup key' request h with ⟨-, rfl⟩ | ⟨-, hold⟩
    · exact Nat.lt_succ_self _
    · exact Nat.lt_succ_of_lt (hk.minted key' request hold)
  · intro key₁ key₂ request₁ request₂ h₁ h₂ href
    rcases hlookup key₁ request₁ h₁ with ⟨rfl, rfl⟩ | ⟨-, hold₁⟩ <;>
      rcases hlookup key₂ request₂ h₂ with ⟨rfl, rfl⟩ | ⟨-, hold₂⟩
    · rfl
    · have hlt := hk.minted key₂ request₂ hold₂
      have heq : k.fresh = request₂.ref := href
      omega
    · have hlt := hk.minted key₁ request₁ hold₁
      have heq : request₁.ref = k.fresh := href
      omega
    · exact hk.unique key₁ key₂ request₁ request₂ hold₁ hold₂ href
  · intro key' request h
    rcases hlookup key' request h with ⟨-, rfl⟩ | ⟨-, hold⟩
    · exact Nat.succ_pos 1
    · exact hk.left key' request hold
  · intro key' request h
    rw [issued_enter]
    rcases hlookup key' request h with ⟨-, rfl⟩ | ⟨-, hold⟩
    · show k.issued k.fresh + (if k.fresh = k.fresh then 1 else 0) + 2 ≤ 3
      rw [hnew, if_pos rfl]
    · have hlt := hk.minted key' request hold
      rw [if_neg (Nat.ne_of_lt hlt)]
      exact hk.spent key' request hold
  · intro ref hfresh
    have hle : k.fresh + 1 ≤ ref := hfresh
    rw [issued_enter, if_neg (by omega), hk.unissued ref (by omega)]
  · intro ref
    rw [issued_enter]
    by_cases href : ref = k.fresh
    · rw [if_pos href, href, hnew]
      decide
    · rw [if_neg href]
      exact hk.bound ref

theorem Bounded.schedule (hk : k.Bounded) (pub : PublicationInfo)
    (receiverID : Option ParticipantID) :
    (k.scheduleVideoKeyFrameRetryLocked pub receiverID).Bounded := by
  rcases k.schedule_cases pub receiverID with ⟨-, -, -, hsame⟩ | ⟨-, henter⟩
  · rw [hsame]
    exact hk
  · rw [henter]
    exact hk.enter _ pub

theorem Bounded.schedules (hk : k.Bounded) (receiverID : Option ParticipantID)
    (pubs : List Publication) :
    (pubs.foldl (fun k pub => k.scheduleVideoKeyFrameRetryLocked pub.info receiverID)
      k).Bounded := by
  induction pubs generalizing k with
  | nil => exact hk
  | cons pub rest ih => exact ih (hk.schedule pub.info receiverID)

/-! ## Callbacks and writes -/

theorem Bounded.write (hk : k.Bounded) {index : Nat} (h : k.write index = some k') :
    k'.Bounded := by
  obtain ⟨ref, href, rfl⟩ := Option.map_eq_some_iff.mp h
  obtain ⟨hlt, rfl⟩ := List.getElem?_eq_some_iff.mp href
  have hissued : ∀ ref, VideoKeyFrames.issued { k with
      writes := k.writes.eraseIdx index
      written := k.written ++ [k.writes[index]] } ref = k.issued ref := by
    intro ref
    show (k.writes.eraseIdx index).count ref + (k.written ++ [k.writes[index]]).count ref = _
    have hperm := (List.getElem_cons_eraseIdx_perm hlt).count_eq ref
    rw [List.count_cons] at hperm
    rw [List.count_append, List.count_singleton]
    unfold VideoKeyFrames.issued
    omega
  exact {
    minted := hk.minted
    unique := hk.unique
    left := hk.left
    spent := fun key request hrequest => by rw [hissued]; exact hk.spent key request hrequest
    unissued := fun ref hfresh => by rw [hissued]; exact hk.unissued ref hfresh
    bound := fun ref => by rw [hissued]; exact hk.bound ref }

/-- One more write of a request, whose entry counts it or is gone. -/
theorem Bounded.reissue (hk : k.Bounded) {request : VideoKeyFrameRetry}
    (hrequest : k.retries.lookup key = some request)
    (hretries : ∀ key' request', k'.retries.lookup key' = some request' →
      key' = key ∧ request' = { request with remaining := request.remaining - 1 } ∧
          request.remaining - 1 ≠ 0 ∨
        key' ≠ key ∧ k.retries.lookup key' = some request')
    (hwrites : k'.writes = k.writes ++ [request.ref]) (hwritten : k'.written = k.written)
    (hfresh : k'.fresh = k.fresh) : k'.Bounded := by
  have hissued : ∀ ref, k'.issued ref = k.issued ref + if ref = request.ref then 1 else 0 := by
    intro ref
    unfold VideoKeyFrames.issued
    rw [hwrites, hwritten, List.count_append, List.count_singleton]
    by_cases href : ref = request.ref
    · simp [href]
      omega
    · have hne : ¬ request.ref = ref := fun h => href h.symm
      simp [href, hne]
  have hminted := hk.minted key request hrequest
  have hleft := hk.left key request hrequest
  have hspent := hk.spent key request hrequest
  constructor
  · intro key' request' h
    rw [hfresh]
    rcases hretries key' request' h with ⟨-, rfl, -⟩ | ⟨-, hold⟩
    · exact hminted
    · exact hk.minted key' request' hold
  · intro key₁ key₂ request₁ request₂ h₁ h₂ href
    rcases hretries key₁ request₁ h₁ with ⟨rfl, rfl, -⟩ | ⟨hne₁, hold₁⟩ <;>
      rcases hretries key₂ request₂ h₂ with ⟨rfl, rfl, -⟩ | ⟨hne₂, hold₂⟩
    · rfl
    · exact hk.unique _ key₂ request request₂ hrequest hold₂ href
    · exact hk.unique key₁ _ request₁ request hold₁ hrequest href
    · exact hk.unique key₁ key₂ request₁ request₂ hold₁ hold₂ href
  · intro key' request' h
    rcases hretries key' request' h with ⟨-, rfl, hleft'⟩ | ⟨-, hold⟩
    · exact Nat.pos_of_ne_zero hleft'
    · exact hk.left key' request' hold
  · intro key' request' h
    rw [hissued]
    rcases hretries key' request' h with ⟨-, rfl, -⟩ | ⟨hne, hold⟩
    · show k.issued request.ref + (if request.ref = request.ref then 1 else 0) +
        (request.remaining - 1) ≤ _
      rw [if_pos rfl]
      omega
    · have href : request'.ref ≠ request.ref := fun heq =>
        hne (hk.unique key' key request' request hold hrequest heq)
      rw [if_neg href]
      exact hk.spent key' request' hold
  · intro ref hle
    rw [hfresh] at hle
    rw [hissued, if_neg (by omega)]
    exact hk.unissued ref hle
  · intro ref
    rw [hissued]
    by_cases href : ref = request.ref
    · subst href
      rw [if_pos rfl]
      omega
    · rw [if_neg href]
      exact hk.bound ref

theorem Bounded.retry (hk : k.Bounded) (r : Router) (key : VideoKeyFrameRequestKey) (ref : Nat) :
    (k.retryVideoKeyFrame r key ref).Bounded := by
  unfold retryVideoKeyFrame
  split
  · exact hk
  next request hrequest =>
  by_cases href : request.ref = ref
  · subst href
    rw [if_neg (fun h => h rfl)]
    by_cases hsubscriber : hasSubscriber r key request.publication = true
    · rw [if_pos hsubscriber]
      by_cases hlast : request.remaining - 1 = 0
      · rw [if_pos hlast]
        refine hk.reissue hrequest (fun key' request' h => ?_) rfl rfl rfl
        have hlookup : (k.retries.erase key).lookup key' = some request' := h
        rw [GoMap.lookup_erase] at hlookup
        by_cases hkey : key' = key
        · rw [if_pos hkey] at hlookup
          cases hlookup
        · rw [if_neg hkey] at hlookup
          exact .inr ⟨hkey, hlookup⟩
      · rw [if_neg hlast]
        refine hk.reissue hrequest (fun key' request' h => ?_) rfl rfl rfl
        have hlookup : (k.retries.insert key
            { request with remaining := request.remaining - 1 }).lookup key' = some request' := h
        rw [GoMap.lookup_insert] at hlookup
        by_cases hkey : key' = key
        · rw [if_pos hkey] at hlookup
          exact .inl ⟨hkey, (Option.some.inj hlookup).symm, hlast⟩
        · rw [if_neg hkey] at hlookup
          exact .inr ⟨hkey, hlookup⟩
    · rw [if_neg hsubscriber]
      exact hk.shrink (k.shrinks_erase key)
  · rw [if_pos href]
    exact hk

theorem Bounded.fire (hk : k.Bounded) {r : Router} {index : Nat} (h : k.fire r index = some k') :
    k'.Bounded := by
  obtain ⟨timer, -, rfl⟩ := Option.map_eq_some_iff.mp h
  have hfired : Bounded { k with timers := k.timers.eraseIdx index } :=
    ⟨hk.minted, hk.unique, hk.left, hk.spent, hk.unissued, hk.bound⟩
  exact hfired.retry r timer.1 timer.2

end VideoKeyFrames

namespace Forwarding

variable {s t : Forwarding} {l : Label}

/-! ## One step -/

theorem step_eq_some (hstep : s.step l = some t) : ∃ u, s.section_ l = some u ∧ t = s.record l u := by
  obtain ⟨u, hu, rfl⟩ := Option.map_eq_some_iff.mp hstep
  exact ⟨u, hu, rfl⟩

/-- **A section keeps the count of every request.** -/
theorem bounded_step (hs : s.keyFrames.Bounded) (hstep : s.step l = some t) :
    t.keyFrames.Bounded := by
  obtain ⟨u, hu, rfl⟩ := step_eq_some hstep
  show u.keyFrames.Bounded
  cases l with
  | router l =>
    obtain ⟨plane, -, rfl⟩ := Option.map_eq_some_iff.mp hu
    exact hs.shrink (s.keyFrames.shrinks_cancel s.plane l)
  | packet index now =>
    obtain ⟨info, -, rfl⟩ := Option.map_eq_some_iff.mp hu
    exact hs
  | resolve index now =>
    obtain ⟨pacer, -, hu⟩ := Option.bind_eq_some_iff.mp hu
    split at hu <;> cases hu
    exact hs
  | sent index =>
    obtain ⟨pacer, -, hu⟩ := Option.bind_eq_some_iff.mp hu
    split at hu <;> cases hu
    exact hs
  | request index =>
    obtain ⟨pacer, -, hu⟩ := Option.bind_eq_some_iff.mp hu
    split at hu <;> cases hu
    exact hs.schedule _ _
  | stop index =>
    obtain ⟨pacer, -, hu⟩ := Option.bind_eq_some_iff.mp hu
    split at hu
    · cases hu
    · split at hu <;> cases hu
      exact hs
  | requestVideoKeyFrame receiverID =>
    cases hu
    exact hs.schedules _ _
  | requestVideoKeyFrameForPublisher sourceID =>
    cases hu
    exact hs.schedules _ _
  | retry index =>
    obtain ⟨keyFrames, hfire, rfl⟩ := Option.map_eq_some_iff.mp hu
    exact hs.fire hfire
  | write index =>
    obtain ⟨keyFrames, hwrite, rfl⟩ := Option.map_eq_some_iff.mp hu
    exact hs.write hwrite

theorem bounded_of_reachable {ok : Forwarding → Label → Prop} (hr : lts.Reachable ok s) :
    s.keyFrames.Bounded :=
  hr.invariant_ofStep (I := fun s => s.keyFrames.Bounded) VideoKeyFrames.bounded_new
    fun _ _ _ hs _ hstep => bounded_step hs hstep

/-! ## What is lost -/

/-- The publication is registered, or no retry of a registered one is pending
for the receiver under its key. -/
def undisturbed (s : Forwarding) (info : PublicationInfo) (receiverID : ParticipantID) : Bool :=
  s.registered info ||
    ((s.keyFrames.retries.lookup ⟨some receiverID, info.key⟩).filter
      fun existing => s.registered existing.publication).isNone

/-- A pacer asks only for an undisturbed publication. -/
def asksUndisturbed (s : Forwarding) : Label → Bool
  | .request index =>
    match s.pacers[index]? with
    | some ⟨info, .requesting (receiverID :: _)⟩ => s.undisturbed info receiverID
    | _ => true
  | _ => true

theorem mem_lostBy {request : VideoKeyFrameRetry} :
    request ∈ s.lostBy l t ↔ ∃ info key, s.onBehalf l = some info ∧ s.registered info = false ∧
      s.keyFrames.retries.lookup key = some request ∧ s.registered request.publication = true ∧
      (t.keyFrames.retries.lookup key).map (·.ref) ≠ some request.ref := by
  unfold lostBy
  cases hfor : s.onBehalf l with
  | none => simp
  | some info =>
    dsimp only
    by_cases hregistered : s.registered info = true
    · rw [if_pos hregistered]
      simp [hregistered]
    · rw [if_neg hregistered]
      simp only [List.mem_map, List.mem_filter, Bool.and_eq_true, decide_eq_true_eq]
      constructor
      · rintro ⟨⟨key, request⟩, ⟨hmem, hlost⟩, rfl⟩
        exact ⟨info, key, rfl, by simpa using hregistered, GoMap.mem_pairs.mp hmem, hlost⟩
      · rintro ⟨_, key, _, -, hmem, hlost⟩
        exact ⟨(key, request), ⟨GoMap.mem_pairs.mpr hmem, hlost⟩, rfl⟩

theorem lostBy_eq_nil (h : ∀ info key request, s.onBehalf l = some info →
    s.registered info = false → s.keyFrames.retries.lookup key = some request →
    s.registered request.publication = true →
    (t.keyFrames.retries.lookup key).map (·.ref) = some request.ref) : s.lostBy l t = [] := by
  rw [List.eq_nil_iff_forall_not_mem]
  intro request hmem
  obtain ⟨info, key, hfor, hgone, hentry, hregistered, hlost⟩ := mem_lostBy.mp hmem
  exact hlost (h info key request hfor hgone hentry hregistered)

/-- A section that leaves the table as it is loses nothing. -/
theorem lostBy_of_eq (h : t.keyFrames.retries = s.keyFrames.retries) : s.lostBy l t = [] := by
  apply lostBy_eq_nil
  intro info key request _ _ hentry _
  rw [h, hentry]
  rfl

theorem lostBy_of_none (h : s.onBehalf l = none) : s.lostBy l t = [] := by
  unfold lostBy
  rw [h]

theorem lostBy_readStop {index : Nat} (hu : s.section_ (.router (.readStop index)) = some t) :
    s.lostBy (.router (.readStop index)) t = [] := by
  obtain ⟨plane, -, rfl⟩ := Option.map_eq_some_iff.mp hu
  apply lostBy_eq_nil
  intro info key request hfor hgone hentry _
  have hcancel : s.keyFrames.cancel s.plane (.readStop index) = s.keyFrames := by
    have hforward : s.plane.forwards[index]? = some info := hfor
    have hnone : (s.plane.router.current info).isSome = false := hgone
    show s.keyFrames.removePublication s.plane.router s.plane.forwards[index]? = s.keyFrames
    rw [hforward]
    simp [VideoKeyFrames.removePublication, hnone]
  show ((s.keyFrames.cancel s.plane (.readStop index)).retries.lookup key).map (·.ref) = _
  rw [hcancel, hentry]
  rfl

/-- A callback looks whether its publication is registered before it acts. -/
theorem lostBy_retry {index : Nat} (hu : s.section_ (.retry index) = some t) :
    s.lostBy (.retry index) t = [] := by
  obtain ⟨keyFrames, hfire, rfl⟩ := Option.map_eq_some_iff.mp hu
  obtain ⟨timer, htimer, rfl⟩ := Option.map_eq_some_iff.mp hfire
  apply lostBy_eq_nil
  intro info key request hfor hgone hentry hregistered
  -- The callback's own request is the one found, and it is not registered.
  have howns : (s.keyFrames.timers[index]?).bind (fun timer =>
      ((s.keyFrames.retries.lookup timer.1).filter fun request => request.ref = timer.2).map
        (·.publication)) = some info := hfor
  rw [htimer, Option.bind_some, Option.map_eq_some_iff] at howns
  obtain ⟨own, hown, rfl⟩ := howns
  rw [Option.filter_eq_some_iff, decide_eq_true_eq] at hown
  have hne : key ≠ timer.1 := by
    rintro rfl
    rw [hown.1] at hentry
    obtain rfl := Option.some.inj hentry
    rw [hgone] at hregistered
    cases hregistered
  have hnobody : VideoKeyFrames.hasSubscriber s.plane.router timer.1 own.publication = false := by
    have hnone : s.plane.router.current own.publication = none := by
      rw [← Option.isNone_iff_eq_none, ← Option.isSome_eq_false_iff]
      exact hgone
    unfold VideoKeyFrames.hasSubscriber
    rw [hnone]
  show (AList.lookup key (VideoKeyFrames.retryVideoKeyFrame _ _ _ _).retries).map (·.ref) = _
  unfold VideoKeyFrames.retryVideoKeyFrame
  simp only [hown.1, hown.2, ne_eq, not_true_eq_false, if_false, hnobody, Bool.false_eq_true]
  rw [GoMap.lookup_erase, if_neg hne, hentry]
  rfl

/-- **What a pacer's request takes out of the table**: the retry it finds, when
that is one of a registered publication and its own is not registered. -/
theorem lostBy_request_iff (hs : s.keyFrames.Bounded) {index : Nat}
    (hu : s.section_ (.request index) = some t) :
    s.lostBy (.request index) t = [] ↔ s.asksUndisturbed (.request index) = true := by
  obtain ⟨⟨info, phase⟩, hpacer, hu⟩ := Option.bind_eq_some_iff.mp hu
  dsimp only at hu
  split at hu
  case h_2 => cases hu
  next receiverID rest =>
  obtain rfl := Option.some.inj hu
  have hasks : s.asksUndisturbed (.request index) = s.undisturbed info receiverID := by
    simp only [asksUndisturbed, hpacer]
  have hfor : s.onBehalf (.request index) = some info := by
    show (s.pacers[index]?).map (·.publication) = some info
    rw [hpacer]
    rfl
  rw [hasks]
  unfold undisturbed
  cases hregistered : s.registered info with
  | true => simp [lostBy, hfor, hregistered]
  | false =>
    rw [Bool.false_or, Option.isNone_iff_eq_none]
    rcases s.keyFrames.schedule_cases info (some receiverID) with
      ⟨existing, hentry, hown, hsame⟩ | ⟨-, henter⟩
    · -- The request is already pending.
      constructor
      · intro _
        rw [hentry, Option.filter_some, hown, hregistered]
        rfl
      · intro _
        apply lostBy_of_eq
        show (s.keyFrames.scheduleVideoKeyFrameRetryLocked info (some receiverID)).retries = _
        rw [hsame]
    · -- It is new, and replaces what is under its key.
      have hlookup : ∀ key, ((setPacer { s with
          keyFrames := s.keyFrames.requestVideoKeyFrameForPublication info receiverID } index
            ⟨info, .requesting (receiverID :: rest)⟩
            (PacerPhase.rest rest)).keyFrames.retries.lookup key).map (·.ref) =
          if key = ⟨some receiverID, info.key⟩ then some s.keyFrames.fresh
          else (s.keyFrames.retries.lookup key).map (·.ref) := by
        intro key
        show ((s.keyFrames.scheduleVideoKeyFrameRetryLocked info
          (some receiverID)).retries.lookup key).map (·.ref) = _
        rw [henter]
        show ((s.keyFrames.retries.insert _ _).lookup key).map (·.ref) = _
        rw [GoMap.lookup_insert]
        split <;> rfl
      constructor
      · intro hnothing
        by_contra hsome
        obtain ⟨existing, hexisting⟩ := Option.ne_none_iff_exists'.mp hsome
        obtain ⟨hentry, hcurrent⟩ := Option.filter_eq_some_iff.mp hexisting
        have hlost : existing ∈ s.lostBy (.request index) _ :=
          mem_lostBy.mpr ⟨info, _, hfor, hregistered, hentry, hcurrent, by
            rw [hlookup, if_pos rfl]
            intro heq
            exact Nat.ne_of_gt (hs.minted _ existing hentry) (Option.some.inj heq)⟩
        rw [hnothing] at hlost
        cases hlost
      · intro hnone
        apply lostBy_eq_nil
        intro info' key request hfor' _ hentry hcurrent
        rw [hlookup]
        by_cases hkey : key = ⟨some receiverID, info.key⟩
        · rw [← hkey, hentry, Option.filter_some, hcurrent] at hnone
          cases hnone
        · rw [if_neg hkey, hentry]
          rfl

/-- **Only a pacer's request for a publication it no longer has registered
loses a retry of a registered one.** -/
theorem lostBy_eq_nil_iff (hs : s.keyFrames.Bounded) (hu : s.section_ l = some t) :
    s.lostBy l t = [] ↔ s.asksUndisturbed l = true := by
  by_cases hrequest : ∃ index, l = .request index
  · obtain ⟨index, rfl⟩ := hrequest
    exact lostBy_request_iff hs hu
  · have hasks : s.asksUndisturbed l = true := by
      unfold asksUndisturbed
      split
      · exact absurd ⟨_, rfl⟩ hrequest
      · rfl
    refine ⟨fun _ => hasks, fun _ => ?_⟩
    cases l with
    | router l =>
      cases l with
      | readStop index => exact lostBy_readStop hu
      | _ => exact lostBy_of_none rfl
    | retry index => exact lostBy_retry hu
    | request index => exact absurd ⟨index, rfl⟩ hrequest
    | requestVideoKeyFrame _ | requestVideoKeyFrameForPublisher _ | write _ =>
      exact lostBy_of_none rfl
    | packet index now =>
      obtain ⟨info, -, rfl⟩ := Option.map_eq_some_iff.mp hu
      exact lostBy_of_eq rfl
    | resolve index now =>
      obtain ⟨pacer, -, hu⟩ := Option.bind_eq_some_iff.mp hu
      split at hu <;> cases hu
      exact lostBy_of_eq rfl
    | sent index =>
      obtain ⟨pacer, -, hu⟩ := Option.bind_eq_some_iff.mp hu
      split at hu <;> cases hu
      exact lostBy_of_eq rfl
    | stop index =>
      obtain ⟨pacer, -, hu⟩ := Option.bind_eq_some_iff.mp hu
      split at hu
      · cases hu
      · split at hu <;> cases hu
        exact lostBy_of_eq rfl

theorem lost_step (hs : s.keyFrames.Bounded) (hstep : s.step l = some t) :
    t.ledger.lost = [] ↔ s.ledger.lost = [] ∧ s.asksUndisturbed l = true := by
  obtain ⟨u, hu, rfl⟩ := step_eq_some hstep
  show s.ledger.lost ++ s.lostBy l u = [] ↔ _
  rw [List.append_eq_nil_iff, lostBy_eq_nil_iff hs hu]

/-- **The retry table**: in a run no retry of a registered publication is lost
on behalf of another one exactly when its pacers ask undisturbed, and no
request is written more often than the count. -/
theorem lost_eq_nil_iff_asksUndisturbed (hr : lts.Reachable Lts.Any s) :
    (s.ledger.lost = [] ↔ lts.Reachable (fun s l => s.asksUndisturbed l = true) s) ∧
      ∀ ref, s.keyFrames.written.count ref ≤ videoKeyFrameRequestCount := by
  constructor
  · constructor
    · intro hnone
      refine hr.restrict (P := fun s => s.ledger.lost = []) ?_ hnone
      intro s l t hbefore _ htr hnone
      exact (lost_step (bounded_of_reachable hbefore) htr).mp hnone
    · intro hasks
      refine Lts.Reachable.invariant_of (I := fun s => s.ledger.lost = [])
        (fun _ hr => bounded_of_reachable hr) ?_ ?_ hasks
      · rintro _ rfl
        rfl
      · intro s l t hs _ hnone hok htr
        exact (lost_step hs htr).mpr ⟨hnone, hok⟩
  · intro ref
    have hbound := (bounded_of_reachable hr).bound ref
    unfold VideoKeyFrames.issued at hbound
    omega

/-- A camera's low layer. -/
def lowTrack (ref : Nat) (ssrc : UInt32) : TrackRemote :=
  ⟨ref, ssrc, .video, ⟨"video/VP8", 90000, 0, ""⟩, "stream", "track", "q"⟩

/-- Two participants; the second publishes its camera's low layer, to which
the first is subscribed. -/
def lowLayer : List Label :=
  [.router (.register 1 10 (some 1)), .router (.register 2 20 (some 2)),
    .router (.publish 2 .camera (some 20) (some (lowTrack 0 7)) (some .low) ∅)] ++
    List.replicate 5 (.router (.trackOp 0 true))

/-- The first frame of a layer is asked a key frame for. -/
theorem lost_eq_nil_iff_asksUndisturbed_firstFrame : ∃ s, lts.Reachable Lts.Any s ∧
    ((s.ledger.lost = [] ↔ lts.Reachable (fun s l => s.asksUndisturbed l = true) s) ∧
      ∀ ref, s.keyFrames.written.count ref ≤ videoKeyFrameRequestCount) ∧
    s.ledger.lost = [] ∧ s.keyFrames.written = [0] := by
  obtain ⟨s, hr, ho⟩ := Lts.exists_reachable_of_exec Lts.Any step new
    (lowLayer ++ [.packet 0 1, .resolve 0 1, .sent 0, .request 0, .write 0])
    (fun s => (s.ledger.lost.isEmpty, s.keyFrames.written)) (true, [0]) (fun _ _ _ => trivial)
    (by decide)
  simp only [Prod.mk.injEq, List.isEmpty_iff] at ho
  exact ⟨s, hr, lost_eq_nil_iff_asksUndisturbed hr, ho.1, ho.2⟩

/-- A camera is switched while its pacer sends a frame. The receiver's request
reaches the new publication; then the old pacer's takes its place. -/
theorem lost_of_replacedPublication : ∃ s, lts.Reachable Lts.Any s ∧ s.ledger.lost ≠ [] := by
  obtain ⟨s, hr, ho⟩ := Lts.exists_reachable_of_exec Lts.Any step new
    (lowLayer ++ [.packet 0 1, .resolve 0 1,
      .router (.publish 2 .camera (some 20) (some (lowTrack 1 8)) (some .low) ∅),
      .requestVideoKeyFrame 1, .sent 0, .request 0])
    (fun s => s.ledger.lost.map (·.ref)) [0] (fun _ _ _ => trivial) (by decide)
  refine ⟨s, hr, fun hnone => ?_⟩
  rw [hnone] at ho
  cases ho

end Forwarding

end SlowMeet.Media
