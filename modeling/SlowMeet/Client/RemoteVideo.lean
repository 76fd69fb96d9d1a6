import Mathlib.Data.List.Nodup
import Mathlib.Logic.Function.Basic
import SlowMeet.Lib.Lts

/-!
# Remote cameras on the page's video elements

The binder of `web/js/remote-camera-video.js`. A binding shows a track on a
video by a stream of its own and listens to the track and to the video; the
listeners go when the video is bound again, is cleared, or the track ends, an
event that finds whatever the video shows by then. Playback is not modelled.
-/

namespace SlowMeet.Client

open Lib

/-- A binding: its stream is made for it alone. -/
structure VideoBinding where
  stream : Nat
  track : Nat
  video : Nat
  deriving DecidableEq, Repr

/-- `video.srcObject`: a stream of a binder, or one the page sets itself. -/
inductive VideoSource
  | bound (stream : Nat)
  | other (stream : Nat)
  deriving DecidableEq, Repr

structure RemoteVideo where
  srcObject : Nat → Option VideoSource
  activeBindings : Nat → Option VideoBinding
  /-- The bindings whose listeners are attached, for each event. -/
  unmute : List VideoBinding
  ended : List VideoBinding
  loadedmetadata : List VideoBinding
  streams : Nat
  /-- The bindings whose `onEnded` was called. -/
  cleared : List VideoBinding

namespace RemoteVideo

def start : RemoteVideo where
  srcObject _ := none
  activeBindings _ := none
  unmute := []
  ended := []
  loadedmetadata := []
  streams := 0
  cleared := []

variable (s : RemoteVideo)

def setSource (video : Nat) (source : Option VideoSource) : RemoteVideo :=
  { s with srcObject := Function.update s.srcObject video source }

def detachListeners (binding : VideoBinding) : RemoteVideo :=
  { s with
    unmute := s.unmute.erase binding
    ended := s.ended.erase binding
    loadedmetadata := s.loadedmetadata.erase binding
    activeBindings :=
      if s.activeBindings binding.video = some binding then
        Function.update s.activeBindings binding.video none
      else s.activeBindings }

/-- The listeners of a video's binding, if it has one, are detached. -/
def detachPrevious (video : Nat) : RemoteVideo :=
  match s.activeBindings video with
  | some previousBinding => s.detachListeners previousBinding
  | none => s

def attach (binding : VideoBinding) : RemoteVideo :=
  { s with
    srcObject := Function.update s.srcObject binding.video (some (.bound binding.stream))
    unmute := binding :: s.unmute
    ended := binding :: s.ended
    loadedmetadata := binding :: s.loadedmetadata
    activeBindings := Function.update s.activeBindings binding.video (some binding)
    streams := s.streams + 1 }

/-- `bindRemoteCameraTrack`. -/
def bindTrack (video track : Nat) : RemoteVideo :=
  (s.detachPrevious video).attach ⟨s.streams, track, video⟩

/-- `clearOnEnded`. -/
def clearOnEnded (binding : VideoBinding) : RemoteVideo :=
  if s.srcObject binding.video ≠ some (.bound binding.stream) then s.detachListeners binding
  else
    { (s.detachListeners binding).setSource binding.video none with
      cleared := s.cleared ++ [binding] }

/-- The event `ended` of a track reaches the listeners that were attached. -/
def trackEnded (track : Nat) : RemoteVideo :=
  -- a listener detaches no other one, so that all of these are called
  (s.ended.filter fun binding => binding.track = track).foldl clearOnEnded s

/-- `bindRemoteCameraTrack.clear`. -/
def clearRemoteCameraTrack (video : Nat) : RemoteVideo :=
  match s.activeBindings video with
  | none => s
  | some binding =>
    if s.srcObject video = some (.bound binding.stream) then
      (s.detachListeners binding).setSource video none
    else s.detachListeners binding

inductive Label
  | bindTrack (video track : Nat)
  | trackEnded (track : Nat)
  | clear (video : Nat)
  /-- `loadedmetadata`, whose listeners are called once. -/
  | loadedmetadata (video : Nat)
  /-- The page shows something else, or nothing. -/
  | setSource (video : Nat) (stream : Option Nat)

def step : Label → Option RemoteVideo
  | .bindTrack video track => some (s.bindTrack video track)
  | .trackEnded track => some (s.trackEnded track)
  | .clear video => some (s.clearRemoteCameraTrack video)
  | .loadedmetadata video =>
    some { s with
      loadedmetadata := s.loadedmetadata.filter fun binding => binding.video ≠ video }
  | .setSource video stream => some (s.setSource video (stream.map .other))

def lts : Lts RemoteVideo Label := Lts.ofStep start step

/-! ## What every step keeps -/

variable {s} {t : RemoteVideo} {binding other : VideoBinding} {video track stream : Nat}

/-- The listeners attached are those of the active bindings, one binding a
video, and a video that shows a stream of a binder has its binding. -/
structure Attached (s : RemoteVideo) : Prop where
  unmute : ∀ binding, binding ∈ s.unmute ↔ s.activeBindings binding.video = some binding
  ended : ∀ binding, binding ∈ s.ended ↔ s.activeBindings binding.video = some binding
  loadedmetadata : ∀ binding ∈ s.loadedmetadata, s.activeBindings binding.video = some binding
  nodup : s.unmute.Nodup ∧ s.ended.Nodup ∧ s.loadedmetadata.Nodup
  video : ∀ video binding, s.activeBindings video = some binding → binding.video = video
  fresh : ∀ video binding, s.activeBindings video = some binding → binding.stream < s.streams
  stream : ∀ video video' binding binding', s.activeBindings video = some binding →
    s.activeBindings video' = some binding' → binding.stream = binding'.stream →
    binding = binding'
  shown : ∀ video stream, s.srcObject video = some (.bound stream) →
    ∃ binding, s.activeBindings video = some binding ∧ binding.stream = stream

theorem attached_start : start.Attached where
  unmute _ := by simp [start]
  ended _ := by simp [start]
  loadedmetadata _ h := by cases h
  nodup := ⟨List.nodup_nil, List.nodup_nil, List.nodup_nil⟩
  video _ _ h := by cases h
  fresh _ _ h := by cases h
  stream _ _ _ _ h := by cases h
  shown _ _ h := by cases h

/-- The active bindings after the listeners of an active one are detached. -/
theorem activeBindings_detach (h : s.activeBindings binding.video = some binding) (video : Nat) :
    (s.detachListeners binding).activeBindings video =
      if video = binding.video then none else s.activeBindings video := by
  unfold detachListeners
  dsimp only
  rw [if_pos h, Function.update_apply]

/-- Detaching an active binding keeps everything but what its video shows. -/
theorem Attached.detach (h : s.Attached) (hactive : s.activeBindings binding.video = some binding)
    {source : Option VideoSource} (hsource : ∀ stream, source ≠ some (.bound stream)) :
    ((s.detachListeners binding).setSource binding.video source).Attached := by
  have hafter := activeBindings_detach hactive
  have hmem : ∀ other, other ≠ binding ∧ s.activeBindings other.video = some other ↔
      (s.detachListeners binding).activeBindings other.video = some other := by
    intro other
    rw [hafter]
    constructor
    · rintro ⟨hne, hother⟩
      rw [if_neg, hother]
      intro hvideo
      rw [hvideo, hactive] at hother
      exact hne (Option.some.inj hother).symm
    · intro hother
      split_ifs at hother with hvideo
      refine ⟨?_, hother⟩
      rintro rfl
      exact hvideo rfl
  have hkept : ∀ video binding', (s.detachListeners binding).activeBindings video = some binding' →
      s.activeBindings video = some binding' := by
    intro video binding' hvideo
    rw [hafter] at hvideo
    split_ifs at hvideo
    exact hvideo
  obtain ⟨hunmute, hended, hmetadata⟩ := h.nodup
  refine ⟨?_, ?_, ?_, ⟨hunmute.erase _, hended.erase _, hmetadata.erase _⟩, ?_, ?_, ?_, ?_⟩
  · intro other
    show other ∈ s.unmute.erase binding ↔ _
    rw [hunmute.mem_erase_iff, h.unmute]
    exact hmem other
  · intro other
    show other ∈ s.ended.erase binding ↔ _
    rw [hended.mem_erase_iff, h.ended]
    exact hmem other
  · intro other hother
    have hother' : other ∈ s.loadedmetadata.erase binding := hother
    rw [hmetadata.mem_erase_iff] at hother'
    exact (hmem other).mp ⟨hother'.1, h.loadedmetadata other hother'.2⟩
  · exact fun video binding' hvideo => h.video video binding' (hkept video binding' hvideo)
  · exact fun video binding' hvideo => h.fresh video binding' (hkept video binding' hvideo)
  · intro video video' first second hfirst hsecond
    exact h.stream video video' first second (hkept video first hfirst)
      (hkept video' second hsecond)
  · intro video stream hshown
    have hshown' : Function.update s.srcObject binding.video source video =
        some (.bound stream) := hshown
    rw [Function.update_apply] at hshown'
    split_ifs at hshown' with hvideo
    · exact absurd hshown' (hsource stream)
    · obtain ⟨binding', hbinding', hstream⟩ := h.shown video stream hshown'
      refine ⟨binding', ?_, hstream⟩
      show (s.detachListeners binding).activeBindings video = some binding'
      rw [hafter, if_neg hvideo]
      exact hbinding'

/-- A detached binding whose video shows something else. -/
theorem Attached.detach_other (h : s.Attached)
    (hactive : s.activeBindings binding.video = some binding)
    (hshown : s.srcObject binding.video ≠ some (.bound binding.stream)) :
    (s.detachListeners binding).Attached := by
  have hsource : ∀ stream, s.srcObject binding.video ≠ some (.bound stream) := by
    intro stream hstream
    obtain ⟨binding', hbinding', rfl⟩ := h.shown _ _ hstream
    rw [hactive] at hbinding'
    obtain rfl := Option.some.inj hbinding'
    exact hshown hstream
  have hdetached := h.detach hactive hsource
  have hsame : (s.detachListeners binding).setSource binding.video (s.srcObject binding.video) =
      s.detachListeners binding := by
    unfold setSource
    have hupdate : Function.update (s.detachListeners binding).srcObject binding.video
        (s.srcObject binding.video) = (s.detachListeners binding).srcObject :=
      Function.update_eq_self _ _
    rw [hupdate]
  rw [hsame] at hdetached
  exact hdetached

/-- The listeners do not depend on whom `onEnded` was called for. -/
theorem Attached.cleared (h : s.Attached) (cleared : List VideoBinding) :
    Attached { s with cleared := cleared } :=
  ⟨h.unmute, h.ended, h.loadedmetadata, h.nodup, h.video, h.fresh, h.stream, h.shown⟩

theorem Attached.clearOnEnded (h : s.Attached)
    (hactive : s.activeBindings binding.video = some binding) :
    (s.clearOnEnded binding).Attached := by
  unfold RemoteVideo.clearOnEnded
  split_ifs with hshown
  · exact h.detach_other hactive hshown
  · exact (h.detach hactive fun _ hnone => by cases hnone).cleared _

theorem Attached.attach (h : s.Attached) (hfree : s.activeBindings video = none) (track : Nat) :
    (s.attach ⟨s.streams, track, video⟩).Attached := by
  have hafter : ∀ other, (s.attach ⟨s.streams, track, video⟩).activeBindings other =
      if other = video then some ⟨s.streams, track, video⟩ else s.activeBindings other := by
    intro other
    show Function.update s.activeBindings video _ other = _
    rw [Function.update_apply]
  have hfreshly : ∀ other binding, s.activeBindings other = some binding → other ≠ video := by
    rintro other binding hother rfl
    rw [hfree] at hother
    cases hother
  have hnew : ∀ listeners : List VideoBinding,
      (∀ binding ∈ listeners, s.activeBindings binding.video = some binding) →
      (⟨s.streams, track, video⟩ : VideoBinding) ∉ listeners := by
    intro listeners hlisteners hmem
    have hactive := hlisteners _ hmem
    rw [hfree] at hactive
    cases hactive
  have hmem : ∀ other : VideoBinding, (other = ⟨s.streams, track, video⟩ ∨
      s.activeBindings other.video = some other) ↔
        (s.attach ⟨s.streams, track, video⟩).activeBindings other.video = some other := by
    intro other
    rw [hafter]
    constructor
    · rintro (rfl | hother)
      · rw [if_pos rfl]
      · rw [if_neg (hfreshly _ _ hother), hother]
    · intro hother
      split_ifs at hother
      · exact Or.inl (Option.some.inj hother).symm
      · exact Or.inr hother
  obtain ⟨hunmute, hended, hmetadata⟩ := h.nodup
  refine ⟨?_, ?_, ?_, ⟨?_, ?_, ?_⟩, ?_, ?_, ?_, ?_⟩
  · intro other
    show other ∈ _ :: s.unmute ↔ _
    rw [List.mem_cons, h.unmute]
    exact hmem other
  · intro other
    show other ∈ _ :: s.ended ↔ _
    rw [List.mem_cons, h.ended]
    exact hmem other
  · intro other hother
    have hother' : other ∈ _ :: s.loadedmetadata := hother
    rw [List.mem_cons] at hother'
    exact (hmem other).mp (hother'.imp_right (h.loadedmetadata other))
  · exact List.nodup_cons.mpr ⟨hnew _ fun b hb => (h.unmute b).mp hb, hunmute⟩
  · exact List.nodup_cons.mpr ⟨hnew _ fun b hb => (h.ended b).mp hb, hended⟩
  · exact List.nodup_cons.mpr ⟨hnew _ h.loadedmetadata, hmetadata⟩
  · intro other binding hother
    rw [hafter] at hother
    split_ifs at hother with hsame
    · obtain rfl := Option.some.inj hother
      exact hsame.symm
    · exact h.video other binding hother
  · intro other binding hother
    show binding.stream < s.streams + 1
    rw [hafter] at hother
    split_ifs at hother
    · obtain rfl := Option.some.inj hother
      exact Nat.lt_succ_self _
    · have hlt := h.fresh other binding hother
      omega
  · -- the new stream is no other binding's
    intro other other' first second hfirst hsecond hsame
    rw [hafter] at hfirst hsecond
    split_ifs at hfirst hsecond
    · exact (Option.some.inj hfirst).symm.trans (Option.some.inj hsecond)
    · obtain rfl := Option.some.inj hfirst
      exact absurd hsame.symm (Nat.ne_of_lt (h.fresh other' second hsecond))
    · obtain rfl := Option.some.inj hsecond
      exact absurd hsame (Nat.ne_of_lt (h.fresh other first hfirst))
    · exact h.stream other other' first second hfirst hsecond hsame
  · intro other stream hshown
    have hshown' : Function.update s.srcObject video (some (.bound s.streams)) other =
        some (.bound stream) := hshown
    rw [Function.update_apply] at hshown'
    rw [hafter]
    split_ifs at hshown' ⊢ with hsame
    · have hstream : s.streams = stream := by simpa using hshown'
      exact ⟨_, rfl, hstream⟩
    · exact h.shown other stream hshown'

theorem attach_setSource (source : Option VideoSource) :
    (s.setSource binding.video source).attach binding = s.attach binding := by
  unfold attach setSource
  dsimp only
  rw [Function.update_idem]

theorem Attached.bindTrack (h : s.Attached) (video track : Nat) :
    (s.bindTrack video track).Attached := by
  unfold RemoteVideo.bindTrack detachPrevious
  cases hactive : s.activeBindings video with
  | none => exact h.attach hactive track
  | some previous =>
    have hvideo := h.video video previous hactive
    subst hvideo
    have hdetached : ((s.detachListeners previous).setSource previous.video none).Attached :=
      h.detach hactive fun _ hnone => (by cases hnone)
    have hfree : ((s.detachListeners previous).setSource previous.video none).activeBindings
        previous.video = none := by
      show (s.detachListeners previous).activeBindings previous.video = none
      rw [activeBindings_detach hactive, if_pos rfl]
    -- what the video showed before is replaced at once
    have hreplaced : ((s.detachListeners previous).setSource previous.video none).attach
        ⟨s.streams, track, previous.video⟩ =
          (s.detachListeners previous).attach ⟨s.streams, track, previous.video⟩ :=
      attach_setSource none
    have hattached := hdetached.attach hfree track
    rw [← hreplaced]
    exact hattached

theorem Attached.clear (h : s.Attached) (video : Nat) :
    (s.clearRemoteCameraTrack video).Attached := by
  unfold clearRemoteCameraTrack
  cases hactive : s.activeBindings video with
  | none => exact h
  | some binding =>
    have hvideo := h.video video binding hactive
    subst hvideo
    dsimp only
    split_ifs with hshown
    · exact h.detach hactive fun _ hnone => by cases hnone
    · exact h.detach_other hactive hshown

/-! ## A track that ends -/

theorem activeBindings_clearOnEnded (h : s.activeBindings binding.video = some binding)
    (video : Nat) :
    (s.clearOnEnded binding).activeBindings video =
      if video = binding.video then none else s.activeBindings video := by
  unfold clearOnEnded
  split_ifs with hshown hvideo hvideo
  · rw [activeBindings_detach h, if_pos hvideo]
  · rw [activeBindings_detach h, if_neg hvideo]
  · show (s.detachListeners binding).activeBindings video = none
    rw [activeBindings_detach h, if_pos hvideo]
  · show (s.detachListeners binding).activeBindings video = s.activeBindings video
    rw [activeBindings_detach h, if_neg hvideo]

theorem srcObject_clearOnEnded (video : Nat) :
    (s.clearOnEnded binding).srcObject video =
      if video = binding.video ∧ s.srcObject video = some (.bound binding.stream) then none
      else s.srcObject video := by
  unfold clearOnEnded
  by_cases hshown : s.srcObject binding.video = some (.bound binding.stream)
  · rw [if_neg (not_not_intro hshown)]
    show Function.update s.srcObject binding.video none video = _
    rw [Function.update_apply]
    by_cases hvideo : video = binding.video
    · rw [if_pos hvideo, if_pos ⟨hvideo, by rw [hvideo]; exact hshown⟩]
    · rw [if_neg hvideo, if_neg fun hboth => hvideo hboth.1]
  · rw [if_pos hshown, if_neg]
    · rfl
    · rintro ⟨rfl, hsource⟩
      exact hshown hsource

/-- The listeners of a track are called one after another; each one acts on
its own video alone. -/
theorem foldl_clearOnEnded {bindings : List VideoBinding} (h : s.Attached)
    (hactive : ∀ b ∈ bindings, s.activeBindings b.video = some b) (hnodup : bindings.Nodup) :
    (bindings.foldl clearOnEnded s).Attached ∧
      (∀ b ∈ bindings, s.srcObject b.video = some (.bound b.stream) →
        (bindings.foldl clearOnEnded s).srcObject b.video = none) ∧
      ∀ video, (∀ b ∈ bindings, b.video = video → s.srcObject video ≠ some (.bound b.stream)) →
        (bindings.foldl clearOnEnded s).srcObject video = s.srcObject video := by
  induction bindings generalizing s with
  | nil => exact ⟨h, fun b hb => (by cases hb), fun _ _ => rfl⟩
  | cons first rest ih =>
    have hfirst := hactive first List.mem_cons_self
    obtain ⟨hnew, hrest⟩ := List.nodup_cons.mp hnodup
    have hapart : ∀ b ∈ rest, b.video ≠ first.video := by
      intro b hb hvideo
      have hb' := hactive b (List.mem_cons_of_mem _ hb)
      rw [hvideo, hfirst] at hb'
      exact hnew (Option.some.inj hb' ▸ hb)
    have hkept : ∀ b ∈ rest, (s.clearOnEnded first).activeBindings b.video = some b := by
      intro b hb
      rw [activeBindings_clearOnEnded hfirst, if_neg (hapart b hb)]
      exact hactive b (List.mem_cons_of_mem _ hb)
    obtain ⟨hattached, hcleared, hother⟩ := ih (h.clearOnEnded hfirst) hkept hrest
    rw [List.foldl_cons]
    refine ⟨hattached, ?_, ?_⟩
    · intro b hb hshown
      obtain rfl | hb := List.mem_cons.mp hb
      · -- the first one's video is none of the others'
        rw [hother b.video fun b' hb' hvideo => absurd hvideo (hapart b' hb'),
          srcObject_clearOnEnded, if_pos ⟨rfl, hshown⟩]
      · apply hcleared b hb
        rw [srcObject_clearOnEnded, if_neg fun hboth => hapart b hb hboth.1]
        exact hshown
    · intro video hnone
      have hsame : (s.clearOnEnded first).srcObject video = s.srcObject video := by
        rw [srcObject_clearOnEnded, if_neg]
        rintro ⟨hvideo, hsource⟩
        exact hnone first List.mem_cons_self hvideo.symm hsource
      rw [hother video, hsame]
      intro b hb hvideo
      rw [hsame]
      exact hnone b (List.mem_cons_of_mem _ hb) hvideo

theorem mem_ended_track : binding ∈ (s.ended.filter fun b => b.track = track) ↔
    binding ∈ s.ended ∧ binding.track = track := by
  rw [List.mem_filter, decide_eq_true_eq]

theorem Attached.trackEnded (h : s.Attached) (track : Nat) : (s.trackEnded track).Attached :=
  (foldl_clearOnEnded h (fun b hb => (h.ended b).mp (mem_ended_track.mp hb).1)
    (h.nodup.2.1.filter _)).1

theorem Attached.setOther (h : s.Attached) (video : Nat) (stream : Option Nat) :
    (s.setSource video (stream.map .other)).Attached := by
  refine ⟨h.unmute, h.ended, h.loadedmetadata, h.nodup, h.video, h.fresh, h.stream, ?_⟩
  intro other bound hshown
  have hshown' : Function.update s.srcObject video (stream.map .other) other =
      some (.bound bound) := hshown
  rw [Function.update_apply] at hshown'
  split_ifs at hshown'
  · cases stream with
    | none => cases hshown'
    | some stream => cases hshown'
  · exact h.shown other bound hshown'

theorem Attached.step (h : s.Attached) {l : Label} (hstep : s.step l = some t) : t.Attached := by
  cases l with
  | bindTrack video track =>
    cases hstep
    exact h.bindTrack video track
  | trackEnded track =>
    cases hstep
    exact h.trackEnded track
  | clear video =>
    cases hstep
    exact h.clear video
  | loadedmetadata video =>
    cases hstep
    exact ⟨h.unmute, h.ended, fun b hb => h.loadedmetadata b (List.mem_of_mem_filter hb),
      ⟨h.nodup.1, h.nodup.2.1, h.nodup.2.2.filter _⟩, h.video, h.fresh, h.stream, h.shown⟩
  | setSource video stream =>
    cases hstep
    exact h.setOther video stream

theorem attached_of_reachable (hr : lts.Reachable Lts.Any s) : s.Attached :=
  hr.invariant_ofStep attached_start fun _ _ _ h _ hstep => h.step hstep

/-- A video shows the stream that was made for a track on it. -/
def Shows (s : RemoteVideo) (video track : Nat) : Prop :=
  ∃ stream, s.srcObject video = some (.bound stream) ∧
    s.activeBindings video = some ⟨stream, track, video⟩

/-! ### What a video shows -/

variable {video' seen : Nat}

theorem Shows.unique (h : s.Shows video track) (h' : s.Shows video seen) : track = seen := by
  obtain ⟨stream, hsource, hactive⟩ := h
  obtain ⟨stream', hsource', hactive'⟩ := h'
  rw [hactive] at hactive'
  exact congrArg VideoBinding.track (Option.some.inj hactive')

theorem activeBindings_detachPrevious (h : s.Attached) (hother : video' ≠ video) :
    (s.detachPrevious video).activeBindings video' = s.activeBindings video' := by
  unfold detachPrevious
  cases hactive : s.activeBindings video with
  | none => rfl
  | some previous =>
    obtain rfl := h.video video previous hactive
    show (s.detachListeners previous).activeBindings video' = _
    rw [activeBindings_detach hactive, if_neg hother]

theorem srcObject_detachPrevious (video video' : Nat) :
    (s.detachPrevious video).srcObject video' = s.srcObject video' := by
  unfold detachPrevious
  cases s.activeBindings video <;> rfl

theorem shows_bindTrack (h : s.Attached) :
    (s.bindTrack video track).Shows video' seen ↔
      if video' = video then seen = track else s.Shows video' seen := by
  have hsource : (s.bindTrack video track).srcObject video' =
      Function.update (s.detachPrevious video).srcObject video (some (.bound s.streams)) video' :=
    rfl
  have hactive : (s.bindTrack video track).activeBindings video' =
      Function.update (s.detachPrevious video).activeBindings video
        (some ⟨s.streams, track, video⟩) video' := rfl
  unfold Shows
  rw [hsource, hactive]
  split_ifs with hother
  · rw [hother, Function.update_self, Function.update_self]
    constructor
    · rintro ⟨stream, -, hbinding⟩
      exact (congrArg VideoBinding.track (Option.some.inj hbinding)).symm
    · rintro rfl
      exact ⟨s.streams, rfl, rfl⟩
  · rw [Function.update_of_ne hother, Function.update_of_ne hother, srcObject_detachPrevious,
      activeBindings_detachPrevious h hother]

theorem shows_setSource (stream : Option Nat) :
    (s.setSource video (stream.map .other)).Shows video' seen ↔
      video' ≠ video ∧ s.Shows video' seen := by
  have hsource : (s.setSource video (stream.map .other)).srcObject video' =
      Function.update s.srcObject video (stream.map .other) video' := rfl
  unfold Shows
  rw [hsource]
  by_cases hother : video' = video
  · rw [hother, Function.update_self]
    refine iff_of_false ?_ fun h => h.1 rfl
    rintro ⟨bound, hbound, -⟩
    cases stream with
    | none => cases hbound
    | some stream => cases hbound
  · rw [Function.update_of_ne hother]
    exact ⟨fun h => ⟨hother, h⟩, fun h => h.2⟩

/-- A video whose binding is gone shows nothing of the binder. -/
theorem shows_detached (hactive : s.activeBindings binding.video = some binding)
    (hafter : t.activeBindings = (s.detachListeners binding).activeBindings)
    (hsource : video' ≠ binding.video → t.srcObject video' = s.srcObject video') :
    t.Shows video' seen ↔ video' ≠ binding.video ∧ s.Shows video' seen := by
  unfold Shows
  rw [hafter, activeBindings_detach hactive]
  by_cases hother : video' = binding.video
  · refine iff_of_false ?_ fun h => h.1 hother
    rintro ⟨stream, -, hbinding⟩
    rw [if_pos hother] at hbinding
    cases hbinding
  · rw [if_neg hother, hsource hother]
    exact ⟨fun h => ⟨hother, h⟩, fun h => h.2⟩

theorem shows_clear (h : s.Attached) :
    (s.clearRemoteCameraTrack video).Shows video' seen ↔
      video' ≠ video ∧ s.Shows video' seen := by
  unfold clearRemoteCameraTrack
  cases hactive : s.activeBindings video with
  | none =>
    refine ⟨fun hshows => ⟨?_, hshows⟩, fun hshows => hshows.2⟩
    rintro rfl
    obtain ⟨stream, -, hbinding⟩ := hshows
    rw [hactive] at hbinding
    cases hbinding
  | some binding =>
    obtain rfl := h.video video binding hactive
    dsimp only
    split_ifs
    · exact shows_detached hactive rfl fun hother => Function.update_of_ne hother _ _
    · exact shows_detached hactive rfl fun _ => rfl

theorem activeBindings_of_trackEnded
    (h : (s.trackEnded track).activeBindings video = some binding) :
    s.activeBindings video = some binding := by
  have hone : ∀ (s : RemoteVideo) (ended : VideoBinding),
      (s.clearOnEnded ended).activeBindings video = some binding →
        s.activeBindings video = some binding := by
    intro s ended hafter
    have hdetached : (s.detachListeners ended).activeBindings video = some binding := by
      unfold clearOnEnded at hafter
      split_ifs at hafter
      · exact hafter
      · exact hafter
    unfold detachListeners at hdetached
    dsimp only at hdetached
    split_ifs at hdetached
    · rw [Function.update_apply] at hdetached
      split_ifs at hdetached
      exact hdetached
    · exact hdetached
  have hall : ∀ (bindings : List VideoBinding) (s : RemoteVideo),
      (bindings.foldl clearOnEnded s).activeBindings video = some binding →
        s.activeBindings video = some binding := by
    intro bindings
    induction bindings with
    | nil => exact fun _ h => h
    | cons first rest ih => exact fun s h => hone s first (ih _ h)
  exact hall _ _ h

/-- The end of a track clears exactly the videos that show it. -/
theorem srcObject_trackEnded (h : s.Attached) (track video : Nat) :
    (s.Shows video track → (s.trackEnded track).srcObject video = none) ∧
      (¬s.Shows video track → (s.trackEnded track).srcObject video = s.srcObject video) := by
  obtain ⟨-, hcleared, hother⟩ := foldl_clearOnEnded h
    (fun b hb => (h.ended b).mp (mem_ended_track.mp hb).1) (h.nodup.2.1.filter
      fun b => decide (b.track = track))
  constructor
  · rintro ⟨stream, hshown, hactive⟩
    exact hcleared ⟨stream, track, video⟩
      (mem_ended_track.mpr ⟨(h.ended _).mpr hactive, rfl⟩) hshown
  · intro hshows
    apply hother video
    rintro b hb rfl hshown
    obtain ⟨hended, htrack⟩ := mem_ended_track.mp hb
    have hactive := (h.ended b).mp hended
    exact hshows ⟨b.stream, hshown, by rw [hactive, ← htrack]⟩

theorem shows_trackEnded (h : s.Attached) :
    (s.trackEnded track).Shows video seen ↔ seen ≠ track ∧ s.Shows video seen := by
  obtain ⟨hcleared, hother⟩ := srcObject_trackEnded h track video
  constructor
  · rintro ⟨stream, hsource, hactive⟩
    have hactive' := activeBindings_of_trackEnded hactive
    have hnot : ¬s.Shows video track := by
      intro hshows
      rw [hcleared hshows] at hsource
      cases hsource
    rw [hother hnot] at hsource
    have hshown : s.Shows video seen := ⟨stream, hsource, hactive'⟩
    refine ⟨?_, hshown⟩
    rintro rfl
    exact hnot hshown
  · rintro ⟨hne, hshown⟩
    have hnot : ¬s.Shows video track := fun hshows => hne (hshown.unique hshows)
    obtain ⟨stream, hsource, hactive⟩ := hshown
    rw [← hother hnot] at hsource
    -- what is still shown still has its binding
    obtain ⟨binding, hbinding, hstream⟩ := (h.trackEnded track).shown video stream hsource
    have hsame := activeBindings_of_trackEnded hbinding
    rw [hactive] at hsame
    obtain rfl := Option.some.inj hsame
    exact ⟨stream, hsource, hbinding⟩

/-- **A camera that ends leaves its tiles, and only these.** Whatever was
bound, cleared, ended and shown before, no listener is attached but those of
the one binding of each video, every camera that is shown has those of its
track, and the end of a track clears exactly the videos that show it: an event
of an earlier binding clears no newer picture. -/
theorem trackEnded_of_reachable (hr : lts.Reachable Lts.Any s) :
    (∀ binding, (binding ∈ s.unmute ∨ binding ∈ s.ended ∨ binding ∈ s.loadedmetadata) →
        s.activeBindings binding.video = some binding) ∧
      (∀ video stream, s.srcObject video = some (.bound stream) →
        ∃ track, s.Shows video track ∧ (⟨stream, track, video⟩ : VideoBinding) ∈ s.unmute ∧
          (⟨stream, track, video⟩ : VideoBinding) ∈ s.ended) ∧
      ∀ track video,
        (s.Shows video track → (s.trackEnded track).srcObject video = none) ∧
          (¬s.Shows video track → (s.trackEnded track).srcObject video = s.srcObject video) := by
  have h := attached_of_reachable hr
  refine ⟨?_, ?_, ?_⟩
  · rintro binding (hunmute | hended | hmetadata)
    · exact (h.unmute binding).mp hunmute
    · exact (h.ended binding).mp hended
    · exact h.loadedmetadata binding hmetadata
  · intro video stream hshown
    obtain ⟨binding, hactive, rfl⟩ := h.shown video stream hshown
    obtain rfl := h.video video binding hactive
    exact ⟨binding.track, ⟨binding.stream, hshown, hactive⟩, (h.unmute binding).mpr hactive,
      (h.ended binding).mpr hactive⟩
  · exact srcObject_trackEnded h

/-- The track of an earlier binding ends while a later one is shown. -/
theorem trackEnded_of_reachable_replaced :
    ∃ s : RemoteVideo, s.srcObject 0 = some (.bound 1) ∧
      (s.trackEnded 7).srcObject 0 = some (.bound 1) ∧ (s.trackEnded 8).srcObject 0 = none := by
  obtain ⟨s, hs, hstate⟩ := Lts.exists_reachable_of_exec Lts.Any step start
    [.bindTrack 0 7, .bindTrack 0 8] (fun s => (s.srcObject 0, s.activeBindings 0))
    (some (.bound 1), some ⟨1, 8, 0⟩) (fun _ _ _ => trivial) (by decide)
  obtain ⟨hshown, hactive⟩ := Prod.mk.inj hstate
  have hended := (trackEnded_of_reachable hs).2.2
  refine ⟨s, hshown, ?_, (hended 8 0).1 ⟨1, hshown, hactive⟩⟩
  rw [(hended 7 0).2, hshown]
  rintro ⟨stream, -, hactive'⟩
  rw [hactive] at hactive'
  cases hactive'

end RemoteVideo

end SlowMeet.Client
