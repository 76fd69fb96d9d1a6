import Mathlib.Data.List.Sort
import SlowMeet.Client.RemoteTracks
import SlowMeet.Client.RemoteVideo
import SlowMeet.Lib.GoMap

/-!
# Remote cameras by their layers

The part of `web/js/app.js` that decides which of a participant's camera
tracks a tile shows: `ontrack`, the events of the tracks,
`showSelectedRemoteCamera`, `setCameraLayer`, and what the tiles and the
messages of the server do to `remoteCameraLayerTracks`.

Tracks are known by numbers, and what the browser reports of one is fixed. A
handler runs without an `await`, so it is one step. The screens, the audio
and the playback are left out; of the own tile only that the page sets it.
-/

namespace SlowMeet.Client

open Lib Media

/-- An entry of `participantElements`, with its camera's video. -/
structure Element where
  participantID : Text
  video : Nat
  deriving DecidableEq

/-- The listeners of one `ontrack`; `tracks` is the map it entered the track
in. -/
structure TrackListener where
  element : Element
  tracks : Nat
  layer : CameraLayer
  track : Nat
  deriving DecidableEq

structure RemoteCameras where
  /-- `bindRemoteCameraTrack`, with all videos. -/
  binder : RemoteVideo
  participantElements : GoMap Text Element
  elementsMade : Nat
  /-- The participants with a timer in `participantRemovalTimers`. -/
  leaving : List Text
  /-- The maps, which the listeners keep; a number that is none's stands for
  an empty one. -/
  layerTracks : Nat → CameraLayer → Option Nat
  mapsMade : Nat
  remoteCameraLayerTracks : GoMap Text Nat
  /-- The listeners to `mute` and `unmute`. -/
  listeners : List TrackListener
  /-- The listeners to `ended`, which are called once. -/
  endedListeners : List TrackListener
  muted : Nat → Bool
  ended : Nat → Bool
  cameraLayer : CameraLayer
  screenShareOwner : Option Text
  localParticipantID : Option Text

namespace RemoteCameras

/-- A page that has loaded. Remote tracks arrive muted. -/
def start : RemoteCameras where
  binder := .start
  participantElements := ∅
  elementsMade := 0
  leaving := []
  layerTracks _ _ := none
  mapsMade := 0
  remoteCameraLayerTracks := ∅
  listeners := []
  endedListeners := []
  muted _ := true
  ended _ := false
  cameraLayer := .medium
  screenShareOwner := none
  localParticipantID := none

/-! ## The layer shown -/

def quality : List CameraLayer := [.low, .medium, .high]

def distance (preferred layer : CameraLayer) : Nat :=
  ((quality.idxOf layer : ℤ) - quality.idxOf preferred).natAbs

/-- The order `selectLayer` sorts the layers by. -/
def Closer (preferred a b : CameraLayer) : Prop :=
  distance preferred a < distance preferred b ∨
    distance preferred a = distance preferred b ∧ quality.idxOf a ≤ quality.idxOf b

instance (preferred a b : CameraLayer) : Decidable (Closer preferred a b) :=
  inferInstanceAs (Decidable (_ ∨ _))

section
variable (s : RemoteCameras)

/-- The live entries of a map, sorted. The comparison reads the layers only,
so that they are sorted first. -/
def candidates (tracks : Nat) : List (CameraLayer × Nat) :=
  ((quality.insertionSort (Closer s.cameraLayer)).filterMap fun layer =>
    (s.layerTracks tracks layer).map fun track => (layer, track)).filter
      fun entry => !s.ended entry.2

/-- `bindRemoteCameraTrack.selectLayer`. -/
def selectLayer (tracks : Nat) : Option Nat :=
  (((s.candidates tracks).find? fun entry => !s.muted entry.2).or
    (s.candidates tracks).head?).map Prod.snd

def showSelectedRemoteCamera (element : Element) : RemoteCameras :=
  match s.remoteCameraLayerTracks.lookup element.participantID with
  | none => s
  | some tracks =>
    match s.selectLayer tracks with
    | some track => { s with binder := s.binder.bindTrack element.video track }
    | none => { s with binder := s.binder.clearRemoteCameraTrack element.video }

/-! ## Tracks -/

def setTrack (tracks : Nat) (layer : CameraLayer) (track : Option Nat) : RemoteCameras :=
  { s with
    layerTracks :=
      Function.update s.layerTracks tracks (Function.update (s.layerTracks tracks) layer track) }

/-- The branch of `ontrack` for a layer, up to its last call. -/
def enterTrack (element : Element) (layer : CameraLayer) (track : Nat) : RemoteCameras :=
  let tracks := (s.remoteCameraLayerTracks.lookup element.participantID).getD s.mapsMade
  let listener : TrackListener := ⟨element, tracks, layer, track⟩
  { s.setTrack tracks layer (some track) with
    mapsMade := max s.mapsMade (tracks + 1)
    remoteCameraLayerTracks := s.remoteCameraLayerTracks.insert element.participantID tracks
    listeners := s.listeners ++ [listener]
    endedListeners := s.endedListeners ++ [listener] }

/-- The branch of `ontrack` for the video of a participant with a tile. -/
def bindVideo (element : Element) (role : SourceRole) (layer : Option CameraLayer)
    (track : Nat) : RemoteCameras :=
  match role, layer with
  | .camera, some layer =>
    (s.enterTrack element layer track).showSelectedRemoteCamera element
  | .camera, none => { s with binder := s.binder.bindTrack element.video track }
  -- the screen has a video of its own
  | .screen, _ => s
  | .audio, _ => { s with binder := s.binder.setSource element.video (some (.other track)) }

def ontrack (received : RemoteTrack) (track : Nat) : RemoteCameras :=
  let taken := received.attribution s.localParticipantID s.screenShareOwner fun id =>
    (s.participantElements.lookup id).isSome
  match s.participantElements.lookup taken.1 with
  | some element =>
    if received.kind = .video then s.bindVideo element taken.2 received.remoteCameraLayer track
    else s
  | none => s

/-- The listener's track is still the one of its layer. -/
def holds (listener : TrackListener) : Bool :=
  s.remoteCameraLayerTracks.lookup listener.element.participantID = some listener.tracks &&
    s.layerTracks listener.tracks listener.layer = some listener.track

def current (element : Element) : Bool :=
  s.participantElements.lookup element.participantID = some element

/-- `updateSelectedLayer`. -/
def updateSelectedLayer (listener : TrackListener) : RemoteCameras :=
  if s.holds listener && s.current listener.element then
    s.showSelectedRemoteCamera listener.element
  else s

/-- `tracks.delete(layer)`, and with the last layer of the map. -/
def deleteTrack (listener : TrackListener) : RemoteCameras :=
  let s' := s.setTrack listener.tracks listener.layer none
  { s' with
    remoteCameraLayerTracks :=
      if quality.all fun layer => (s'.layerTracks listener.tracks layer).isNone then
        s.remoteCameraLayerTracks.erase listener.element.participantID
      else s.remoteCameraLayerTracks }

/-- The page's listener to `ended`. -/
def layerEnded (listener : TrackListener) : RemoteCameras :=
  if s.holds listener then
    let s := s.deleteTrack listener
    if s.current listener.element then s.showSelectedRemoteCamera listener.element else s
  else s

/-- `mute` and `unmute`. -/
def setMuted (track : Nat) (muted : Bool) : RemoteCameras :=
  (s.listeners.filter fun listener => listener.track = track).foldl updateSelectedLayer
    { s with muted := Function.update s.muted track muted }

/-- `ended`. The page attached its listeners before the binder did. -/
def trackEnded (track : Nat) : RemoteCameras :=
  let s' := (s.endedListeners.filter fun listener => listener.track = track).foldl layerEnded
    { s with
      ended := Function.update s.ended track true
      endedListeners := s.endedListeners.filter fun listener => listener.track ≠ track }
  { s' with binder := s'.binder.trackEnded track }

/-! ## Tiles -/

def addParticipant (id : Text) : RemoteCameras :=
  match s.participantElements.lookup id with
  | some existing =>
    if s.leaving.contains id then
      { s with
        leaving := s.leaving.filter (· ≠ id)
        binder := s.binder.setSource existing.video none }
    else s
  | none =>
    { s with
      participantElements := s.participantElements.insert id ⟨id, s.elementsMade⟩
      elementsMade := s.elementsMade + 1 }

def participantLeft (id : Text) : RemoteCameras :=
  let s := { s with
    screenShareOwner := if s.screenShareOwner = some id then none else s.screenShareOwner }
  if (s.participantElements.lookup id).isSome then
    { s with
      remoteCameraLayerTracks := s.remoteCameraLayerTracks.erase id
      leaving := id :: s.leaving }
  else s

/-- The timer of `participant_left`. -/
def removeTile (id : Text) : RemoteCameras :=
  { s with
    leaving := s.leaving.filter (· ≠ id)
    participantElements := s.participantElements.erase id
    remoteCameraLayerTracks := s.remoteCameraLayerTracks.erase id }

def resetMediaConnection : RemoteCameras :=
  { s with
    participantElements := ∅
    leaving := []
    remoteCameraLayerTracks := ∅
    screenShareOwner := none }

/-- Leave. -/
def leave : RemoteCameras :=
  { s.resetMediaConnection with cameraLayer := .medium, localParticipantID := none }

def setCameraLayer (layer : CameraLayer) : RemoteCameras :=
  if s.cameraLayer = layer then s
  else
    (s.participantElements.values.filter fun element =>
      some element.participantID ≠ s.localParticipantID).foldl showSelectedRemoteCamera
        { s with cameraLayer := layer }

end

inductive Label
  /-- The server admits the page. After a retry the old tiles are still there. -/
  | participant (id : Text)
  | addParticipant (id : Text)
  | participantLeft (id : Text)
  | removeTile (id : Text)
  | screenShareState (owner : Option Text)
  | ontrack (track : Nat)
  | setMuted (track : Nat) (muted : Bool)
  | trackEnded (track : Nat)
  /-- With simulcast enabled; the function returns at once otherwise. -/
  | setCameraLayer (layer : CameraLayer)
  /-- The page shows its own camera, or nothing, on its own tile. -/
  | showLocal (stream : Option Nat)
  | loadedmetadata (video : Nat)
  | resetMediaConnection
  | leave

/-- `received` is what the browser reports of each track. -/
def step (received : Nat → RemoteTrack) (s : RemoteCameras) : Label → Option RemoteCameras
  | .participant id => some { s.addParticipant id with localParticipantID := some id }
  | .addParticipant id => some (s.addParticipant id)
  | .participantLeft id => some (s.participantLeft id)
  | .removeTile id => if s.leaving.contains id then some (s.removeTile id) else none
  | .screenShareState owner => some { s with screenShareOwner := owner }
  | .ontrack track => some (s.ontrack (received track) track)
  | .setMuted track muted => some (s.setMuted track muted)
  | .trackEnded track => if s.ended track then none else some (s.trackEnded track)
  | .setCameraLayer layer => some (s.setCameraLayer layer)
  | .showLocal stream =>
    match s.localParticipantID.bind s.participantElements.lookup with
    | some element =>
      some { s with binder := s.binder.setSource element.video (stream.map .other) }
    | none => none
  | .loadedmetadata video =>
    (s.binder.step (.loadedmetadata video)).map fun binder => { s with binder := binder }
  | .resetMediaConnection => some s.resetMediaConnection
  | .leave => some s.leave

def lts (received : Nat → RemoteTrack) : Lts RemoteCameras Label := Lts.ofStep start (step received)

/-! ## The selection -/

variable {s : RemoteCameras} {preferred a b c : CameraLayer} {tracks track : Nat}

theorem idxOf_quality_inj (h : quality.idxOf a = quality.idxOf b) : a = b := by
  cases a <;> cases b <;> first | rfl | exact absurd h (by decide)

theorem Closer.refl (preferred a : CameraLayer) : Closer preferred a a := Or.inr ⟨rfl, le_rfl⟩

theorem Closer.antisymm (h : Closer preferred a b) (h' : Closer preferred b a) : a = b := by
  obtain h | ⟨h, hle⟩ := h
  · obtain h' | ⟨h', -⟩ := h'
    · exact absurd h (Nat.lt_asymm h')
    · exact absurd h'.symm (Nat.ne_of_lt h)
  · obtain h' | ⟨-, hle'⟩ := h'
    · exact absurd h.symm (Nat.ne_of_lt h')
    · exact idxOf_quality_inj (Nat.le_antisymm hle hle')

theorem pairwise_quality (preferred : CameraLayer) :
    (quality.insertionSort (Closer preferred)).Pairwise (Closer preferred) := by
  cases preferred <;> decide

theorem mem_quality (preferred a : CameraLayer) :
    a ∈ quality.insertionSort (Closer preferred) := by
  rw [List.mem_insertionSort]
  cases a <;> decide

theorem mem_candidates {entry : CameraLayer × Nat} : entry ∈ s.candidates tracks ↔
    s.layerTracks tracks entry.1 = some entry.2 ∧ s.ended entry.2 = false := by
  unfold candidates
  rw [List.mem_filter, List.mem_filterMap, Bool.not_eq_true']
  refine and_congr_left fun _ => ?_
  constructor
  · rintro ⟨layer, -, hentry⟩
    obtain ⟨track, htrack, rfl⟩ := Option.map_eq_some_iff.mp hentry
    exact htrack
  · intro hentry
    exact ⟨entry.1, mem_quality _ _, by rw [hentry]; rfl⟩

theorem pairwise_candidates (s : RemoteCameras) (tracks : Nat) :
    (s.candidates tracks).Pairwise fun entry entry' =>
      Closer s.cameraLayer entry.1 entry'.1 := by
  refine List.Pairwise.filter _ (List.Pairwise.filterMap _ ?_ (pairwise_quality s.cameraLayer))
  intro layer layer' hcloser entry hentry entry' hentry'
  obtain ⟨track, -, rfl⟩ := Option.map_eq_some_iff.mp hentry
  obtain ⟨track', -, rfl⟩ := Option.map_eq_some_iff.mp hentry'
  exact hcloser

/-- The track a tile should show: a live layer, not a muted one if another
sends, and of those that are left the one next to the layer the page has
chosen, the lower of two. -/
def Best (s : RemoteCameras) (tracks track : Nat) : Prop :=
  ∃ layer, s.layerTracks tracks layer = some track ∧ s.ended track = false ∧
    ∀ other track', s.layerTracks tracks other = some track' → s.ended track' = false →
      (s.muted track = true → s.muted track' = true) ∧
        (s.muted track' = s.muted track → Closer s.cameraLayer layer other)

theorem Best.unique {track' : Nat} (h : s.Best tracks track) (h' : s.Best tracks track') :
    track = track' := by
  obtain ⟨layer, hentry, hlive, hbest⟩ := h
  obtain ⟨layer', hentry', hlive', hbest'⟩ := h'
  obtain ⟨hmuted, hcloser⟩ := hbest layer' track' hentry' hlive'
  obtain ⟨hmuted', hcloser'⟩ := hbest' layer track hentry hlive
  have hsame : s.muted track = s.muted track' := Bool.eq_iff_iff.mpr ⟨hmuted, hmuted'⟩
  obtain rfl := (hcloser hsame.symm).antisymm (hcloser' hsame)
  exact Option.some.inj (hentry.symm.trans hentry')

/-- The first of the sorted entries that meets a condition. -/
theorem closer_of_find {p : CameraLayer × Nat → Bool} {entry other : CameraLayer × Nat}
    (h : (s.candidates tracks).find? p = some entry) (hother : other ∈ s.candidates tracks)
    (hp : p other = true) : Closer s.cameraLayer entry.1 other.1 := by
  obtain ⟨-, before, after, hsplit, hbefore⟩ := List.find?_eq_some_iff_append.mp h
  have hpairwise := s.pairwise_candidates tracks
  rw [hsplit] at hpairwise hother
  obtain hother | hother := List.mem_append.mp hother
  · have hnot := hbefore other hother
    rw [hp] at hnot
    cases hnot
  · obtain rfl | hother := List.mem_cons.mp hother
    · exact .refl _ _
    · exact (List.pairwise_cons.mp (List.pairwise_append.mp hpairwise).2.1).1 other hother

theorem best_of_selectLayer (h : s.selectLayer tracks = some track) : s.Best tracks track := by
  obtain ⟨entry, hentry, rfl⟩ := Option.map_eq_some_iff.mp h
  cases hfind : (s.candidates tracks).find? fun entry => !s.muted entry.2 with
  | some found =>
    rw [hfind, Option.some_or] at hentry
    obtain rfl := Option.some.inj hentry
    have hunmuted : s.muted found.2 = false := by simpa using List.find?_some hfind
    obtain ⟨hlayer, hlive⟩ := mem_candidates.mp (List.mem_of_find?_eq_some hfind)
    refine ⟨found.1, hlayer, hlive, fun other track' hother hlive' => ⟨?_, ?_⟩⟩
    · intro hmuted
      rw [hunmuted] at hmuted
      cases hmuted
    · intro hsame
      rw [hunmuted] at hsame
      have hmem : (other, track') ∈ s.candidates tracks := mem_candidates.mpr ⟨hother, hlive'⟩
      exact closer_of_find hfind hmem (by rw [hsame]; rfl)
  | none =>
    -- all are muted, and the nearest comes first
    have hhead : (s.candidates tracks).head? = (s.candidates tracks).find? fun _ => true := by
      cases s.candidates tracks <;> rfl
    rw [hfind, Option.none_or, hhead] at hentry
    have hmuted : ∀ other ∈ s.candidates tracks, s.muted other.2 = true := by
      intro other hother
      simpa using List.find?_eq_none.mp hfind other hother
    obtain ⟨hlayer, hlive⟩ := mem_candidates.mp (List.mem_of_find?_eq_some hentry)
    refine ⟨entry.1, hlayer, hlive, fun other track' hother hlive' => ?_⟩
    have hmem : (other, track') ∈ s.candidates tracks := mem_candidates.mpr ⟨hother, hlive'⟩
    exact ⟨fun _ => hmuted _ hmem, fun _ => closer_of_find hentry hmem rfl⟩

theorem selectLayer_eq_some_iff : s.selectLayer tracks = some track ↔ s.Best tracks track := by
  refine ⟨best_of_selectLayer, fun hbest => ?_⟩
  obtain ⟨layer, hlayer, hlive, -⟩ := id hbest
  have hmem : (layer, track) ∈ s.candidates tracks := mem_candidates.mpr ⟨hlayer, hlive⟩
  cases hselect : s.selectLayer tracks with
  | some selected => rw [(best_of_selectLayer hselect).unique hbest]
  | none =>
    obtain ⟨-, hhead⟩ := Option.or_eq_none_iff.mp (Option.map_eq_none_iff.mp hselect)
    rw [List.head?_eq_none_iff.mp hhead] at hmem
    cases hmem

theorem Best.congr {t : RemoteCameras} (hlayer : t.cameraLayer = s.cameraLayer)
    (htracks : t.layerTracks tracks = s.layerTracks tracks)
    (hsame : ∀ layer track, s.layerTracks tracks layer = some track →
      t.ended track = s.ended track ∧ t.muted track = s.muted track)
    (h : s.Best tracks track) : t.Best tracks track := by
  obtain ⟨layer, hentry, hlive, hbest⟩ := h
  obtain ⟨hended, hmuted⟩ := hsame layer track hentry
  refine ⟨layer, by rw [htracks, hentry], by rw [hended, hlive], ?_⟩
  intro other track' hother hlive'
  rw [htracks] at hother
  obtain ⟨hended', hmuted'⟩ := hsame other track' hother
  rw [hended'] at hlive'
  rw [hmuted, hmuted', hlayer]
  exact hbest other track' hother hlive'

/-- The selection depends on the tracks of the map only. -/
theorem selectLayer_congr {t : RemoteCameras} (hlayer : t.cameraLayer = s.cameraLayer)
    (htracks : t.layerTracks tracks = s.layerTracks tracks)
    (hsame : ∀ layer track, s.layerTracks tracks layer = some track →
      t.ended track = s.ended track ∧ t.muted track = s.muted track) :
    t.selectLayer tracks = s.selectLayer tracks := by
  refine Option.ext fun track => ?_
  rw [selectLayer_eq_some_iff, selectLayer_eq_some_iff]
  refine ⟨Best.congr hlayer.symm htracks.symm fun layer track h => ?_,
    Best.congr hlayer htracks hsame⟩
  rw [htracks] at h
  obtain ⟨hended, hmuted⟩ := hsame layer track h
  exact ⟨hended.symm, hmuted.symm⟩

/-! ## What every step keeps -/

/-- The publications behind the tracks of a page, and whether the browser
reports their streams. -/
structure Published where
  source : Nat → MediaSource
  withStream : Nat → Bool
  named : ∀ track, withStream track = true ∨ '|' ∉ (source track).participantID

def Published.received (p : Published) (track : Nat) : RemoteTrack :=
  (p.source track).track (p.withStream track)

/-- The tiles have videos of their own, a participant's map has its layers
and is listened to for its tile, and a tile shows no other participant. -/
structure Sound (p : Published) (s : RemoteCameras) : Prop where
  attached : s.binder.Attached
  element : ∀ id e, s.participantElements.lookup id = some e →
    e.participantID = id ∧ e.video < s.elementsMade
  apart : ∀ id id' e e', s.participantElements.lookup id = some e →
    s.participantElements.lookup id' = some e' → e.video = e'.video → id = id'
  unused : ∀ video track, s.elementsMade ≤ video → ¬s.binder.Shows video track
  map : ∀ id tracks, s.remoteCameraLayerTracks.lookup id = some tracks →
    tracks < s.mapsMade ∧ (∃ e, s.participantElements.lookup id = some e) ∧
      ∃ layer track, s.layerTracks tracks layer = some track
  mapsApart : ∀ id id' tracks, s.remoteCameraLayerTracks.lookup id = some tracks →
    s.remoteCameraLayerTracks.lookup id' = some tracks → id = id'
  blank : ∀ tracks layer, s.mapsMade ≤ tracks → s.layerTracks tracks layer = none
  entry : ∀ id tracks layer track, s.remoteCameraLayerTracks.lookup id = some tracks →
    s.layerTracks tracks layer = some track →
    (p.source track).participantID = id ∧ (p.source track).layer = some layer
  heard : ∀ id e tracks layer track, s.participantElements.lookup id = some e →
    s.remoteCameraLayerTracks.lookup id = some tracks →
    s.layerTracks tracks layer = some track →
    (⟨e, tracks, layer, track⟩ : TrackListener) ∈ s.listeners ∧
      (s.ended track = false → (⟨e, tracks, layer, track⟩ : TrackListener) ∈ s.endedListeners)
  listening : ∀ l ∈ s.listeners, l.tracks < s.mapsMade ∧
    (s.remoteCameraLayerTracks.lookup l.element.participantID = some l.tracks →
      s.participantElements.lookup l.element.participantID = some l.element)
  ending : ∀ l ∈ s.endedListeners, l ∈ s.listeners
  shown : ∀ id e track, s.participantElements.lookup id = some e →
    s.binder.Shows e.video track →
    (p.source track).participantID = id ∧ (p.source track).role = .camera

/-- The participant's tile shows what its map selects. -/
def Selected (s : RemoteCameras) (id : Text) : Prop :=
  ∀ e tracks, s.participantElements.lookup id = some e →
    s.remoteCameraLayerTracks.lookup id = some tracks →
    ∀ track, s.binder.Shows e.video track ↔ s.selectLayer tracks = some track

def Settled (s : RemoteCameras) : Prop := ∀ id, s.localParticipantID ≠ some id → s.Selected id

variable {p : Published} {id other : Text} {element : Element}

theorem sound_start (p : Published) : Sound p start where
  attached := RemoteVideo.attached_start
  element _ _ h := by cases h
  apart _ _ _ _ h := by cases h
  unused _ _ _ := by
    rintro ⟨stream, hsource, -⟩
    cases hsource
  map _ _ h := by cases h
  mapsApart _ _ _ h := by cases h
  blank _ _ _ := rfl
  entry _ _ _ _ h := by cases h
  heard _ _ _ _ _ h := by cases h
  listening _ h := by cases h
  ending _ h := by cases h
  shown _ _ _ h := by cases h

/-- A camera with a layer is a camera. -/
theorem Sound.camera (h : Sound p s) {layer : CameraLayer}
    (hmap : s.remoteCameraLayerTracks.lookup id = some tracks)
    (hentry : s.layerTracks tracks layer = some track) : (p.source track).role = .camera := by
  by_contra hrole
  have hnone := (p.source track).unlayered hrole
  rw [(h.entry id tracks layer track hmap hentry).2] at hnone
  cases hnone

/-- The binder has changed what videos show, of tiles only and only to the
participants' cameras. -/
theorem Sound.rebind (h : Sound p s) {binder : RemoteVideo} (hattached : binder.Attached)
    (hunused : ∀ video track, s.elementsMade ≤ video → ¬binder.Shows video track)
    (hshown : ∀ id e track, s.participantElements.lookup id = some e →
      binder.Shows e.video track →
      (p.source track).participantID = id ∧ (p.source track).role = .camera) :
    Sound p { s with binder := binder } :=
  ⟨hattached, h.element, h.apart, hunused, h.map, h.mapsApart, h.blank, h.entry, h.heard,
    h.listening, h.ending, hshown⟩

/-! ### One tile -/

/-- `showSelectedRemoteCamera` rebinds the one video to the selection. -/
theorem showSelected_spec (h : s.binder.Attached) (element : Element) :
    ∃ binder : RemoteVideo, s.showSelectedRemoteCamera element = { s with binder := binder } ∧
      binder.Attached ∧
      (∀ video track, video ≠ element.video →
        (binder.Shows video track ↔ s.binder.Shows video track)) ∧
      (∀ tracks, s.remoteCameraLayerTracks.lookup element.participantID = some tracks →
        ∀ track, binder.Shows element.video track ↔ s.selectLayer tracks = some track) ∧
      (s.remoteCameraLayerTracks.lookup element.participantID = none → binder = s.binder) := by
  unfold showSelectedRemoteCamera
  cases hmap : s.remoteCameraLayerTracks.lookup element.participantID with
  | none =>
    exact ⟨s.binder, rfl, h, fun _ _ _ => Iff.rfl, fun _ hnone => (by cases hnone), fun _ => rfl⟩
  | some tracks =>
    dsimp only
    cases hselect : s.selectLayer tracks with
    | some track =>
      refine ⟨_, rfl, h.bindTrack _ _, ?_, ?_, fun hnone => by cases hnone⟩
      · intro video seen hvideo
        rw [RemoteVideo.shows_bindTrack h, if_neg hvideo]
      · intro tracks' htracks seen
        obtain rfl := Option.some.inj htracks
        rw [RemoteVideo.shows_bindTrack h, if_pos rfl, hselect, Option.some.injEq, eq_comm]
    | none =>
      refine ⟨_, rfl, h.clear _, ?_, ?_, fun hnone => by cases hnone⟩
      · intro video seen hvideo
        rw [RemoteVideo.shows_clear h]
        exact and_iff_right hvideo
      · intro tracks' htracks seen
        obtain rfl := Option.some.inj htracks
        rw [RemoteVideo.shows_clear h, hselect]
        exact iff_of_false (fun hseen => hseen.1 rfl) fun hnone => by cases hnone

theorem Sound.showSelected (h : Sound p s)
    (helement : s.participantElements.lookup element.participantID = some element) :
    ∃ binder : RemoteVideo, s.showSelectedRemoteCamera element = { s with binder := binder } ∧
      Sound p { s with binder := binder } ∧
      Selected { s with binder := binder } element.participantID ∧
      ∀ id, s.Selected id → Selected { s with binder := binder } id := by
  obtain ⟨binder, heq, hattached, hothers, hselected, hnone⟩ := showSelected_spec h.attached element
  have hmine : Selected { s with binder := binder } element.participantID := by
    intro e tracks he htracks
    obtain rfl := Option.some.inj (helement.symm.trans he)
    exact hselected tracks htracks
  refine ⟨binder, heq, h.rebind hattached ?_ ?_, hmine, ?_⟩
  · intro video track hvideo hshows
    have hlt := (h.element _ _ helement).2
    rw [hothers video track (by omega)] at hshows
    exact h.unused video track hvideo hshows
  · intro id e track he hshows
    by_cases hvideo : e.video = element.video
    · obtain rfl := h.apart _ _ _ _ he helement hvideo
      obtain rfl := Option.some.inj (helement.symm.trans he)
      cases htracks : s.remoteCameraLayerTracks.lookup element.participantID with
      | none =>
        rw [hnone htracks] at hshows
        exact h.shown _ _ track he hshows
      | some tracks =>
        rw [hselected tracks htracks track, selectLayer_eq_some_iff] at hshows
        obtain ⟨layer, hentry, -⟩ := hshows
        exact ⟨(h.entry _ _ _ _ htracks hentry).1, h.camera htracks hentry⟩
    · rw [hothers _ _ hvideo] at hshows
      exact h.shown id e track he hshows
  · intro id hid e tracks he htracks track
    by_cases hsame : id = element.participantID
    · subst hsame
      exact hmine e tracks he htracks track
    · have hvideo : e.video ≠ element.video := fun hvideo =>
        hsame (h.apart _ _ _ _ he helement hvideo)
      exact (hothers _ _ hvideo).trans (hid e tracks he htracks track)

/-- Several tiles are shown again. -/
theorem Sound.showAll {elements : List Element} (h : Sound p s)
    (helements : ∀ e ∈ elements, s.participantElements.lookup e.participantID = some e) :
    ∃ binder : RemoteVideo,
      elements.foldl showSelectedRemoteCamera s = { s with binder := binder } ∧
      Sound p { s with binder := binder } ∧
      ∀ id, (s.Selected id ∨ ∃ e ∈ elements, e.participantID = id) →
        Selected { s with binder := binder } id := by
  induction elements generalizing s with
  | nil =>
    refine ⟨s.binder, rfl, h, fun id hid => ?_⟩
    obtain hid | ⟨e, he, -⟩ := hid
    · exact hid
    · cases he
  | cons first rest ih =>
    obtain ⟨binder, heq, hsound, hfirst, hothers⟩ :=
      h.showSelected (helements first List.mem_cons_self)
    obtain ⟨binder', heq', hsound', hselected⟩ :=
      ih hsound fun e he => helements e (List.mem_cons_of_mem _ he)
    refine ⟨binder', ?_, hsound', fun id hid => hselected id ?_⟩
    · rw [List.foldl_cons, heq, heq']
    · obtain hid | ⟨e, he, rfl⟩ := hid
      · exact Or.inl (hothers id hid)
      · obtain rfl | he := List.mem_cons.mp he
        · exact Or.inl hfirst
        · exact Or.inr ⟨e, he, rfl⟩

theorem Sound.setCameraLayer (h : Sound p s) (hs : s.Settled) (layer : CameraLayer) :
    Sound p (s.setCameraLayer layer) ∧ (s.setCameraLayer layer).Settled := by
  unfold RemoteCameras.setCameraLayer
  split_ifs with hsame
  · exact ⟨h, hs⟩
  have h' : Sound p { s with cameraLayer := layer } :=
    ⟨h.attached, h.element, h.apart, h.unused, h.map, h.mapsApart, h.blank, h.entry, h.heard,
      h.listening, h.ending, h.shown⟩
  have hmem : ∀ e, e ∈ s.participantElements.values.filter (fun element =>
      some element.participantID ≠ s.localParticipantID) ↔
        s.participantElements.lookup e.participantID = some e ∧
          some e.participantID ≠ s.localParticipantID := by
    intro e
    rw [List.mem_filter, GoMap.mem_values, decide_eq_true_eq]
    refine and_congr_left fun _ => ⟨?_, fun he => ⟨_, he⟩⟩
    rintro ⟨id, he⟩
    rw [(h.element id e he).1]
    exact he
  obtain ⟨binder, heq, hsound, hselected⟩ := h'.showAll fun e he => ((hmem e).mp he).1
  rw [heq]
  refine ⟨hsound, fun id hid => ?_⟩
  cases helement : s.participantElements.lookup id with
  | none =>
    intro e tracks he
    rw [helement] at he
    cases he
  | some e =>
    obtain ⟨rfl, -⟩ := h.element id e helement
    exact hselected _ (Or.inr ⟨e, (hmem e).mpr ⟨helement, hid.symm⟩, rfl⟩)

/-! ### The events of a track -/

/-- What a listener checks does not depend on the videos. -/
theorem updates_eq (hattached : s.binder.Attached) (listeners : List TrackListener) :
    listeners.foldl updateSelectedLayer s =
      ((listeners.filter fun l => s.holds l && s.current l.element).map
        TrackListener.element).foldl showSelectedRemoteCamera s := by
  induction listeners generalizing s with
  | nil => rfl
  | cons first rest ih =>
    have hupdate : s.updateSelectedLayer first =
        if s.holds first && s.current first.element then
          s.showSelectedRemoteCamera first.element else s := rfl
    rw [List.foldl_cons, List.filter_cons, hupdate]
    split_ifs with hfirst
    · obtain ⟨binder, heq, hattached', -⟩ := showSelected_spec hattached first.element
      rw [List.map_cons, List.foldl_cons, heq, ih hattached']
      rfl
    · exact ih hattached

theorem holds_iff {l : TrackListener} : s.holds l = true ↔
    s.remoteCameraLayerTracks.lookup l.element.participantID = some l.tracks ∧
      s.layerTracks l.tracks l.layer = some l.track := by
  unfold holds
  rw [Bool.and_eq_true, decide_eq_true_eq, decide_eq_true_eq]

theorem current_iff {element : Element} : s.current element = true ↔
    s.participantElements.lookup element.participantID = some element := decide_eq_true_iff

theorem Sound.updateAll (h : Sound p s) (listeners : List TrackListener) :
    ∃ binder : RemoteVideo, listeners.foldl updateSelectedLayer s = { s with binder := binder } ∧
      Sound p { s with binder := binder } ∧
      ∀ id, (s.Selected id ∨ ∃ l ∈ listeners, s.holds l = true ∧ s.current l.element = true ∧
        l.element.participantID = id) → Selected { s with binder := binder } id := by
  have hcurrent : ∀ e ∈ (listeners.filter fun l => s.holds l && s.current l.element).map
      TrackListener.element, s.participantElements.lookup e.participantID = some e := by
    intro e he
    obtain ⟨l, hl, rfl⟩ := List.mem_map.mp he
    obtain ⟨-, hchecked⟩ := List.mem_filter.mp hl
    exact current_iff.mp (Bool.and_eq_true_iff.mp hchecked).2
  rw [updates_eq h.attached]
  obtain ⟨binder, heq, hsound, hselected⟩ := h.showAll hcurrent
  refine ⟨binder, heq, hsound, fun id hid => hselected id (hid.imp_right ?_)⟩
  rintro ⟨l, hl, hholds, hcurrent, hid⟩
  refine ⟨l.element, List.mem_map.mpr ⟨l, List.mem_filter.mpr ⟨hl, ?_⟩, rfl⟩, hid⟩
  rw [hholds, hcurrent]
  rfl

theorem Sound.setMuted (h : Sound p s) (hs : s.Settled) (track : Nat) (muted : Bool) :
    Sound p (s.setMuted track muted) ∧ (s.setMuted track muted).Settled := by
  have h' : Sound p { s with muted := Function.update s.muted track muted } :=
    ⟨h.attached, h.element, h.apart, h.unused, h.map, h.mapsApart, h.blank, h.entry, h.heard,
      h.listening, h.ending, h.shown⟩
  unfold RemoteCameras.setMuted
  obtain ⟨binder, heq, hsound, hselected⟩ :=
    h'.updateAll (s.listeners.filter fun listener => listener.track = track)
  rw [heq]
  refine ⟨hsound, fun id hid => hselected id ?_⟩
  by_cases hheard : ∃ e tracks layer, s.participantElements.lookup id = some e ∧
      s.remoteCameraLayerTracks.lookup id = some tracks ∧
      s.layerTracks tracks layer = some track
  · -- the map has the track, and so its listener shows the tile again
    obtain ⟨e, tracks, layer, he, htracks, hentry⟩ := hheard
    obtain ⟨hlistener, -⟩ := h.heard id e tracks layer track he htracks hentry
    obtain ⟨rfl, -⟩ := h.element id e he
    exact Or.inr ⟨⟨e, tracks, layer, track⟩,
      List.mem_filter.mpr ⟨hlistener, decide_eq_true rfl⟩, holds_iff.mpr ⟨htracks, hentry⟩,
      current_iff.mpr he, rfl⟩
  · refine Or.inl fun e tracks he htracks seen => ?_
    have hsame : RemoteCameras.selectLayer
        { s with muted := Function.update s.muted track muted } tracks = s.selectLayer tracks := by
      refine selectLayer_congr rfl rfl fun layer other hentry => ⟨rfl, ?_⟩
      refine Function.update_of_ne ?_ _ _
      rintro rfl
      exact hheard ⟨e, tracks, layer, he, htracks, hentry⟩
    rw [hsame]
    exact hs id hid e tracks he htracks seen

theorem layerTracks_deleteTrack (l : TrackListener) (tracks : Nat) (layer : CameraLayer) :
    (s.deleteTrack l).layerTracks tracks layer =
      if tracks = l.tracks ∧ layer = l.layer then none else s.layerTracks tracks layer := by
  show Function.update s.layerTracks l.tracks
    (Function.update (s.layerTracks l.tracks) l.layer none) tracks layer = _
  by_cases htracks : tracks = l.tracks
  · rw [htracks, Function.update_self, Function.update_apply]
    simp only [true_and]
  · rw [Function.update_of_ne htracks, if_neg fun h => htracks h.1]

theorem lookup_deleteTrack_ne (l : TrackListener) (hid : id ≠ l.element.participantID) :
    (s.deleteTrack l).remoteCameraLayerTracks.lookup id =
      s.remoteCameraLayerTracks.lookup id := by
  unfold deleteTrack
  dsimp only
  split_ifs
  · exact AList.lookup_erase_ne hid
  · rfl

theorem of_lookup_deleteTrack {l : TrackListener}
    (h : (s.deleteTrack l).remoteCameraLayerTracks.lookup id = some tracks) :
    s.remoteCameraLayerTracks.lookup id = some tracks ∧
      (id = l.element.participantID → ∃ layer track,
        (s.deleteTrack l).layerTracks l.tracks layer = some track) := by
  by_cases hid : id = l.element.participantID
  · subst hid
    have hmap : (s.deleteTrack l).remoteCameraLayerTracks =
        if quality.all fun layer => ((s.deleteTrack l).layerTracks l.tracks layer).isNone then
          s.remoteCameraLayerTracks.erase l.element.participantID
        else s.remoteCameraLayerTracks := rfl
    rw [hmap] at h
    split_ifs at h with hempty
    · rw [AList.lookup_erase] at h
      cases h
    · refine ⟨h, fun _ => ?_⟩
      by_contra hnone
      apply hempty
      rw [List.all_eq_true]
      intro layer _
      rw [Option.isNone_iff_eq_none, Option.eq_none_iff_forall_not_mem]
      exact fun track htrack => hnone ⟨layer, track, htrack⟩
  · rw [lookup_deleteTrack_ne l hid] at h
    exact ⟨h, fun hsame => absurd hsame hid⟩

theorem Sound.deleteTrack (h : Sound p s) {l : TrackListener} (hl : s.holds l = true) :
    Sound p (s.deleteTrack l) := by
  obtain ⟨hmap, -⟩ := holds_iff.mp hl
  have hentry : ∀ tracks layer track, (s.deleteTrack l).layerTracks tracks layer = some track →
      s.layerTracks tracks layer = some track := by
    intro tracks layer track htrack
    rw [layerTracks_deleteTrack] at htrack
    split_ifs at htrack
    exact htrack
  refine ⟨h.attached, h.element, h.apart, h.unused, ?_, ?_, ?_, ?_, ?_, ?_, h.ending, h.shown⟩
  · intro id tracks htracks
    obtain ⟨hold, hleft⟩ := of_lookup_deleteTrack htracks
    obtain ⟨hlt, helement, layer, track, htrack⟩ := h.map id tracks hold
    refine ⟨hlt, helement, ?_⟩
    by_cases hsame : tracks = l.tracks
    · rw [hsame] at hold ⊢
      exact hleft (h.mapsApart _ _ _ hold hmap)
    · refine ⟨layer, track, ?_⟩
      rw [layerTracks_deleteTrack, if_neg fun hboth => hsame hboth.1, htrack]
  · intro id id' tracks hid hid'
    exact h.mapsApart id id' tracks (of_lookup_deleteTrack hid).1 (of_lookup_deleteTrack hid').1
  · intro tracks layer hle
    rw [layerTracks_deleteTrack, h.blank tracks layer hle, ite_self]
  · intro id tracks layer track htracks htrack
    exact h.entry id tracks layer track (of_lookup_deleteTrack htracks).1
      (hentry tracks layer track htrack)
  · intro id e tracks layer track he htracks htrack
    exact h.heard id e tracks layer track he (of_lookup_deleteTrack htracks).1
      (hentry tracks layer track htrack)
  · intro l' hl'
    obtain ⟨hlt, hcurrent⟩ := h.listening l' hl'
    exact ⟨hlt, fun htracks => hcurrent (of_lookup_deleteTrack htracks).1⟩

/-- Every remote tile shows what is selected, but for those the listeners
have yet to show again. -/
def Pending (s : RemoteCameras) (listeners : List TrackListener) : Prop :=
  ∀ id, s.localParticipantID ≠ some id → s.Selected id ∨
    ∃ l ∈ listeners, s.holds l = true ∧ l.element.participantID = id

theorem Sound.layerEnded (h : Sound p s) {l : TrackListener} {rest : List TrackListener}
    (hl : l ∈ s.listeners) (hs : s.Pending (l :: rest)) :
    Sound p (s.layerEnded l) ∧ (s.layerEnded l).Pending rest ∧
      (s.layerEnded l).listeners = s.listeners ∧ (s.layerEnded l).ended = s.ended := by
  unfold RemoteCameras.layerEnded
  by_cases hholds : s.holds l = true
  · rw [if_pos hholds]
    obtain ⟨hmap, -⟩ := holds_iff.mp hholds
    have helement := (h.listening l hl).2 hmap
    obtain ⟨binder, heq, hsound, hmine, hothers⟩ := (h.deleteTrack hholds).showSelected helement
    have hcurrent : (s.deleteTrack l).current l.element = true := current_iff.mpr helement
    dsimp only
    rw [if_pos hcurrent, heq]
    refine ⟨hsound, fun id hid => ?_, rfl, rfl⟩
    by_cases hsame : id = l.element.participantID
    · exact Or.inl (hsame ▸ hmine)
    have hapart : ∀ tracks, s.remoteCameraLayerTracks.lookup id = some tracks →
        tracks ≠ l.tracks := by
      rintro tracks htracks rfl
      exact hsame (h.mapsApart _ _ _ htracks hmap)
    obtain hselected | ⟨l', hl', hholds', rfl⟩ := hs id hid
    · refine Or.inl (hothers id fun e tracks he htracks track => ?_)
      have hold := (of_lookup_deleteTrack htracks).1
      have hlayers : (s.deleteTrack l).layerTracks tracks = s.layerTracks tracks := by
        funext layer
        rw [layerTracks_deleteTrack, if_neg fun hboth => hapart tracks hold hboth.1]
      have hselect : (s.deleteTrack l).selectLayer tracks = s.selectLayer tracks :=
        selectLayer_congr rfl hlayers fun _ _ _ => ⟨rfl, rfl⟩
      rw [hselect]
      exact hselected e tracks he hold track
    · refine Or.inr ⟨l', ?_, ?_, rfl⟩
      · refine (List.mem_cons.mp hl').resolve_left ?_
        rintro rfl
        exact hsame rfl
      · obtain ⟨hmap', hentry'⟩ := holds_iff.mp hholds'
        refine holds_iff.mpr ⟨?_, ?_⟩
        · show (s.deleteTrack l).remoteCameraLayerTracks.lookup _ = _
          rw [lookup_deleteTrack_ne l hsame, hmap']
        · show (s.deleteTrack l).layerTracks _ _ = _
          rw [layerTracks_deleteTrack, if_neg fun hboth => hapart _ hmap' hboth.1, hentry']
  · rw [if_neg hholds]
    refine ⟨h, fun id hid => ?_, rfl, rfl⟩
    refine (hs id hid).imp_right ?_
    rintro ⟨l', hl', hholds', hid'⟩
    refine ⟨l', (List.mem_cons.mp hl').resolve_left ?_, hholds', hid'⟩
    rintro rfl
    exact hholds hholds'

theorem Sound.layersEnded {listeners : List TrackListener} (h : Sound p s)
    (hmem : ∀ l ∈ listeners, l ∈ s.listeners) (hs : s.Pending listeners) :
    Sound p (listeners.foldl RemoteCameras.layerEnded s) ∧
      (listeners.foldl RemoteCameras.layerEnded s).Settled ∧
      (listeners.foldl RemoteCameras.layerEnded s).ended = s.ended := by
  induction listeners generalizing s with
  | nil =>
    refine ⟨h, fun id hid => (hs id hid).resolve_right ?_, rfl⟩
    rintro ⟨l, hl, -⟩
    cases hl
  | cons first rest ih =>
    obtain ⟨hsound, hpending, hlisteners, hended⟩ := h.layerEnded (hmem _ List.mem_cons_self) hs
    rw [List.foldl_cons]
    obtain ⟨hsound', hsettled, hended'⟩ := ih hsound (fun l hl => by
      rw [hlisteners]
      exact hmem l (List.mem_cons_of_mem _ hl)) hpending
    exact ⟨hsound', hsettled, hended'.trans hended⟩

theorem Sound.trackEnded (h : Sound p s) (hs : s.Settled) (hlive : s.ended track = false) :
    Sound p (s.trackEnded track) ∧ (s.trackEnded track).Settled := by
  have h' : Sound p { s with
      ended := Function.update s.ended track true
      endedListeners := s.endedListeners.filter fun listener => listener.track ≠ track } := by
    refine ⟨h.attached, h.element, h.apart, h.unused, h.map, h.mapsApart, h.blank, h.entry, ?_,
      h.listening, fun l hl => h.ending l (List.mem_of_mem_filter hl), h.shown⟩
    intro id e tracks layer other he htracks hother
    obtain ⟨hlistener, hending⟩ := h.heard id e tracks layer other he htracks hother
    refine ⟨hlistener, fun hlive' => ?_⟩
    have hlive'' : Function.update s.ended track true other = false := hlive'
    rw [Function.update_apply] at hlive''
    split_ifs at hlive'' with hsame
    exact List.mem_filter.mpr ⟨hending hlive'', decide_eq_true hsame⟩
  have hpending : Pending { s with
      ended := Function.update s.ended track true
      endedListeners := s.endedListeners.filter fun listener => listener.track ≠ track }
        (s.endedListeners.filter fun listener => listener.track = track) := by
    intro id hid
    by_cases hheard : ∃ tracks layer, s.remoteCameraLayerTracks.lookup id = some tracks ∧
        s.layerTracks tracks layer = some track
    · obtain ⟨tracks, layer, htracks, hentry⟩ := hheard
      obtain ⟨-, ⟨e, he⟩, -⟩ := h.map id tracks htracks
      have hending := (h.heard id e tracks layer track he htracks hentry).2 hlive
      obtain ⟨rfl, -⟩ := h.element id e he
      exact Or.inr ⟨_, List.mem_filter.mpr ⟨hending, decide_eq_true rfl⟩,
        holds_iff.mpr ⟨htracks, hentry⟩, rfl⟩
    · refine Or.inl fun e tracks he htracks seen => ?_
      have hsame : RemoteCameras.selectLayer { s with
          ended := Function.update s.ended track true
          endedListeners := s.endedListeners.filter fun listener => listener.track ≠ track }
            tracks = s.selectLayer tracks := by
        refine selectLayer_congr rfl rfl fun layer other hentry => ⟨?_, rfl⟩
        refine Function.update_of_ne ?_ _ _
        rintro rfl
        exact hheard ⟨tracks, layer, htracks, hentry⟩
      rw [hsame]
      exact hs id hid e tracks he htracks seen
  obtain ⟨hsound, hsettled, hended⟩ := h'.layersEnded
    (fun l hl => h.ending l (List.mem_of_mem_filter hl)) hpending
  unfold RemoteCameras.trackEnded
  dsimp only
  refine ⟨hsound.rebind (hsound.attached.trackEnded track) ?_ ?_, ?_⟩
  · intro video seen hle hshows
    exact hsound.unused video seen hle ((RemoteVideo.shows_trackEnded hsound.attached).mp hshows).2
  · intro id e seen he hshows
    exact hsound.shown id e seen he
      ((RemoteVideo.shows_trackEnded hsound.attached).mp hshows).2
  · -- a selected track is live, so that the binder has nothing to clear
    intro id hid e tracks he htracks seen
    refine (RemoteVideo.shows_trackEnded hsound.attached).trans ?_
    refine Iff.trans ?_ (hsettled id hid e tracks he htracks seen)
    refine and_iff_right_of_imp ?_
    rintro hshows rfl
    rw [hsettled id hid e tracks he htracks, selectLayer_eq_some_iff] at hshows
    obtain ⟨layer, -, hlive', -⟩ := hshows
    rw [hended] at hlive'
    have htrue : Function.update s.ended seen true seen = false := hlive'
    rw [Function.update_self] at htrue
    cases htrue

/-! ### A track that arrives -/

theorem layerTracks_enterTrack (element : Element) (layer : CameraLayer) (track : Nat)
    (tracks : Nat) (other : CameraLayer) :
    (s.enterTrack element layer track).layerTracks tracks other =
      if tracks = (s.remoteCameraLayerTracks.lookup element.participantID).getD s.mapsMade ∧
        other = layer then some track else s.layerTracks tracks other := by
  show Function.update s.layerTracks _ (Function.update (s.layerTracks _) layer (some track))
    tracks other = _
  by_cases htracks :
      tracks = (s.remoteCameraLayerTracks.lookup element.participantID).getD s.mapsMade
  · rw [← htracks, Function.update_self, Function.update_apply]
    simp only [true_and]
  · rw [Function.update_of_ne htracks, if_neg fun h => htracks h.1]

/-- The map of a participant is its own: it was before, or it is new. -/
theorem Sound.own_map (h : Sound p s)
    (hid : s.remoteCameraLayerTracks.lookup id =
      some ((s.remoteCameraLayerTracks.lookup other).getD s.mapsMade)) : id = other := by
  cases hother : s.remoteCameraLayerTracks.lookup other with
  | none =>
    rw [hother, Option.getD_none] at hid
    exact absurd (h.map id _ hid).1 (Nat.lt_irrefl _)
  | some tracks =>
    rw [hother, Option.getD_some] at hid
    exact h.mapsApart _ _ _ hid hother

theorem Sound.enterTrack (h : Sound p s) {layer : CameraLayer}
    (helement : s.participantElements.lookup element.participantID = some element)
    (hsource : (p.source track).participantID = element.participantID)
    (hlayer : (p.source track).layer = some layer) :
    Sound p (s.enterTrack element layer track) := by
  have hlookup : ∀ id, (s.enterTrack element layer track).remoteCameraLayerTracks.lookup id =
      if id = element.participantID then
        some ((s.remoteCameraLayerTracks.lookup element.participantID).getD s.mapsMade)
      else s.remoteCameraLayerTracks.lookup id := fun id => GoMap.lookup_insert ..
  have hentry := layerTracks_enterTrack (s := s) element layer track
  have hmade : (s.enterTrack element layer track).mapsMade = max s.mapsMade
    ((s.remoteCameraLayerTracks.lookup element.participantID).getD s.mapsMade + 1) := rfl
  have hlisteners : (s.enterTrack element layer track).listeners = s.listeners ++ [⟨element,
    (s.remoteCameraLayerTracks.lookup element.participantID).getD s.mapsMade, layer, track⟩] := rfl
  have hending : (s.enterTrack element layer track).endedListeners = s.endedListeners ++ [⟨element,
    (s.remoteCameraLayerTracks.lookup element.participantID).getD s.mapsMade, layer, track⟩] := rfl
  have hown : ∀ id, s.remoteCameraLayerTracks.lookup id =
      some ((s.remoteCameraLayerTracks.lookup element.participantID).getD s.mapsMade) →
      id = element.participantID := fun id => h.own_map
  have hfresh : s.remoteCameraLayerTracks.lookup element.participantID =
        some ((s.remoteCameraLayerTracks.lookup element.participantID).getD s.mapsMade) ∨
      (s.remoteCameraLayerTracks.lookup element.participantID).getD s.mapsMade = s.mapsMade := by
    cases s.remoteCameraLayerTracks.lookup element.participantID with
    | none => exact Or.inr rfl
    | some tracks => exact Or.inl rfl
  generalize (s.remoteCameraLayerTracks.lookup element.participantID).getD s.mapsMade = tracks
    at hlookup hentry hmade hlisteners hending hown hfresh
  -- an entry is the new one, or was there before
  have hold : ∀ id tracks' other seen,
      (s.enterTrack element layer track).remoteCameraLayerTracks.lookup id = some tracks' →
      (s.enterTrack element layer track).layerTracks tracks' other = some seen →
      (id = element.participantID ∧ tracks' = tracks ∧ other = layer ∧ seen = track) ∨
        s.remoteCameraLayerTracks.lookup id = some tracks' ∧
          s.layerTracks tracks' other = some seen := by
    intro id tracks' other seen hid hseen
    rw [hentry] at hseen
    rw [hlookup] at hid
    split_ifs at hid with hsame
    · obtain rfl := Option.some.inj hid
      split_ifs at hseen with hnew
      · exact Or.inl ⟨hsame, rfl, hnew.2, (Option.some.inj hseen).symm⟩
      · obtain hbefore | hnone := hfresh
        · exact Or.inr ⟨hsame ▸ hbefore, hseen⟩
        · rw [h.blank _ other (Nat.le_of_eq hnone.symm)] at hseen
          cases hseen
    · split_ifs at hseen with hnew
      · obtain ⟨rfl, -⟩ := hnew
        exact absurd (hown id hid) hsame
      · exact Or.inr ⟨hid, hseen⟩
  refine ⟨h.attached, h.element, h.apart, h.unused, ?_, ?_, ?_, ?_, ?_, ?_, ?_, h.shown⟩
  · intro id tracks' hid
    rw [hmade]
    rw [hlookup] at hid
    split_ifs at hid with hsame
    · obtain rfl := Option.some.inj hid
      exact ⟨by omega, ⟨element, hsame ▸ helement⟩, layer, track, by rw [hentry, if_pos ⟨rfl, rfl⟩]⟩
    · obtain ⟨hlt, he, other, seen, hseen⟩ := h.map id tracks' hid
      refine ⟨by omega, he, other, seen, ?_⟩
      rw [hentry, if_neg, hseen]
      rintro ⟨rfl, -⟩
      exact hsame (hown id hid)
  · intro id id' tracks' hid hid'
    rw [hlookup] at hid hid'
    split_ifs at hid hid' with hsame hsame' hsame'
    · rw [hsame, hsame']
    · obtain rfl := Option.some.inj hid
      exact absurd (hown id' hid') hsame'
    · obtain rfl := Option.some.inj hid'
      exact absurd (hown id hid) hsame
    · exact h.mapsApart id id' tracks' hid hid'
  · intro tracks' other hle
    rw [hmade] at hle
    rw [hentry, if_neg fun hnew => by omega, h.blank tracks' other (by omega)]
  · intro id tracks' other seen hid hseen
    obtain ⟨rfl, -, rfl, rfl⟩ | ⟨hid, hseen⟩ := hold id tracks' other seen hid hseen
    · exact ⟨hsource, hlayer⟩
    · exact h.entry id tracks' other seen hid hseen
  · intro id e tracks' other seen he hid hseen
    rw [hlisteners, hending]
    obtain ⟨rfl, rfl, rfl, rfl⟩ | ⟨hid, hseen⟩ := hold id tracks' other seen hid hseen
    · obtain rfl := Option.some.inj (helement.symm.trans he)
      have hlast : ∀ (listeners : List TrackListener) (l : TrackListener),
          l ∈ listeners ++ [l] := fun _ _ => List.mem_append_right _ List.mem_cons_self
      exact ⟨hlast _ _, fun _ => hlast _ _⟩
    · obtain ⟨hlistener, hend⟩ := h.heard id e tracks' other seen he hid hseen
      exact ⟨List.mem_append_left _ hlistener, fun hlive => List.mem_append_left _ (hend hlive)⟩
  · intro l hl
    rw [hlisteners] at hl
    rw [hmade, hlookup]
    obtain hl | hl := List.mem_append.mp hl
    · obtain ⟨hlt, hcurrent⟩ := h.listening l hl
      refine ⟨by omega, ?_⟩
      split_ifs with hsame
      · intro htracks
        obtain rfl := Option.some.inj htracks
        obtain hbefore | hnone := hfresh
        · exact hcurrent (hsame ▸ hbefore)
        · omega
      · exact hcurrent
    · obtain rfl := List.mem_singleton.mp hl
      have hlt : tracks < max s.mapsMade (tracks + 1) := by omega
      exact ⟨hlt, fun _ => helement⟩
  · intro l hl
    rw [hending] at hl
    rw [hlisteners]
    obtain hl | hl := List.mem_append.mp hl
    · exact List.mem_append_left _ (h.ending l hl)
    · exact List.mem_append_right _ hl

/-- The other participants' maps are left alone. -/
theorem Sound.selected_enterTrack (h : Sound p s) {layer : CameraLayer}
    (hid : id ≠ element.participantID) (hs : s.Selected id) :
    (s.enterTrack element layer track).Selected id := by
  intro e tracks he htracks seen
  have hlookup : (s.enterTrack element layer track).remoteCameraLayerTracks.lookup id =
      s.remoteCameraLayerTracks.lookup id := AList.lookup_insert_ne hid
  rw [hlookup] at htracks
  have hlayers : (s.enterTrack element layer track).layerTracks tracks = s.layerTracks tracks := by
    funext other
    rw [layerTracks_enterTrack, if_neg]
    rintro ⟨rfl, -⟩
    exact hid (h.own_map htracks)
  have hselect : (s.enterTrack element layer track).selectLayer tracks = s.selectLayer tracks :=
    selectLayer_congr rfl hlayers fun _ _ _ => ⟨rfl, rfl⟩
  rw [hselect]
  exact hs e tracks he htracks seen

/-- A plain camera comes to a participant without layers. -/
def OnePlain (p : Published) (s : RemoteCameras) (track : Nat) : Prop :=
  (p.source track).role = .camera → (p.source track).layer = none →
    s.remoteCameraLayerTracks.lookup (p.source track).participantID = none

theorem Sound.bindTrack (h : Sound p s) (hs : s.Settled)
    (helement : s.participantElements.lookup element.participantID = some element)
    (hsource : (p.source track).participantID = element.participantID)
    (hrole : (p.source track).role = .camera)
    (hplain : s.remoteCameraLayerTracks.lookup element.participantID = none) :
    Sound p { s with binder := s.binder.bindTrack element.video track } ∧
      Settled { s with binder := s.binder.bindTrack element.video track } := by
  have hlt := (h.element _ _ helement).2
  refine ⟨h.rebind (h.attached.bindTrack _ _) ?_ ?_, ?_⟩
  · intro video seen hle
    rw [RemoteVideo.shows_bindTrack h.attached, if_neg (by omega)]
    exact h.unused video seen hle
  · intro id e seen he hshows
    rw [RemoteVideo.shows_bindTrack h.attached] at hshows
    split_ifs at hshows with hvideo
    · subst hshows
      exact ⟨hsource.trans (h.apart _ _ _ _ he helement hvideo).symm, hrole⟩
    · exact h.shown id e seen he hshows
  · intro id hid e tracks he htracks seen
    rw [RemoteVideo.shows_bindTrack h.attached, if_neg]
    · exact hs id hid e tracks he htracks seen
    · intro hvideo
      obtain rfl := h.apart _ _ _ _ he helement hvideo
      have htracks' : s.remoteCameraLayerTracks.lookup element.participantID = some tracks :=
        htracks
      rw [hplain] at htracks'
      cases htracks'

theorem Sound.ontrack (h : Sound p s) (hs : s.Settled) (hplain : OnePlain p s track) :
    Sound p (s.ontrack (p.received track) track) ∧
      (s.ontrack (p.received track) track).Settled := by
  have hkind : (p.received track).kind = (p.source track).kind := rfl
  have hlayer := (p.source track).remoteCameraLayer_track (p.withStream track)
  have htaken := (p.source track).attribution_cases (p.withStream track) s.localParticipantID
    (fun id => (s.participantElements.lookup id).isSome) (p.named track) s.screenShareOwner
  unfold RemoteCameras.ontrack Published.received at *
  dsimp only
  cases helement : s.participantElements.lookup (((p.source track).track
      (p.withStream track)).attribution s.localParticipantID s.screenShareOwner
        fun id => (s.participantElements.lookup id).isSome).1 with
  | none => exact ⟨h, hs⟩
  | some element =>
    dsimp only
    split_ifs with hvideo
    · obtain hsame | ⟨hscreen, owner, hsame⟩ := htaken
      · rw [hsame] at helement ⊢
        rw [hlayer]
        obtain ⟨hid, -⟩ := h.element _ _ helement
        rw [← hid] at helement
        cases hrole : (p.source track).role with
        | audio =>
          have haudio : (p.source track).kind = .audio := if_pos hrole
          rw [hkind, haudio] at hvideo
          cases hvideo
        | screen => cases (p.source track).layer <;> exact ⟨h, hs⟩
        | camera =>
          cases hplain' : (p.source track).layer with
          | none => exact h.bindTrack hs helement hid.symm hrole (hid ▸ hplain hrole hplain')
          | some layer =>
            have hentered := h.enterTrack helement hid.symm hplain'
            obtain ⟨binder, heq, hsound, hmine, hothers⟩ := hentered.showSelected helement
            show Sound p ((s.enterTrack element layer track).showSelectedRemoteCamera element) ∧
              ((s.enterTrack element layer track).showSelectedRemoteCamera element).Settled
            rw [heq]
            refine ⟨hsound, fun id hremote => ?_⟩
            by_cases hmineID : id = element.participantID
            · exact hmineID ▸ hmine
            · exact hothers id (h.selected_enterTrack hmineID (hs id hremote))
      · rw [hsame]
        exact ⟨h, hs⟩
    · exact ⟨h, hs⟩

/-! ### Tiles -/

/-- Tiles go, and maps with them. -/
theorem Sound.shrink (h : Sound p s) {elements : GoMap Text Element} {maps : GoMap Text Nat}
    (helements : ∀ id e, elements.lookup id = some e → s.participantElements.lookup id = some e)
    (hmaps : ∀ id tracks, maps.lookup id = some tracks →
      s.remoteCameraLayerTracks.lookup id = some tracks ∧
        (s.participantElements.lookup id).isSome = (elements.lookup id).isSome) :
    Sound p { s with participantElements := elements, remoteCameraLayerTracks := maps } := by
  refine ⟨h.attached, fun id e he => h.element id e (helements id e he), ?_, h.unused, ?_, ?_,
    h.blank, ?_, ?_, ?_, h.ending, fun id e seen he => h.shown id e seen (helements id e he)⟩
  · intro id id' e e' he he'
    exact h.apart id id' e e' (helements id e he) (helements id' e' he')
  · intro id tracks hid
    obtain ⟨hid', hkept⟩ := hmaps id tracks hid
    obtain ⟨hlt, ⟨e, he⟩, hentry⟩ := h.map id tracks hid'
    rw [he, Option.isSome_some] at hkept
    exact ⟨hlt, Option.isSome_iff_exists.mp hkept.symm, hentry⟩
  · intro id id' tracks hid hid'
    exact h.mapsApart id id' tracks (hmaps id tracks hid).1 (hmaps id' tracks hid').1
  · intro id tracks layer seen hid
    exact h.entry id tracks layer seen (hmaps id tracks hid).1
  · intro id e tracks layer seen he hid
    exact h.heard id e tracks layer seen (helements id e he) (hmaps id tracks hid).1
  · intro l hl
    obtain ⟨hlt, hcurrent⟩ := h.listening l hl
    refine ⟨hlt, fun hid => ?_⟩
    obtain ⟨hid', hkept⟩ := hmaps _ _ hid
    have hbefore := hcurrent hid'
    rw [hbefore, Option.isSome_some] at hkept
    obtain ⟨e, he⟩ := Option.isSome_iff_exists.mp hkept.symm
    show elements.lookup _ = _
    rw [he, ← helements _ e he, hbefore]

theorem Settled.shrink (h : s.Settled) {elements : GoMap Text Element} {maps : GoMap Text Nat}
    (helements : ∀ id e, elements.lookup id = some e → s.participantElements.lookup id = some e)
    (hmaps : ∀ id tracks, maps.lookup id = some tracks →
      s.remoteCameraLayerTracks.lookup id = some tracks) :
    Settled { s with participantElements := elements, remoteCameraLayerTracks := maps } :=
  fun id hid e tracks he htracks =>
    h id hid e tracks (helements id e he) (hmaps id tracks htracks)

/-- What is not of tiles, maps or videos does not matter here. -/
theorem Sound.aside (h : Sound p s) (leaving : List Text) (owner : Option Text)
    (layer : CameraLayer) :
    Sound p { s with leaving := leaving, screenShareOwner := owner, cameraLayer := layer } :=
  ⟨h.attached, h.element, h.apart, h.unused, h.map, h.mapsApart, h.blank, h.entry, h.heard,
    h.listening, h.ending, h.shown⟩

/-- The page gets its identifier, or another one. -/
theorem Sound.relocate (h : Sound p s) (localID : Option Text) :
    Sound p { s with localParticipantID := localID } :=
  ⟨h.attached, h.element, h.apart, h.unused, h.map, h.mapsApart, h.blank, h.entry, h.heard,
    h.listening, h.ending, h.shown⟩

theorem Sound.newTile (h : Sound p s) (hnew : s.participantElements.lookup id = none) :
    Sound p (s.addParticipant id) ∧
      ∀ other, s.Selected other → (s.addParticipant id).Selected other := by
  unfold RemoteCameras.addParticipant
  rw [hnew]
  have hlookup : ∀ other, (s.participantElements.insert id ⟨id, s.elementsMade⟩).lookup other =
      if other = id then some ⟨id, s.elementsMade⟩ else s.participantElements.lookup other :=
    fun other => GoMap.lookup_insert ..
  have hnone : s.remoteCameraLayerTracks.lookup id = none := by
    by_contra hsome
    obtain ⟨tracks, htracks⟩ := Option.ne_none_iff_exists'.mp hsome
    obtain ⟨-, ⟨e, he⟩, -⟩ := h.map id tracks htracks
    rw [hnew] at he
    cases he
  have hkept : ∀ other tracks, s.remoteCameraLayerTracks.lookup other = some tracks →
      other ≠ id := by
    rintro other tracks htracks rfl
    rw [hnone] at htracks
    cases htracks
  constructor
  · refine ⟨h.attached, ?_, ?_, ?_, ?_, h.mapsApart, h.blank, h.entry, ?_, ?_, h.ending, ?_⟩
    · intro other e he
      rw [hlookup] at he
      split_ifs at he with hsame
      · obtain rfl := Option.some.inj he
        exact ⟨hsame.symm, Nat.lt_succ_self _⟩
      · obtain ⟨hid, hlt⟩ := h.element other e he
        exact ⟨hid, Nat.lt_succ_of_lt hlt⟩
    · intro other other' e e' he he' hvideo
      rw [hlookup] at he he'
      split_ifs at he he' with hsame hsame' hsame'
      · rw [hsame, hsame']
      · obtain rfl := Option.some.inj he
        exact absurd hvideo.symm (Nat.ne_of_lt (h.element other' e' he').2)
      · obtain rfl := Option.some.inj he'
        exact absurd hvideo (Nat.ne_of_lt (h.element other e he).2)
      · exact h.apart other other' e e' he he' hvideo
    · exact fun video seen hle => h.unused video seen (Nat.le_of_succ_le hle)
    · intro other tracks htracks
      obtain ⟨hlt, ⟨e, he⟩, hentry⟩ := h.map other tracks htracks
      refine ⟨hlt, ⟨e, ?_⟩, hentry⟩
      rw [hlookup, if_neg (hkept other tracks htracks), he]
    · intro other e tracks layer seen he htracks
      rw [hlookup, if_neg (hkept other tracks htracks)] at he
      exact h.heard other e tracks layer seen he htracks
    · intro l hl
      obtain ⟨hlt, hcurrent⟩ := h.listening l hl
      refine ⟨hlt, fun htracks => ?_⟩
      rw [hlookup, if_neg (hkept _ _ htracks)]
      exact hcurrent htracks
    · intro other e seen he hshows
      rw [hlookup] at he
      split_ifs at he with hsame
      · obtain rfl := Option.some.inj he
        exact absurd hshows (h.unused _ _ (Nat.le_refl _))
      · exact h.shown other e seen he hshows
  · intro other hother e tracks he htracks
    have he' : (s.participantElements.insert id ⟨id, s.elementsMade⟩).lookup other = some e := he
    rw [hlookup, if_neg (hkept other tracks htracks)] at he'
    exact hother e tracks he' htracks

/-- The page sets what one tile shows, and leaves the others alone. -/
theorem Sound.setSource (h : Sound p s) (stream : Option Nat)
    (helement : s.participantElements.lookup id = some element) :
    Sound p { s with binder := s.binder.setSource element.video (stream.map .other) } ∧
      ∀ other ≠ id, s.Selected other →
        Selected { s with binder := s.binder.setSource element.video (stream.map .other) }
          other := by
  refine ⟨h.rebind (h.attached.setOther _ _) ?_ ?_, ?_⟩
  · intro video seen hle hshows
    exact h.unused video seen hle ((RemoteVideo.shows_setSource stream).mp hshows).2
  · intro other e seen he hshows
    exact h.shown other e seen he ((RemoteVideo.shows_setSource stream).mp hshows).2
  · intro other hother hselected e tracks he htracks seen
    refine (RemoteVideo.shows_setSource stream).trans ?_
    refine Iff.trans ?_ (hselected e tracks he htracks seen)
    refine and_iff_right_of_imp fun _ hvideo => ?_
    exact hother (h.apart _ _ _ _ he helement hvideo)

/-- A participant whose tile is going comes back to an empty one. -/
theorem Sound.addParticipant (h : Sound p s) (id : Text) :
    Sound p (s.addParticipant id) ∧
      ∀ other, s.Selected other →
        (other = id → id ∈ s.leaving → s.remoteCameraLayerTracks.lookup id = none) →
        (s.addParticipant id).Selected other := by
  cases helement : s.participantElements.lookup id with
  | none =>
    obtain ⟨hsound, hselected⟩ := h.newTile helement
    exact ⟨hsound, fun other hother _ => hselected other hother⟩
  | some existing =>
    unfold RemoteCameras.addParticipant
    rw [helement]
    dsimp only
    split_ifs with hleaving
    · obtain ⟨hsound, hselected⟩ := h.setSource none helement
      refine ⟨hsound.aside _ s.screenShareOwner s.cameraLayer, fun other hother hnone => ?_⟩
      by_cases hsame : other = id
      · intro e tracks _ htracks
        have hempty := hnone hsame (List.contains_iff_mem.mp hleaving)
        rw [← hsame] at hempty
        have htracks' : s.remoteCameraLayerTracks.lookup other = some tracks := htracks
        rw [hempty] at htracks'
        cases htracks'
      · exact hselected other hsame hother
    · exact ⟨h, fun other hother _ => hother⟩

/-! ### Runs -/

/-- Where cameras may not come: to a participant between its leaving and its
return to the same tile, to the page itself before it is admitted as another
participant, and without a layer to one who has layers. -/
def Orderly (p : Published) (s : RemoteCameras) : Label → Prop
  | .addParticipant id => id ∈ s.leaving → s.remoteCameraLayerTracks.lookup id = none
  | .participant id => ∀ own, s.localParticipantID = some own → own ≠ id →
    s.remoteCameraLayerTracks.lookup own = none
  | .ontrack track => OnePlain p s track
  | _ => True

theorem Sound.reset (h : Sound p s) (owner : Option Text) (layer : CameraLayer)
    (localID : Option Text) :
    Sound p { s with
      participantElements := ∅, leaving := [], remoteCameraLayerTracks := ∅
      screenShareOwner := owner, cameraLayer := layer, localParticipantID := localID } ∧
    Settled { s with
      participantElements := ∅, leaving := [], remoteCameraLayerTracks := ∅
      screenShareOwner := owner, cameraLayer := layer, localParticipantID := localID } := by
  have hempty : Sound p { s with participantElements := ∅, remoteCameraLayerTracks := ∅ } :=
    h.shrink (fun _ _ he => by cases he) fun _ _ htracks => by cases htracks
  exact ⟨(hempty.aside [] owner layer).relocate localID, fun _ _ _ _ he => (by cases he)⟩

theorem lookup_of_erase {maps : GoMap Text Nat}
    (h : (maps.erase other).lookup id = some tracks) :
    id ≠ other ∧ maps.lookup id = some tracks := by
  rw [GoMap.lookup_erase] at h
  split_ifs at h with hsame
  exact ⟨hsame, h⟩

theorem Sound.participantLeft (h : Sound p s) (hs : s.Settled) (id : Text) :
    Sound p (s.participantLeft id) ∧ (s.participantLeft id).Settled := by
  have herased : ∀ other tracks, (s.remoteCameraLayerTracks.erase id).lookup other = some tracks →
      s.remoteCameraLayerTracks.lookup other = some tracks := fun _ _ h => (lookup_of_erase h).2
  have hsound : Sound p { s with
      remoteCameraLayerTracks := s.remoteCameraLayerTracks.erase id } :=
    h.shrink (fun _ _ he => he) fun other tracks htracks => ⟨herased other tracks htracks, rfl⟩
  by_cases helement : (s.participantElements.lookup id).isSome
  · have heq : s.participantLeft id = { s with
        screenShareOwner := if s.screenShareOwner = some id then none else s.screenShareOwner
        remoteCameraLayerTracks := s.remoteCameraLayerTracks.erase id
        leaving := id :: s.leaving } := if_pos helement
    rw [heq]
    exact ⟨hsound.aside _ _ _, hs.shrink (fun _ _ he => he) herased⟩
  · have heq : s.participantLeft id = { s with
        screenShareOwner := if s.screenShareOwner = some id then none else s.screenShareOwner } :=
      if_neg helement
    rw [heq]
    exact ⟨h.aside _ _ _, hs⟩

theorem Sound.removeTile (h : Sound p s) (hs : s.Settled) (id : Text) :
    Sound p (s.removeTile id) ∧ (s.removeTile id).Settled := by
  have helements : ∀ other e, (s.participantElements.erase id).lookup other = some e →
      s.participantElements.lookup other = some e := by
    intro other e he
    rw [GoMap.lookup_erase] at he
    split_ifs at he
    exact he
  have hsound : Sound p { s with
      participantElements := s.participantElements.erase id
      remoteCameraLayerTracks := s.remoteCameraLayerTracks.erase id } := by
    refine h.shrink helements fun other tracks htracks => ?_
    obtain ⟨hother, hbefore⟩ := lookup_of_erase htracks
    rw [GoMap.lookup_erase, if_neg hother]
    exact ⟨hbefore, rfl⟩
  exact ⟨hsound.aside (s.leaving.filter (· ≠ id)) s.screenShareOwner s.cameraLayer,
    hs.shrink helements fun _ _ htracks => (lookup_of_erase htracks).2⟩

theorem Sound.step {t : RemoteCameras} {l : Label} (h : Sound p s) (hs : s.Settled)
    (hl : Orderly p s l) (hstep : step p.received s l = some t) : Sound p t ∧ t.Settled := by
  cases l with
  | participant id =>
    obtain rfl := Option.some.inj hstep
    obtain ⟨hsound, hselected⟩ := h.addParticipant id
    refine ⟨hsound.relocate (some id), fun other hother => ?_⟩
    have hne : other ≠ id := fun hsame => hother (congrArg some hsame.symm)
    refine hselected other ?_ fun hsame => absurd hsame hne
    by_cases hown : s.localParticipantID = some other
    · -- the tile that was the page's own has no map
      intro e tracks _ htracks
      rw [hl other hown hne] at htracks
      cases htracks
    · exact hs other hown
  | addParticipant id =>
    obtain rfl := Option.some.inj hstep
    obtain ⟨hsound, hselected⟩ := h.addParticipant id
    refine ⟨hsound, fun other hother => hselected other (hs other ?_) fun _ => hl⟩
    unfold RemoteCameras.addParticipant at hother
    split at hother
    · split at hother
      · exact hother
      · exact hother
    · exact hother
  | participantLeft id =>
    obtain rfl := Option.some.inj hstep
    exact h.participantLeft hs id
  | removeTile id =>
    simp only [RemoteCameras.step, Option.ite_none_right_eq_some] at hstep
    obtain ⟨-, hstep⟩ := hstep
    obtain rfl := Option.some.inj hstep
    exact h.removeTile hs id
  | screenShareState owner =>
    obtain rfl := Option.some.inj hstep
    exact ⟨h.aside s.leaving owner s.cameraLayer, hs⟩
  | ontrack track =>
    obtain rfl := Option.some.inj hstep
    exact h.ontrack hs hl
  | setMuted track muted =>
    obtain rfl := Option.some.inj hstep
    exact h.setMuted hs track muted
  | trackEnded track =>
    simp only [RemoteCameras.step, Option.ite_none_left_eq_some] at hstep
    obtain ⟨hlive, hstep⟩ := hstep
    obtain rfl := Option.some.inj hstep
    exact h.trackEnded hs (Bool.eq_false_iff.mpr hlive)
  | setCameraLayer layer =>
    obtain rfl := Option.some.inj hstep
    exact h.setCameraLayer hs layer
  | showLocal stream =>
    simp only [RemoteCameras.step] at hstep
    cases hown : s.localParticipantID.bind s.participantElements.lookup with
    | none =>
      rw [hown] at hstep
      cases hstep
    | some element =>
      rw [hown] at hstep
      obtain rfl := Option.some.inj hstep
      obtain ⟨id, hid, helement⟩ := Option.bind_eq_some_iff.mp hown
      obtain ⟨hsound, hselected⟩ := h.setSource stream helement
      refine ⟨hsound, fun other hother => hselected other ?_ (hs other hother)⟩
      rintro rfl
      exact hother hid
  | loadedmetadata video =>
    simp only [RemoteCameras.step, Option.map_eq_some_iff] at hstep
    obtain ⟨binder, hbinder, rfl⟩ := hstep
    have hattached := h.attached.step hbinder
    obtain rfl := Option.some.inj hbinder
    exact ⟨h.rebind hattached h.unused h.shown, hs⟩
  | resetMediaConnection =>
    obtain rfl := Option.some.inj hstep
    exact h.reset none s.cameraLayer s.localParticipantID
  | leave =>
    obtain rfl := Option.some.inj hstep
    exact h.reset none .medium none

theorem sound_of_reachable (hr : (lts p.received).Reachable (Orderly p) s) :
    Sound p s ∧ s.Settled :=
  hr.invariant_ofStep (I := fun s => Sound p s ∧ s.Settled)
    ⟨sound_start p, fun _ _ _ _ he => (by cases he)⟩
    fun _ _ _ h hok hstep => h.1.step h.2 hok hstep

/-- **Each tile shows its own participant's camera, in the best layer there
is.** Whatever the order of tracks, mutes, ends, choices of a layer, shares,
departures, returns and reconnects, with or without the old tiles, a tile
shows no camera but its participant's; and if a remote one has layers, its
tile shows exactly the best of the tracks that live. -/
theorem camera_of_reachable (hr : (lts p.received).Reachable (Orderly p) s)
    (helement : s.participantElements.lookup id = some element) :
    (∀ track, s.binder.Shows element.video track →
        (p.source track).participantID = id ∧ (p.source track).role = .camera) ∧
      (s.localParticipantID ≠ some id →
        ∀ tracks, s.remoteCameraLayerTracks.lookup id = some tracks →
          ∀ track, s.binder.Shows element.video track ↔ s.Best tracks track) := by
  obtain ⟨hsound, hsettled⟩ := sound_of_reachable hr
  refine ⟨fun track => hsound.shown id element track helement, ?_⟩
  intro hremote tracks htracks track
  rw [hsettled id hremote element tracks helement htracks, selectLayer_eq_some_iff]

/-- The even tracks are b's camera in its lowest layer, the odd ones in its
highest. -/
def samplePublished : Published where
  source track :=
    ⟨['b'], .camera, some (if track % 2 = 0 then .low else .high), fun h => absurd rfl h⟩
  withStream _ := true
  named _ := Or.inl rfl

/-- The page retries with its tiles in place, b leaves and comes back at once,
and of its new tracks the one that is shown ends. -/
theorem camera_of_reachable_ended : ∃ (s : RemoteCameras) (element : Element),
    (lts samplePublished.received).Reachable (Orderly samplePublished) s ∧
      s.participantElements.lookup ['b'] = some element ∧ s.binder.Shows element.video 2 := by
  obtain ⟨s, hr, hstate⟩ := Lts.exists_reachable_of_execWhen
    (fun (s : RemoteCameras) l => match l with
      | .participant id => s.localParticipantID.all (· = id)
      | .addParticipant id => (s.remoteCameraLayerTracks.lookup id).isNone || !s.leaving.contains id
      | _ => true)
    (step samplePublished.received) start
    [.participant ['a'], .addParticipant ['b'], .ontrack 0, .ontrack 1, .setMuted 0 false,
      .setCameraLayer .high, .setMuted 1 false,
      .participant ['a'], .addParticipant ['b'], .participantLeft ['b'], .addParticipant ['b'],
      .ontrack 2, .ontrack 3, .setMuted 2 false, .setMuted 3 false, .trackEnded 3]
    (fun s => (s.participantElements.lookup ['b'], s.localParticipantID,
      (s.remoteCameraLayerTracks.lookup ['b']).map fun tracks => (tracks, s.selectLayer tracks)))
    (some ⟨['b'], 1⟩, some ['a'], some (1, some 2)) (by decide +kernel)
  have hr' : (lts samplePublished.received).Reachable (Orderly samplePublished) s := by
    refine hr.mono fun s l hok => ?_
    cases l with
    | participant id =>
      intro own hown hne
      dsimp only at hok
      rw [hown] at hok
      exact absurd (of_decide_eq_true hok) hne
    | addParticipant id =>
      intro hleaving
      rcases Bool.or_eq_true_iff.mp hok with hnone | hstays
      · exact Option.isNone_iff_eq_none.mp hnone
      · rw [List.contains_iff_mem.mpr hleaving] at hstays
        cases hstays
    | ontrack track => exact fun _ hlayer => by cases hlayer
    | _ => trivial
  obtain ⟨helement, hstate⟩ := Prod.mk.inj hstate
  obtain ⟨hlocal, hstate⟩ := Prod.mk.inj hstate
  obtain ⟨tracks, htracks, hselect⟩ := Option.map_eq_some_iff.mp hstate
  refine ⟨s, ⟨['b'], 1⟩, hr', helement, ?_⟩
  have hremote : s.localParticipantID ≠ some ['b'] := by
    rw [hlocal]
    decide
  rw [(camera_of_reachable hr' helement).2 hremote tracks htracks]
  exact selectLayer_eq_some_iff.mp (Prod.mk.inj hselect).2

end RemoteCameras

end SlowMeet.Client
