import Mathlib.Data.List.Infix
import SlowMeet.Media.Router

/-!
# Whose media a track is

`Publish` names the track and the stream of a publication after its
participant, its role and its layer. A page has nothing but these names to
tell them from: `web/js/remote-media-identity.js`, and `remoteParticipantID`
and the `ontrack` handler of `web/js/app.js`.

A string is the list of its characters, a participant's identifier among them.
-/

namespace SlowMeet.Client

open Media

abbrev Text := List Char

/-! ## Names -/

def roleName : SourceRole → Text
  | .audio => "audio".toList
  | .camera => "camera".toList
  | .screen => "screen".toList

def layerName : CameraLayer → Text
  | .low => "low".toList
  | .medium => "medium".toList
  | .high => "high".toList

/-- What follows the participant in a `trackID`. -/
def trackSuffix (role : SourceRole) (layer : Option CameraLayer) : Text :=
  '|' :: roleName role ++ layer.elim [] fun layer => '|' :: layerName layer

/-- What a publication is of. Only cameras have layers (`Publish`). -/
structure MediaSource where
  participantID : Text
  role : SourceRole
  layer : Option CameraLayer
  unlayered : role ≠ .camera → layer = none

/-- A track as `ontrack` receives it. -/
structure RemoteTrack where
  kind : CodecType
  id : Text
  /-- `streams[0].id`, if the browser reports a stream. -/
  streamID : Option Text

namespace MediaSource

variable (source : MediaSource)

/-- `trackID` of `Publish`. -/
def trackID : Text := source.participantID ++ trackSuffix source.role source.layer

/-- `streamID` of `Publish`. -/
def streamID : Text := "slowmeet-".toList ++ (source.participantID ++ '-' :: roleName source.role)

/-- The role of a track follows its kind, but for a screen (`OnTrack`). -/
def kind : CodecType := if source.role = .audio then .audio else .video

/-- The track a page receives, with or without its stream. -/
def track (withStream : Bool) : RemoteTrack :=
  ⟨source.kind, source.trackID, if withStream then some source.streamID else none⟩

end MediaSource

/-! ## Reading them -/

def endsWith (text suffix : Text) : Bool := suffix.isSuffixOf text

/-- The `replace` of a word that ends the text by nothing. -/
def stripSuffix (text suffix : Text) : Option Text :=
  if endsWith text suffix then some (text.take (text.length - suffix.length)) else none

namespace RemoteTrack

variable (track : RemoteTrack)

def stream : Text := track.streamID.getD []

/-- The stream's identifier ends with `-screen`, or the track's with `|screen`. -/
def explicitScreen : Bool :=
  endsWith track.stream "-screen".toList || endsWith track.id "|screen".toList

/-- The same of `-camera`, and of `|camera` with or without a layer. -/
def explicitCamera : Bool :=
  endsWith track.stream "-camera".toList ||
    ["|camera", "|camera|low", "|camera|medium", "|camera|high"].any fun suffix =>
      endsWith track.id suffix.toList

def remoteMediaRole : SourceRole :=
  if track.explicitScreen then .screen
  else if track.explicitCamera then .camera
  else if track.kind = .audio then .audio
  else .camera

def remoteCameraLayer : Option CameraLayer :=
  [CameraLayer.low, .medium, .high].find? fun layer =>
    endsWith track.id ("|camera|".toList ++ layerName layer)

def remoteParticipantID : Text :=
  if "slowmeet-".toList.isPrefixOf track.stream then
    let rest := track.stream.drop "slowmeet-".toList.length
    (["-audio", "-camera", "-screen"].findSome? fun suffix =>
      stripSuffix rest suffix.toList).getD rest
  else track.id.takeWhile (· ≠ '|')

/-- A track that may be of the screen of the participant who is known to
share. -/
def mayBeScreenOf (localParticipantID : Option Text) (known : Text → Bool) (owner : Text) : Bool :=
  track.kind = .video && owner ≠ [] && localParticipantID ≠ some owner &&
    !track.explicitCamera &&
    (track.explicitScreen || !known track.remoteParticipantID ||
      track.remoteParticipantID = owner)

/-- The participant and the role the `ontrack` handler takes a track for.
`known` are the participants with a tile. -/
def attribution (localParticipantID screenShareOwner : Option Text) (known : Text → Bool) :
    Text × SourceRole :=
  match screenShareOwner.filter (track.mayBeScreenOf localParticipantID known) with
  | some owner => (owner, .screen)
  | none => (track.remoteParticipantID, track.remoteMediaRole)

end RemoteTrack

/-! ## Suffixes -/

theorem endsWith_iff {text suffix : Text} : endsWith text suffix = true ↔ suffix <:+ text :=
  List.isSuffixOf_iff_suffix

theorem endsWith_append {word suffix : Text} (text : Text) (h : endsWith word suffix = true) :
    endsWith (text ++ word) suffix = true :=
  endsWith_iff.mpr ((endsWith_iff.mp h).trans (List.suffix_append text word))

/-- Of two words that both end a text one ends the other. -/
theorem endsWith_append_eq_false {word suffix : Text} (text : Text)
    (h : endsWith word suffix = false) (h' : endsWith suffix word = false) :
    endsWith (text ++ word) suffix = false := by
  rw [← Bool.not_eq_true, endsWith_iff] at h h' ⊢
  intro hsuffix
  obtain hle | hle := Nat.le_total suffix.length word.length
  · exact h (List.suffix_of_suffix_length_le hsuffix (List.suffix_append text word) hle)
  · exact h' (List.suffix_of_suffix_length_le (List.suffix_append text word) hsuffix hle)

theorem stripSuffix_append (text suffix : Text) :
    stripSuffix (text ++ suffix) suffix = some text := by
  unfold stripSuffix
  rw [if_pos (endsWith_iff.mpr (List.suffix_append text suffix)), List.length_append,
    Nat.add_sub_cancel, List.take_left]

theorem stripSuffix_append_eq_none {word suffix : Text} (text : Text)
    (h : endsWith word suffix = false) (h' : endsWith suffix word = false) :
    stripSuffix (text ++ word) suffix = none := by
  unfold stripSuffix
  rw [endsWith_append_eq_false text h h', if_neg Bool.false_ne_true]

/-! ## The round trip -/

/-- The words a page looks for at the end of a track's identifier. -/
def trackWords : List Text :=
  ["|screen", "|camera", "|camera|low", "|camera|medium", "|camera|high"].map String.toList

def streamWords : List Text := ["-audio", "-camera", "-screen"].map String.toList

/-- A suffix is never the proper end of a word that is looked for, so that no
participant's identifier completes one. -/
theorem trackWords_apart (role : SourceRole) (layer : Option CameraLayer) :
    (trackWords.all fun word => endsWith (trackSuffix role layer) word ||
      !endsWith word (trackSuffix role layer)) = true := by
  cases role <;> obtain _ | layer := layer
  any_goals decide
  all_goals cases layer <;> decide

theorem streamWords_apart (role : SourceRole) :
    (streamWords.all fun word => endsWith ('-' :: roleName role) word ||
      !endsWith word ('-' :: roleName role)) = true := by
  cases role <;> decide

theorem endsWith_of_apart {words : List Text} {suffix word : Text} (text : Text)
    (hapart : (words.all fun word => endsWith suffix word || !endsWith word suffix) = true)
    (hword : word ∈ words) : endsWith (text ++ suffix) word = endsWith suffix word := by
  have hword' := List.all_eq_true.mp hapart word hword
  cases hends : endsWith suffix word with
  | true => exact endsWith_append text hends
  | false =>
    rw [hends, Bool.false_or, Bool.not_eq_true'] at hword'
    exact endsWith_append_eq_false text hends hword'

namespace MediaSource

variable (source : MediaSource) (withStream : Bool)

theorem endsWith_trackID {word : Text} (hword : word ∈ trackWords) :
    endsWith source.trackID word = endsWith (trackSuffix source.role source.layer) word :=
  endsWith_of_apart _ (trackWords_apart _ _) hword

theorem endsWith_streamID {word : Text} (hword : word ∈ streamWords) :
    endsWith source.streamID word = endsWith ('-' :: roleName source.role) word := by
  have hassoc : source.streamID =
      ("slowmeet-".toList ++ source.participantID) ++ '-' :: roleName source.role :=
    (List.append_assoc ..).symm
  rw [hassoc]
  exact endsWith_of_apart _ (streamWords_apart _) hword

/-- What the names of a source are checked for depends on its role and layer,
and these are one of six pairs. -/
theorem cases_roles {P : SourceRole → Option CameraLayer → Prop} (haudio : P .audio none)
    (hscreen : P .screen none) (hplain : P .camera none)
    (hcamera : ∀ layer, P .camera (some layer)) : P source.role source.layer := by
  obtain ⟨id, role, layer, hlayer⟩ := source
  cases role with
  | audio =>
    obtain rfl := hlayer (by decide)
    exact haudio
  | camera =>
    cases layer with
    | none => exact hplain
    | some layer => exact hcamera layer
  | screen =>
    obtain rfl := hlayer (by decide)
    exact hscreen

theorem endsWith_stream {word : Text} (hword : word ∈ streamWords) :
    endsWith (source.track withStream).stream word =
      (withStream && endsWith ('-' :: roleName source.role) word) := by
  cases withStream with
  | true => exact source.endsWith_streamID hword
  | false =>
    have hall : (streamWords.all fun word => !endsWith [] word) = true := by decide
    have hnone := List.all_eq_true.mp hall word hword
    rw [Bool.not_eq_true'] at hnone
    exact hnone

theorem explicitScreen_track :
    (source.track withStream).explicitScreen = decide (source.role = .screen) := by
  unfold RemoteTrack.explicitScreen
  rw [source.endsWith_stream withStream (by decide),
    show (source.track withStream).id = source.trackID from rfl,
    source.endsWith_trackID (by decide)]
  refine source.cases_roles (P := fun role layer => (withStream &&
    endsWith ('-' :: roleName role) "-screen".toList ||
      endsWith (trackSuffix role layer) "|screen".toList) = decide (role = .screen)) ?_ ?_ ?_ ?_
  · cases withStream <;> decide
  · cases withStream <;> decide
  · cases withStream <;> decide
  · intro layer
    cases withStream <;> cases layer <;> decide

theorem explicitCamera_track :
    (source.track withStream).explicitCamera = decide (source.role = .camera) := by
  unfold RemoteTrack.explicitCamera
  rw [source.endsWith_stream withStream (by decide),
    show (source.track withStream).id = source.trackID from rfl]
  simp only [List.any_cons, List.any_nil, Bool.or_false]
  rw [source.endsWith_trackID (by decide), source.endsWith_trackID (by decide),
    source.endsWith_trackID (by decide), source.endsWith_trackID (by decide)]
  refine source.cases_roles (P := fun role layer => (withStream &&
    endsWith ('-' :: roleName role) "-camera".toList ||
      (endsWith (trackSuffix role layer) "|camera".toList ||
        (endsWith (trackSuffix role layer) "|camera|low".toList ||
          (endsWith (trackSuffix role layer) "|camera|medium".toList ||
            endsWith (trackSuffix role layer) "|camera|high".toList)))) =
              decide (role = .camera)) ?_ ?_ ?_ ?_
  · cases withStream <;> decide
  · cases withStream <;> decide
  · cases withStream <;> decide
  · intro layer
    cases withStream <;> cases layer <;> decide

theorem remoteMediaRole_track : (source.track withStream).remoteMediaRole = source.role := by
  unfold RemoteTrack.remoteMediaRole
  rw [explicitScreen_track, explicitCamera_track,
    show (source.track withStream).kind = source.kind from rfl]
  unfold kind
  cases source.role <;> decide

theorem remoteCameraLayer_track :
    (source.track withStream).remoteCameraLayer = source.layer := by
  have hword : ∀ layer, "|camera|".toList ++ layerName layer ∈ trackWords := by
    intro layer
    cases layer <;> decide
  have hends : (fun layer => endsWith (source.track withStream).id
      ("|camera|".toList ++ layerName layer)) = fun layer =>
        endsWith (trackSuffix source.role source.layer) ("|camera|".toList ++ layerName layer) :=
    funext fun layer => source.endsWith_trackID (hword layer)
  unfold RemoteTrack.remoteCameraLayer
  rw [hends]
  refine source.cases_roles (P := fun role layer =>
    ([CameraLayer.low, .medium, .high].find? fun other =>
      endsWith (trackSuffix role layer) ("|camera|".toList ++ layerName other)) = layer)
    (by decide) (by decide) (by decide) ?_
  intro layer
  cases layer <;> decide

/-- The role of a stream's identifier is what is stripped of it. -/
theorem stripRole (text : Text) (role : SourceRole) :
    (["-audio", "-camera", "-screen"].findSome? fun suffix =>
      stripSuffix (text ++ '-' :: roleName role) suffix.toList) = some text := by
  simp only [List.findSome?_cons]
  cases role with
  | audio => rw [show '-' :: roleName .audio = "-audio".toList from rfl, stripSuffix_append]
  | camera =>
    rw [stripSuffix_append_eq_none text (by decide) (by decide),
      show '-' :: roleName .camera = "-camera".toList from rfl, stripSuffix_append]
  | screen =>
    rw [stripSuffix_append_eq_none text (by decide) (by decide),
      stripSuffix_append_eq_none text (by decide) (by decide),
      show '-' :: roleName .screen = "-screen".toList from rfl, stripSuffix_append]

/-- A participant is read off the stream, or off a track's identifier in which
nothing but the suffix has a bar. -/
theorem remoteParticipantID_track (hid : withStream = true ∨ '|' ∉ source.participantID) :
    (source.track withStream).remoteParticipantID = source.participantID := by
  unfold RemoteTrack.remoteParticipantID
  cases withStream with
  | true =>
    rw [show (source.track true).stream = source.streamID from rfl]
    unfold streamID
    rw [if_pos (List.isPrefixOf_iff_prefix.mpr (List.prefix_append ..)), List.drop_left]
    dsimp only
    rw [stripRole]
    rfl
  | false =>
    have hbar := hid.resolve_left Bool.false_ne_true
    have hplain : ∀ char ∈ source.participantID, decide (char ≠ '|') = true := by
      intro char hchar
      rw [decide_eq_true_eq]
      rintro rfl
      exact hbar hchar
    have hunnamed : "slowmeet-".toList.isPrefixOf (source.track false).stream = false := rfl
    rw [hunnamed, if_neg Bool.false_ne_true]
    show (source.participantID ++ '|' :: _).takeWhile _ = _
    rw [List.takeWhile_append_of_pos hplain, List.takeWhile_cons_of_neg (by decide),
      List.append_nil]

variable (localParticipantID : Option Text) (known : Text → Bool)

/-- Only a screen is ever taken for that of whom is known to share. -/
theorem mayBeScreenOf_track (owner : Text) :
    (source.track withStream).mayBeScreenOf localParticipantID known owner =
      decide (source.role = .screen ∧ owner ≠ [] ∧ localParticipantID ≠ some owner) := by
  unfold RemoteTrack.mayBeScreenOf
  rw [explicitScreen_track, explicitCamera_track,
    show (source.track withStream).kind = source.kind from rfl]
  unfold kind
  cases source.role with
  | audio => simp
  | camera => simp
  | screen => simp

section
variable (hid : withStream = true ∨ '|' ∉ source.participantID)
include hid

theorem attribution_none :
    (source.track withStream).attribution localParticipantID none known =
      (source.participantID, source.role) := by
  show ((source.track withStream).remoteParticipantID,
    (source.track withStream).remoteMediaRole) = _
  rw [source.remoteParticipantID_track withStream hid, remoteMediaRole_track]

theorem attribution_some (owner : Text) :
    (source.track withStream).attribution localParticipantID (some owner) known =
      if source.role = .screen ∧ owner ≠ [] ∧ localParticipantID ≠ some owner then
        (owner, .screen)
      else (source.participantID, source.role) := by
  have hnone := source.attribution_none withStream localParticipantID known hid
  unfold RemoteTrack.attribution at hnone ⊢
  rw [Option.filter_some, mayBeScreenOf_track]
  by_cases hscreen : source.role = .screen ∧ owner ≠ [] ∧ localParticipantID ≠ some owner
  · rw [decide_eq_true hscreen, if_pos rfl, if_pos hscreen]
  · rw [decide_eq_false hscreen, if_neg Bool.false_ne_true, if_neg hscreen]
    exact hnone

/-- A track is taken for what it is of, or it is a screen. -/
theorem attribution_cases (screenShareOwner : Option Text) :
    (source.track withStream).attribution localParticipantID screenShareOwner known =
        (source.participantID, source.role) ∨
      source.role = .screen ∧ ∃ owner, (source.track withStream).attribution localParticipantID
        screenShareOwner known = (owner, .screen) := by
  cases screenShareOwner with
  | none => exact Or.inl (source.attribution_none withStream localParticipantID known hid)
  | some owner =>
    rw [source.attribution_some withStream localParticipantID known hid]
    split_ifs with hscreen
    · exact Or.inr ⟨hscreen.1, owner, rfl⟩
    · exact Or.inl rfl

/-- **The names survive the round trip.** A page takes the track of a
publication for that participant's, in that role and layer, exactly unless it
is a screen and another remote participant is known to share. -/
theorem attribution_iff (screenShareOwner : Option Text) :
    (source.track withStream).remoteCameraLayer = source.layer ∧
      ((source.track withStream).attribution localParticipantID screenShareOwner known =
          (source.participantID, source.role) ↔
        (source.role = .screen → ∀ owner, screenShareOwner = some owner →
          owner = [] ∨ localParticipantID = some owner ∨ owner = source.participantID)) := by
  refine ⟨source.remoteCameraLayer_track withStream, ?_⟩
  cases screenShareOwner with
  | none =>
    refine iff_of_true (source.attribution_none withStream localParticipantID known hid) ?_
    intro _ owner howner
    cases howner
  | some owner =>
    rw [source.attribution_some withStream localParticipantID known hid]
    constructor
    · intro hread hscreen sharer hsharer
      obtain rfl := Option.some.inj hsharer
      by_contra hother
      simp only [not_or] at hother
      rw [if_pos ⟨hscreen, hother.1, hother.2.1⟩] at hread
      exact hother.2.2 (Prod.mk.inj hread).1
    · intro hsame
      split_ifs with hscreen
      · obtain hnone | hlocal | rfl := hsame hscreen.1 owner rfl
        · exact absurd hnone hscreen.2.1
        · exact absurd hlocal hscreen.2.2
        · rw [hscreen.1]
      · rfl

end

/-- A camera in its highest layer, of a participant whose identifier looks like
a screen's, without its stream and while another participant shares. -/
theorem attribution_iff_camera :
    ((⟨"a-screen".toList, .camera, some .high, fun h => absurd rfl h⟩ :
        MediaSource).track false).attribution none (some ['b']) (fun _ => false) =
      ("a-screen".toList, .camera) := by
  refine ((⟨"a-screen".toList, .camera, some .high, fun h => absurd rfl h⟩ :
    MediaSource).attribution_iff false none (fun _ => false) (Or.inr (by decide))
    (some ['b'])).2.mpr ?_
  intro hscreen
  cases hscreen

end MediaSource

end SlowMeet.Client
