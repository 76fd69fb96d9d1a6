import Mathlib.Data.List.Sort
import SlowMeet.Lib.Lts

/-!
# The camera subscriptions of a page

The view state of `web/js/app.js` that decides whose camera the server
forwards, the handlers that change it while one socket is open, and the two
functions that send `set_video_subscriptions`: `updateParticipantPagination`
and `setCameraLayer`.

A handler runs without an `await`, so it is one step. `item.hidden` is the
flag of an element; `lastVideoSubscriptionPayload` is the last message sent.
-/

namespace SlowMeet.Client

open Lib

/-- An entry of `participantElements`. -/
structure TileElement where
  participantID : String
  hidden : Bool
  deriving DecidableEq, Repr

/-- A `set_video_subscriptions` message. -/
structure VideoSubscriptions where
  cameraParticipantIDs : List String
  /-- Absent without simulcast. -/
  cameraLayer : Option String
  deriving DecidableEq, Repr

structure VideoView where
  localParticipantID : Option String
  /-- In the order of insertion. -/
  participantElements : List TileElement
  hiddenParticipantIDs : List String
  pinnedParticipantIDs : List String
  automaticPinnedParticipantID : Option String
  /-- The two identifiers of the pair, sorted. -/
  automaticPinDismissedPairKey : Option (List String)
  participantPage : Int
  screenShareOwner : Option String
  selfViewVisible : Bool
  receiveVideoEnabled : Bool
  simulcastEnabled : Bool
  cameraLayer : String
  /-- The keys of `participantRemovalTimers`. -/
  removalTimers : List String
  /-- The messages sent on the socket. -/
  sent : List VideoSubscriptions
  deriving DecidableEq, Repr

def participantPageSize : Nat := 9

/-! ## `meeting-layout.js` -/

/-- `slice(-maxPins)`. -/
def lastPins (pins : List String) (maxPins : Nat) : List String :=
  pins.drop (pins.length - maxPins)

def pinParticipant (pins : List String) (participantID : String) (maxPins : Nat) : List String :=
  if participantID = "" ∨ participantID ∈ pins then lastPins pins maxPins
  else lastPins (pins ++ [participantID]) maxPins

def unpinParticipant (pins : List String) (participantID : String) : List String :=
  pins.filter fun id => id ≠ participantID

/-- `[...new Set(ids)].sort()`. -/
def sortedSet (ids : List String) : List String := ids.eraseDups.insertionSort (· ≤ ·)

def participantPairKey (participantIDs : List String) (localParticipantID : Option String) :
    Option (List String) :=
  let uniqueIDs := (participantIDs.filter fun id => id ≠ "").eraseDups
  match localParticipantID with
  | none => none
  | some localID =>
    if uniqueIDs.length ≠ 2 ∨ localID ∉ uniqueIDs then none else some (sortedSet uniqueIDs)

/-- The answer of `reconcileAutomaticParticipantPin`. -/
structure PinReconciliation where
  pinnedParticipantIDs : List String
  automaticParticipantID : Option String
  dismissedPairKey : Option (List String)
  deriving DecidableEq, Repr

/-- `reconcileAutomaticParticipantPin`; without a roster of two it has no
`pairKey`. -/
def reconcileAutomaticParticipantPin (pinnedParticipantIDs participantIDs : List String)
    (localParticipantID automaticParticipantID : Option String)
    (dismissedPairKey : Option (List String)) (hiddenParticipantIDs : List String) :
    PinReconciliation :=
  let roster := (participantIDs.filter fun id => id ≠ "").eraseDups
  let pairKey := participantPairKey roster localParticipantID
  let keeps := fun id => pairKey.isSome && roster.contains id && !hiddenParticipantIDs.contains id
  let pins := match automaticParticipantID with
    | some id => if keeps id then pinnedParticipantIDs else unpinParticipant pinnedParticipantIDs id
    | none => pinnedParticipantIDs
  let automaticID := automaticParticipantID.filter keeps
  let nextDismissedPairKey := if dismissedPairKey = pairKey then dismissedPairKey else none
  let remoteID :=
    if pairKey.isSome && nextDismissedPairKey.isNone && automaticID.isNone && pins = [] then
      roster.find? fun id => some id ≠ localParticipantID && !hiddenParticipantIDs.contains id
    else none
  match remoteID with
  | some id => ⟨pinParticipant pins id 2, some id, nextDismissedPairKey⟩
  | none => ⟨pins, automaticID, nextDismissedPairKey⟩

namespace VideoView

variable (v : VideoView)

def participantIDs : List String := v.participantElements.map (·.participantID)

def has (participantID : String) : Bool := v.participantIDs.contains participantID

def syncAutomaticParticipantPin : VideoView :=
  let next := reconcileAutomaticParticipantPin v.pinnedParticipantIDs v.participantIDs
    v.localParticipantID v.automaticPinnedParticipantID v.automaticPinDismissedPairKey
    v.hiddenParticipantIDs
  { v with
    pinnedParticipantIDs := next.pinnedParticipantIDs
    automaticPinnedParticipantID := next.automaticParticipantID
    automaticPinDismissedPairKey := next.dismissedPairKey }

/-! ## Paging -/

/-- A participant other than the local one. -/
def isRemote (participantID : String) : Bool := some participantID ≠ v.localParticipantID

/-- The keys of `remoteEntries`. -/
def remoteEntries : List String :=
  v.participantIDs.filter fun id => v.isRemote id && !v.hiddenParticipantIDs.contains id

def pageCount : Nat :=
  max 1 ((v.remoteEntries.length + participantPageSize - 1) / participantPageSize)

/-- The page after the move to the one that shares its screen. -/
def ownerPage (page : Int) : Int :=
  match v.screenShareOwner.bind v.remoteEntries.idxOf? with
  | some ownerIndex =>
    if participantPageSize < v.remoteEntries.length ∧
        ((ownerIndex / participantPageSize : Nat) : Int) ≠ page then
      ((ownerIndex / participantPageSize : Nat) : Int)
    else page
  | none => page

def pinnedRemoteIndexes : List Nat :=
  (v.pinnedParticipantIDs.filter v.isRemote).filterMap v.remoteEntries.idxOf?

/-- The page after the move to the first pinned participant. -/
def pinnedPage (page : Int) : Int :=
  match v.pinnedRemoteIndexes with
  | [] => page
  | first :: _ =>
    if participantPageSize < v.remoteEntries.length ∧
        v.pinnedRemoteIndexes.any
          (fun index => ((index / participantPageSize : Nat) : Int) ≠ page) then
      ((first / participantPageSize : Nat) : Int)
    else page

/-- `Math.min(Math.max(participantPage, 0), pageCount - 1)`. -/
def clampPage (page : Int) : Int := min (max page 0) (v.pageCount - 1)

/-- The page that `updateParticipantPagination` moves to. -/
def currentPage : Int := v.clampPage (v.pinnedPage (v.ownerPage v.participantPage))

/-- The keys of `visibleEntries` on a page. -/
def visibleEntries (page : Int) : List String :=
  (v.remoteEntries.drop (page.toNat * participantPageSize)).take participantPageSize

/-- Whether the tile of a participant is shown on a page. -/
def visible (page : Int) (participantID : String) : Bool :=
  (!v.isRemote participantID && v.selfViewVisible) ||
    (v.isRemote participantID && !v.hiddenParticipantIDs.contains participantID &&
      (v.remoteEntries.isEmpty || (v.visibleEntries page).contains participantID ||
        v.pinnedParticipantIDs.contains participantID))

/-- `updateParticipantPagination`, up to the request. -/
def paginate : VideoView :=
  { v with
    participantPage := v.currentPage
    participantElements := v.participantElements.map fun element =>
      { element with hidden := !v.visible v.currentPage element.participantID } }

/-! ## Requests -/

/-- The keys of `participantElements` whose entries pass. -/
def cameraIDs (pass : TileElement → Bool) : List String :=
  (v.participantElements.filter fun element =>
    v.isRemote element.participantID && pass element).map (·.participantID)

/-- What `updateParticipantPagination` requests. -/
def visibleCameraIDs : List String :=
  if v.receiveVideoEnabled then
    v.cameraIDs fun element =>
      !element.hidden || v.hiddenParticipantIDs.contains element.participantID
  else []

/-- What `setCameraLayer` requests. -/
def shownCameraIDs : List String :=
  if v.receiveVideoEnabled then v.cameraIDs fun element => !element.hidden else []

/-- The message of `sendVideoSubscriptions`. -/
def message (cameraParticipantIDs : List String) : VideoSubscriptions where
  cameraParticipantIDs := sortedSet cameraParticipantIDs
  cameraLayer := if v.simulcastEnabled then some v.cameraLayer else none

def sendVideoSubscriptions (cameraParticipantIDs : List String) : VideoView :=
  if v.localParticipantID.isNone then v
  else if v.sent.getLast? = some (v.message cameraParticipantIDs) then v
  else { v with sent := v.sent ++ [v.message cameraParticipantIDs] }

def updateParticipantPagination : VideoView :=
  v.paginate.sendVideoSubscriptions v.paginate.visibleCameraIDs

/-! ## The handlers -/

def updateParticipantCount : VideoView :=
  v.syncAutomaticParticipantPin.updateParticipantPagination

/-- `updateScreenShareUI`. -/
def updateScreenShareUI : VideoView := v.updateParticipantPagination

/-- The last line of `addParticipant`. -/
def updateIfJoined : VideoView :=
  if v.localParticipantID.isSome then v.updateParticipantPagination else v

def addParticipant (participantID : String) : VideoView :=
  if v.has participantID then
    if v.removalTimers.contains participantID then
      { v with
        removalTimers := v.removalTimers.filter fun id => id ≠ participantID
      }.updateParticipantCount.updateIfJoined
    else v.updateIfJoined
  else
    { v with
      participantElements := v.participantElements ++ [TileElement.mk participantID false]
    }.updateParticipantCount.updateScreenShareUI.updateIfJoined

/-- `markLocalParticipant`. -/
def markLocalParticipant (participantID : String) : VideoView :=
  if v.has participantID then v.updateParticipantCount else v

/-- The message `participant`, which names the page's own participant. -/
def onParticipant (participantID : String) : VideoView :=
  (({ v.addParticipant participantID with localParticipantID := some participantID }
    ).markLocalParticipant participantID).updateParticipantPagination

def setPinnedParticipant (participantID : String) (userInitiated : Bool) : VideoView :=
  let v :=
    if userInitiated then
      { v with
        automaticPinDismissedPairKey := participantPairKey v.participantIDs v.localParticipantID
        automaticPinnedParticipantID := none }
    else if v.automaticPinnedParticipantID = some participantID then
      { v with automaticPinnedParticipantID := none }
    else v
  let valid := participantID ≠ "" && v.has participantID &&
    (v.isRemote participantID || v.selfViewVisible)
  { v with
    pinnedParticipantIDs :=
      if !valid then []
      else if v.pinnedParticipantIDs.contains participantID then
        unpinParticipant v.pinnedParticipantIDs participantID
      else pinParticipant v.pinnedParticipantIDs participantID 2 }.updateParticipantPagination

/-- The message `participant_left`. -/
def onParticipantLeft (participantID : String) : VideoView :=
  let v :=
    if v.has participantID then
      let v :=
        if v.pinnedParticipantIDs.contains participantID then
          v.setPinnedParticipant participantID false
        else v
      { v with removalTimers := participantID :: v.removalTimers.filter fun id => id ≠ participantID }
    else v
  if v.screenShareOwner = some participantID then
    { v with screenShareOwner := none }.updateScreenShareUI
  else v

/-- The callback of a removal timer. -/
def remove (participantID : String) : VideoView :=
  let v := { v with removalTimers := v.removalTimers.filter fun id => id ≠ participantID }
  if v.has participantID then
    { v with
      participantElements := v.participantElements.filter fun element =>
        element.participantID ≠ participantID }.updateParticipantCount
  else v

/-- The part of `setParticipantTileHidden` that hides a tile. -/
def hideTile (participantID : String) : VideoView :=
  let v := { v with hiddenParticipantIDs := v.hiddenParticipantIDs ++ [participantID] }
  if v.pinnedParticipantIDs.contains participantID then
    let v :=
      if v.automaticPinnedParticipantID = some participantID then
        { v with
          automaticPinDismissedPairKey := participantPairKey v.participantIDs v.localParticipantID
          automaticPinnedParticipantID := none }
      else v
    { v with pinnedParticipantIDs := unpinParticipant v.pinnedParticipantIDs participantID }
  else v

/-- The part of `setParticipantTileHidden` that shows it again. -/
def showTile (participantID : String) : VideoView :=
  let v :=
    { v with
      hiddenParticipantIDs := v.hiddenParticipantIDs.filter fun id => id ≠ participantID }
  match v.remoteEntries.idxOf? participantID with
  | some remoteIndex => { v with participantPage := (remoteIndex / participantPageSize : Nat) }
  | none => v

def setParticipantTileHidden (participantID : String) (hidden : Bool) : VideoView :=
  if !v.has participantID || !v.isRemote participantID then v
  else if v.hiddenParticipantIDs.contains participantID = hidden then v
  else
    (if hidden then v.hideTile participantID
      else v.showTile participantID).updateParticipantPagination

def setParticipantPage (delta : Int) : VideoView :=
  { v with participantPage := v.participantPage + delta }.updateParticipantPagination

/-- The message `screen_share_state`. -/
def onScreenShareState (owner : Option String) : VideoView :=
  { v with screenShareOwner := owner }.updateScreenShareUI

def setSelfViewVisibility (visible : Bool) : VideoView :=
  let v := { v with selfViewVisible := visible }
  let v :=
    match v.localParticipantID with
    | some localID =>
      if !visible && v.pinnedParticipantIDs.contains localID then
        v.setPinnedParticipant localID false
      else v
    | none => v
  v.updateParticipantPagination

def setReceiveVideo (enabled : Bool) : VideoView :=
  { v with receiveVideoEnabled := enabled }.updateParticipantPagination

def cameraLayers : List String := ["low", "medium", "high"]

def setCameraLayer (layer : String) : VideoView :=
  if !v.simulcastEnabled || !cameraLayers.contains layer || v.cameraLayer = layer then v
  else
    { v with cameraLayer := layer }.sendVideoSubscriptions
      { v with cameraLayer := layer }.shownCameraIDs

inductive Label
  | participant (participantID : String)
  | participantJoined (participantID : String)
  | participantLeft (participantID : String)
  | removal (participantID : String)
  | setTileHidden (participantID : String) (hidden : Bool)
  | pin (participantID : String)
  | page (delta : Int)
  | screenShareState (owner : Option String)
  | selfView (visible : Bool)
  | receiveVideo (enabled : Bool)
  | cameraLayer (layer : String)
  deriving DecidableEq, Repr

def step (v : VideoView) : Label → Option VideoView
  | .participant participantID => some (v.onParticipant participantID)
  | .participantJoined participantID => some (v.addParticipant participantID)
  | .participantLeft participantID => some (v.onParticipantLeft participantID)
  | .removal participantID =>
    if v.removalTimers.contains participantID then some (v.remove participantID) else none
  | .setTileHidden participantID hidden => some (v.setParticipantTileHidden participantID hidden)
  | .pin participantID => some (v.setPinnedParticipant participantID true)
  | .page delta => some (v.setParticipantPage delta)
  | .screenShareState owner => some (v.onScreenShareState owner)
  | .selfView visible => some (v.setSelfViewVisibility visible)
  | .receiveVideo enabled => some (v.setReceiveVideo enabled)
  | .cameraLayer layer => some (v.setCameraLayer layer)

def lts (start : VideoView) : Lts VideoView Label := Lts.ofStep start step

/-! ## Paging settles -/

variable {v} {v' : VideoView}

/-- What the paging reads of a view: everything but the flags of the tiles
and the page. -/
structure SameRoster (v v' : VideoView) : Prop where
  localID : v'.localParticipantID = v.localParticipantID
  ids : v'.participantIDs = v.participantIDs
  hiddenIDs : v'.hiddenParticipantIDs = v.hiddenParticipantIDs
  pins : v'.pinnedParticipantIDs = v.pinnedParticipantIDs
  owner : v'.screenShareOwner = v.screenShareOwner
  selfView : v'.selfViewVisible = v.selfViewVisible

theorem participantIDs_paginate (v : VideoView) : v.paginate.participantIDs = v.participantIDs := by
  unfold participantIDs paginate
  rw [List.map_map]
  rfl

theorem sameRoster_paginate (v : VideoView) : SameRoster v v.paginate :=
  ⟨rfl, participantIDs_paginate v, rfl, rfl, rfl, rfl⟩

namespace SameRoster

variable (h : SameRoster v v')

include h

theorem isRemote_eq : v'.isRemote = v.isRemote := by
  funext id
  unfold isRemote
  rw [h.localID]

theorem remoteEntries_eq : v'.remoteEntries = v.remoteEntries := by
  unfold remoteEntries
  rw [h.ids, h.isRemote_eq, h.hiddenIDs]

theorem pageCount_eq : v'.pageCount = v.pageCount := by
  unfold pageCount
  rw [h.remoteEntries_eq]

theorem ownerPage_eq (page : Int) : v'.ownerPage page = v.ownerPage page := by
  unfold ownerPage
  rw [h.remoteEntries_eq, h.owner]

theorem pinnedRemoteIndexes_eq : v'.pinnedRemoteIndexes = v.pinnedRemoteIndexes := by
  unfold pinnedRemoteIndexes
  rw [h.remoteEntries_eq, h.isRemote_eq, h.pins]

theorem pinnedPage_eq (page : Int) : v'.pinnedPage page = v.pinnedPage page := by
  unfold pinnedPage
  rw [h.remoteEntries_eq, h.pinnedRemoteIndexes_eq]

theorem clampPage_eq (page : Int) : v'.clampPage page = v.clampPage page := by
  unfold clampPage
  rw [h.pageCount_eq]

theorem visible_eq (page : Int) (id : String) : v'.visible page id = v.visible page id := by
  unfold visible visibleEntries
  rw [h.remoteEntries_eq, h.isRemote_eq, h.hiddenIDs, h.pins, h.selfView]

end SameRoster

theorem clampPage_clampPage (page : Int) : v.clampPage (v.clampPage page) = v.clampPage page := by
  unfold clampPage
  omega

/-- The one who shares a screen fixes the page, or leaves every page alone. -/
theorem ownerPage_cases (v : VideoView) :
    (∃ fixed, ∀ page, v.ownerPage page = fixed) ∨ ∀ page, v.ownerPage page = page := by
  unfold ownerPage
  cases v.screenShareOwner.bind v.remoteEntries.idxOf? with
  | none => exact Or.inr fun _ => rfl
  | some ownerIndex =>
    by_cases hlength : participantPageSize < v.remoteEntries.length
    · refine Or.inl ⟨((ownerIndex / participantPageSize : Nat) : Int), ?_⟩
      intro page
      dsimp only
      split_ifs with hmove
      · rfl
      · by_contra hne
        exact hmove ⟨hlength, fun heq => hne heq.symm⟩
    · refine Or.inr ?_
      intro page
      exact if_neg fun hmove => hlength hmove.1

/-- So does the first pinned participant. -/
theorem pinnedPage_cases (v : VideoView) :
    (∃ fixed, ∀ page, v.pinnedPage page = fixed) ∨ ∀ page, v.pinnedPage page = page := by
  unfold pinnedPage
  cases hindexes : v.pinnedRemoteIndexes with
  | nil => exact Or.inr fun _ => rfl
  | cons first rest =>
    by_cases hlength : participantPageSize < v.remoteEntries.length
    · refine Or.inl ⟨((first / participantPageSize : Nat) : Int), ?_⟩
      intro page
      dsimp only
      split_ifs with hmove
      · rfl
      · -- no pinned participant is on another page, the first one neither
        by_contra hne
        refine hmove ⟨hlength, ?_⟩
        rw [List.any_cons, Bool.or_eq_true, decide_eq_true_eq]
        exact Or.inl fun heq => hne heq.symm
    · refine Or.inr ?_
      intro page
      exact if_neg fun hmove => hlength hmove.1

/-- **The page that paging moves to is where it stays.** -/
theorem currentPage_paginate (v : VideoView) : v.paginate.currentPage = v.currentPage := by
  have hsame := sameRoster_paginate v
  have hpage : v.paginate.currentPage =
      v.clampPage (v.pinnedPage (v.ownerPage v.currentPage)) := by
    show v.paginate.clampPage (v.paginate.pinnedPage (v.paginate.ownerPage v.currentPage)) = _
    rw [hsame.clampPage_eq, hsame.pinnedPage_eq, hsame.ownerPage_eq]
  rw [hpage]
  obtain ⟨fixed, hfixed⟩ | hpinned := pinnedPage_cases v
  · rw [hfixed, currentPage, hfixed]
  · rw [hpinned, currentPage, hpinned]
    obtain ⟨fixed, hfixed⟩ | howner := ownerPage_cases v
    · rw [hfixed, hfixed]
    · rw [howner, howner, clampPage_clampPage]

/-- **Paging settles the view**: paging again changes nothing. -/
theorem paginate_paginate (v : VideoView) : v.paginate.paginate = v.paginate := by
  have hsame := sameRoster_paginate v
  have helements : v.paginate.paginate.participantElements = v.paginate.participantElements := by
    show v.paginate.participantElements.map _ = _
    rw [currentPage_paginate]
    show (v.participantElements.map _).map _ = v.participantElements.map _
    rw [List.map_map]
    apply List.map_congr_left
    intro element _
    dsimp only [Function.comp_apply]
    rw [hsame.visible_eq]
  have hpage : v.paginate.paginate.participantPage = v.paginate.participantPage :=
    currentPage_paginate v
  show { v.paginate with
    participantPage := v.paginate.paginate.participantPage
    participantElements := v.paginate.paginate.participantElements } = v.paginate
  rw [helements, hpage]

/-! ## What every handler leaves -/

/-- Messages are sent once the page knows its own participant. -/
def Known (v : VideoView) : Prop := v.sent ≠ [] → v.localParticipantID.isSome = true

/-- Between two handlers the view is paged, and the last message is the
request of its paging. -/
structure Settled (v : VideoView) : Prop where
  paginated : v.paginate = v
  last : ∀ m, v.sent.getLast? = some m →
    v.localParticipantID.isSome = true ∧ m = v.message v.visibleCameraIDs

theorem Settled.known (h : v.Settled) : v.Known := by
  intro hsent
  obtain ⟨m, hm⟩ := Option.isSome_iff_exists.mp (List.getLast?_isSome.mpr hsent)
  exact (h.last m hm).1

/-- A request of what the paging shows settles a paged view. -/
theorem settled_send {ids : List String} (hpaginated : v.paginate = v) (h : v.Known)
    (hids : ids = v.visibleCameraIDs) : (v.sendVideoSubscriptions ids).Settled := by
  unfold sendVideoSubscriptions
  split_ifs with hlocal hlast
  · refine ⟨hpaginated, ?_⟩
    intro m hm
    have hsent : v.sent ≠ [] := by
      intro hnil
      rw [hnil] at hm
      cases hm
    have hknown := h hsent
    rw [Option.isSome_iff_ne_none] at hknown
    exact absurd (Option.isNone_iff_eq_none.mp hlocal) hknown
  · refine ⟨hpaginated, ?_⟩
    intro m hm
    have heq := Option.some.inj (hm.symm.trans hlast)
    rw [hids] at heq
    exact ⟨Option.isSome_iff_ne_none.mpr fun hnone => hlocal (Option.isNone_iff_eq_none.mpr hnone),
      heq⟩
  · constructor
    · exact congrArg (fun w : VideoView => { w with sent := v.sent ++ [v.message ids] }) hpaginated
    · intro m hm
      rw [List.getLast?_append, List.getLast?_singleton, Option.some_or] at hm
      have heq := (Option.some.inj hm).symm
      rw [hids] at heq
      exact ⟨Option.isSome_iff_ne_none.mpr fun hnone =>
        hlocal (Option.isNone_iff_eq_none.mpr hnone), heq⟩

theorem settled_update (h : v.Known) : v.updateParticipantPagination.Settled :=
  settled_send (paginate_paginate v) (v := v.paginate) h rfl

theorem settled_updateCount (h : v.Known) : v.updateParticipantCount.Settled :=
  settled_update (v := v.syncAutomaticParticipantPin) h

theorem settled_setPinned (h : v.Known) (id : String) (userInitiated : Bool) :
    (v.setPinnedParticipant id userInitiated).Settled := by
  unfold setPinnedParticipant
  dsimp only
  apply settled_update
  by_cases huser : userInitiated = true
  · simp only [if_pos huser]
    exact h
  · simp only [if_neg huser]
    by_cases hauto : v.automaticPinnedParticipantID = some id
    · simp only [if_pos hauto]
      exact h
    · simp only [if_neg hauto]
      exact h

namespace Settled

variable (h : v.Settled)

include h

/-- The removal timers are not shown. -/
theorem timers (removalTimers : List String) :
    Settled { v with removalTimers := removalTimers } where
  paginated := by
    show { v.paginate with removalTimers := removalTimers } = _
    rw [h.paginated]
  last := h.last

theorem updateIfJoined : v.updateIfJoined.Settled := by
  unfold VideoView.updateIfJoined
  split_ifs
  · exact settled_update h.known
  · exact h

theorem addParticipant (id : String) : (v.addParticipant id).Settled := by
  unfold VideoView.addParticipant
  split_ifs
  · have hcount := settled_updateCount (h.timers (v.removalTimers.filter fun t => t ≠ id)).known
    exact hcount.updateIfJoined
  · exact h.updateIfJoined
  · have hcount := settled_updateCount (v := { v with
      participantElements := v.participantElements ++ [TileElement.mk id false] }) h.known
    exact (settled_update hcount.known).updateIfJoined

omit h in
theorem onParticipant (id : String) : (v.onParticipant id).Settled := by
  unfold VideoView.onParticipant
  apply settled_update
  have hknown : Known { v.addParticipant id with localParticipantID := some id } := fun _ => rfl
  unfold VideoView.markLocalParticipant
  split_ifs
  · exact (settled_updateCount hknown).known
  · exact hknown

theorem unpin (id : String) :
    (if v.pinnedParticipantIDs.contains id then v.setPinnedParticipant id false else v).Settled := by
  split_ifs
  · exact settled_setPinned h.known id false
  · exact h

theorem clearOwner (id : String) :
    (if v.screenShareOwner = some id then
      { v with screenShareOwner := none }.updateScreenShareUI else v).Settled := by
  split_ifs
  · exact settled_update (v := { v with screenShareOwner := none }) h.known
  · exact h

theorem onParticipantLeft (id : String) : (v.onParticipantLeft id).Settled := by
  unfold VideoView.onParticipantLeft
  dsimp only
  apply clearOwner
  by_cases hhas : v.has id = true
  · rw [if_pos hhas]
    exact (h.unpin id).timers _
  · rw [if_neg hhas]
    exact h

theorem remove (id : String) : (v.remove id).Settled := by
  unfold VideoView.remove
  dsimp only
  split_ifs
  · exact settled_updateCount h.known
  · exact h.timers _

theorem setTileHidden (id : String) (hidden : Bool) :
    (v.setParticipantTileHidden id hidden).Settled := by
  unfold VideoView.setParticipantTileHidden
  split_ifs
  · exact h
  · exact h
  · apply settled_update
    unfold hideTile
    dsimp only
    split_ifs
    · exact h.known
    · exact h.known
    · exact h.known
  · apply settled_update
    unfold showTile
    dsimp only
    split
    · exact h.known
    · exact h.known

theorem setSelfView (visible : Bool) : (v.setSelfViewVisibility visible).Settled := by
  unfold setSelfViewVisibility
  dsimp only
  apply settled_update
  split
  · split_ifs
    · exact (settled_setPinned (v := { v with selfViewVisible := visible }) h.known _ false).known
    · exact h.known
  · exact h.known

end Settled

/-! ## A change of the camera layer -/

/-- Whether the user hides the tile of another participant. -/
def hidesTile (v : VideoView) : Bool :=
  v.participantElements.any fun element =>
    v.isRemote element.participantID && v.hiddenParticipantIDs.contains element.participantID

/-- Whether `setCameraLayer` has cameras to request. -/
def requestsLayer (v : VideoView) (layer : String) : Bool :=
  v.simulcastEnabled && cameraLayers.contains layer && v.cameraLayer != layer &&
    v.localParticipantID.isSome && v.receiveVideoEnabled

/-- The camera layer changes while the user hides no tile. -/
def layersApart (v : VideoView) : Label → Bool
  | .cameraLayer layer => !(v.requestsLayer layer && v.hidesTile)
  | _ => true

/-- The tile of a participant whom the user hides is not shown. -/
theorem hidden_of_mem (hpaginated : v.paginate = v) {element : TileElement}
    (hmem : element ∈ v.participantElements) (hremote : v.isRemote element.participantID = true)
    (hhidden : element.participantID ∈ v.hiddenParticipantIDs) : element.hidden = true := by
  rw [← hpaginated] at hmem
  obtain ⟨source, _, rfl⟩ := List.mem_map.mp hmem
  have hcontains : v.hiddenParticipantIDs.contains source.participantID = true :=
    List.contains_iff_mem.mpr hhidden
  show (!v.visible v.currentPage source.participantID) = true
  unfold visible
  rw [hremote, hcontains]
  rfl

/-- Without a tile hidden by the user the two functions request one list. -/
theorem shownCameraIDs_eq (h : v.receiveVideoEnabled = true → v.hidesTile = false) :
    v.shownCameraIDs = v.visibleCameraIDs := by
  unfold shownCameraIDs visibleCameraIDs
  by_cases hreceive : v.receiveVideoEnabled = true
  · rw [if_pos hreceive, if_pos hreceive]
    unfold cameraIDs
    congr 1
    apply List.filter_congr
    intro element hmem
    have hnone := List.any_eq_false.mp (h hreceive) element hmem
    dsimp only
    by_cases hremote : v.isRemote element.participantID = true
    · rw [hremote, Bool.true_and] at hnone
      rw [Bool.eq_false_of_not_eq_true hnone, Bool.or_false]
    · rw [Bool.eq_false_of_not_eq_true hremote, Bool.false_and, Bool.false_and]
  · rw [if_neg hreceive, if_neg hreceive]

theorem mem_sortedSet {ids : List String} {id : String} : id ∈ sortedSet ids ↔ id ∈ ids := by
  unfold sortedSet
  rw [List.mem_insertionSort, List.mem_eraseDups]

/-- With one they do not. -/
theorem message_ne (hpaginated : v.paginate = v) (hreceive : v.receiveVideoEnabled = true)
    (hhides : v.hidesTile = true) :
    v.message v.shownCameraIDs ≠ v.message v.visibleCameraIDs := by
  obtain ⟨element, hmem, hboth⟩ := List.any_eq_true.mp hhides
  obtain ⟨hremote, hhidden⟩ := Bool.and_eq_true_iff.mp hboth
  intro heq
  have hvisible : element.participantID ∈ sortedSet v.visibleCameraIDs := by
    rw [mem_sortedSet, visibleCameraIDs, if_pos hreceive]
    refine List.mem_map.mpr ⟨element, List.mem_filter.mpr ⟨hmem, ?_⟩, rfl⟩
    dsimp only
    rw [hremote, hhidden, Bool.or_true]
    rfl
  have hids : sortedSet v.visibleCameraIDs = sortedSet v.shownCameraIDs :=
    (congrArg VideoSubscriptions.cameraParticipantIDs heq).symm
  rw [hids, mem_sortedSet, shownCameraIDs, if_pos hreceive] at hvisible
  obtain ⟨shown, hshown, hid⟩ := List.mem_map.mp hvisible
  obtain ⟨hshownMem, hpass⟩ := List.mem_filter.mp hshown
  have hshownHidden : shown.hidden = true := by
    apply hidden_of_mem hpaginated hshownMem
    · rw [hid]
      exact hremote
    · rw [hid]
      exact List.contains_iff_mem.mp hhidden
  dsimp only at hpass
  rw [hshownHidden, Bool.not_true, Bool.and_false] at hpass
  cases hpass

theorem last_send (v : VideoView) (ids : List String) (hlocal : v.localParticipantID.isSome = true) :
    (v.sendVideoSubscriptions ids).sent.getLast? = some (v.message ids) := by
  unfold sendVideoSubscriptions
  rw [Option.isSome_iff_ne_none] at hlocal
  rw [if_neg fun hnone => hlocal (Option.isNone_iff_eq_none.mp hnone)]
  split_ifs with hlast
  · exact hlast
  · rw [List.getLast?_append, List.getLast?_singleton, Option.some_or]

theorem paginate_setLayer (hpaginated : v.paginate = v) (layer : String) :
    paginate { v with cameraLayer := layer } = { v with cameraLayer := layer } :=
  congrArg (fun w : VideoView => { w with cameraLayer := layer }) hpaginated

theorem Settled.setLayer (h : v.Settled) {layer : String}
    (hapart : v.layersApart (.cameraLayer layer) = true) : (v.setCameraLayer layer).Settled := by
  unfold setCameraLayer
  split_ifs with hkeep
  · exact h
  · have hpaginated := paginate_setLayer h.paginated layer
    by_cases hlocal : v.localParticipantID.isSome = true
    · apply settled_send hpaginated h.known
      apply shownCameraIDs_eq (v := { v with cameraLayer := layer })
      intro hreceive
      by_contra hhides
      have hrequests : v.requestsLayer layer = true := by
        simp only [Bool.or_eq_true, decide_eq_true_eq, not_or, Bool.not_eq_true,
          Bool.not_eq_false'] at hkeep
        unfold requestsLayer
        rw [hkeep.1.1, hkeep.1.2, hlocal, hreceive]
        simpa using hkeep.2
      unfold layersApart at hapart
      dsimp only at hapart
      rw [hrequests, Bool.true_and, Bool.not_eq_true'] at hapart
      exact hhides hapart
    · -- nothing is sent before the page knows its own participant
      unfold sendVideoSubscriptions
      rw [if_pos (by simpa using hlocal)]
      refine ⟨hpaginated, ?_⟩
      intro m hm
      exact absurd (h.last m hm).1 hlocal

/-- **A page is settled between two handlers** while no camera layer changes
over a hidden tile. -/
theorem Settled.step (h : v.Settled) {l : Label} (hapart : v.layersApart l = true)
    (hstep : v.step l = some v') : v'.Settled := by
  cases l with
  | participant id => exact Option.some.inj hstep ▸ onParticipant id
  | participantJoined id => exact Option.some.inj hstep ▸ h.addParticipant id
  | participantLeft id => exact Option.some.inj hstep ▸ h.onParticipantLeft id
  | removal id =>
    unfold VideoView.step at hstep
    dsimp only at hstep
    split_ifs at hstep
    exact Option.some.inj hstep ▸ h.remove id
  | setTileHidden id hidden => exact Option.some.inj hstep ▸ h.setTileHidden id hidden
  | pin id => exact Option.some.inj hstep ▸ settled_setPinned h.known id true
  | page delta => exact Option.some.inj hstep ▸ settled_update h.known
  | screenShareState owner => exact Option.some.inj hstep ▸ settled_update h.known
  | selfView visible => exact Option.some.inj hstep ▸ h.setSelfView visible
  | receiveVideo enabled => exact Option.some.inj hstep ▸ settled_update h.known
  | cameraLayer layer => exact Option.some.inj hstep ▸ h.setLayer hapart

/-! ## Agreement -/

/-- The view of a page whose socket has just opened. -/
structure Opened (start : VideoView) : Prop where
  paginated : start.paginate = start
  sent : start.sent = []

/-- The last message on the socket is what `updateParticipantPagination`
would request. -/
def Agrees (v : VideoView) : Prop :=
  ∀ m, v.sent.getLast? = some m → m = v.message v.paginate.visibleCameraIDs

theorem Opened.settled {start : VideoView} (hopen : start.Opened) : start.Settled where
  paginated := hopen.paginated
  last m hm := by
    rw [hopen.sent] at hm
    cases hm

theorem Settled.agrees (h : v.Settled) : v.Agrees := by
  intro m hm
  rw [h.paginated]
  exact (h.last m hm).2

theorem message_of_agrees {ids : List String} (hpaginated : v.paginate = v)
    (hlocal : v.localParticipantID.isSome = true) (hagrees : (v.sendVideoSubscriptions ids).Agrees) :
    v.message ids = v.message v.visibleCameraIDs := by
  rw [hagrees _ (last_send v ids hlocal)]
  unfold sendVideoSubscriptions
  split_ifs
  · rw [hpaginated]
  · rw [hpaginated]
  · show v.message v.paginate.visibleCameraIDs = v.message v.visibleCameraIDs
    rw [hpaginated]

/-- A change of the layer over a hidden tile drops the participant. -/
theorem Settled.not_agrees (h : v.Settled) {layer : String}
    (hrequests : v.requestsLayer layer = true) (hhides : v.hidesTile = true) :
    ¬(v.setCameraLayer layer).Agrees := by
  unfold requestsLayer at hrequests
  simp only [Bool.and_eq_true, bne_iff_ne, ne_eq] at hrequests
  obtain ⟨⟨⟨⟨hsimulcast, hlayer⟩, hchange⟩, hlocal⟩, hreceive⟩ := hrequests
  have hpaginated := paginate_setLayer h.paginated layer
  have hkeep : ¬(!v.simulcastEnabled || !cameraLayers.contains layer ||
      decide (v.cameraLayer = layer)) = true := by
    rw [hsimulcast, hlayer]
    simpa using hchange
  unfold setCameraLayer
  rw [if_neg hkeep]
  intro hagrees
  exact message_ne hpaginated hreceive hhides (message_of_agrees hpaginated hlocal hagrees)

theorem Settled.agrees_setLayer_iff (h : v.Settled) (layer : String) :
    (v.setCameraLayer layer).Agrees ↔ v.layersApart (.cameraLayer layer) = true := by
  constructor
  · intro hagrees
    by_contra hapart
    unfold layersApart at hapart
    dsimp only at hapart
    rw [Bool.not_eq_true', Bool.not_eq_false, Bool.and_eq_true] at hapart
    exact h.not_agrees hapart.1 hapart.2 hagrees
  · intro hapart
    exact (h.setLayer hapart).agrees

/-- The last message keeps its participants over a change of the layer. -/
theorem Settled.cameras_setLayer (h : v.Settled) {layer : String}
    (hapart : v.layersApart (.cameraLayer layer) = true) {m m' : VideoSubscriptions}
    (hm : v.sent.getLast? = some m) (hm' : (v.setCameraLayer layer).sent.getLast? = some m') :
    m'.cameraParticipantIDs = m.cameraParticipantIDs := by
  have hlast := ((h.setLayer hapart).last m' hm').2
  rw [hlast, (h.last m hm).2]
  show sortedSet (v.setCameraLayer layer).visibleCameraIDs = sortedSet v.visibleCameraIDs
  unfold setCameraLayer sendVideoSubscriptions
  split_ifs
  · rfl
  · rfl
  · rfl
  · rfl

theorem settled_of_reachable {start : VideoView} (hopen : start.Opened)
    (h : (lts start).Reachable (fun v l => v.layersApart l = true) v) : v.Settled :=
  h.invariant_ofStep hopen.settled fun _ _ _ hsettled hapart hstep => hsettled.step hapart hstep

/-- **The last request on a socket is the one that paging would send**, in
every run that changes the camera layer over no hidden tile; over one the
change drops the participant. -/
theorem agrees_of_layersApart {start : VideoView} (hopen : start.Opened)
    (h : (lts start).Reachable (fun v l => v.layersApart l = true) v) :
    v.Agrees ∧ ∀ layer,
      ((v.setCameraLayer layer).Agrees ↔ v.layersApart (.cameraLayer layer) = true) ∧
      (v.layersApart (.cameraLayer layer) = true → ∀ m m', v.sent.getLast? = some m →
        (v.setCameraLayer layer).sent.getLast? = some m' →
        m'.cameraParticipantIDs = m.cameraParticipantIDs) := by
  have hsettled := settled_of_reachable hopen h
  refine ⟨hsettled.agrees, ?_⟩
  intro layer
  constructor
  · exact hsettled.agrees_setLayer_iff layer
  · intro hapart m m' hm hm'
    exact hsettled.cameras_setLayer hapart hm hm'

/-- A page that has just loaded. -/
def loaded : VideoView where
  localParticipantID := none
  participantElements := []
  hiddenParticipantIDs := []
  pinnedParticipantIDs := []
  automaticPinnedParticipantID := none
  automaticPinDismissedPairKey := none
  participantPage := 0
  screenShareOwner := none
  selfViewVisible := true
  receiveVideoEnabled := true
  simulcastEnabled := true
  cameraLayer := "medium"
  removalTimers := []
  sent := []

theorem loaded_opened : loaded.Opened := ⟨by decide, rfl⟩

theorem agrees_of_layersApart_hidden :
    ∃ v : VideoView, v.sent.getLast? = some ⟨["b"], some "low"⟩ ∧ v.Agrees := by
  obtain ⟨v, hv, hlast⟩ := Lts.exists_reachable_of_execWhen layersApart step loaded
    [.participant "a", .participantJoined "b", .cameraLayer "low", .setTileHidden "b" true]
    (fun v => v.sent.getLast?) (some ⟨["b"], some "low"⟩) (by decide +kernel)
  exact ⟨v, hlast, (agrees_of_layersApart loaded_opened hv).1⟩

/-- The layer changes after the tile is hidden. -/
theorem not_agrees_of_hiddenTile :
    ∃ v : VideoView, (lts loaded).Reachable Lts.Any v ∧ ¬v.Agrees := by
  obtain ⟨v, hv, hstate⟩ := Lts.exists_reachable_of_exec Lts.Any step loaded
    [.participant "a", .participantJoined "b", .setTileHidden "b" true, .cameraLayer "low"]
    (fun v => (v.sent.getLast?, v.message v.paginate.visibleCameraIDs))
    (some ⟨[], some "low"⟩, ⟨["b"], some "low"⟩) (fun _ _ _ => trivial) (by decide +kernel)
  simp only [Prod.mk.injEq] at hstate
  refine ⟨v, hv, ?_⟩
  intro hagrees
  have heq := hagrees _ hstate.1
  rw [hstate.2] at heq
  cases heq

end VideoView

end SlowMeet.Client
