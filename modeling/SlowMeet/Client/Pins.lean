import SlowMeet.Client.VideoSubscriptions

/-!
# The pinned tiles of a page

In a meeting of two the page pins the other participant by itself, until the
user pins or unpins a tile or hides this one. What the pins of `web/js/app.js`
are between two handlers, over a whole visit: the handlers of one socket, the
reset before a reconnection and `leave`, which both leave the automatic pin and
its dismissal behind.
-/

namespace SlowMeet.Client

open Lib

/-! ## Lists without repetition -/

theorem nodup_eraseDups (ids : List String) : ids.eraseDups.Nodup := by
  induction hn : ids.length using Nat.strong_induction_on generalizing ids with
  | _ n ih =>
    cases ids with
    | nil => exact List.nodup_nil
    | cons id rest =>
      rw [List.eraseDups_cons, List.nodup_cons]
      constructor
      · rw [List.mem_eraseDups]
        intro hmem
        simpa using (List.mem_filter.mp hmem).2
      · have hle := List.length_filter_le (fun b => !b == id) rest
        rw [List.length_cons] at hn
        exact ih _ (by omega) _ rfl

theorem eraseDups_of_nodup {ids : List String} (h : ids.Nodup) : ids.eraseDups = ids := by
  induction ids with
  | nil => rfl
  | cons id rest ih =>
    rw [List.nodup_cons] at h
    have hfilter : rest.filter (fun b => !b == id) = rest := by
      apply List.filter_eq_self.mpr
      intro b hb
      have hne : b ≠ id := fun heq => h.1 (heq ▸ hb)
      simpa using hne
    rw [List.eraseDups_cons, hfilter, ih h.2]

/-! ## The functions of `meeting-layout.js` -/

theorem length_lastPins_le (pins : List String) (maxPins : Nat) :
    (lastPins pins maxPins).length ≤ maxPins := by
  unfold lastPins
  rw [List.length_drop]
  omega

theorem nodup_lastPins {pins : List String} (h : pins.Nodup) (maxPins : Nat) :
    (lastPins pins maxPins).Nodup :=
  h.sublist (List.drop_sublist _ _)

theorem length_pinParticipant_le (pins : List String) (id : String) (maxPins : Nat) :
    (pinParticipant pins id maxPins).length ≤ maxPins := by
  unfold pinParticipant
  split_ifs
  · exact length_lastPins_le _ _
  · exact length_lastPins_le _ _

theorem nodup_pinParticipant {pins : List String} (h : pins.Nodup) (id : String) (maxPins : Nat) :
    (pinParticipant pins id maxPins).Nodup := by
  unfold pinParticipant
  split_ifs with hpinned
  · exact nodup_lastPins h _
  · have hnew : id ∉ pins := fun hmem => hpinned (Or.inr hmem)
    apply nodup_lastPins
    rw [List.nodup_append]
    refine ⟨h, List.nodup_singleton id, ?_⟩
    intro a ha b hb heq
    rw [List.mem_singleton] at hb
    exact hnew (hb ▸ heq ▸ ha)

theorem pinParticipant_nil {id : String} (h : id ≠ "") : pinParticipant [] id 2 = [id] := by
  unfold pinParticipant
  rw [if_neg (by simpa using h)]
  rfl

theorem length_unpinParticipant_le (pins : List String) (id : String) :
    (unpinParticipant pins id).length ≤ pins.length :=
  List.length_filter_le _ _

theorem nodup_unpinParticipant {pins : List String} (h : pins.Nodup) (id : String) :
    (unpinParticipant pins id).Nodup :=
  h.filter _

/-- A pair key is one of two participants, the local one among them. -/
theorem participantPairKey_eq_some {ids : List String} {localID : Option String}
    {key : List String} (h : participantPairKey ids localID = some key) :
    ((ids.filter fun id => id ≠ "").eraseDups).length = 2 ∧
      key = sortedSet ((ids.filter fun id => id ≠ "").eraseDups) ∧
      ∃ id, localID = some id ∧ id ∈ (ids.filter fun id => id ≠ "").eraseDups := by
  unfold participantPairKey at h
  cases localID with
  | none => simp at h
  | some id =>
    dsimp only at h
    split_ifs at h with hpair
    simp only [not_or, not_not] at hpair
    exact ⟨hpair.1, (Option.some.inj h).symm, id, rfl, hpair.2⟩

/-- The reconciliation computes the key of the roster. -/
theorem participantPairKey_roster (ids : List String) (localID : Option String) :
    participantPairKey ((ids.filter fun id => id ≠ "").eraseDups) localID =
      participantPairKey ids localID := by
  have hfilter : ((ids.filter fun id => id ≠ "").eraseDups).filter (fun id => id ≠ "") =
      (ids.filter fun id => id ≠ "").eraseDups := by
    apply List.filter_eq_self.mpr
    intro id hid
    rw [List.mem_eraseDups] at hid
    exact (List.mem_filter.mp hid).2
  unfold participantPairKey
  rw [hfilter, eraseDups_of_nodup (nodup_eraseDups _)]

/-- No pair has one participant. -/
theorem participantPairKey_singleton (id : String) (localID : Option String) :
    participantPairKey [id] localID = none := by
  cases hkey : participantPairKey [id] localID with
  | none => rfl
  | some key =>
    have hlength := (participantPairKey_eq_some hkey).1
    have hone : ((List.filter (fun id => id ≠ "") [id]).eraseDups).length ≤ 1 := by
      by_cases hid : id = ""
      · simp [hid]
      · simp [hid, List.eraseDups_cons]
    omega

/-- A new participant is in no pair that the others are. -/
theorem participantPairKey_append {ids : List String} {id : String} (hnew : id ∉ ids)
    {localID localID' : Option String} {key : List String}
    (h : participantPairKey ids localID = some key)
    (h' : participantPairKey (ids ++ [id]) localID' = some key) :
    id = "" := by
  by_contra hid
  have hlength := (participantPairKey_eq_some h).1
  have hlength' := (participantPairKey_eq_some h').1
  have hfilter : (ids ++ [id]).filter (fun id => id ≠ "") =
      ids.filter (fun id => id ≠ "") ++ [id] := by
    rw [List.filter_append]
    simp [hid]
  have hremove : [id].removeAll (ids.filter fun id => id ≠ "") = [id] := by
    simp [List.removeAll, hnew]
  rw [hfilter, List.eraseDups_append, hremove, List.length_append, hlength] at hlength'
  simp [List.eraseDups_cons] at hlength'

/-! ## The reconciliation -/

/-- What an automatic pin is: the only one, of another participant of a pair
that was not dismissed. -/
structure AutomaticPin (pins ids : List String) (localID : Option String) (id : String)
    (dismissedPairKey : Option (List String)) (hiddenIDs : List String) : Prop where
  alone : pins = [id]
  present : id ∈ ids
  shown : id ∉ hiddenIDs
  paired : (participantPairKey ids localID).isSome = true
  undismissed : dismissedPairKey = none

section Reconcile

variable {pins ids : List String} {localID automaticID : Option String}
  {dismissedPairKey : Option (List String)} {hiddenIDs : List String}

/-- Whether the pair goes on that an automatic pin was made for. -/
def pairLasts (ids : List String) (localID : Option String) (hiddenIDs : List String)
    (id : String) : Bool :=
  (participantPairKey ids localID).isSome &&
    ((ids.filter fun id => id ≠ "").eraseDups).contains id && !hiddenIDs.contains id

theorem pairLasts_iff {id : String} :
    pairLasts ids localID hiddenIDs id = true ↔
      (participantPairKey ids localID).isSome = true ∧ (id ∈ ids ∧ id ≠ "") ∧ id ∉ hiddenIDs := by
  unfold pairLasts
  simp only [Bool.and_eq_true, List.contains_iff_mem, List.mem_eraseDups, List.mem_filter,
    decide_eq_true_eq, Bool.not_eq_true', ← Bool.not_eq_true, and_assoc]

/-- The pins without the automatic one of a pair that is over. -/
def remainingPins (pins ids : List String) (localID automaticID : Option String)
    (hiddenIDs : List String) : List String :=
  match automaticID with
  | some id => if pairLasts ids localID hiddenIDs id then pins else unpinParticipant pins id
  | none => pins

/-- The two answers: what remains, or a new automatic pin where nothing is
pinned. -/
theorem reconcile_cases (pins ids : List String) (localID automaticID : Option String)
    (dismissedPairKey : Option (List String)) (hiddenIDs : List String) :
    reconcileAutomaticParticipantPin pins ids localID automaticID dismissedPairKey hiddenIDs =
        ⟨remainingPins pins ids localID automaticID hiddenIDs,
          automaticID.filter (pairLasts ids localID hiddenIDs),
          if dismissedPairKey = participantPairKey ids localID then dismissedPairKey else none⟩ ∨
      ∃ id, pairLasts ids localID hiddenIDs id = true ∧
        (if dismissedPairKey = participantPairKey ids localID then dismissedPairKey else none) =
          none ∧
        reconcileAutomaticParticipantPin pins ids localID automaticID dismissedPairKey hiddenIDs =
          ⟨[id], some id, none⟩ := by
  unfold reconcileAutomaticParticipantPin
  dsimp only
  rw [participantPairKey_roster]
  split
  · rename_i id hremote
    right
    refine ⟨id, ?_⟩
    obtain ⟨hfresh, hfind⟩ := Option.ite_none_right_eq_some.mp hremote
    rw [Bool.and_eq_true, Bool.and_eq_true, Bool.and_eq_true, decide_eq_true_eq] at hfresh
    obtain ⟨⟨⟨hpair, hdismissed⟩, -⟩, hempty⟩ := hfresh
    have hfound := List.find?_some hfind
    have hroster := List.mem_of_find?_eq_some hfind
    rw [List.mem_eraseDups, List.mem_filter] at hroster
    simp only [Bool.and_eq_true, Bool.not_eq_true'] at hfound
    have hid : id ≠ "" := by simpa using hroster.2
    have hshown : id ∉ hiddenIDs := by simpa using hfound.2
    have hnone := Option.isNone_iff_eq_none.mp hdismissed
    refine ⟨pairLasts_iff.mpr ⟨hpair, ⟨hroster.1, hid⟩, hshown⟩, hnone, ?_⟩
    rw [hnone, hempty, pinParticipant_nil hid]
  · left
    rfl

theorem pins_reconcile (hpins : pins.length ≤ 2) (hnodup : pins.Nodup) :
    (reconcileAutomaticParticipantPin pins ids localID automaticID dismissedPairKey
        hiddenIDs).pinnedParticipantIDs.length ≤ 2 ∧
      (reconcileAutomaticParticipantPin pins ids localID automaticID dismissedPairKey
        hiddenIDs).pinnedParticipantIDs.Nodup := by
  obtain he | ⟨id, -, -, he⟩ :=
    reconcile_cases pins ids localID automaticID dismissedPairKey hiddenIDs
  · rw [he]
    dsimp only
    unfold remainingPins
    cases automaticID with
    | none => exact ⟨hpins, hnodup⟩
    | some a =>
      dsimp only
      split_ifs
      · exact ⟨hpins, hnodup⟩
      · exact ⟨(length_unpinParticipant_le pins a).trans hpins, nodup_unpinParticipant hnodup a⟩
  · rw [he]
    exact ⟨by simp, List.nodup_singleton id⟩

/-- A dismissal lasts as long as its pair. -/
theorem dismissedPairKey_reconcile :
    (reconcileAutomaticParticipantPin pins ids localID automaticID dismissedPairKey
        hiddenIDs).dismissedPairKey =
      if dismissedPairKey = participantPairKey ids localID then dismissedPairKey else none := by
  obtain he | ⟨id, -, hdismissed, he⟩ :=
    reconcile_cases pins ids localID automaticID dismissedPairKey hiddenIDs
  · rw [he]
  · rw [he, hdismissed]

/-- An automatic pin is kept while its pair lasts; a new one is made where
nothing is pinned. -/
theorem automatic_reconcile
    (hkept : ∀ a, automaticID = some a → (participantPairKey ids localID).isSome = true →
      pins = [a] ∧ dismissedPairKey = none) {a : String}
    (h : (reconcileAutomaticParticipantPin pins ids localID automaticID dismissedPairKey
      hiddenIDs).automaticParticipantID = some a) :
    AutomaticPin
      (reconcileAutomaticParticipantPin pins ids localID automaticID dismissedPairKey
        hiddenIDs).pinnedParticipantIDs ids localID a
      (reconcileAutomaticParticipantPin pins ids localID automaticID dismissedPairKey
        hiddenIDs).dismissedPairKey hiddenIDs := by
  obtain he | ⟨id, hlasts, -, he⟩ :=
    reconcile_cases pins ids localID automaticID dismissedPairKey hiddenIDs
  · rw [he] at h ⊢
    obtain ⟨hautomatic, hlasts⟩ := Option.filter_eq_some_iff.mp h
    obtain ⟨hpair, ⟨hpresent, -⟩, hshown⟩ := pairLasts_iff.mp hlasts
    obtain ⟨halone, hdismissed⟩ := hkept a hautomatic hpair
    refine ⟨?_, hpresent, hshown, hpair, ?_⟩
    · rw [hautomatic]
      show (if pairLasts ids localID hiddenIDs a = true then pins else _) = [a]
      rw [if_pos hlasts, halone]
    · rw [hdismissed]
      split_ifs
      · rfl
      · rfl
  · rw [he] at h ⊢
    obtain rfl : id = a := Option.some.inj h
    obtain ⟨hpair, ⟨hpresent, -⟩, hshown⟩ := pairLasts_iff.mp hlasts
    exact ⟨rfl, hpresent, hshown, hpair, rfl⟩

end Reconcile

namespace VideoView

variable {v v' v'' : VideoView}

def pairKey (v : VideoView) : Option (List String) :=
  participantPairKey v.participantIDs v.localParticipantID

/-! ## The visit -/

/-- `resetMediaConnection`, before a reconnection; its requests find the
socket closed. -/
def resetMediaConnection (v : VideoView) : VideoView :=
  { v with
    pinnedParticipantIDs := []
    removalTimers := []
    participantElements := []
    participantPage := 0
    screenShareOwner := none
    sent := [] }.paginate

/-- The handler of `leave`. -/
def leave (v : VideoView) : VideoView :=
  { v with
    localParticipantID := none
    hiddenParticipantIDs := []
    pinnedParticipantIDs := []
    removalTimers := []
    cameraLayer := "medium"
    participantPage := 0
    receiveVideoEnabled := true
    screenShareOwner := none
    participantElements := []
    sent := [] }.paginate

inductive Event
  | handler (l : Label)
  | resetMediaConnection
  | leave
  deriving DecidableEq

def visit (v : VideoView) : Event → Option VideoView
  | .handler l => v.step l
  | .resetMediaConnection => some v.resetMediaConnection
  | .leave => some v.leave

def visits : Lts VideoView Event := Lts.ofStep loaded visit

/-! ## What every handler keeps -/

/-- What the pins, the automatic one and its dismissal are. A reset leaves the
last two behind, until a participant is added. -/
structure Pinning (v : VideoView) : Prop where
  length : v.pinnedParticipantIDs.length ≤ 2
  nodup : v.pinnedParticipantIDs.Nodup
  automatic : ∀ a, v.automaticPinnedParticipantID = some a → v.participantIDs ≠ [] →
    AutomaticPin v.pinnedParticipantIDs v.participantIDs v.localParticipantID a
      v.automaticPinDismissedPairKey v.hiddenParticipantIDs
  dismissed : ∀ key, v.automaticPinDismissedPairKey = some key → v.participantIDs ≠ [] →
    v.pairKey = some key

/-- What a reconciliation needs. -/
structure Tidy (v : VideoView) : Prop where
  length : v.pinnedParticipantIDs.length ≤ 2
  nodup : v.pinnedParticipantIDs.Nodup
  kept : ∀ a, v.automaticPinnedParticipantID = some a → v.pairKey.isSome = true →
    v.pinnedParticipantIDs = [a] ∧ v.automaticPinDismissedPairKey = none

/-- Two views with the same pins, of the same participants. -/
structure SamePins (v v' : VideoView) : Prop where
  localID : v'.localParticipantID = v.localParticipantID
  ids : v'.participantIDs = v.participantIDs
  hiddenIDs : v'.hiddenParticipantIDs = v.hiddenParticipantIDs
  pins : v'.pinnedParticipantIDs = v.pinnedParticipantIDs
  automatic : v'.automaticPinnedParticipantID = v.automaticPinnedParticipantID
  dismissed : v'.automaticPinDismissedPairKey = v.automaticPinDismissedPairKey

theorem SamePins.pairKey_eq (h : SamePins v v') : v'.pairKey = v.pairKey := by
  unfold pairKey
  rw [h.ids, h.localID]

theorem Pinning.congr (h : v.Pinning) (hsame : SamePins v v') : v'.Pinning := by
  constructor
  · rw [hsame.pins]
    exact h.length
  · rw [hsame.pins]
    exact h.nodup
  · rw [hsame.automatic, hsame.ids, hsame.pins, hsame.localID, hsame.dismissed, hsame.hiddenIDs]
    exact h.automatic
  · rw [hsame.dismissed, hsame.ids, hsame.pairKey_eq]
    exact h.dismissed

theorem samePins_update (v : VideoView) : SamePins v v.updateParticipantPagination := by
  unfold updateParticipantPagination sendVideoSubscriptions
  split_ifs
  · exact ⟨rfl, participantIDs_paginate v, rfl, rfl, rfl, rfl⟩
  · exact ⟨rfl, participantIDs_paginate v, rfl, rfl, rfl, rfl⟩
  · exact ⟨rfl, participantIDs_paginate v, rfl, rfl, rfl, rfl⟩

theorem Pinning.update (h : v.Pinning) : v.updateParticipantPagination.Pinning :=
  h.congr (samePins_update v)

theorem ids_ne_nil_of_pairKey (h : v.pairKey.isSome = true) : v.participantIDs ≠ [] := by
  intro hnil
  obtain ⟨key, hkey⟩ := Option.isSome_iff_exists.mp h
  have hlength := (participantPairKey_eq_some hkey).1
  rw [hnil] at hlength
  cases hlength

theorem ids_ne_nil_of_has {id : String} (h : v.has id = true) : v.participantIDs ≠ [] :=
  List.ne_nil_of_mem (List.contains_iff_mem.mp h)

theorem Pinning.tidy (h : v.Pinning) : v.Tidy where
  length := h.length
  nodup := h.nodup
  kept a ha hpair := by
    have hautomatic := h.automatic a ha (ids_ne_nil_of_pairKey hpair)
    exact ⟨hautomatic.alone, hautomatic.undismissed⟩

theorem Tidy.sync (h : v.Tidy) : v.syncAutomaticParticipantPin.Pinning := by
  obtain ⟨hlength, hnodup⟩ : v.syncAutomaticParticipantPin.pinnedParticipantIDs.length ≤ 2 ∧
      v.syncAutomaticParticipantPin.pinnedParticipantIDs.Nodup :=
    pins_reconcile h.length h.nodup
  refine ⟨hlength, hnodup, fun a ha _ => automatic_reconcile h.kept ha, ?_⟩
  intro key hkey _
  have hdismissed : v.syncAutomaticParticipantPin.automaticPinDismissedPairKey =
      if v.automaticPinDismissedPairKey = v.pairKey then v.automaticPinDismissedPairKey else none :=
    dismissedPairKey_reconcile
  rw [hkey] at hdismissed
  split_ifs at hdismissed with hsame
  exact hsame.symm.trans hdismissed.symm

theorem Tidy.updateCount (h : v.Tidy) : v.updateParticipantCount.Pinning :=
  h.sync.update

theorem Pinning.updateIfJoined (h : v.Pinning) : v.updateIfJoined.Pinning := by
  unfold VideoView.updateIfJoined
  split_ifs
  · exact h.update
  · exact h

/-- Of the one participant after a reset there is no pair yet. -/
theorem Pinning.add (h : v.Pinning) (id : String) :
    Tidy { v with
      participantElements := v.participantElements ++ [TileElement.mk id false] } := by
  refine ⟨h.length, h.nodup, ?_⟩
  intro a ha hpair
  have hids : participantIDs { v with
      participantElements := v.participantElements ++ [TileElement.mk id false] } =
      v.participantIDs ++ [id] := by
    unfold participantIDs
    rw [List.map_append]
    rfl
  by_cases hempty : v.participantIDs = []
  · unfold pairKey at hpair
    rw [hids, hempty, List.nil_append, participantPairKey_singleton] at hpair
    cases hpair
  · have hautomatic := h.automatic a ha hempty
    exact ⟨hautomatic.alone, hautomatic.undismissed⟩

theorem Pinning.addParticipant (h : v.Pinning) (id : String) : (v.addParticipant id).Pinning := by
  unfold VideoView.addParticipant
  split_ifs
  · have htidy : Tidy { v with removalTimers := v.removalTimers.filter fun t => t ≠ id } :=
      ⟨h.length, h.nodup, h.tidy.kept⟩
    exact htidy.updateCount.updateIfJoined
  · exact h.updateIfJoined
  · exact ((h.add id).updateCount.update).updateIfJoined

theorem participantIDs_update (v : VideoView) :
    v.updateParticipantPagination.participantIDs = v.participantIDs :=
  (samePins_update v).ids

theorem participantIDs_updateCount (v : VideoView) :
    v.updateParticipantCount.participantIDs = v.participantIDs :=
  participantIDs_update v.syncAutomaticParticipantPin

theorem participantIDs_updateIfJoined (v : VideoView) :
    v.updateIfJoined.participantIDs = v.participantIDs := by
  unfold updateIfJoined
  split_ifs
  · exact participantIDs_update v
  · rfl

theorem participantIDs_addParticipant (v : VideoView) (id : String) :
    (v.addParticipant id).participantIDs =
      if v.has id = true then v.participantIDs else v.participantIDs ++ [id] := by
  unfold addParticipant
  by_cases hhas : v.has id = true
  · rw [if_pos hhas, if_pos hhas]
    split_ifs
    · rw [participantIDs_updateIfJoined, participantIDs_updateCount]
      rfl
    · exact participantIDs_updateIfJoined v
  · rw [if_neg hhas, if_neg hhas, participantIDs_updateIfJoined]
    unfold updateScreenShareUI
    rw [participantIDs_update, participantIDs_updateCount]
    unfold participantIDs
    rw [List.map_append]
    rfl

/-- The page's own participant has an element when it learns its name. -/
theorem has_addParticipant (v : VideoView) (id : String) : (v.addParticipant id).has id = true := by
  unfold has
  rw [participantIDs_addParticipant, List.contains_iff_mem]
  split_ifs with hhas
  · exact List.contains_iff_mem.mp hhas
  · exact List.mem_append_right _ (List.mem_singleton.mpr rfl)

theorem Pinning.onParticipant (h : v.Pinning) (id : String) : (v.onParticipant id).Pinning := by
  have hadded := h.addParticipant id
  have htidy : Tidy { v.addParticipant id with localParticipantID := some id } := by
    refine ⟨hadded.length, hadded.nodup, ?_⟩
    intro a ha _
    have hautomatic := hadded.automatic a ha (ids_ne_nil_of_has (has_addParticipant v id))
    exact ⟨hautomatic.alone, hautomatic.undismissed⟩
  unfold VideoView.onParticipant
  apply Pinning.update
  unfold markLocalParticipant
  split_ifs with hhas
  · exact htidy.updateCount
  · exact absurd (has_addParticipant v id) hhas

/-- The new pins of `setPinnedParticipant`. -/
theorem pins_setPinned (hlength : v.pinnedParticipantIDs.length ≤ 2)
    (hnodup : v.pinnedParticipantIDs.Nodup) (valid : Bool) (id : String) :
    (if (!valid) = true then []
        else if v.pinnedParticipantIDs.contains id = true then
          unpinParticipant v.pinnedParticipantIDs id
        else pinParticipant v.pinnedParticipantIDs id 2).length ≤ 2 ∧
      (if (!valid) = true then []
        else if v.pinnedParticipantIDs.contains id = true then
          unpinParticipant v.pinnedParticipantIDs id
        else pinParticipant v.pinnedParticipantIDs id 2).Nodup := by
  split_ifs
  · exact ⟨by simp, List.nodup_nil⟩
  · exact ⟨(length_unpinParticipant_le _ _).trans hlength, nodup_unpinParticipant hnodup id⟩
  · exact ⟨length_pinParticipant_le _ _ _, nodup_pinParticipant hnodup id 2⟩

theorem pinning_of_no_automatic (hlength : v.pinnedParticipantIDs.length ≤ 2)
    (hnodup : v.pinnedParticipantIDs.Nodup) (hautomatic : v.automaticPinnedParticipantID = none)
    (hdismissed : ∀ key, v.automaticPinDismissedPairKey = some key → v.participantIDs ≠ [] →
      v.pairKey = some key) : v.Pinning := by
  refine ⟨hlength, hnodup, ?_, hdismissed⟩
  intro a ha
  rw [hautomatic] at ha
  cases ha

/-- What the user pins or unpins dismisses the automatic pin. -/
theorem Pinning.pin (h : v.Pinning) (id : String) : (v.setPinnedParticipant id true).Pinning := by
  unfold setPinnedParticipant
  dsimp only
  rw [if_pos rfl]
  apply Pinning.update
  obtain ⟨hlength, hnodup⟩ := pins_setPinned h.length h.nodup
    (id ≠ "" && v.has id && (v.isRemote id || v.selfViewVisible)) id
  exact pinning_of_no_automatic hlength hnodup rfl fun key hkey _ => hkey

/-- A pinned tile that goes takes the automatic pin with it. -/
theorem Pinning.unpin (h : v.Pinning) {id : String} (hpinned : id ∈ v.pinnedParticipantIDs) :
    (v.setPinnedParticipant id false).Pinning := by
  unfold setPinnedParticipant
  dsimp only
  rw [if_neg Bool.false_ne_true]
  apply Pinning.update
  obtain ⟨hlength, hnodup⟩ := pins_setPinned h.length h.nodup
    (id ≠ "" && v.has id && (v.isRemote id || v.selfViewVisible)) id
  by_cases hauto : v.automaticPinnedParticipantID = some id
  · simp only [if_pos hauto]
    exact pinning_of_no_automatic hlength hnodup rfl h.dismissed
  · simp only [if_neg hauto]
    refine ⟨hlength, hnodup, ?_, h.dismissed⟩
    intro a ha hids
    -- the only pin would be the automatic one
    have halone := (h.automatic a ha hids).alone
    rw [halone, List.mem_singleton] at hpinned
    exact absurd (hpinned ▸ ha) hauto

theorem Pinning.timers (h : v.Pinning) (removalTimers : List String) :
    Pinning { v with removalTimers := removalTimers } :=
  h.congr ⟨rfl, rfl, rfl, rfl, rfl, rfl⟩

theorem Pinning.onParticipantLeft (h : v.Pinning) (id : String) :
    (v.onParticipantLeft id).Pinning := by
  have hpinned : (if v.pinnedParticipantIDs.contains id = true then
      v.setPinnedParticipant id false else v).Pinning := by
    split_ifs with hcontains
    · exact h.unpin (List.contains_iff_mem.mp hcontains)
    · exact h
  have howner : ∀ w : VideoView, w.Pinning → (if w.screenShareOwner = some id then
      { w with screenShareOwner := none }.updateScreenShareUI else w).Pinning := by
    intro w hw
    split_ifs
    · have hcleared : Pinning { w with screenShareOwner := none } :=
        hw.congr ⟨rfl, rfl, rfl, rfl, rfl, rfl⟩
      exact hcleared.update
    · exact hw
  unfold VideoView.onParticipantLeft
  dsimp only
  apply howner
  by_cases hhas : v.has id = true
  · rw [if_pos hhas]
    exact hpinned.timers _
  · rw [if_neg hhas]
    exact h

theorem Pinning.remove (h : v.Pinning) (id : String) : (v.remove id).Pinning := by
  unfold VideoView.remove
  dsimp only
  by_cases hhas : has { v with removalTimers := v.removalTimers.filter fun t => t ≠ id } id = true
  · rw [if_pos hhas]
    apply Tidy.updateCount
    refine ⟨h.length, h.nodup, ?_⟩
    intro a ha _
    have hautomatic := h.automatic a ha (ids_ne_nil_of_has hhas)
    exact ⟨hautomatic.alone, hautomatic.undismissed⟩
  · rw [if_neg hhas]
    exact h.timers _

theorem Pinning.hideTile (h : v.Pinning) {id : String} (hhas : v.has id = true) :
    (v.hideTile id).Pinning := by
  have hids := ids_ne_nil_of_has hhas
  unfold VideoView.hideTile
  dsimp only
  split_ifs with hcontains hauto
  · exact pinning_of_no_automatic ((length_unpinParticipant_le _ _).trans h.length)
      (nodup_unpinParticipant h.nodup id) rfl fun key hkey _ => hkey
  · refine ⟨(length_unpinParticipant_le _ _).trans h.length, nodup_unpinParticipant h.nodup id,
      ?_, h.dismissed⟩
    intro a ha _
    have halone := (h.automatic a ha hids).alone
    have hpinned : id ∈ v.pinnedParticipantIDs := List.contains_iff_mem.mp hcontains
    rw [halone, List.mem_singleton] at hpinned
    exact absurd (hpinned ▸ ha) hauto
  · refine ⟨h.length, h.nodup, ?_, h.dismissed⟩
    intro a ha _
    have hautomatic := h.automatic a ha hids
    refine { hautomatic with shown := ?_ }
    intro hmem
    obtain hmem | hmem := List.mem_append.mp hmem
    · exact hautomatic.shown hmem
    · -- the tile that was hidden is not pinned
      rw [List.mem_singleton] at hmem
      apply hcontains
      show v.pinnedParticipantIDs.contains id = true
      rw [List.contains_iff_mem, hautomatic.alone, List.mem_singleton, hmem]

theorem Pinning.showTile (h : v.Pinning) (id : String) : (v.showTile id).Pinning := by
  have hshown : Pinning { v with
      hiddenParticipantIDs := v.hiddenParticipantIDs.filter fun hidden => hidden ≠ id } := by
    refine ⟨h.length, h.nodup, ?_, h.dismissed⟩
    intro a ha hids
    have hautomatic := h.automatic a ha hids
    exact { hautomatic with shown := fun hmem => hautomatic.shown (List.mem_filter.mp hmem).1 }
  unfold VideoView.showTile
  dsimp only
  split
  · exact hshown.congr ⟨rfl, rfl, rfl, rfl, rfl, rfl⟩
  · exact hshown

theorem Pinning.setTileHidden (h : v.Pinning) (id : String) (hidden : Bool) :
    (v.setParticipantTileHidden id hidden).Pinning := by
  unfold setParticipantTileHidden
  split_ifs with hkeep
  · exact h
  · exact h
  · have hhas : v.has id = true := by
      rw [Bool.or_eq_true, not_or, Bool.not_eq_true', Bool.not_eq_false] at hkeep
      exact hkeep.1
    exact (h.hideTile hhas).update
  · exact (h.showTile id).update

theorem Pinning.setSelfView (h : v.Pinning) (visible : Bool) :
    (v.setSelfViewVisibility visible).Pinning := by
  have hset : Pinning { v with selfViewVisible := visible } :=
    h.congr ⟨rfl, rfl, rfl, rfl, rfl, rfl⟩
  unfold setSelfViewVisibility
  dsimp only
  apply Pinning.update
  split
  · split_ifs with hpinned
    · rw [Bool.and_eq_true] at hpinned
      exact hset.unpin (List.contains_iff_mem.mp hpinned.2)
    · exact hset
  · exact hset

theorem Pinning.setLayer (h : v.Pinning) (layer : String) : (v.setCameraLayer layer).Pinning := by
  unfold setCameraLayer sendVideoSubscriptions
  split_ifs
  · exact h
  · exact h.congr ⟨rfl, rfl, rfl, rfl, rfl, rfl⟩
  · exact h.congr ⟨rfl, rfl, rfl, rfl, rfl, rfl⟩
  · exact h.congr ⟨rfl, rfl, rfl, rfl, rfl, rfl⟩

theorem Pinning.step (h : v.Pinning) {l : Label} (hstep : v.step l = some v') : v'.Pinning := by
  cases l with
  | participant id =>
    cases hstep
    exact h.onParticipant id
  | participantJoined id =>
    cases hstep
    exact h.addParticipant id
  | participantLeft id =>
    cases hstep
    exact h.onParticipantLeft id
  | removal id =>
    simp only [VideoView.step, Option.ite_none_right_eq_some, Option.some.injEq] at hstep
    rw [← hstep.2]
    exact h.remove id
  | setTileHidden id hidden =>
    cases hstep
    exact h.setTileHidden id hidden
  | pin id =>
    cases hstep
    exact h.pin id
  | page delta =>
    cases hstep
    have hmoved : Pinning { v with participantPage := v.participantPage + delta } :=
      h.congr ⟨rfl, rfl, rfl, rfl, rfl, rfl⟩
    exact hmoved.update
  | screenShareState owner =>
    cases hstep
    have hshared : Pinning { v with screenShareOwner := owner } :=
      h.congr ⟨rfl, rfl, rfl, rfl, rfl, rfl⟩
    exact hshared.update
  | selfView visible =>
    cases hstep
    exact h.setSelfView visible
  | receiveVideo enabled =>
    cases hstep
    have hset : Pinning { v with receiveVideoEnabled := enabled } :=
      h.congr ⟨rfl, rfl, rfl, rfl, rfl, rfl⟩
    exact hset.update
  | cameraLayer layer =>
    cases hstep
    exact h.setLayer layer

/-- A view without participants has no pins. -/
theorem pinning_of_empty (hpins : v.pinnedParticipantIDs = []) (hids : v.participantIDs = []) :
    v.Pinning := by
  refine ⟨?_, ?_, fun a _ hne => absurd hids hne, fun key _ hne => absurd hids hne⟩
  · rw [hpins]
    exact Nat.zero_le _
  · rw [hpins]
    exact List.nodup_nil

theorem Pinning.visit (h : v.Pinning) {e : Event} (hvisit : v.visit e = some v') :
    v'.Pinning := by
  cases e with
  | handler l => exact h.step hvisit
  | resetMediaConnection =>
    cases hvisit
    exact pinning_of_empty rfl rfl
  | leave =>
    cases hvisit
    exact pinning_of_empty rfl rfl

theorem pinning_of_reachable (hr : visits.Reachable Lts.Any v) : v.Pinning :=
  hr.invariant_ofStep (pinning_of_empty rfl rfl) fun _ _ _ h _ hvisit => h.visit hvisit

/-- **At most two tiles are pinned, and an automatic pin stands alone.** At
every moment of a visit with participants on the page, the automatic pin is
the only one, its tile is there and not hidden, the meeting is one of two, and
nobody dismissed it; a dismissal is that of the pair on the page, and there is
no automatic pin beside it. -/
theorem pins_of_reachable (hr : visits.Reachable Lts.Any v) :
    v.pinnedParticipantIDs.length ≤ 2 ∧ v.pinnedParticipantIDs.Nodup ∧
      (v.participantIDs ≠ [] →
        (∀ a, v.automaticPinnedParticipantID = some a →
          AutomaticPin v.pinnedParticipantIDs v.participantIDs v.localParticipantID a
            v.automaticPinDismissedPairKey v.hiddenParticipantIDs) ∧
        ∀ key, v.automaticPinDismissedPairKey = some key →
          v.pairKey = some key ∧ v.automaticPinnedParticipantID = none) := by
  have h := pinning_of_reachable hr
  refine ⟨h.length, h.nodup, fun hids => ⟨fun a ha => h.automatic a ha hids, ?_⟩⟩
  intro key hkey
  refine ⟨h.dismissed key hkey hids, ?_⟩
  cases ha : v.automaticPinnedParticipantID with
  | none => rfl
  | some a =>
    have hnone := (h.automatic a ha hids).undismissed
    rw [hkey] at hnone
    cases hnone

/-- The automatic pin of a meeting of two. -/
theorem pins_of_reachable_pair :
    ∃ v : VideoView, v.automaticPinnedParticipantID = some "b" ∧
      v.pinnedParticipantIDs = ["b"] := by
  obtain ⟨v, hv, hstate⟩ := Lts.exists_reachable_of_exec Lts.Any visit loaded
    [.handler (.participant "a"), .handler (.participantJoined "b")]
    (fun v => (v.automaticPinnedParticipantID, v.participantIDs)) (some "b", ["a", "b"])
    (fun _ _ _ => trivial) (by decide +kernel)
  obtain ⟨hautomatic, hids⟩ := Prod.mk.inj hstate
  have hpinning := pins_of_reachable hv
  have hne : v.participantIDs ≠ [] := by
    rw [hids]
    exact List.cons_ne_nil _ _
  exact ⟨v, hautomatic, ((hpinning.2.2 hne).1 "b" hautomatic).alone⟩

/-! ## A dismissal -/

theorem dismissed_sync (v : VideoView) :
    v.syncAutomaticParticipantPin.automaticPinDismissedPairKey =
      if v.automaticPinDismissedPairKey = v.pairKey then v.automaticPinDismissedPairKey
      else none :=
  dismissedPairKey_reconcile

theorem dismissed_update (v : VideoView) :
    v.updateParticipantPagination.automaticPinDismissedPairKey = v.automaticPinDismissedPairKey :=
  (samePins_update v).dismissed

theorem dismissed_updateIfJoined (v : VideoView) :
    v.updateIfJoined.automaticPinDismissedPairKey = v.automaticPinDismissedPairKey := by
  unfold updateIfJoined
  split_ifs
  · exact dismissed_update v
  · rfl

variable {key : List String}

/-- A reconciliation that finds the pair keeps its dismissal. -/
theorem dismissed_updateCount (h : v.automaticPinDismissedPairKey = some key)
    (hpair : v.pairKey = some key) :
    v.updateParticipantCount.automaticPinDismissedPairKey = some key := by
  unfold updateParticipantCount
  rw [dismissed_update, dismissed_sync, h, hpair, if_pos rfl]

theorem localID_updateIfJoined (v : VideoView) :
    v.updateIfJoined.localParticipantID = v.localParticipantID := by
  unfold updateIfJoined
  split_ifs
  · exact (samePins_update v).localID
  · rfl

theorem localID_addParticipant (v : VideoView) (id : String) :
    (v.addParticipant id).localParticipantID = v.localParticipantID := by
  unfold addParticipant
  split_ifs
  · rw [localID_updateIfJoined]
    exact (samePins_update _).localID
  · exact localID_updateIfJoined v
  · rw [localID_updateIfJoined]
    exact (samePins_update _).localID.trans (samePins_update _).localID

theorem dismissed_addParticipant (h : v.automaticPinDismissedPairKey = some key)
    (hpair : v.pairKey = some key) {id : String}
    (hpair' : (v.addParticipant id).pairKey = some key) :
    (v.addParticipant id).automaticPinDismissedPairKey = some key := by
  unfold pairKey at hpair'
  rw [participantIDs_addParticipant, localID_addParticipant] at hpair'
  unfold addParticipant
  by_cases hhas : v.has id = true
  · rw [if_pos hhas]
    split_ifs
    · rw [dismissed_updateIfJoined]
      exact dismissed_updateCount h hpair
    · rw [dismissed_updateIfJoined, h]
  · rw [if_neg hhas] at hpair'
    rw [if_neg hhas, dismissed_updateIfJoined]
    unfold updateScreenShareUI
    rw [dismissed_update]
    apply dismissed_updateCount
    · exact h
    · unfold pairKey participantIDs
      rw [List.map_append]
      exact hpair'

/-- Who is new to a page joins no pair that was on it. -/
theorem has_of_pairKey (hpair : v.pairKey = some key) {id : String}
    (hpair' : participantPairKey (v.addParticipant id).participantIDs (some id) = some key) :
    v.has id = true := by
  by_contra hhas
  rw [participantIDs_addParticipant, if_neg hhas] at hpair'
  have hnew : id ∉ v.participantIDs := fun hmem => hhas (List.contains_iff_mem.mpr hmem)
  have hempty := participantPairKey_append hnew hpair hpair'
  obtain ⟨-, -, localID, hlocal, hmem⟩ := participantPairKey_eq_some hpair'
  rw [List.mem_eraseDups, List.mem_filter, ← Option.some.inj hlocal, hempty] at hmem
  simpa using hmem.2

theorem dismissed_onParticipant (h : v.automaticPinDismissedPairKey = some key)
    (hpair : v.pairKey = some key) {id : String}
    (hpair' : (v.onParticipant id).pairKey = some key) :
    (v.onParticipant id).automaticPinDismissedPairKey = some key := by
  have hadded := has_addParticipant v id
  unfold onParticipant markLocalParticipant at hpair' ⊢
  rw [(samePins_update _).pairKey_eq] at hpair'
  rw [dismissed_update]
  split_ifs at hpair' ⊢ with hhas
  · have hkey : participantPairKey (v.addParticipant id).participantIDs (some id) = some key := by
      unfold updateParticipantCount at hpair'
      rw [(samePins_update _).pairKey_eq] at hpair'
      exact hpair'
    apply dismissed_updateCount
    · show (v.addParticipant id).automaticPinDismissedPairKey = some key
      have hold := has_of_pairKey hpair hkey
      apply dismissed_addParticipant h hpair
      unfold pairKey
      rw [participantIDs_addParticipant, localID_addParticipant, if_pos hold]
      exact hpair
    · exact hkey
  · exact absurd hadded hhas

theorem dismissed_setPinned (v : VideoView) (id : String) (userInitiated : Bool) :
    (v.setPinnedParticipant id userInitiated).automaticPinDismissedPairKey =
      if userInitiated = true then v.pairKey else v.automaticPinDismissedPairKey := by
  unfold setPinnedParticipant
  dsimp only
  rw [dismissed_update]
  by_cases huser : userInitiated = true
  · simp only [if_pos huser]
    rfl
  · simp only [if_neg huser]
    by_cases hautomatic : v.automaticPinnedParticipantID = some id
    · simp only [if_pos hautomatic]
    · simp only [if_neg hautomatic]

theorem dismissed_onParticipantLeft (v : VideoView) (id : String) :
    (v.onParticipantLeft id).automaticPinDismissedPairKey = v.automaticPinDismissedPairKey := by
  have howner : ∀ w : VideoView, (if w.screenShareOwner = some id then
      { w with screenShareOwner := none }.updateScreenShareUI
      else w).automaticPinDismissedPairKey = w.automaticPinDismissedPairKey := by
    intro w
    split_ifs
    · exact dismissed_update { w with screenShareOwner := none }
    · rfl
  unfold onParticipantLeft
  dsimp only
  rw [howner]
  split_ifs
  · rw [dismissed_setPinned, if_neg Bool.false_ne_true]
  · rfl
  · rfl

theorem dismissed_setTileHidden (h : v.automaticPinDismissedPairKey = some key)
    (hpair : v.pairKey = some key) (id : String) (hidden : Bool) :
    (v.setParticipantTileHidden id hidden).automaticPinDismissedPairKey = some key := by
  unfold setParticipantTileHidden
  split_ifs
  · exact h
  · exact h
  · rw [dismissed_update]
    unfold hideTile
    dsimp only
    split_ifs
    · exact hpair
    · exact h
    · exact h
  · rw [dismissed_update]
    unfold showTile
    dsimp only
    split
    · exact h
    · exact h

theorem dismissed_setSelfView (h : v.automaticPinDismissedPairKey = some key) (visible : Bool) :
    (v.setSelfViewVisibility visible).automaticPinDismissedPairKey = some key := by
  unfold setSelfViewVisibility
  dsimp only
  rw [dismissed_update]
  split
  · split_ifs
    · rw [dismissed_setPinned, if_neg Bool.false_ne_true]
      exact h
    · exact h
  · exact h

theorem dismissed_remove (h : v.automaticPinDismissedPairKey = some key) {id : String}
    (hpair' : (v.remove id).pairKey = some key) :
    (v.remove id).automaticPinDismissedPairKey = some key := by
  unfold remove at hpair' ⊢
  dsimp only at hpair' ⊢
  split_ifs at hpair' ⊢ with hhas
  · apply dismissed_updateCount
    · exact h
    · unfold updateParticipantCount at hpair'
      rw [(samePins_update _).pairKey_eq] at hpair'
      exact hpair'
  · exact h

/-- A dismissal is kept by every handler that leaves its pair on the page. -/
theorem dismissed_step (h : v.automaticPinDismissedPairKey = some key)
    (hpair : v.pairKey = some key) {l : Label} (hstep : v.step l = some v')
    (hpair' : v'.pairKey = some key) : v'.automaticPinDismissedPairKey = some key := by
  cases l with
  | participant id =>
    cases hstep
    exact dismissed_onParticipant h hpair hpair'
  | participantJoined id =>
    cases hstep
    exact dismissed_addParticipant h hpair hpair'
  | participantLeft id =>
    cases hstep
    exact (dismissed_onParticipantLeft v id).trans h
  | removal id =>
    simp only [step, Option.ite_none_right_eq_some, Option.some.injEq] at hstep
    rw [← hstep.2] at hpair' ⊢
    exact dismissed_remove h hpair'
  | setTileHidden id hidden =>
    cases hstep
    exact dismissed_setTileHidden h hpair id hidden
  | pin id =>
    cases hstep
    rw [dismissed_setPinned, if_pos rfl]
    exact hpair
  | page delta =>
    cases hstep
    exact (dismissed_update _).trans h
  | screenShareState owner =>
    cases hstep
    exact (dismissed_update _).trans h
  | selfView visible =>
    cases hstep
    exact dismissed_setSelfView h visible
  | receiveVideo enabled =>
    cases hstep
    exact (dismissed_update _).trans h
  | cameraLayer layer =>
    cases hstep
    unfold setCameraLayer sendVideoSubscriptions
    split_ifs
    · exact h
    · exact h
    · exact h
    · exact h

theorem dismissed_visit (h : v.automaticPinDismissedPairKey = some key)
    (hpair : v.pairKey = some key) {e : Event} (hvisit : v.visit e = some v')
    (hpair' : v'.pairKey = some key) : v'.automaticPinDismissedPairKey = some key := by
  cases e with
  | handler l => exact dismissed_step h hpair hvisit hpair'
  | resetMediaConnection =>
    cases hvisit
    exact absurd rfl (ids_ne_nil_of_pairKey (Option.isSome_iff_exists.mpr ⟨key, hpair'⟩))
  | leave =>
    cases hvisit
    exact absurd rfl (ids_ne_nil_of_pairKey (Option.isSome_iff_exists.mpr ⟨key, hpair'⟩))

/-- The user pins or unpins a tile, or hides the other participant's that is
pinned automatically. To hide another tile records no dismissal. -/
def Dismisses (v : VideoView) : Event → Prop
  | .handler (.pin _) => True
  | .handler (.setTileHidden id hidden) =>
    hidden = true ∧ v.automaticPinnedParticipantID = some id ∧ v.isRemote id = true
  | _ => False

theorem dismissed_hideTile {id : String} (hpinned : v.pinnedParticipantIDs = [id])
    (hautomatic : v.automaticPinnedParticipantID = some id) :
    (v.hideTile id).automaticPinDismissedPairKey = v.pairKey := by
  have hcontains : v.pinnedParticipantIDs.contains id = true := by
    rw [hpinned]
    simp
  unfold hideTile
  dsimp only
  rw [if_pos hcontains, if_pos hautomatic]
  rfl

/-- A dismissal is recorded, for the pair on the page. -/
theorem dismissed_of_dismisses (hpinning : v.Pinning) {e : Event} (hdismisses : v.Dismisses e)
    (hpair : v.pairKey = some key) (hvisit : v.visit e = some v') :
    v'.automaticPinDismissedPairKey = some key := by
  cases e with
  | handler l =>
    cases l with
    | pin id =>
      cases hvisit
      rw [dismissed_setPinned, if_pos rfl]
      exact hpair
    | setTileHidden id hidden =>
      obtain ⟨rfl, hautomatic, hremote⟩ := hdismisses
      have hids := ids_ne_nil_of_pairKey (Option.isSome_iff_exists.mpr ⟨key, hpair⟩)
      obtain ⟨halone, hpresent, hshown, -, -⟩ := hpinning.automatic id hautomatic hids
      have hhas : v.has id = true := List.contains_iff_mem.mpr hpresent
      cases hvisit
      unfold setParticipantTileHidden
      rw [if_neg (by simp [hhas, hremote]), if_neg (by simpa using hshown), if_pos rfl,
        dismissed_update, dismissed_hideTile halone hautomatic]
      exact hpair
    | _ => exact hdismisses.elim
  | resetMediaConnection => exact hdismisses.elim
  | leave => exact hdismisses.elim

/-- **A dismissed pin does not come back.** Once the user of a meeting of two
pinned or unpinned a tile, or hid the one pinned automatically, nothing is
pinned automatically as long as the same two participants stay on the page,
whatever the page handles meanwhile. -/
theorem dismissed_lasts (hr : visits.Reachable Lts.Any v) {e : Event} (hdismisses : v.Dismisses e)
    (hpair : v.pairKey = some key) (hvisit : v.visit e = some v')
    (hrun : visits.Run (fun w _ => w.pairKey = some key) v' v'')
    (hpair' : v''.pairKey = some key) :
    v''.automaticPinDismissedPairKey = some key ∧ v''.automaticPinnedParticipantID = none := by
  have hrecorded := dismissed_of_dismisses (pinning_of_reachable hr) hdismisses hpair hvisit
  have hlasts : v''.pairKey = some key → v''.automaticPinDismissedPairKey = some key :=
    hrun.invariant
      (I := fun w : VideoView =>
        w.pairKey = some key → w.automaticPinDismissedPairKey = some key)
      (fun w e w' hw hkept hvisit hpair' => dismissed_visit (hw hkept) hkept hvisit hpair')
      fun _ => hrecorded
  have hreached : visits.Reachable Lts.Any v'' :=
    (hr.step trivial hvisit).run (hrun.mono fun _ _ _ => trivial)
  have hids := ids_ne_nil_of_pairKey (Option.isSome_iff_exists.mpr ⟨key, hpair'⟩)
  exact ⟨hlasts hpair', (((pins_of_reachable hreached).2.2 hids).2 key (hlasts hpair')).2⟩

/-- The tile that is pinned automatically is hidden, its participant
reconnects, and it is shown again. -/
theorem dismissed_lasts_rejoined :
    ∃ v : VideoView, v.pinnedParticipantIDs = [] ∧ v.hiddenParticipantIDs = [] ∧
      v.pairKey = some ["a", "b"] ∧ v.automaticPinnedParticipantID = none := by
  obtain ⟨v, v', v'', hv, hvisit, hrun, hstate⟩ := Lts.exists_step_run_of_execWhen
    (fun _ _ => true) (fun (w : VideoView) _ => decide (w.pairKey = some ["a", "b"])) visit loaded
    [.handler (.participant "a"), .handler (.participantJoined "b")]
    (.handler (.setTileHidden "b" true))
    [.handler (.participantLeft "b"), .handler (.participantJoined "b"),
      .handler (.setTileHidden "b" false)]
    (fun v _ w : VideoView =>
      ((v.automaticPinnedParticipantID, v.isRemote "b", v.pairKey),
        w.pinnedParticipantIDs, w.hiddenParticipantIDs, w.pairKey))
    ((some "b", true, some ["a", "b"]), [], [], some ["a", "b"]) (by decide +kernel)
  obtain ⟨hbefore, hafter⟩ := Prod.mk.inj hstate
  obtain ⟨hautomatic, hbefore⟩ := Prod.mk.inj hbefore
  obtain ⟨hremote, hpair⟩ := Prod.mk.inj hbefore
  obtain ⟨hpins, hafter⟩ := Prod.mk.inj hafter
  obtain ⟨hhidden, hpair'⟩ := Prod.mk.inj hafter
  have hrun' : visits.Run (fun w _ => w.pairKey = some ["a", "b"]) v' v'' :=
    hrun.mono fun _ _ hok => of_decide_eq_true hok
  have hdismisses : v.Dismisses (.handler (.setTileHidden "b" true)) := ⟨rfl, hautomatic, hremote⟩
  exact ⟨v'', hpins, hhidden, hpair',
    (dismissed_lasts (hv.mono fun _ _ _ => trivial) hdismisses hpair hvisit hrun' hpair').2⟩

end VideoView

end SlowMeet.Client
