import SlowMeet.Lib.GoMap

/-!
# The meeting

`internal/meeting`: membership, the capacity check and the raised-hand
queue. Every operation runs under the meeting's own lock, so each is one
atomic function here.

`uuid.NewString()` is a supply of fresh identifiers: `join` takes the
identifier as an argument and its caller draws it from a counter. A Go
string that names a participant is its list of runes.
-/

namespace SlowMeet

open Lib

/-- A participant identifier (`uuid.NewString()`). -/
abbrev ParticipantID := Nat

/-- A display name as runes. -/
abbrev Name := List Char

structure Participant where
  id : ParticipantID
  name : Name
  raisedHand : Bool
  handOrder : Nat
  deriving DecidableEq, Repr

/-- The state behind `Meeting.mu`. Participants are stored under their own
identifier, so the field `keyed` travels with the map. -/
structure Meeting where
  max : Nat
  participants : GoMap ParticipantID Participant
  raisedHandIDs : List ParticipantID
  keyed : ∀ id p, participants.lookup id = some p → p.id = id

inductive JoinError
  | invalidName
  | meetingFull
  deriving DecidableEq, Repr

/-- The text of a join error, as `errors.New` has it. -/
def JoinError.text : JoinError → String
  | .invalidName => "name must be between 1 and 32 characters"
  | .meetingFull => "meeting is full"

/-- Go's `unicode.IsSpace`. -/
def isSpace (c : Char) : Bool :=
  let n := c.toNat
  (9 ≤ n && n ≤ 13) || n == 32 || n == 0x85 || n == 0xA0 || n == 0x1680 ||
    (0x2000 ≤ n && n ≤ 0x200A) || n == 0x2028 || n == 0x2029 || n == 0x202F ||
    n == 0x205F || n == 0x3000

/-- Go's `unicode.IsControl`. -/
def isControl (c : Char) : Bool :=
  c.toNat ≤ 0x1F || (0x7F ≤ c.toNat && c.toNat ≤ 0x9F)

/-- Go's `strings.TrimSpace`. -/
def trimSpace (name : Name) : Name :=
  ((name.dropWhile isSpace).reverse.dropWhile isSpace).reverse

def validName (name : Name) : Bool :=
  1 ≤ name.length && name.length ≤ 32 && name.all fun char => !isControl char

namespace Meeting

/-- `New`. -/
def new (maxParticipants : Nat) : Meeting where
  max := maxParticipants
  participants := ∅
  raisedHandIDs := []
  keyed := by simp

/-- `m.participants[p.ID] = p`. -/
def store (m : Meeting) (p : Participant) : Meeting where
  max := m.max
  participants := m.participants.insert p.id p
  raisedHandIDs := m.raisedHandIDs
  keyed := by
    intro id q h
    rw [GoMap.lookup_insert] at h
    split at h
    · rename_i hid
      cases h
      exact hid.symm
    · exact m.keyed id q h

/-- `delete(m.participants, id)`. -/
def remove (m : Meeting) (id : ParticipantID) : Meeting where
  max := m.max
  participants := m.participants.erase id
  raisedHandIDs := m.raisedHandIDs
  keyed := by
    intro id' q h
    rw [GoMap.lookup_erase] at h
    split at h
    · cases h
    · exact m.keyed id' q h

/-- `m.raisedHandIDs = hands`. -/
def setHands (m : Meeting) (hands : List ParticipantID) : Meeting :=
  { m with raisedHandIDs := hands }

def list (m : Meeting) : List Participant := m.participants.values

def count (m : Meeting) : Nat := m.participants.size

/-- Whether `id` holds a slot. -/
def has (m : Meeting) (id : ParticipantID) : Bool := (m.participants.lookup id).isSome

/-- `Join`; `id` is the fresh identifier it draws on success. -/
def join (m : Meeting) (name : Name) (id : ParticipantID) :
    Except JoinError (Meeting × Participant) :=
  let name := trimSpace name
  if !validName name then .error .invalidName
  else if m.count ≥ m.max then .error .meetingFull
  else
    let participant : Participant := ⟨id, name, false, 0⟩
    .ok (m.store participant, participant)

/-- Store the queue position `index + 1` in the record of `id`. Every queued
identifier is a participant, so the miss is never taken. -/
def setHandOrder (m : Meeting) (id : ParticipantID) (index : Nat) : Meeting :=
  match m.participants.lookup id with
  | some participant => m.store { participant with handOrder := index + 1 }
  | none => m

def reindexRaisedHandsLocked (m : Meeting) : Meeting :=
  m.raisedHandIDs.zipIdx.foldl (fun m e => m.setHandOrder e.1 e.2) m

def leave (m : Meeting) (id : ParticipantID) : Meeting × Bool :=
  if !m.has id then (m, false)
  else
    let m := m.remove id
    if id ∈ m.raisedHandIDs then
      ((m.setHands (m.raisedHandIDs.erase id)).reindexRaisedHandsLocked, true)
    else (m, true)

/-- `SetRaisedHand`: the new state and the records whose queue position
changed, or `none` for `ErrParticipantNotFound`. -/
def setRaisedHand (m : Meeting) (id : ParticipantID) (raised : Bool) :
    Option (Meeting × List Participant) :=
  match m.participants.lookup id with
  | none => none
  | some participant =>
    if participant.raisedHand = raised then some (m, [])
    else if raised then
      let hands := m.raisedHandIDs ++ [id]
      let participant := { participant with raisedHand := true, handOrder := hands.length }
      some ((m.setHands hands).store participant, [participant])
    else
      let participant := { participant with raisedHand := false, handOrder := 0 }
      let hands := m.raisedHandIDs.erase id
      let m := ((m.store participant).setHands hands).reindexRaisedHandsLocked
      some (m, participant :: hands.filterMap fun queued => m.participants.lookup queued)

def setMaxParticipants (m : Meeting) (max : Nat) : Meeting :=
  if max < 1 then m else { m with max }

/-! ## Which identifiers hold a slot -/

@[simp] theorem has_new (n : Nat) (id : ParticipantID) : (new n).has id = false := by
  simp [has, new]

theorem has_store (m : Meeting) (p : Participant) (id : ParticipantID) :
    (m.store p).has id = (decide (id = p.id) || m.has id) := by
  by_cases h : id = p.id <;> simp [has, store, GoMap.lookup_insert, h]

theorem has_remove (m : Meeting) (id id' : ParticipantID) :
    (m.remove id).has id' = (!decide (id' = id) && m.has id') := by
  by_cases h : id' = id <;> simp [has, remove, GoMap.lookup_erase, h]

/-- Rewriting a stored record leaves the membership as it is. -/
theorem has_store_of_has {m : Meeting} {p : Participant} (h : m.has p.id = true)
    (id : ParticipantID) : (m.store p).has id = m.has id := by
  rw [has_store]
  by_cases hid : id = p.id
  · simp [hid, h]
  · simp [hid]

@[simp] theorem has_setHandOrder (m : Meeting) (id : ParticipantID) (index : Nat)
    (id' : ParticipantID) : (m.setHandOrder id index).has id' = m.has id' := by
  unfold setHandOrder
  split
  · rename_i p hp
    obtain rfl : p.id = id := m.keyed id p hp
    refine has_store_of_has ?_ id'
    simp [has, hp]
  · rfl

theorem has_foldl_setHandOrder (l : List (ParticipantID × Nat)) (m : Meeting)
    (id : ParticipantID) :
    (l.foldl (fun m e => m.setHandOrder e.1 e.2) m).has id = m.has id := by
  induction l generalizing m with
  | nil => rfl
  | cons e rest ih => rw [List.foldl_cons, ih, has_setHandOrder]

@[simp] theorem has_reindex (m : Meeting) (id : ParticipantID) :
    m.reindexRaisedHandsLocked.has id = m.has id :=
  has_foldl_setHandOrder _ m id

@[simp] theorem has_setHands (m : Meeting) (hands : List ParticipantID)
    (id : ParticipantID) : (m.setHands hands).has id = m.has id := rfl

/-- What a successful `join` does: a new member, stored under the drawn
identifier. -/
theorem join_ok {name : Name} {id : ParticipantID} (m m' : Meeting) (p : Participant)
    (h : m.join name id = .ok (m', p)) : p.id = id ∧ m' = m.store p := by
  simp only [join] at h
  split at h
  · cases h
  · split at h
    · cases h
    · cases h
      exact ⟨rfl, rfl⟩

/-- `leave` frees exactly the slot it names. -/
theorem has_leave (m : Meeting) (id id' : ParticipantID) :
    (m.leave id).1.has id' = (!decide (id' = id) && m.has id') := by
  unfold leave
  by_cases hm : m.has id = true
  · simp only [hm, Bool.not_true, Bool.false_eq_true, if_false]
    split <;> simp [has_remove]
  · simp only [Bool.not_eq_true] at hm
    simp only [hm, Bool.not_false, if_true]
    by_cases h : id' = id <;> simp [h, hm]

theorem leave_snd (m : Meeting) (id : ParticipantID) : (m.leave id).2 = m.has id := by
  unfold leave
  cases hm : m.has id
  · simp
  · simp only [Bool.not_true, Bool.false_eq_true, if_false]
    split <;> rfl

/-- A hand change moves no one in or out. -/
theorem has_setRaisedHand {m m' : Meeting} {id : ParticipantID} {raised : Bool}
    {changed : List Participant} (h : m.setRaisedHand id raised = some (m', changed))
    (id' : ParticipantID) : m'.has id' = m.has id' := by
  unfold setRaisedHand at h
  split at h
  · cases h
  · rename_i p hp
    obtain rfl : p.id = id := m.keyed id p hp
    have hhas : m.has p.id = true := by simp [has, hp]
    split at h
    · cases h; rfl
    · split at h
      · cases h
        rw [has_store_of_has (by simpa using hhas), has_setHands]
      · cases h
        rw [has_reindex, has_setHands, has_store_of_has (by simpa using hhas)]

@[simp] theorem has_setMaxParticipants (m : Meeting) (n : Nat) (id : ParticipantID) :
    (m.setMaxParticipants n).has id = m.has id := by
  unfold setMaxParticipants
  split <;> rfl

theorem mem_list {m : Meeting} {p : Participant} :
    p ∈ m.list ↔ m.participants.lookup p.id = some p := by
  unfold list
  rw [GoMap.mem_values]
  constructor
  · rintro ⟨id, h⟩
    exact m.keyed id p h ▸ h
  · intro h
    exact ⟨p.id, h⟩

/-- Some listed record carries `id` exactly when `id` holds a slot. -/
theorem exists_mem_list_iff {m : Meeting} {id : ParticipantID} :
    (∃ p ∈ m.list, p.id = id) ↔ m.has id = true := by
  constructor
  · rintro ⟨p, hp, rfl⟩
    simp [has, mem_list.mp hp]
  · intro h
    obtain ⟨p, hp⟩ := Option.isSome_iff_exists.mp h
    have hkey : p.id = id := m.keyed id p hp
    exact ⟨p, mem_list.mpr (hkey ▸ hp), hkey⟩

theorem count_eq_zero_iff {m : Meeting} : m.count = 0 ↔ ∀ id, m.has id = false := by
  unfold count
  rw [GoMap.size_eq_zero_iff]
  simp [has]

end Meeting

end SlowMeet
