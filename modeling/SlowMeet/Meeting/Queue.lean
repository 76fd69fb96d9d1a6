import Mathlib.Data.List.Nodup
import SlowMeet.Lib.Lts
import SlowMeet.Meeting

/-!
# The raised-hand queue

A hand's place in the queue is kept twice: in `raisedHandIDs`, and in the
record of every participant. `Leave` and a lowered hand repair the records;
whoever raised first stays first.
-/

namespace SlowMeet.Meeting

open Lib

variable {m m' : Meeting} {id : ParticipantID}

/-- The place in the queue, counted from one; zero outside it. -/
def position (m : Meeting) (id : ParticipantID) : Nat :=
  if id ∈ m.raisedHandIDs then m.raisedHandIDs.idxOf id + 1 else 0

/-- The queue and the records agree. -/
structure Queued (m : Meeting) : Prop where
  nodup : m.raisedHandIDs.Nodup
  member : ∀ id ∈ m.raisedHandIDs, m.has id = true
  raised : ∀ id p, m.participants.lookup id = some p → (p.raisedHand = true ↔ id ∈ m.raisedHandIDs)
  order : ∀ id p, m.participants.lookup id = some p → p.handOrder = m.position id

/-! ## Rewriting the records -/

theorem lookup_store (m : Meeting) (p : Participant) (id : ParticipantID) :
    (m.store p).participants.lookup id = if id = p.id then some p else m.participants.lookup id :=
  GoMap.lookup_insert _ _ _ _

theorem lookup_remove (m : Meeting) (id id' : ParticipantID) :
    (m.remove id).participants.lookup id' =
      if id' = id then none else m.participants.lookup id' :=
  GoMap.lookup_erase _ _ _

theorem lookup_setHandOrder (m : Meeting) (id : ParticipantID) (index : Nat) (id' : ParticipantID) :
    (m.setHandOrder id index).participants.lookup id' =
      (m.participants.lookup id').map fun p =>
        if id' = id then { p with handOrder := index + 1 } else p := by
  unfold setHandOrder
  by_cases hid : id' = id
  · subst hid
    cases hp : m.participants.lookup id' with
    | none => simp [hp]
    | some p =>
      have hkey : p.id = id' := m.keyed id' p hp
      simp [lookup_store, hkey]
  · cases hp : m.participants.lookup id with
    | none => simp [hid]
    | some p =>
      have hkey : p.id = id := m.keyed id p hp
      simp [lookup_store, hkey, hid]

/-- What the loop over the queue leaves in each record. -/
theorem lookup_foldl_setHandOrder (queue : List ParticipantID) (hnodup : queue.Nodup) (k : Nat)
    (m : Meeting) (id : ParticipantID) :
    ((queue.zipIdx k).foldl (fun m e => m.setHandOrder e.1 e.2) m).participants.lookup id =
      (m.participants.lookup id).map fun p =>
        if id ∈ queue then { p with handOrder := k + queue.idxOf id + 1 } else p := by
  induction queue generalizing k m with
  | nil => simp
  | cons head rest ih =>
    obtain ⟨hhead, hrest⟩ := List.nodup_cons.mp hnodup
    rw [List.zipIdx_cons, List.foldl_cons, ih hrest, lookup_setHandOrder, Option.map_map]
    congr 1
    funext p
    by_cases hid : id = head
    · subst hid
      simp [hhead]
    · have hne : head ≠ id := fun h => hid h.symm
      by_cases hmem : id ∈ rest
      · simp only [Function.comp_apply, hid, if_false, hmem, if_true, List.mem_cons, or_true,
          List.idxOf_cons_ne rest hne, Participant.mk.injEq, true_and]
        omega
      · simp [hid, hmem]

theorem lookup_reindex (hnodup : m.raisedHandIDs.Nodup) (id : ParticipantID) :
    m.reindexRaisedHandsLocked.participants.lookup id =
      (m.participants.lookup id).map fun p =>
        if id ∈ m.raisedHandIDs then { p with handOrder := m.raisedHandIDs.idxOf id + 1 } else p := by
  unfold reindexRaisedHandsLocked
  rw [lookup_foldl_setHandOrder _ hnodup]
  simp

theorem raisedHandIDs_setHandOrder (m : Meeting) (id : ParticipantID) (index : Nat) :
    (m.setHandOrder id index).raisedHandIDs = m.raisedHandIDs := by
  unfold setHandOrder
  split <;> rfl

@[simp] theorem raisedHandIDs_reindex (m : Meeting) :
    m.reindexRaisedHandsLocked.raisedHandIDs = m.raisedHandIDs := by
  unfold reindexRaisedHandsLocked
  generalize m.raisedHandIDs.zipIdx = entries
  suffices h : ∀ m : Meeting,
      (entries.foldl (fun m e => m.setHandOrder e.1 e.2) m).raisedHandIDs = m.raisedHandIDs from h m
  induction entries with
  | nil => exact fun _ => rfl
  | cons e rest ih =>
    intro m
    rw [List.foldl_cons, ih, raisedHandIDs_setHandOrder]

/-- Reindexing brings every record into line. -/
theorem Queued.of_reindex (hnodup : m.raisedHandIDs.Nodup)
    (hmember : ∀ id ∈ m.raisedHandIDs, m.has id = true)
    (hraised : ∀ id p, m.participants.lookup id = some p →
      (p.raisedHand = true ↔ id ∈ m.raisedHandIDs))
    (hlowered : ∀ id p, m.participants.lookup id = some p → id ∉ m.raisedHandIDs →
      p.handOrder = 0) : m.reindexRaisedHandsLocked.Queued where
  nodup := by simpa using hnodup
  member := by simpa using hmember
  raised := by
    intro id p hp
    rw [lookup_reindex hnodup, Option.map_eq_some_iff] at hp
    obtain ⟨q, hq, rfl⟩ := hp
    rw [raisedHandIDs_reindex]
    split <;> exact hraised id q hq
  order := by
    intro id p hp
    rw [lookup_reindex hnodup, Option.map_eq_some_iff] at hp
    obtain ⟨q, hq, rfl⟩ := hp
    unfold position
    rw [raisedHandIDs_reindex]
    by_cases hmem : id ∈ m.raisedHandIDs
    · rw [if_pos hmem, if_pos hmem]
    · rw [if_neg hmem, if_neg hmem]
      exact hlowered id q hq hmem

/-! ## Every operation keeps the queue -/

theorem queued_new (n : Nat) : (new n).Queued where
  nodup := List.nodup_nil
  member := by simp [new]
  raised := by simp [new]
  order := by simp [new]

/-- A newcomer's hand is down. -/
theorem Queued.join (h : m.Queued) {name : Name} {p : Participant} (hfresh : m.has id = false)
    (hjoin : m.join name id = .ok (m', p)) : m'.Queued := by
  obtain ⟨hid, rfl⟩ := join_ok m m' p hjoin
  have hlowered : p.raisedHand = false ∧ p.handOrder = 0 := by
    simp only [Meeting.join] at hjoin
    split at hjoin
    · cases hjoin
    · split at hjoin
      · cases hjoin
      · obtain rfl := (Prod.mk.inj (Except.ok.inj hjoin)).2
        exact ⟨rfl, rfl⟩
  have hout : id ∉ m.raisedHandIDs := by
    intro hmem
    rw [h.member id hmem] at hfresh
    cases hfresh
  refine ⟨h.nodup, ?_, ?_, ?_⟩
  · intro id' hmem
    rw [has_store, h.member id' hmem, Bool.or_true]
  · intro id' q hq
    rw [lookup_store, hid] at hq
    split at hq
    · rename_i heq
      obtain rfl := Option.some.inj hq
      show p.raisedHand = true ↔ id' ∈ m.raisedHandIDs
      simp [heq, hout, hlowered.1]
    · exact h.raised id' q hq
  · intro id' q hq
    show q.handOrder = m.position id'
    rw [lookup_store, hid] at hq
    split at hq
    · rename_i heq
      obtain rfl := Option.some.inj hq
      rw [heq, position, if_neg hout, hlowered.2]
    · exact h.order id' q hq

theorem position_of_notMem (h : id ∉ m.raisedHandIDs) : m.position id = 0 := if_neg h

theorem leave_of_not_has (h : m.has id = false) : (m.leave id).1 = m := by
  unfold leave
  simp [h]

theorem leave_of_mem (hhas : m.has id = true) (hmem : id ∈ m.raisedHandIDs) :
    (m.leave id).1 =
      ((m.remove id).setHands (m.raisedHandIDs.erase id)).reindexRaisedHandsLocked := by
  unfold leave
  rw [hhas, if_neg (by simp)]
  exact congrArg Prod.fst (if_pos hmem)

theorem leave_of_notMem (hhas : m.has id = true) (hmem : id ∉ m.raisedHandIDs) :
    (m.leave id).1 = m.remove id := by
  unfold leave
  rw [hhas, if_neg (by simp)]
  exact congrArg Prod.fst (if_neg hmem)

theorem Queued.leave (h : m.Queued) (id : ParticipantID) : (m.leave id).1.Queued := by
  by_cases hhas : m.has id = true
  case neg =>
    rw [leave_of_not_has (eq_false_of_ne_true hhas)]
    exact h
  case pos =>
    by_cases hqueued : id ∈ m.raisedHandIDs
    · rw [leave_of_mem hhas hqueued]
      refine Queued.of_reindex (h.nodup.erase id) ?_ ?_ ?_
      · intro id' hmem
        obtain ⟨hne, hmem⟩ := h.nodup.mem_erase_iff.mp hmem
        rw [has_setHands, has_remove, h.member id' hmem]
        simp [hne]
      · intro id' p hp
        have hp := (lookup_remove m id id').symm.trans hp
        split at hp
        · cases hp
        · rename_i hne
          rw [h.raised id' p hp]
          exact (h.nodup.mem_erase_iff.trans (and_iff_right hne)).symm
      · intro id' p hp hout
        have hp := (lookup_remove m id id').symm.trans hp
        split at hp
        · cases hp
        · rename_i hne
          rw [h.order id' p hp]
          exact position_of_notMem fun hmem => hout (h.nodup.mem_erase_iff.mpr ⟨hne, hmem⟩)
    · rw [leave_of_notMem hhas hqueued]
      refine ⟨h.nodup, ?_, ?_, ?_⟩
      · intro id' hmem
        have hne : id' ≠ id := by
          intro heq
          exact hqueued (heq ▸ hmem)
        rw [has_remove, h.member id' hmem]
        simp [hne]
      · intro id' p hp
        rw [lookup_remove] at hp
        split at hp
        · cases hp
        · exact h.raised id' p hp
      · intro id' p hp
        rw [lookup_remove] at hp
        split at hp
        · cases hp
        · exact h.order id' p hp

/-- The meeting after `p` has raised its hand. -/
def raise (m : Meeting) (p : Participant) : Meeting :=
  (m.setHands (m.raisedHandIDs ++ [p.id])).store
    { p with raisedHand := true, handOrder := (m.raisedHandIDs ++ [p.id]).length }

/-- The meeting after `p` has lowered its hand. -/
def lower (m : Meeting) (p : Participant) : Meeting :=
  ((m.store { p with raisedHand := false, handOrder := 0 }).setHands
    (m.raisedHandIDs.erase p.id)).reindexRaisedHandsLocked

/-- Everything `SetRaisedHand` can do. -/
theorem setRaisedHand_cases {raised : Bool} {changed : List Participant}
    (h : m.setRaisedHand id raised = some (m', changed)) :
    (m' = m ∧ changed = []) ∨
      ∃ p, m.participants.lookup id = some p ∧
        (p.raisedHand = false ∧ m' = m.raise p ∧
            changed = [{ p with
              raisedHand := true, handOrder := (m.raisedHandIDs ++ [p.id]).length }] ∨
          p.raisedHand = true ∧ m' = m.lower p ∧
            changed = { p with raisedHand := false, handOrder := 0 } ::
              (m.raisedHandIDs.erase p.id).filterMap fun queued => m'.participants.lookup queued) := by
  unfold setRaisedHand at h
  split at h
  · cases h
  · rename_i p hp
    obtain rfl : p.id = id := m.keyed id p hp
    split at h
    · cases h
      exact .inl ⟨rfl, rfl⟩
    · rename_i hne
      refine .inr ⟨p, hp, ?_⟩
      cases raised with
      | true =>
        cases h
        exact .inl ⟨eq_false_of_ne_true hne, rfl, rfl⟩
      | false =>
        cases h
        exact .inr ⟨eq_true_of_ne_false hne, rfl, rfl⟩

theorem Queued.raise (h : m.Queued) {p : Participant} (hp : m.participants.lookup id = some p)
    (hlowered : p.raisedHand = false) : (m.raise p).Queued := by
  obtain rfl : p.id = id := m.keyed id p hp
  have hout : p.id ∉ m.raisedHandIDs := by
    intro hmem
    rw [(h.raised p.id p hp).mpr hmem] at hlowered
    cases hlowered
  refine ⟨?_, ?_, ?_, ?_⟩
  · show (m.raisedHandIDs ++ [p.id]).Nodup
    rw [List.nodup_append]
    refine ⟨h.nodup, List.nodup_singleton p.id, fun a ha b hb heq => hout ?_⟩
    rwa [← List.mem_singleton.mp hb, ← heq]
  · intro id' hmem
    rw [Meeting.raise, has_store]
    obtain hmem | hmem := List.mem_append.mp hmem
    · rw [has_setHands, h.member id' hmem, Bool.or_true]
    · simp [List.mem_singleton.mp hmem]
  · intro id' q hq
    rw [Meeting.raise, lookup_store] at hq
    show q.raisedHand = true ↔ id' ∈ m.raisedHandIDs ++ [p.id]
    split at hq
    · rename_i heq
      obtain rfl := Option.some.inj hq
      simp [heq]
    · rename_i hne
      rw [h.raised id' q hq]
      simp [show id' ≠ p.id from hne]
  · intro id' q hq
    rw [Meeting.raise, lookup_store] at hq
    show q.handOrder = if id' ∈ m.raisedHandIDs ++ [p.id] then
      (m.raisedHandIDs ++ [p.id]).idxOf id' + 1 else 0
    split at hq
    · rename_i heq
      obtain rfl := Option.some.inj hq
      have heq : id' = p.id := heq
      rw [heq, if_pos (by simp), List.idxOf_append_of_notMem hout]
      simp
    · rename_i hne
      have hne : id' ≠ p.id := hne
      rw [h.order id' q hq, position]
      by_cases hmem : id' ∈ m.raisedHandIDs
      · rw [if_pos hmem, if_pos (List.mem_append_left _ hmem), List.idxOf_append_of_mem hmem]
      · rw [if_neg hmem, if_neg (by simp [hmem, hne])]

/-- The records of a lowered hand, before the queue is reindexed. -/
theorem lookup_lowering (m : Meeting) (p : Participant) (id : ParticipantID) :
    (((m.store { p with raisedHand := false, handOrder := 0 }).setHands
      (m.raisedHandIDs.erase p.id)).participants.lookup id) =
      if id = p.id then some { p with raisedHand := false, handOrder := 0 }
      else m.participants.lookup id :=
  lookup_store _ _ _

theorem Queued.lower (h : m.Queued) (p : Participant) : (m.lower p).Queued := by
  refine Queued.of_reindex (h.nodup.erase p.id) ?_ ?_ ?_
  · intro id hmem
    rw [has_setHands, has_store, h.member id (List.mem_of_mem_erase hmem), Bool.or_true]
  · intro id q hq
    rw [lookup_lowering] at hq
    show q.raisedHand = true ↔ id ∈ m.raisedHandIDs.erase p.id
    rw [h.nodup.mem_erase_iff]
    split at hq
    · rename_i heq
      obtain rfl := Option.some.inj hq
      simp [heq]
    · rename_i hne
      rw [h.raised id q hq]
      simp [hne]
  · intro id q hq hout
    rw [lookup_lowering] at hq
    split at hq
    · obtain rfl := Option.some.inj hq
      rfl
    · rename_i hne
      rw [h.order id q hq]
      exact position_of_notMem fun hmem => hout (h.nodup.mem_erase_iff.mpr ⟨hne, hmem⟩)

theorem Queued.setRaisedHand (h : m.Queued) {raised : Bool} {changed : List Participant}
    (hset : m.setRaisedHand id raised = some (m', changed)) : m'.Queued := by
  obtain ⟨rfl, -⟩ | ⟨p, hp, ⟨hlowered, rfl, -⟩ | ⟨-, rfl, -⟩⟩ := setRaisedHand_cases hset
  · exact h
  · exact h.raise hp hlowered
  · exact h.lower p

theorem Queued.setMaxParticipants (h : m.Queued) (n : Nat) : (m.setMaxParticipants n).Queued := by
  unfold Meeting.setMaxParticipants
  split
  · exact h
  · exact ⟨h.nodup, h.member, h.raised, h.order⟩

/-- `SetRaisedHand` returns the final record of whoever it changed. -/
theorem Queued.reported (h : m.Queued) {raised : Bool} {changed : List Participant}
    (hset : m.setRaisedHand id raised = some (m', changed)) {p : Participant}
    (hp : m'.participants.lookup p.id = some p) (hchanged : m.participants.lookup p.id ≠ some p) :
    p ∈ changed := by
  obtain ⟨rfl, -⟩ | ⟨q, hq, ⟨-, rfl, rfl⟩ | ⟨-, rfl, rfl⟩⟩ := setRaisedHand_cases hset
  · exact absurd hp hchanged
  · rw [Meeting.raise, lookup_store] at hp
    split at hp
    · obtain rfl := Option.some.inj hp
      exact List.mem_singleton_self _
    · exact absurd hp hchanged
  · have hrecord := hp
    unfold Meeting.lower at hp
    rw [lookup_reindex (h.nodup.erase q.id), lookup_lowering] at hp
    by_cases hqueued : p.id ∈ m.raisedHandIDs.erase q.id
    · exact List.mem_cons_of_mem _ (List.mem_filterMap.mpr ⟨p.id, hqueued, hrecord⟩)
    · -- out of the queue, only the lowered hand's own record differs
      rw [Option.map_eq_some_iff] at hp
      obtain ⟨r, hr, hrp⟩ := hp
      obtain rfl : r = p := (if_neg hqueued).symm.trans hrp
      split at hr
      · obtain rfl := Option.some.inj hr
        exact List.mem_cons_self
      · exact absurd hr hchanged

/-! ## Who stands behind -/

/-- The queue behind `id`. -/
def behind (m : Meeting) (id : ParticipantID) : List ParticipantID :=
  if id ∈ m.raisedHandIDs then m.raisedHandIDs.drop (m.position id) else []

/-- With nobody behind it, `id` is the last of the queue. -/
theorem Queued.last (h : m.Queued) (hmem : id ∈ m.raisedHandIDs) (hlast : m.behind id = []) :
    m.raisedHandIDs = m.raisedHandIDs.erase id ++ [id] ∧ id ∉ m.raisedHandIDs.erase id := by
  obtain ⟨pre, post, hqueue⟩ := List.append_of_mem hmem
  have hout : id ∉ pre := by
    have hnodup := h.nodup
    rw [hqueue, List.nodup_append] at hnodup
    exact fun hpre => hnodup.2.2 id hpre id List.mem_cons_self rfl
  have hpost : post = [] := by
    unfold behind position at hlast
    rw [if_pos hmem, if_pos hmem, hqueue, List.idxOf_append_of_notMem hout, List.idxOf_cons_self,
      Nat.add_zero, ← List.drop_drop, List.drop_left] at hlast
    exact hlast
  subst hpost
  have herase : m.raisedHandIDs.erase id = pre := by
    rw [hqueue, List.erase_append_right _ hout]
    simp
  rw [herase]
  exact ⟨hqueue, hout⟩

/-- The last of the queue goes without moving anybody else's place. -/
theorem Queued.lookup_requeue (h : m.Queued) (hmem : id ∈ m.raisedHandIDs)
    (hlast : m.behind id = []) {id' : ParticipantID} {g : Meeting}
    (hg : g.participants.lookup id' = m.participants.lookup id') :
    (g.setHands (m.raisedHandIDs.erase id)).reindexRaisedHandsLocked.participants.lookup id' =
      m.participants.lookup id' := by
  obtain ⟨hqueue, hout⟩ := h.last hmem hlast
  rw [lookup_reindex (h.nodup.erase id)]
  show (g.participants.lookup id').map _ = _
  rw [hg]
  cases hp : m.participants.lookup id' with
  | none => rfl
  | some p =>
    rw [Option.map_some, Option.some.injEq]
    split
    · next hmem' =>
      have hmem' : id' ∈ m.raisedHandIDs.erase id := hmem'
      have hplace : p.handOrder = (m.raisedHandIDs.erase id).idxOf id' + 1 := by
        have horder := h.order id' p hp
        unfold position at horder
        rw [if_pos (List.mem_of_mem_erase hmem'), hqueue, List.idxOf_append_of_mem hmem'] at horder
        exact horder
      show ({ p with handOrder := (m.raisedHandIDs.erase id).idxOf id' + 1 } : Participant) = p
      rw [← hplace]
    · rfl

theorem Queued.lookup_leave (h : m.Queued) (hlast : m.behind id = []) {id' : ParticipantID}
    (hne : id' ≠ id) : (m.leave id).1.participants.lookup id' = m.participants.lookup id' := by
  have hremove : (m.remove id).participants.lookup id' = m.participants.lookup id' := by
    rw [lookup_remove, if_neg hne]
  by_cases hhas : m.has id = true
  · by_cases hmem : id ∈ m.raisedHandIDs
    · rw [leave_of_mem hhas hmem]
      exact h.lookup_requeue hmem hlast hremove
    · rw [leave_of_notMem hhas hmem]
      exact hremove
  · rw [leave_of_not_has (eq_false_of_ne_true hhas)]

theorem lookup_leave_self (m : Meeting) (id : ParticipantID) :
    (m.leave id).1.participants.lookup id = none := by
  have hhas := has_leave m id id
  rw [decide_eq_true rfl, Bool.not_true, Bool.false_and] at hhas
  exact Option.isSome_eq_false_iff.mp hhas |> Option.isNone_iff_eq_none.mp

/-- `SetRaisedHand` reports final records, each participant once. -/
theorem Queued.changed (h : m.Queued) {raised : Bool} {changed : List Participant}
    (hset : m.setRaisedHand id raised = some (m', changed)) :
    (∀ p ∈ changed, m'.participants.lookup p.id = some p) ∧ (changed.map (·.id)).Nodup := by
  obtain ⟨rfl, rfl⟩ | ⟨q, hq, ⟨-, rfl, rfl⟩ | ⟨hraised, rfl, rfl⟩⟩ := setRaisedHand_cases hset
  · exact ⟨fun p hp => absurd hp List.not_mem_nil, List.nodup_nil⟩
  · refine ⟨fun p hp => ?_, List.nodup_singleton _⟩
    rw [List.mem_singleton.mp hp, Meeting.raise, lookup_store, if_pos rfl]
  · have hqid : q.id = id := m.keyed id q hq
    have hmem : q.id ∈ m.raisedHandIDs := by
      rw [hqid]
      exact (h.raised id q hq).mp hraised
    have hout : q.id ∉ m.raisedHandIDs.erase q.id := h.nodup.not_mem_erase
    -- a queued identifier is reported with its stored record
    have hids : ((m.raisedHandIDs.erase q.id).filterMap fun queued =>
        (m.lower q).participants.lookup queued).map (·.id) = m.raisedHandIDs.erase q.id := by
      have hlookup : ∀ queued ∈ m.raisedHandIDs.erase q.id, ∃ p : Participant,
          (m.lower q).participants.lookup queued = some p ∧ p.id = queued := by
        intro queued hqueued
        have hhas := (h.lower q).member queued (by
          unfold Meeting.lower
          rw [raisedHandIDs_reindex]
          exact hqueued)
        obtain ⟨p, hp⟩ := Option.isSome_iff_exists.mp hhas
        exact ⟨p, hp, (m.lower q).keyed queued p hp⟩
      generalize m.raisedHandIDs.erase q.id = queue at hlookup
      induction queue with
      | nil => rfl
      | cons first rest ih =>
        obtain ⟨p, hp, hid⟩ := hlookup first List.mem_cons_self
        rw [List.filterMap_cons, hp]
        show p.id :: _ = first :: rest
        rw [hid, ih fun queued hqueued => hlookup queued (List.mem_cons_of_mem _ hqueued)]
    constructor
    · intro p hp
      rcases List.mem_cons.mp hp with rfl | hp
      · unfold Meeting.lower
        rw [lookup_reindex (h.nodup.erase q.id), lookup_lowering, if_pos rfl, Option.map_some]
        exact congrArg some (if_neg hout)
      · obtain ⟨queued, -, hlookup⟩ := List.mem_filterMap.mp hp
        rw [(m.lower q).keyed queued p hlookup]
        exact hlookup
    · rw [List.map_cons, hids]
      exact List.nodup_cons.mpr ⟨hout, h.nodup.erase q.id⟩

/-- A hand raised at the end of the queue, or lowered there, changes nobody
else's record. -/
theorem Queued.lookup_setRaisedHand (h : m.Queued) {raised : Bool} {changed : List Participant}
    (hset : m.setRaisedHand id raised = some (m', changed))
    (hlast : raised = false → m.behind id = []) {id' : ParticipantID} (hne : id' ≠ id) :
    m'.participants.lookup id' = m.participants.lookup id' := by
  cases raised with
  | true =>
    obtain ⟨rfl, -⟩ | ⟨q, hq, ⟨-, rfl, -⟩ | ⟨hraised, -, -⟩⟩ := setRaisedHand_cases hset
    · rfl
    · have hqid : q.id = id := m.keyed id q hq
      rw [Meeting.raise, lookup_store, if_neg (hqid ▸ hne)]
      rfl
    · unfold Meeting.setRaisedHand at hset
      rw [hq] at hset
      simp only [hraised, if_true, Option.some.injEq, Prod.mk.injEq] at hset
      rw [← hset.1]
  | false =>
    obtain ⟨rfl, -⟩ | ⟨q, hq, ⟨hlowered, -, -⟩ | ⟨hraised, rfl, -⟩⟩ := setRaisedHand_cases hset
    · rfl
    · unfold Meeting.setRaisedHand at hset
      rw [hq] at hset
      simp only [hlowered, if_true, Option.some.injEq, Prod.mk.injEq] at hset
      rw [← hset.1]
    · have hqid : q.id = id := m.keyed id q hq
      subst hqid
      refine h.lookup_requeue ((h.raised q.id q hq).mp hraised) (hlast rfl) ?_
      rw [lookup_store, if_neg hne]

/-! ## Sequences of calls -/

inductive Op
  /-- `Join`, with the identifier it would draw. -/
  | join (name : Name) (id : ParticipantID)
  | leave (id : ParticipantID)
  | setRaisedHand (id : ParticipantID) (raised : Bool)
  | setMaxParticipants (max : Nat)

/-- What a call returns. -/
inductive Outcome
  | joined (result : Except JoinError Participant)
  | left (found : Bool)
  /-- `none` is `ErrParticipantNotFound`. -/
  | hands (changed : Option (List Participant))
  | set

def apply (m : Meeting) : Op → Meeting × Outcome
  | .join name id =>
    match m.join name id with
    | .ok (m', p) => (m', .joined (.ok p))
    | .error e => (m, .joined (.error e))
  | .leave id => ((m.leave id).1, .left (m.leave id).2)
  | .setRaisedHand id raised =>
    match m.setRaisedHand id raised with
    | some (m', changed) => (m', .hands (some changed))
    | none => (m, .hands none)
  | .setMaxParticipants max => (m.setMaxParticipants max, .set)

/-- The call has failed, or had nothing to do. -/
def Outcome.ineffective : Outcome → Bool
  | .joined (.error _) | .left false | .hands none | .hands (some []) => true
  | _ => false

/-- A meeting, with the capacity that was in force at the last successful
`Join`. -/
structure History where
  meeting : Meeting
  capacity : Nat

def History.step (s : History) (op : Op) : Option History :=
  match op with
  | .join name id =>
    -- the identifier is fresh
    if s.meeting.has id then none
    else
      match s.meeting.join name id with
      | .ok (m, _) => some ⟨m, s.meeting.max⟩
      | .error _ => some s
  | op => some { s with meeting := (s.meeting.apply op).1 }

def lts (max : Nat) : Lts History Op := .ofStep ⟨new max, 0⟩ History.step

def Raised (a : ParticipantID) (s : History) : Prop := a ∈ s.meeting.raisedHandIDs

/-- Both hands are up. -/
def BothRaised (a b : ParticipantID) (s : History) : Prop :=
  a ∈ s.meeting.raisedHandIDs ∧ b ∈ s.meeting.raisedHandIDs

/-- `a` comes before `b`. -/
def Before (a b : ParticipantID) (s : History) : Prop :=
  [a, b].Sublist s.meeting.raisedHandIDs

/-- What the queue promises. -/
structure History.Fair (s : History) : Prop where
  queued : s.meeting.Queued
  capacity : s.meeting.count ≤ s.capacity
  unchanged : ∀ op, (s.meeting.apply op).2.ineffective = true → (s.meeting.apply op).1 = s.meeting
  ignored : ∀ max, max < 1 → (s.meeting.apply (.setMaxParticipants max)).1 = s.meeting
  reported : ∀ id raised m' changed, s.meeting.setRaisedHand id raised = some (m', changed) →
    ∀ p, m'.participants.lookup p.id = some p → s.meeting.participants.lookup p.id ≠ some p →
      p ∈ changed
  /-- Two hands that stay up keep their order. -/
  served : ∀ max a b t, (lts max).Run (fun s _ => BothRaised a b s) s t → BothRaised a b t →
    Before a b s → Before a b t
  /-- First raised, first served: a hand that goes up while another one is and
  stays up comes behind it. -/
  first : ∀ max a b t, (lts max).Run (fun s _ => Raised a s) s t → ¬Raised b s →
    BothRaised a b t → Before a b t

/-! ### The step lemmas -/

theorem pair_sublist_erase {a b : ParticipantID} {queue : List ParticipantID}
    (h : [a, b].Sublist queue) (ha : a ≠ id) (hb : b ≠ id) : [a, b].Sublist (queue.erase id) := by
  have herase := h.erase id
  rwa [List.erase_of_not_mem (by simp [ha.symm, hb.symm])] at herase

theorem raisedHandIDs_leave (m : Meeting) (id : ParticipantID) :
    (m.leave id).1.raisedHandIDs = m.raisedHandIDs ∨
      (m.leave id).1.raisedHandIDs = m.raisedHandIDs.erase id := by
  by_cases hhas : m.has id = true
  · by_cases hqueued : id ∈ m.raisedHandIDs
    · rw [leave_of_mem hhas hqueued, raisedHandIDs_reindex]
      exact .inr rfl
    · rw [leave_of_notMem hhas hqueued]
      exact .inl rfl
  · rw [leave_of_not_has (eq_false_of_ne_true hhas)]
    exact .inl rfl

/-- Every call leaves the queue alone, takes one hand out or puts one at its
end. -/
theorem History.queue_step {s t : History} {op : Op} (h : s.step op = some t) :
    t.meeting.raisedHandIDs = s.meeting.raisedHandIDs ∨
      (∃ id, t.meeting.raisedHandIDs = s.meeting.raisedHandIDs.erase id) ∨
        ∃ id, t.meeting.raisedHandIDs = s.meeting.raisedHandIDs ++ [id] := by
  cases op with
  | join name id =>
    simp only [History.step] at h
    split at h
    · cases h
    · split at h
      · rename_i m' p hjoin
        obtain ⟨-, rfl⟩ := join_ok _ _ _ hjoin
        obtain rfl := Option.some.inj h
        exact .inl rfl
      · obtain rfl := Option.some.inj h
        exact .inl rfl
  | leave id =>
    obtain rfl := Option.some.inj h
    exact (raisedHandIDs_leave s.meeting id).imp (fun h => h) fun h => .inl ⟨id, h⟩
  | setRaisedHand id raised =>
    obtain rfl := Option.some.inj h
    unfold apply
    dsimp only
    split
    · rename_i m' changed hset
      obtain ⟨rfl, -⟩ | ⟨p, -, ⟨-, rfl, -⟩ | ⟨-, rfl, -⟩⟩ := setRaisedHand_cases hset
      · exact .inl rfl
      · exact .inr (.inr ⟨p.id, rfl⟩)
      · exact .inr (.inl ⟨p.id, raisedHandIDs_reindex _⟩)
    · exact .inl rfl
  | setMaxParticipants max =>
    obtain rfl := Option.some.inj h
    unfold apply setMaxParticipants
    dsimp only
    split <;> exact .inl rfl

theorem History.queued_step {s t : History} {op : Op} (hs : s.meeting.Queued)
    (h : s.step op = some t) : t.meeting.Queued := by
  cases op with
  | join name id =>
    simp only [History.step] at h
    split at h
    · cases h
    · rename_i hfresh
      split at h
      · rename_i m' p hjoin
        obtain rfl := Option.some.inj h
        exact hs.join (eq_false_of_ne_true hfresh) hjoin
      · obtain rfl := Option.some.inj h
        exact hs
  | leave id =>
    obtain rfl := Option.some.inj h
    exact hs.leave id
  | setRaisedHand id raised =>
    obtain rfl := Option.some.inj h
    unfold apply
    dsimp only
    split
    · rename_i m' changed hset
      exact hs.setRaisedHand hset
    · exact hs
  | setMaxParticipants max =>
    obtain rfl := Option.some.inj h
    exact hs.setMaxParticipants max

/-- A hand that stays up keeps its place against every other that does. -/
theorem History.before_step {s t : History} {op : Op} {a b : ParticipantID}
    (hs : s.meeting.Queued) (h : s.step op = some t) (hraised : BothRaised a b t)
    (hbefore : Before a b s) : Before a b t := by
  unfold Before BothRaised at *
  obtain hqueue | ⟨id, hqueue⟩ | ⟨id, hqueue⟩ := queue_step h
  · rwa [hqueue]
  · rw [hqueue, hs.nodup.mem_erase_iff, hs.nodup.mem_erase_iff] at hraised
    rw [hqueue]
    exact pair_sublist_erase hbefore hraised.1.1 hraised.2.1
  · rw [hqueue]
    exact hbefore.trans (List.sublist_append_left _ _)

/-- A hand that goes up goes to the end. -/
theorem History.before_raised {s t : History} {op : Op} {a b : ParticipantID}
    (h : s.step op = some t) (ha : Raised a s) (hb : ¬Raised b s) (hraised : Raised b t) :
    Before a b t := by
  unfold Before Raised at *
  obtain hqueue | ⟨id, hqueue⟩ | ⟨id, hqueue⟩ := queue_step h
  · rw [hqueue] at hraised
    exact absurd hraised hb
  · rw [hqueue] at hraised
    exact absurd (List.mem_of_mem_erase hraised) hb
  · rw [hqueue] at hraised ⊢
    obtain hraised | hraised := List.mem_append.mp hraised
    · exact absurd hraised hb
    · obtain rfl := List.mem_singleton.mp hraised
      exact (List.singleton_sublist.mpr ha).append (List.Sublist.refl [b])

/-- A map whose members are all members of another is no larger. -/
theorem count_le_of_has (h : ∀ id, m'.has id = true → m.has id = true) : m'.count ≤ m.count := by
  have hsubset : m'.participants.keys ⊆ m.participants.keys := by
    intro id hid
    rw [← AList.mem_keys, ← AList.lookup_isSome] at hid ⊢
    exact h id hid
  have hle := (List.subperm_of_subset m'.participants.nodupKeys hsubset).length_le
  simpa [count, GoMap.size, AList.keys, List.keys] using hle

theorem count_store (h : m.has id = false) {p : Participant} (hp : p.id = id) :
    (m.store p).count = m.count + 1 := by
  have hfresh : p.id ∉ m.participants := by
    rw [← AList.lookup_eq_none, hp]
    simpa [has] using h
  simp [count, GoMap.size, store, AList.insert_of_notMem hfresh]

theorem History.capacity_step {s t : History} {op : Op} (hs : s.meeting.count ≤ s.capacity)
    (h : s.step op = some t) : t.meeting.count ≤ t.capacity := by
  cases op with
  | join name id =>
    simp only [History.step] at h
    split at h
    · cases h
    · rename_i hfresh
      split at h
      · rename_i m' p hjoin
        obtain ⟨hid, rfl⟩ := join_ok _ _ _ hjoin
        obtain rfl := Option.some.inj h
        have hroom : s.meeting.count < s.meeting.max := by
          simp only [Meeting.join] at hjoin
          split at hjoin
          · cases hjoin
          · split at hjoin
            · cases hjoin
            · omega
        show (s.meeting.store p).count ≤ s.meeting.max
        rw [count_store (eq_false_of_ne_true hfresh) hid]
        omega
      · obtain rfl := Option.some.inj h
        exact hs
  | leave id =>
    obtain rfl := Option.some.inj h
    refine Nat.le_trans (count_le_of_has fun id' hid' => ?_) hs
    rw [show (s.meeting.apply (.leave id)).1 = (s.meeting.leave id).1 from rfl, has_leave] at hid'
    simp only [Bool.and_eq_true] at hid'
    exact hid'.2
  | setRaisedHand id raised =>
    obtain rfl := Option.some.inj h
    refine Nat.le_trans (count_le_of_has fun id' hid' => ?_) hs
    unfold apply at hid'
    dsimp only at hid'
    split at hid'
    · rename_i m' changed hset
      rwa [has_setRaisedHand hset] at hid'
    · exact hid'
  | setMaxParticipants max =>
    obtain rfl := Option.some.inj h
    refine Nat.le_trans (count_le_of_has fun id' hid' => ?_) hs
    rwa [show (s.meeting.apply (.setMaxParticipants max)).1 =
      s.meeting.setMaxParticipants max from rfl, has_setMaxParticipants] at hid'

/-- A call that fails or has nothing to do changes nothing. -/
theorem apply_of_ineffective {op : Op} (h : (m.apply op).2.ineffective = true) :
    (m.apply op).1 = m := by
  cases op with
  | join name id =>
    unfold apply at h ⊢
    dsimp only at h ⊢
    split
    · rename_i m' p hjoin
      rw [hjoin] at h
      cases h
    · rfl
  | leave id =>
    have hfound : (m.leave id).2 = false := by
      cases hleft : (m.leave id).2 with
      | false => rfl
      | true =>
        simp [apply, hleft, Outcome.ineffective] at h
    rw [leave_snd] at hfound
    exact leave_of_not_has hfound
  | setRaisedHand id raised =>
    unfold apply at h ⊢
    dsimp only at h ⊢
    split
    · rename_i m' changed hset
      rw [hset] at h
      obtain ⟨rfl, -⟩ | ⟨p, -, ⟨-, -, rfl⟩ | ⟨-, -, rfl⟩⟩ := setRaisedHand_cases hset
      · rfl
      · cases h
      · cases h
    · rfl
  | setMaxParticipants max => cases h

theorem History.served {max : Nat} {s t : History} {a b : ParticipantID} (hs : s.meeting.Queued)
    (hrun : (lts max).Run (fun s _ => BothRaised a b s) s t) (hraised : BothRaised a b t)
    (hbefore : Before a b s) : Before a b t := by
  have key : t.meeting.Queued ∧ (BothRaised a b t → Before a b t) := by
    refine hrun.invariant (I := fun t => t.meeting.Queued ∧ (BothRaised a b t → Before a b t)) ?_
      ⟨hs, fun _ => hbefore⟩
    intro u op v ⟨hu, hkept⟩ hup hstep
    exact ⟨queued_step hu hstep, fun hv => before_step hu hstep hv (hkept hup)⟩
  exact key.2 hraised

theorem History.first {max : Nat} {s t : History} {a b : ParticipantID} (hs : s.meeting.Queued)
    (hrun : (lts max).Run (fun s _ => Raised a s) s t) (hlowered : ¬Raised b s)
    (hraised : BothRaised a b t) : Before a b t := by
  have key : t.meeting.Queued ∧ (BothRaised a b t → Before a b t) := by
    refine hrun.invariant (I := fun t => t.meeting.Queued ∧ (BothRaised a b t → Before a b t)) ?_
      ⟨hs, fun hboth => absurd hboth.2 hlowered⟩
    intro u op v ⟨hu, hkept⟩ ha hstep
    refine ⟨queued_step hu hstep, fun hv => ?_⟩
    by_cases hb : Raised b u
    · exact before_step hu hstep hv (hkept ⟨ha, hb⟩)
    · exact before_raised hstep ha hb hv.2
  exact key.2 hraised

/-- **The raised-hand queue is fair**, after any sequence of calls. -/
theorem fair_of_reachable {max : Nat} {s : History} (h : (lts max).Reachable Lts.Any s) :
    s.Fair := by
  have hqueued : s.meeting.Queued :=
    Lts.Reachable.invariant_ofStep (I := fun s : History => s.meeting.Queued) (queued_new max)
      (fun _ _ _ hs _ hstep => History.queued_step hs hstep) h
  have hcapacity : s.meeting.count ≤ s.capacity :=
    Lts.Reachable.invariant_ofStep (I := fun s : History => s.meeting.count ≤ s.capacity)
      (by simp [count, GoMap.size, new]) (fun _ _ _ hs _ hstep => History.capacity_step hs hstep) h
  refine ⟨hqueued, hcapacity, fun _ => apply_of_ineffective, fun n hn => if_pos hn, ?_, ?_, ?_⟩
  · intro id raised m' changed hset p hp hchanged
    exact hqueued.reported hset hp hchanged
  · intro max' a b t hrun hraised hbefore
    exact History.served hqueued hrun hraised hbefore
  · intro max' a b t hrun hlowered hraised
    exact History.first hqueued hrun hlowered hraised

/-- Three participants raise their hands, and the first lowers it. -/
theorem fair_of_reachable_sample :
    ∃ s : History, s.meeting.raisedHandIDs = [1, 3] ∧ s.Fair := by
  obtain ⟨s, hs, hobs⟩ := Lts.exists_reachable_of_exec Lts.Any History.step ⟨new 3, 0⟩
    [.join ['A'] 1, .join ['B'] 2, .join ['C'] 3, .setRaisedHand 2 true, .setRaisedHand 1 true,
      .setMaxParticipants 1, .setRaisedHand 3 true, .setRaisedHand 2 false]
    (fun s => s.meeting.raisedHandIDs) [1, 3] (fun _ _ _ => trivial) (by decide)
  exact ⟨s, hobs, fair_of_reachable hs⟩

end SlowMeet.Meeting
