import Mathlib.Algebra.BigOperators.Group.List.Basic
import Mathlib.Data.List.Chain
import SlowMeet.Lib.Lts
import SlowMeet.Lib.Serial

/-!
# The video frame buffer

`videoFrameBuffer` gathers the packets of one timestamp until the marker
packet arrives. A packet is its header fields and its size; the payload is
only passed on.
-/

namespace SlowMeet.Media

open Lib Lib.Serial

/-- An `rtp.Packet`. -/
structure Packet where
  timestamp : BitVec 32
  sequenceNumber : BitVec 16
  marker : Bool
  marshalSize : Nat
  deriving DecidableEq

structure VideoFrameBuffer where
  timestamp : BitVec 32
  lastTimestamp : BitVec 32
  packets : List Packet
  bytes : Nat
  active : Bool
  dropping : Bool
  hasLastTimestamp : Bool
  deriving DecidableEq

def maxVideoFrameBufferBytes : Nat := 16 * 2 ^ 20

def maxFramePackets : Nat := 128

def rtpTimestampAfter (timestamp previous : BitVec 32) : Bool := decide (After timestamp previous)

/-- The packet `p` belongs behind `q`. -/
def Packet.Later (p q : Packet) : Prop := After p.sequenceNumber q.sequenceNumber

instance : DecidableRel Packet.Later := fun p q =>
  inferInstanceAs (Decidable (After p.sequenceNumber q.sequenceNumber))

/-- An insertion sort that moves from the end past the packets that belong
behind the one it inserts. -/
def sortFramePackets (packets : List Packet) : List Packet := sortBack Packet.Later packets

def framePacketDuplicate (packets : List Packet) (sequence : BitVec 16) : Bool :=
  packets.any fun packet => packet.sequenceNumber = sequence

namespace VideoFrameBuffer

/-- The zero value. -/
def zero : VideoFrameBuffer := ⟨0, 0, [], 0, false, false, false⟩

def start (f : VideoFrameBuffer) (timestamp : BitVec 32) : VideoFrameBuffer :=
  { zero with
    timestamp
    lastTimestamp := f.lastTimestamp
    active := true
    hasLastTimestamp := f.hasLastTimestamp }

/-- The checks of the timestamp. A stale packet is not taken. -/
def activate (f : VideoFrameBuffer) (packet : Packet) : Option VideoFrameBuffer :=
  if !f.active then
    if f.hasLastTimestamp && !rtpTimestampAfter packet.timestamp f.lastTimestamp then none
    else some (f.start packet.timestamp)
  else if f.timestamp ≠ packet.timestamp then
    if !rtpTimestampAfter packet.timestamp f.timestamp then none
    else some (f.start packet.timestamp)
  else some f

/-- Keep the packet, unless it is a duplicate or the frame is too large. -/
def keep (f : VideoFrameBuffer) (packet : Packet) : Option VideoFrameBuffer :=
  if f.dropping then some f
  else if framePacketDuplicate f.packets packet.sequenceNumber then none
  else if maxVideoFrameBufferBytes < f.bytes + packet.marshalSize ∨
      maxFramePackets ≤ f.packets.length then
    some { f with packets := [], bytes := 0, dropping := true }
  else
    some { f with packets := f.packets ++ [packet], bytes := f.bytes + packet.marshalSize }

/-- The frame, when the packet is its marker. -/
def finish (f : VideoFrameBuffer) (packet : Packet) :
    VideoFrameBuffer × Option (List Packet × Nat) :=
  if !packet.marker then (f, none)
  else
    ({ zero with lastTimestamp := f.timestamp, hasLastTimestamp := true },
      if f.dropping then none
      else some (if 1 < f.packets.length then sortFramePackets f.packets else f.packets, f.bytes))

def add (f : VideoFrameBuffer) (packet : Packet) :
    VideoFrameBuffer × Option (List Packet × Nat) :=
  match f.activate packet with
  | none => (f, none)
  | some f =>
    match f.keep packet with
    | none => (f, none)
    | some f => f.finish packet

/-- The packet is the first of a frame. -/
def starts (f : VideoFrameBuffer) (packet : Packet) : Bool :=
  !f.active || f.timestamp ≠ packet.timestamp

end VideoFrameBuffer

/-- A reported frame, with the packets fed since its timestamp became active. -/
structure Frame where
  timestamp : BitVec 32
  packets : List Packet
  bytes : Nat
  fed : List Packet

/-- A buffer, the packets fed to it since its timestamp became active, and the
frames it has reported. -/
structure Assembly where
  buffer : VideoFrameBuffer
  fed : List Packet
  frames : List Frame

namespace Assembly

def new : Assembly := ⟨.zero, [], []⟩

/-- The packets of the active timestamp, with this one. A stale packet is of
another. -/
def feed (s : Assembly) (packet : Packet) : List Packet :=
  if s.buffer.starts packet then
    if (s.buffer.activate packet).isSome then [packet] else s.fed
  else s.fed ++ [packet]

def step (s : Assembly) (packet : Packet) : Assembly :=
  { buffer := (s.buffer.add packet).1
    fed := s.feed packet
    frames := s.frames ++ ((s.buffer.add packet).2.map fun frame =>
      ⟨packet.timestamp, frame.1, frame.2, s.feed packet⟩).toList }

/-- Any sequence of packets. -/
def lts : Lts Assembly Packet := .ofStep new fun s packet => some (s.step packet)

end Assembly

/-! ## What a buffer holds -/

/-- The buffer holds one of each packet fed since its timestamp became active,
unless the frame was too large. -/
structure VideoFrameBuffer.Gathers (f : VideoFrameBuffer) (fed : List Packet) : Prop where
  timestamp : f.active = true → ∀ p ∈ fed, p.timestamp = f.timestamp
  sublist : f.packets.Sublist fed
  distinct : (f.packets.map (·.sequenceNumber)).Nodup
  bytes : f.bytes = (f.packets.map (·.marshalSize)).sum
  bytes_le : f.bytes ≤ maxVideoFrameBufferBytes
  length_le : f.packets.length ≤ maxFramePackets
  complete : f.active = true → f.dropping = false →
    ∀ p ∈ fed, ∃ q ∈ f.packets, q.sequenceNumber = p.sequenceNumber

namespace VideoFrameBuffer

variable {f g : VideoFrameBuffer} {packet : Packet} {fed : List Packet}

theorem gathers_empty (hpackets : f.packets = []) (hbytes : f.bytes = 0) : f.Gathers [] where
  timestamp _ p hp := absurd hp List.not_mem_nil
  sublist := by rw [hpackets]
  distinct := by rw [hpackets]; exact List.nodup_nil
  bytes := by rw [hpackets, hbytes]; rfl
  bytes_le := by rw [hbytes]; exact Nat.zero_le _
  length_le := by rw [hpackets]; exact Nat.zero_le _
  complete _ _ p hp := absurd hp List.not_mem_nil

/-- A packet that is taken is of the active timestamp. -/
theorem activate_eq_some (h : f.activate packet = some g) :
    g.active = true ∧ g.timestamp = packet.timestamp ∧
      (f.starts packet = true ∧ g = f.start packet.timestamp ∨ f.starts packet = false ∧ g = f) := by
  unfold activate at h
  unfold starts
  cases hactive : f.active with
  | false =>
    simp only [hactive, Bool.not_false, if_true] at h
    split at h <;> cases h
    exact ⟨rfl, rfl, Or.inl ⟨rfl, rfl⟩⟩
  | true =>
    simp only [hactive, Bool.not_true, Bool.false_eq_true, if_false] at h
    by_cases hts : f.timestamp = packet.timestamp
    · simp only [hts, ne_eq, not_true_eq_false, if_false, Option.some.injEq] at h
      subst h
      exact ⟨hactive, hts, Or.inr ⟨by simp [hts], rfl⟩⟩
    · simp only [hts, ne_eq, not_false_eq_true, if_true] at h
      split at h <;> cases h
      exact ⟨rfl, rfl, Or.inl ⟨by simp [hts], rfl⟩⟩

/-- A packet is stale only where a frame would start. -/
theorem starts_of_stale (h : f.activate packet = none) : f.starts packet = true := by
  unfold activate at h
  unfold starts
  cases hactive : f.active with
  | false => rfl
  | true =>
    by_cases hts : f.timestamp = packet.timestamp
    · simp [hactive, hts] at h
    · simp [hts]

/-- What a packet of the active timestamp does. -/
theorem Gathers.keep (hf : f.Gathers fed) (hactive : f.active = true)
    (hts : f.timestamp = packet.timestamp) :
    (f.keep packet = none ∧ f.Gathers (fed ++ [packet])) ∨
      ∃ g, f.keep packet = some g ∧ g.Gathers (fed ++ [packet]) ∧ g.active = true ∧
        g.timestamp = packet.timestamp ∧ (g.dropping = false → packet ∈ g.packets) := by
  have htimestamp : ∀ p ∈ fed ++ [packet], p.timestamp = f.timestamp := by
    intro p hp
    rcases List.mem_append.mp hp with hp | hp
    · exact hf.timestamp hactive p hp
    · rw [List.mem_singleton.mp hp, hts]
  have hgrow : f.packets.Sublist (fed ++ [packet]) := hf.sublist.trans (List.sublist_append_left _ _)
  unfold VideoFrameBuffer.keep
  by_cases hdropping : f.dropping = true
  · right
    rw [if_pos hdropping]
    refine ⟨f, rfl, ?_, hactive, hts, fun h => absurd hdropping (by simp [h])⟩
    exact { hf with
      timestamp := fun _ => htimestamp
      sublist := hgrow
      complete := fun _ h => absurd hdropping (by simp [h]) }
  rw [if_neg hdropping]
  by_cases hduplicate : framePacketDuplicate f.packets packet.sequenceNumber = true
  · left
    rw [if_pos hduplicate]
    refine ⟨rfl, { hf with timestamp := fun _ => htimestamp, sublist := hgrow, complete := ?_ }⟩
    intro _ hkeeps p hp
    rcases List.mem_append.mp hp with hp | hp
    · exact hf.complete hactive hkeeps p hp
    · rw [List.mem_singleton.mp hp]
      simpa [framePacketDuplicate] using hduplicate
  rw [if_neg hduplicate]
  right
  by_cases hlarge : maxVideoFrameBufferBytes < f.bytes + packet.marshalSize ∨
      maxFramePackets ≤ f.packets.length
  · rw [if_pos hlarge]
    refine ⟨_, rfl, ?_, hactive, hts, fun h => by simp at h⟩
    exact
      { timestamp := fun _ => htimestamp
        sublist := List.nil_sublist _
        distinct := List.nodup_nil
        bytes := rfl
        bytes_le := Nat.zero_le _
        length_le := Nat.zero_le _
        complete := fun _ h => by simp at h }
  · rw [if_neg hlarge]
    rw [not_or, not_lt, not_le] at hlarge
    refine ⟨_, rfl, ?_, hactive, hts, fun _ => by simp⟩
    have hnew : ∀ q ∈ f.packets, q.sequenceNumber ≠ packet.sequenceNumber := by
      simpa [framePacketDuplicate] using hduplicate
    exact
      { timestamp := fun _ => htimestamp
        sublist := hf.sublist.append (List.Sublist.refl _)
        distinct := by
          rw [List.map_append, List.nodup_append]
          refine ⟨hf.distinct, List.nodup_singleton _, ?_⟩
          intro a ha b hb
          obtain ⟨q, hq, rfl⟩ := List.mem_map.mp ha
          rw [List.mem_singleton.mp hb]
          exact hnew q hq
        bytes := by simp [hf.bytes]
        bytes_le := hlarge.1
        length_le := by rw [List.length_append]; exact hlarge.2
        complete := by
          intro _ hkeeps p hp
          rcases List.mem_append.mp hp with hp | hp
          · obtain ⟨q, hq, hseq⟩ := hf.complete hactive hkeeps p hp
            exact ⟨q, List.mem_append_left _ hq, hseq⟩
          · exact ⟨packet, by simp, by rw [List.mem_singleton.mp hp]⟩ }

end VideoFrameBuffer

end SlowMeet.Media
