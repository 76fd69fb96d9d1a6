import Mathlib.Tactic.IntervalCases
import SlowMeet.Media.FrameBuffer

/-!
# The frames a buffer reports

What a frame looks like for any sequence of packets, when its timestamp comes
after that of the frame before, and when it has no gap.
-/

namespace SlowMeet.Media

open Lib Lib.Serial

/-- What a reported frame is. -/
structure Frame.WellFormed (frame : Frame) : Prop where
  nonempty : frame.packets ≠ []
  length_le : frame.packets.length ≤ maxFramePackets
  timestamp : ∀ p ∈ frame.packets, p.timestamp = frame.timestamp
  distinct : (frame.packets.map (·.sequenceNumber)).Nodup
  subperm : frame.packets.Subperm frame.fed
  marker : ∃ p ∈ frame.packets, p.marker = true
  bytes : frame.bytes = (frame.packets.map (·.marshalSize)).sum
  bytes_le : frame.bytes ≤ maxVideoFrameBufferBytes
  ordered : ∀ base, (∀ p ∈ frame.packets, offset base p.sequenceNumber < 2 ^ 15) →
    frame.packets.Pairwise fun p q => After q.sequenceNumber p.sequenceNumber

/-! ## Sorting -/

/-- The sort leaves a list of one alone. -/
theorem sort_eq (packets : List Packet) :
    (if 1 < packets.length then sortFramePackets packets else packets) = sortFramePackets packets := by
  split
  · rfl
  · match packets with
    | [] => rfl
    | [_] => rfl
    | _ :: _ :: _ => simp_all

theorem mem_sortFramePackets {packets : List Packet} {p : Packet} :
    p ∈ sortFramePackets packets ↔ p ∈ packets :=
  (sortBack_perm Packet.Later packets).mem_iff

/-- Distinct packets within half of the sequence numbers are put in order. -/
theorem sortFramePackets_ordered {packets : List Packet} (base : BitVec 16)
    (hspan : ∀ p ∈ packets, offset base p.sequenceNumber < 2 ^ 15)
    (hdistinct : (packets.map (·.sequenceNumber)).Nodup) :
    (sortFramePackets packets).Pairwise fun p q => After q.sequenceNumber p.sequenceNumber := by
  have hhalf : ∀ p ∈ packets, 2 * offset base p.sequenceNumber < 2 ^ 16 := by
    intro p hp
    have := hspan p hp
    omega
  have hsorted : (sortFramePackets packets).Pairwise
      fun p q => offset base p.sequenceNumber ≤ offset base q.sequenceNumber :=
    sortBack_pairwise (fun p => offset base p.sequenceNumber)
      fun p hp q hq => after_iff base (hhalf p hp) (hhalf q hq)
  have hperm := sortBack_perm Packet.Later packets
  have hnumbers : ((sortFramePackets packets).map Packet.sequenceNumber).Nodup :=
    (hperm.map Packet.sequenceNumber).nodup_iff.mpr hdistinct
  have hnodup : (sortFramePackets packets).Pairwise
      fun p q => p.sequenceNumber ≠ q.sequenceNumber := List.pairwise_map.mp hnumbers
  have hmem : ∀ p ∈ sortFramePackets packets, p ∈ packets := fun p hp => mem_sortFramePackets.mp hp
  refine List.Pairwise.imp_of_mem ?_ (hsorted.and hnodup)
  intro p q hp hq ⟨hle, hne⟩
  refine (after_iff base (hhalf q (hmem q hq)) (hhalf p (hmem p hp))).mpr ?_
  exact lt_of_le_of_ne hle fun heq => hne (offset_injective base heq)

/-! ## One packet -/

namespace Assembly

variable {s : Assembly} {packet : Packet}

/-- The buffer after a marker. -/
def ended (timestamp : BitVec 32) : VideoFrameBuffer :=
  { VideoFrameBuffer.zero with lastTimestamp := timestamp, hasLastTimestamp := true }

/-- The frame of a buffer that has taken its marker. -/
def reported (g : VideoFrameBuffer) (fed : List Packet) (timestamp : BitVec 32) : Frame :=
  ⟨timestamp, sortFramePackets g.packets, g.bytes, fed⟩

/-- What a packet does: it is stale, or the buffer gathers it, and ends the
frame when it is the marker. -/
inductive Adds (s : Assembly) (packet : Packet) : Assembly → Prop
  | stale : Adds s packet s
  | gathered (g : VideoFrameBuffer) (hg : g.Gathers (s.feed packet)) (hactive : g.active = true)
      (hts : g.timestamp = packet.timestamp) (htaken : (s.buffer.activate packet).isSome = true) :
      Adds s packet ⟨g, s.feed packet, s.frames⟩
  | dropped (htaken : (s.buffer.activate packet).isSome = true) :
      Adds s packet ⟨ended packet.timestamp, s.feed packet, s.frames⟩
  | completed (g : VideoFrameBuffer) (hg : g.Gathers (s.feed packet)) (hactive : g.active = true)
      (hts : g.timestamp = packet.timestamp) (hmarker : packet.marker = true)
      (hkeeps : g.dropping = false) (hpacket : packet ∈ g.packets)
      (htaken : (s.buffer.activate packet).isSome = true) :
      Adds s packet ⟨ended packet.timestamp, s.feed packet,
        s.frames ++ [reported g (s.feed packet) packet.timestamp]⟩

theorem adds_step (hs : s.buffer.Gathers s.fed) (packet : Packet) : s.Adds packet (s.step packet) := by
  cases hactivate : s.buffer.activate packet with
  | none =>
    have hstarts := VideoFrameBuffer.starts_of_stale hactivate
    have hstep : s.step packet = s := by
      simp [step, VideoFrameBuffer.add, feed, hactivate, hstarts]
    rw [hstep]
    exact .stale
  | some f =>
    have htaken : (s.buffer.activate packet).isSome = true := by rw [hactivate]; rfl
    obtain ⟨hactive, hts, hcases⟩ := VideoFrameBuffer.activate_eq_some hactivate
    -- the packets of the timestamp before this one
    obtain ⟨fed, hfed, hf⟩ : ∃ fed, s.feed packet = fed ++ [packet] ∧ f.Gathers fed := by
      rcases hcases with ⟨hstarts, rfl⟩ | ⟨hstarts, rfl⟩
      · exact ⟨[], by simp [feed, hstarts, htaken], VideoFrameBuffer.gathers_empty rfl rfl⟩
      · exact ⟨s.fed, by simp [feed, hstarts], hs⟩
    rcases hf.keep hactive hts with ⟨hkeep, hg⟩ | ⟨g, hkeep, hg, hactive, hts, hpacket⟩
    · have hstep : s.step packet = ⟨f, s.feed packet, s.frames⟩ := by
        simp [step, VideoFrameBuffer.add, hactivate, hkeep]
      rw [hstep]
      exact .gathered f (hfed ▸ hg) hactive hts htaken
    · cases hmarker : packet.marker with
      | false =>
        have hstep : s.step packet = ⟨g, s.feed packet, s.frames⟩ := by
          simp [step, VideoFrameBuffer.add, hactivate, hkeep, VideoFrameBuffer.finish, hmarker]
        rw [hstep]
        exact .gathered g (hfed ▸ hg) hactive hts htaken
      | true =>
        cases hdropping : g.dropping with
        | true =>
          have hstep : s.step packet = ⟨ended packet.timestamp, s.feed packet, s.frames⟩ := by
            simp [step, VideoFrameBuffer.add, hactivate, hkeep, VideoFrameBuffer.finish, hmarker,
              hdropping, ended, hts]
          rw [hstep]
          exact .dropped htaken
        | false =>
          have hstep : s.step packet = ⟨ended packet.timestamp, s.feed packet,
              s.frames ++ [reported g (s.feed packet) packet.timestamp]⟩ := by
            simp [step, VideoFrameBuffer.add, hactivate, hkeep, VideoFrameBuffer.finish, hmarker,
              hdropping, ended, hts, reported, sort_eq]
          rw [hstep]
          exact .completed g (hfed ▸ hg) hactive hts hmarker hdropping (hpacket hdropping) htaken

theorem gathers_ended (timestamp : BitVec 32) (fed : List Packet) : (ended timestamp).Gathers fed where
  timestamp h := by cases h
  sublist := List.nil_sublist _
  distinct := List.nodup_nil
  bytes := rfl
  bytes_le := Nat.zero_le _
  length_le := Nat.zero_le _
  complete h := by cases h

theorem wellFormed_reported {g : VideoFrameBuffer} {fed : List Packet} (hg : g.Gathers fed)
    (hactive : g.active = true) (hts : g.timestamp = packet.timestamp)
    (hmarker : packet.marker = true) (hpacket : packet ∈ g.packets) :
    (reported g fed packet.timestamp).WellFormed := by
  have hperm : (sortFramePackets g.packets).Perm g.packets := sortBack_perm Packet.Later g.packets
  have hmem : packet ∈ sortFramePackets g.packets := mem_sortFramePackets.mpr hpacket
  constructor
  case nonempty => exact List.ne_nil_of_mem hmem
  case length_le =>
    show (sortFramePackets g.packets).length ≤ maxFramePackets
    rw [hperm.length_eq]
    exact hg.length_le
  case timestamp =>
    intro p hp
    have hfed := hg.sublist.subset (mem_sortFramePackets.mp hp)
    show p.timestamp = packet.timestamp
    rw [hg.timestamp hactive p hfed, hts]
  case distinct => exact (hperm.map (·.sequenceNumber)).nodup_iff.mpr hg.distinct
  case subperm => exact hperm.subperm.trans hg.sublist.subperm
  case marker => exact ⟨packet, hmem, hmarker⟩
  case bytes =>
    show g.bytes = ((sortFramePackets g.packets).map (·.marshalSize)).sum
    rw [(hperm.map (·.marshalSize)).sum_eq]
    exact hg.bytes
  case bytes_le => exact hg.bytes_le
  case ordered =>
    intro base hspan
    refine sortFramePackets_ordered base (fun p hp => hspan p ?_) hg.distinct
    exact mem_sortFramePackets.mpr hp

/-! ## Every sequence of packets -/

theorem gathers_step (hs : s.buffer.Gathers s.fed) (packet : Packet) :
    (s.step packet).buffer.Gathers (s.step packet).fed := by
  have hadds := adds_step hs packet
  generalize s.step packet = t at hadds
  cases hadds with
  | stale => exact hs
  | gathered g hg _ _ _ => exact hg
  | dropped _ => exact gathers_ended _ _
  | completed g _ _ _ _ _ _ _ => exact gathers_ended _ _

theorem gathers_of_reachable {ok : Assembly → Packet → Prop} (hr : lts.Reachable ok s) :
    s.buffer.Gathers s.fed := by
  refine hr.invariant_ofStep (I := fun s => s.buffer.Gathers s.fed)
    (VideoFrameBuffer.gathers_empty rfl rfl) ?_
  intro s packet t hs _ hstep
  obtain rfl := Option.some.inj hstep
  exact gathers_step hs packet

/-- What is reported is well formed. -/
theorem wellFormed_of_reachable {ok : Assembly → Packet → Prop} (hr : lts.Reachable ok s) :
    ∀ frame ∈ s.frames, frame.WellFormed := by
  refine hr.invariant_of (I := fun s => ∀ frame ∈ s.frames, frame.WellFormed)
    (J := fun s => s.buffer.Gathers s.fed) (fun _ hr => gathers_of_reachable hr) ?_ ?_
  · rintro s rfl frame hframe
    exact absurd hframe List.not_mem_nil
  · intro s packet t hs _ hframes _ hstep frame hframe
    obtain rfl := Option.some.inj hstep
    have hadds := adds_step hs packet
    generalize s.step packet = t at hadds hframe
    cases hadds with
    | stale => exact hframes frame hframe
    | gathered g _ _ _ _ => exact hframes frame hframe
    | dropped _ => exact hframes frame hframe
    | completed g hg hactive hts hmarker _ hpacket _ =>
      rcases List.mem_append.mp hframe with hframe | hframe
      · exact hframes frame hframe
      · rw [List.mem_singleton.mp hframe]
        exact wellFormed_reported hg hactive hts hmarker hpacket

/-- The timestamp of each frame comes after that of the frame before. -/
def Increasing (frames : List Frame) : Prop :=
  frames.IsChain fun frame next => After next.timestamp frame.timestamp

/-- What the buffer holds and has reported is well formed. -/
structure Sound (s : Assembly) : Prop where
  frames : ∀ frame ∈ s.frames, frame.WellFormed
  increasing : Increasing s.frames
  bytes_le : s.buffer.bytes ≤ maxVideoFrameBufferBytes
  length_le : s.buffer.packets.length ≤ maxFramePackets

/-- A packet that starts a frame comes after the frame that was last reported. -/
def StartsLater (s : Assembly) (packet : Packet) : Prop :=
  s.buffer.starts packet = true → (s.buffer.activate packet).isSome = true →
    ∀ frame, s.frames.getLast? = some frame → After packet.timestamp frame.timestamp

/-- The active timestamp comes after the frame that was last reported. -/
def ActiveLater (s : Assembly) : Prop :=
  s.buffer.active = true →
    ∀ frame, s.frames.getLast? = some frame → After s.buffer.timestamp frame.timestamp

theorem increasing_step (hs : s.buffer.Gathers s.fed) (hactive : s.ActiveLater)
    (hincreasing : Increasing s.frames) (hlater : s.StartsLater packet) :
    (s.step packet).ActiveLater ∧ Increasing (s.step packet).frames := by
  -- the packet's timestamp, where it is taken
  have htimestamp : (s.buffer.activate packet).isSome = true →
      ∀ frame, s.frames.getLast? = some frame → After packet.timestamp frame.timestamp := by
    intro htaken frame hframe
    by_cases hstarts : s.buffer.starts packet = true
    · exact hlater hstarts htaken frame hframe
    · simp only [VideoFrameBuffer.starts, Bool.or_eq_true, Bool.not_eq_true', decide_eq_true_eq,
        not_or, Bool.not_eq_false, not_not, ne_eq] at hstarts
      rw [← hstarts.2]
      exact hactive hstarts.1 frame hframe
  have hadds := adds_step hs packet
  generalize s.step packet = t at hadds
  cases hadds with
  | stale => exact ⟨hactive, hincreasing⟩
  | gathered g _ _ hts htaken =>
    refine ⟨fun _ frame hframe => ?_, hincreasing⟩
    show After g.timestamp frame.timestamp
    rw [hts]
    exact htimestamp htaken frame hframe
  | dropped _ => exact ⟨fun h => (by cases h), hincreasing⟩
  | completed g _ _ _ _ _ _ htaken =>
    refine ⟨fun h => (by cases h), ?_⟩
    refine List.IsChain.append hincreasing (List.isChain_singleton _) ?_
    intro frame hframe next hnext
    have hnext : next = reported g (s.feed packet) packet.timestamp := by
      simpa using hnext.symm
    rw [hnext]
    exact htimestamp htaken frame hframe

/-- **What a buffer reports is well formed**, where every frame is started
by a packet that comes after the frame reported before. -/
theorem sound_of_startsLater (hr : lts.Reachable StartsLater s) : s.Sound := by
  have hgathers := gathers_of_reachable hr
  have hchain : s.ActiveLater ∧ Increasing s.frames := by
    refine hr.invariant_of (I := fun s => s.ActiveLater ∧ Increasing s.frames)
      (J := fun s => s.buffer.Gathers s.fed) (fun _ hr => gathers_of_reachable hr) ?_ ?_
    · rintro s rfl
      exact ⟨fun h => (by cases h), List.isChain_nil⟩
    · intro s packet t hs _ ⟨hactive, hincreasing⟩ hlater hstep
      obtain rfl := Option.some.inj hstep
      exact increasing_step hs hactive hincreasing hlater
  exact ⟨wellFormed_of_reachable hr, hchain.2, hgathers.bytes_le, hgathers.length_le⟩

/-- Two packets whose numbers wrap around, the second one first. -/
theorem sound_wrapped : ∃ s : Assembly,
    s.frames.map (fun frame => frame.packets.map (·.sequenceNumber)) = [[0xffff, 0]] ∧ s.Sound := by
  have hnew : lts.Reachable StartsLater new := .init rfl
  have hfirst : lts.Reachable StartsLater (new.step ⟨7, 0, false, 100⟩) :=
    hnew.step (fun _ _ _ h => by cases h) rfl
  have hsecond : lts.Reachable StartsLater
      ((new.step ⟨7, 0, false, 100⟩).step ⟨7, 0xffff, true, 100⟩) :=
    hfirst.step (fun h => absurd h (by decide)) rfl
  exact ⟨_, by decide, sound_of_startsLater hsecond⟩

/-- A frame that is replaced before it is complete lets one be reported that
does not come after the last. -/
theorem not_sound_of_replaced : ¬ ∀ s, lts.Reachable Lts.Any s → s.Sound := by
  intro hall
  obtain ⟨s, hr, hs⟩ := Lts.exists_reachable_of_exec Lts.Any
    (fun s packet => some (Assembly.step s packet)) new
    [⟨0, 0, true, 100⟩, ⟨0x7fffffff, 1, false, 100⟩, ⟨0xfffffffe, 2, true, 100⟩]
    (fun s => s.frames.map (·.timestamp)) [0, 0xfffffffe] (fun _ _ _ => trivial) (by decide)
  have hincreasing := (hall s hr).increasing
  have hchain : (s.frames.map (·.timestamp)).IsChain fun a b => After b a :=
    (List.isChain_map _).mpr hincreasing
  rw [hs] at hchain
  exact absurd hchain (by decide)

/-! ## Where the packets of a frame come from -/

/-- The packets of the frames and then those being gathered, in the order in
which they were fed. -/
def parts (s : Assembly) : List Packet :=
  (s.frames.map (·.fed)).flatten ++ if s.buffer.active then s.fed else []

/-- A packet that is taken comes behind those gathered with it. -/
theorem feed_sublist {before taken : List Packet}
    (hs : (before ++ if s.buffer.active then s.fed else []).Sublist taken)
    (htaken : (s.buffer.activate packet).isSome = true) :
    (before ++ s.feed packet).Sublist (taken ++ [packet]) := by
  unfold feed
  cases hstarts : s.buffer.starts packet with
  | true =>
    rw [if_pos rfl, if_pos htaken]
    exact ((List.sublist_append_left _ _).trans hs).append (List.Sublist.refl _)
  | false =>
    have hactive : s.buffer.active = true := by
      simp only [VideoFrameBuffer.starts, Bool.or_eq_false_iff, Bool.not_eq_false'] at hstarts
      exact hstarts.1
    rw [if_pos hactive] at hs
    rw [if_neg Bool.false_ne_true, ← List.append_assoc]
    exact hs.append (List.Sublist.refl _)

theorem parts_step (hs : s.buffer.Gathers s.fed) {taken : List Packet}
    (hparts : s.parts.Sublist taken) (packet : Packet) :
    (s.step packet).parts.Sublist (taken ++ [packet]) := by
  have hadds := adds_step hs packet
  generalize s.step packet = t at hadds
  cases hadds with
  | stale => exact hparts.trans (List.sublist_append_left _ _)
  | gathered g _ hactive _ htaken =>
    show ((s.frames.map Frame.fed).flatten ++ if g.active then s.feed packet else []).Sublist _
    rw [if_pos hactive]
    exact feed_sublist hparts htaken
  | dropped _ =>
    have hframes : (s.frames.map (·.fed)).flatten.Sublist taken :=
      (List.sublist_append_left _ _).trans hparts
    show ((s.frames.map Frame.fed).flatten ++ []).Sublist _
    rw [List.append_nil]
    exact hframes.trans (List.sublist_append_left _ _)
  | completed g _ _ _ _ _ _ htaken =>
    show (((s.frames ++ [reported g (s.feed packet) packet.timestamp]).map Frame.fed).flatten ++
      []).Sublist _
    rw [List.map_append, List.append_nil, List.map_singleton, List.flatten_concat]
    exact feed_sublist hparts htaken

/-- Frames hold no more of a packet than they were fed. -/
theorem packets_subperm_fed {frames : List Frame} (hframes : ∀ frame ∈ frames, frame.WellFormed) :
    (frames.map (·.packets)).flatten.Subperm (frames.map (·.fed)).flatten := by
  induction frames with
  | nil => exact List.Subperm.refl _
  | cons frame rest ih =>
    rw [List.forall_mem_cons] at hframes
    rw [List.map_cons, List.map_cons, List.flatten_cons, List.flatten_cons]
    exact hframes.1.subperm.append (ih hframes.2)

end Assembly

/-! ## Gaps -/

/-- The frames a publisher sends: the packets of a timestamp have consecutive
sequence numbers, and the last one is the marker. -/
structure Source where
  first : BitVec 32 → BitVec 16
  length : BitVec 32 → Nat
  length_le : ∀ timestamp, length timestamp ≤ 2 ^ 16
  marshalSize : BitVec 32 → Nat → Nat

namespace Source

/-- The `i`-th packet of a timestamp. -/
def packet (src : Source) (timestamp : BitVec 32) (i : Nat) : Packet where
  timestamp
  sequenceNumber := src.first timestamp + BitVec.ofNat 16 i
  marker := i + 1 = src.length timestamp
  marshalSize := src.marshalSize timestamp i

/-- The publisher sends the packet. -/
def Sends (src : Source) (p : Packet) : Prop :=
  ∃ i < src.length p.timestamp, p = src.packet p.timestamp i

/-- Behind a packet of the list, none of the timestamp is missing in it. -/
def Closed (src : Source) (timestamp : BitVec 32) (packets : List Packet) : Prop :=
  ∀ i k, i ≤ k → k < src.length timestamp → src.packet timestamp i ∈ packets →
    src.packet timestamp k ∈ packets

variable {src : Source} {s : Assembly} {packet : Packet}

/-- Packets of one timestamp are told apart by their numbers. -/
theorem eq_of_sequenceNumber {p q : Packet} (hp : src.Sends p) (hq : src.Sends q)
    (htimestamp : p.timestamp = q.timestamp) (hseq : p.sequenceNumber = q.sequenceNumber) :
    p = q := by
  obtain ⟨i, hi, hip⟩ := hp
  obtain ⟨k, hk, hkq⟩ := hq
  rw [htimestamp] at hi hip
  have hnumbers : (src.packet q.timestamp i).sequenceNumber =
      (src.packet q.timestamp k).sequenceNumber := by
    rw [← hip, ← hkq]
    exact hseq
  have hofNat : BitVec.ofNat 16 i = BitVec.ofNat 16 k := add_right_injective _ hnumbers
  have hle := src.length_le q.timestamp
  have hnat := congrArg BitVec.toNat hofNat
  rw [BitVec.toNat_ofNat, BitVec.toNat_ofNat, Nat.mod_eq_of_lt (by omega),
    Nat.mod_eq_of_lt (by omega)] at hnat
  rw [hip, hnat]
  exact hkq.symm

/-- The packets fed so far are the publisher's. -/
theorem sends_of_reachable
    (hr : Assembly.lts.Reachable (fun _ packet => src.Sends packet) s) :
    ∀ p ∈ s.fed, src.Sends p := by
  refine hr.invariant_ofStep (I := fun s => ∀ p ∈ s.fed, src.Sends p)
    (fun p hp => absurd hp List.not_mem_nil) ?_
  intro s packet t hs hsends hstep p hp
  obtain rfl := Option.some.inj hstep
  simp only [Assembly.step, Assembly.feed] at hp
  split at hp
  · split at hp
    · rwa [List.mem_singleton.mp hp]
    · exact hs p hp
  · rcases List.mem_append.mp hp with hp | hp
    · exact hs p hp
    · rwa [List.mem_singleton.mp hp]

/-- **A reported frame has no gap exactly when its marker came last**: every
packet behind one that was fed had been fed too. -/
theorem closed_iff_fed (hr : Assembly.lts.Reachable (fun _ packet => src.Sends packet) s)
    (hsends : src.Sends packet) {frame : Frame}
    (hframe : (s.step packet).frames = s.frames ++ [frame]) :
    src.Closed packet.timestamp frame.packets ↔ src.Closed packet.timestamp (s.feed packet) := by
  have hs := Assembly.gathers_of_reachable hr
  have hfed : ∀ p ∈ s.feed packet, src.Sends p :=
    sends_of_reachable (hr.step hsends (show some (s.step packet) = some (s.step packet) from rfl))
  have hadds := Assembly.adds_step hs packet
  generalize s.step packet = t at hadds hframe
  cases hadds with
  | stale => simp at hframe
  | gathered g _ _ _ _ => simp at hframe
  | dropped _ => simp at hframe
  | completed g hg hactive hts hmarker hkeeps hpacket _ =>
    obtain rfl : Assembly.reported g (s.feed packet) packet.timestamp = frame := by
      simpa using hframe
    -- the frame holds one of each packet fed, and those of one number are equal
    have hmem : ∀ p, p ∈ sortFramePackets g.packets ↔ p ∈ s.feed packet := by
      intro p
      rw [mem_sortFramePackets]
      constructor
      · exact fun hp => hg.sublist.subset hp
      · intro hp
        obtain ⟨q, hq, hseq⟩ := hg.complete hactive hkeeps p hp
        have hqfed := hg.sublist.subset hq
        have htimestamp : q.timestamp = p.timestamp := by
          rw [hg.timestamp hactive q hqfed, hg.timestamp hactive p hp]
        rwa [← eq_of_sequenceNumber (hfed q hqfed) (hfed p hp) htimestamp hseq]
    simp only [Closed, Assembly.reported, hmem]

/-- Frames of three packets. -/
def triples : Source where
  first _ := 0
  length _ := 3
  length_le _ := by norm_num
  marshalSize _ _ := 100

/-- The second packet is lost, and the frame is reported without it. -/
theorem not_closed_of_lost : ¬ ∀ (src : Source) (s : Assembly) (packet : Packet) (frame : Frame),
    Assembly.lts.Reachable (fun _ packet => src.Sends packet) s → src.Sends packet →
      (s.step packet).frames = s.frames ++ [frame] → src.Closed packet.timestamp frame.packets := by
  intro hall
  have hnew : Assembly.lts.Reachable (fun _ packet => triples.Sends packet) .new := .init rfl
  have hsent : ∀ i < 3, triples.Sends (triples.packet 7 i) := fun i hi => ⟨i, hi, rfl⟩
  have hfirst : Assembly.lts.Reachable (fun _ packet => triples.Sends packet)
      (Assembly.new.step (triples.packet 7 0)) := hnew.step (hsent 0 (by decide)) rfl
  have hclosed := hall triples _ (triples.packet 7 2)
    ⟨7, [triples.packet 7 0, triples.packet 7 2], 200, [triples.packet 7 0, triples.packet 7 2]⟩
    hfirst (hsent 2 (by decide)) rfl
  have hmem := hclosed 0 1 (by decide) (by decide) List.mem_cons_self
  exact absurd hmem (by decide)

/-- All three are fed, the second one first. -/
theorem closed_of_all : ∃ s : Assembly, ∃ frame : Frame,
    (s.step (triples.packet 7 2)).frames = s.frames ++ [frame] ∧
      triples.Closed 7 frame.packets := by
  have hnew : Assembly.lts.Reachable (fun _ packet => triples.Sends packet) .new := .init rfl
  have hsent : ∀ i < 3, triples.Sends (triples.packet 7 i) := fun i hi => ⟨i, hi, rfl⟩
  have hfirst : Assembly.lts.Reachable (fun _ packet => triples.Sends packet)
      (Assembly.new.step (triples.packet 7 1)) := hnew.step (hsent 1 (by decide)) rfl
  have hsecond : Assembly.lts.Reachable (fun _ packet => triples.Sends packet)
      ((Assembly.new.step (triples.packet 7 1)).step (triples.packet 7 0)) :=
    hfirst.step (hsent 0 (by decide)) rfl
  refine ⟨(Assembly.new.step (triples.packet 7 1)).step (triples.packet 7 0),
    ⟨7, [triples.packet 7 0, triples.packet 7 1, triples.packet 7 2], 300,
      [triples.packet 7 1, triples.packet 7 0, triples.packet 7 2]⟩, by rfl, ?_⟩
  refine (closed_iff_fed hsecond (hsent 2 (by decide)) rfl).mpr ?_
  intro i k _ hk _
  have hk' : k < 3 := hk
  interval_cases k <;> decide

end Source

end SlowMeet.Media
