import SlowMeet.Lib.Mailbox
import SlowMeet.Media.FrameRate
import SlowMeet.Media.Frames

/-!
# From a publisher to its receivers

The goroutines of one video publication: the read loop gathers the frames and
puts each that is complete into the pacer's queue; the pacer hands the packets
of a frame to the mailboxes of the targets it resolved; and each target has a
writer that drains its mailbox. Nobody waits for a slower one. What a receiver
is sent is what its writer wrote.
-/

namespace SlowMeet.Media

open Lib

abbrev TargetId := Nat

/-- `targetVideoQueueDepth`. -/
def targetVideoQueueDepth : Nat := 24

def maxQueuedVideoFrames : Nat := 4

/-- A `publicationTarget` with its writer. `offered` and `written` are history
variables: no section reads them. -/
structure Target where
  pending : Mailbox Packet targetVideoQueueDepth
  done : Bool
  exited : Bool
  offered : List Packet
  written : List Packet

namespace Target

/-- `newPublicationTarget`. -/
def new : Target := ⟨.empty, false, false, [], []⟩

def enqueue (t : Target) (packet : Packet) : Target :=
  { t with
    pending := (t.pending.offer packet).getD t.pending
    offered := t.offered ++ [packet] }

def stop (t : Target) : Target := { t with done := true }

/-- A round of `writePackets`, with the packet it took. -/
def wrote (t : Target) (packet : Packet) (pending : Mailbox Packet targetVideoQueueDepth) :
    Target :=
  { t with pending := pending, written := t.written ++ [packet] }

def exit (t : Target) : Target := { t with exited := true }

end Target

/-- Where the pacer stands in `forwardVideoFrames`. -/
inductive Pacing
  /-- Waits for a frame. -/
  | idle
  /-- Before the check of `paused` for the next of the packets. -/
  | sending (packets : List Packet) (targets : List TargetId)
  /-- In `waitForBytes` for the packet. -/
  | waiting (packet : Packet) (packets : List Packet) (targets : List TargetId)
  /-- Hands the packet to the targets that are left. -/
  | handing (packet : Packet) (left : List TargetId) (packets : List Packet)
      (targets : List TargetId)
  | exited
  deriving DecidableEq

/-- The goroutines of a publication. `sent` are the packets the read loop has
read from the source, `shown` the frames it put before the queue, and `paced`
those the pacer took out of it. -/
structure Egress where
  assembly : Assembly
  rate : FrameRate
  frames : Mailbox (List Packet) maxQueuedVideoFrames
  pacer : Pacing
  target : TargetId → Target
  paused : Bool
  /-- The read loop has returned, and with it the stop channel of the pacer is
  closed. -/
  readStopped : Bool
  /-- The publication is torn down. -/
  stopped : Bool
  sent : List Packet
  shown : List (List Packet)
  paced : List (List Packet)

namespace Egress

def new (fps : ℤ) : Egress where
  assembly := .new
  rate := FrameRate.zero.setFPS fps
  frames := .empty
  pacer := .idle
  target _ := .new
  paused := false
  readStopped := false
  stopped := false
  sent := []
  shown := []
  paced := []

inductive Label
  | read (packet : Packet)
  | readStop
  | takeFrame (targets : List TargetId)
  | pace
  | admitPacket
  | hand
  | stopPacer
  | write (t : TargetId)
  | exitWriter (t : TargetId)
  | removeTarget (t : TargetId)
  | setPublicationActive (active : Bool)
  | setFPS (fps : ℤ)
  | stop
  deriving DecidableEq

/-- The frame a packet completes, when the limiter lets it through. -/
def completed (s : Egress) (packet : Packet) : Option (List Packet × Nat) :=
  (s.assembly.buffer.add packet).2

/-- A round of `forwardVideo`. The limiter is asked for the timestamp of the
frame's first packet. -/
def read (s : Egress) (packet : Packet) : Egress :=
  let s := { s with sent := s.sent ++ [packet] }
  if s.paused then s
  else
    let s' := { s with assembly := s.assembly.step packet }
    match s.completed packet with
    | none => s'
    | some (packets, _) =>
      let answer := s.rate.allowFrame (packets.headD packet).timestamp
      if answer.2 then
        { s' with
          rate := answer.1
          frames := (s.frames.offer packets).getD s.frames
          shown := s.shown ++ [packets] }
      else { s' with rate := answer.1 }

/-- A section of one of the goroutines, or of the router. The pacer resolves
the targets of a frame under the router's lock; each is one target. -/
def step (s : Egress) : Label → Option Egress
  | .read packet => if s.readStopped then none else some (s.read packet)
  | .readStop => some { s with readStopped := true }
  | .takeFrame targets =>
    if s.pacer = .idle ∧ targets.Nodup then
      s.frames.take.map fun taken =>
        let s := { s with frames := taken.2, paced := s.paced ++ [taken.1] }
        if targets = [] then s else { s with pacer := .sending taken.1 targets }
    else none
  | .pace =>
    match s.pacer with
    | .sending [] _ => some { s with pacer := .idle }
    | .sending (packet :: packets) targets =>
      if s.paused then some { s with pacer := .idle }
      else if s.readStopped then some { s with pacer := .exited }
      else some { s with pacer := .waiting packet packets targets }
    | _ => none
  | .admitPacket =>
    match s.pacer with
    | .waiting packet packets targets =>
      some { s with pacer := .handing packet targets packets targets }
    | _ => none
  | .hand =>
    match s.pacer with
    | .handing _ [] packets targets => some { s with pacer := .sending packets targets }
    | .handing packet (t :: left) packets targets => some { s with
        target := Function.update s.target t ((s.target t).enqueue packet)
        pacer := .handing packet left packets targets }
    | _ => none
  | .stopPacer =>
    match s.pacer with
    | .idle | .waiting _ _ _ => if s.readStopped then some { s with pacer := .exited } else none
    | _ => none
  | .write t =>
    if (s.target t).exited then none
    else (s.target t).pending.take.map fun taken =>
      { s with target := Function.update s.target t ((s.target t).wrote taken.1 taken.2) }
  | .exitWriter t =>
    if (s.target t).done || s.stopped then
      some { s with target := Function.update s.target t (s.target t).exit }
    else none
  | .removeTarget t => some { s with target := Function.update s.target t (s.target t).stop }
  | .setPublicationActive active => some { s with paused := !active }
  | .setFPS fps => some { s with rate := s.rate.setFPS fps }
  | .stop => some { s with stopped := true }

/-- Every interleaving of the goroutines. -/
def lts (fps : ℤ) : Lts Egress Label := .ofStep (new fps) step

variable {s s' : Egress} {fps : ℤ} {l : Label} {t : TargetId}

/-! ## The packets on their way -/

/-- What the pacer has still to hand to `t` of its frame. -/
def remaining (t : TargetId) : Pacing → List Packet
  | .idle | .exited => []
  | .sending packets targets => if t ∈ targets then packets else []
  | .waiting packet packets targets => if t ∈ targets then packet :: packets else []
  | .handing packet left packets targets =>
    (if t ∈ left then [packet] else []) ++ if t ∈ targets then packets else []

/-- The targets of a frame are distinct, and so are those that are left. -/
def Distinct : Pacing → Prop
  | .idle | .exited => True
  | .sending _ targets | .waiting _ _ targets => targets.Nodup
  | .handing _ left _ targets => left.Nodup ∧ targets.Nodup

/-- What is on its way is, in order, of the frames before it. -/
structure Flows (s : Egress) : Prop where
  distinct : Distinct s.pacer
  shown : s.shown.Sublist (s.assembly.frames.map (·.packets))
  queue : s.frames.Passes s.paced s.shown
  handed : ∀ t, ((s.target t).offered ++ remaining t s.pacer).Sublist s.paced.flatten
  mailbox : ∀ t, (s.target t).pending.Passes (s.target t).written (s.target t).offered

theorem flows_new (fps : ℤ) : (new fps).Flows where
  distinct := trivial
  shown := List.Sublist.refl _
  queue := Mailbox.passes_empty
  handed _ := List.Sublist.refl _
  mailbox _ := Mailbox.passes_empty

/-- A pacer that lets go of what it has left hands nothing else. -/
theorem Flows.drop (hs : s.Flows) {pacer : Pacing} (hdistinct : Distinct pacer)
    (hless : ∀ t, (remaining t pacer).Sublist (remaining t s.pacer)) :
    { s with pacer := pacer }.Flows :=
  { hs with
    distinct := hdistinct
    handed := fun t => ((List.Sublist.refl _).append (hless t)).trans (hs.handed t) }

theorem Flows.read (hs : s.Flows) (packet : Packet) : (s.read packet).Flows := by
  unfold Egress.read
  dsimp only
  split
  · exact { hs with }
  · have hframes : (s.assembly.step packet).frames.map (·.packets) =
        s.assembly.frames.map (·.packets) ++ ((s.completed packet).map Prod.fst).toList := by
      simp only [Assembly.step, completed, List.map_append]
      cases (s.assembly.buffer.add packet).2 <;> rfl
    have hgrow : s.shown.Sublist ((s.assembly.step packet).frames.map (·.packets)) := by
      rw [hframes]
      exact hs.shown.trans (List.sublist_append_left _ _)
    cases hcompleted : s.completed packet with
    | none =>
      have hnone : completed { s with sent := s.sent ++ [packet] } packet = none := hcompleted
      rw [hnone]
      exact { hs with shown := hgrow }
    | some frame =>
      obtain ⟨packets, bytes⟩ := frame
      have hsome : completed { s with sent := s.sent ++ [packet] } packet =
          some (packets, bytes) := hcompleted
      rw [hsome]
      dsimp only
      split
      · refine { hs with shown := ?_, queue := hs.queue.offer packets }
        show (s.shown ++ [packets]).Sublist ((s.assembly.step packet).frames.map (·.packets))
        rw [hframes, hcompleted]
        exact hs.shown.append (List.Sublist.refl _)
      · exact { hs with shown := hgrow }

theorem Flows.takeFrame (hs : s.Flows) (hidle : s.pacer = .idle) {targets : List TargetId}
    (hnodup : targets.Nodup) {packets : List Packet} {frames : Mailbox (List Packet) _}
    (htake : s.frames.take = some (packets, frames)) :
    Flows { s with
      frames := frames
      paced := s.paced ++ [packets]
      pacer := .sending packets targets } := by
  refine { hs with distinct := hnodup, queue := hs.queue.took htake, handed := fun t => ?_ }
  show ((s.target t).offered ++ if t ∈ targets then packets else []).Sublist
    (s.paced ++ [packets]).flatten
  rw [List.flatten_concat]
  have hold := hs.handed t
  rw [hidle, remaining, List.append_nil] at hold
  split
  · exact hold.append (List.Sublist.refl _)
  · exact hold.append (List.nil_sublist _)

/-- A packet goes from the pacer to a mailbox. -/
theorem Flows.hand (hs : s.Flows) {packet : Packet} {left : List TargetId}
    {packets : List Packet} {targets : List TargetId}
    (hpacer : s.pacer = .handing packet (t :: left) packets targets) :
    Flows { s with
      target := Function.update s.target t ((s.target t).enqueue packet)
      pacer := .handing packet left packets targets } := by
  have hdistinct := hs.distinct
  rw [hpacer] at hdistinct
  obtain ⟨hleft, htargets⟩ := hdistinct
  rw [List.nodup_cons] at hleft
  refine { hs with distinct := ⟨hleft.2, htargets⟩, handed := fun u => ?_, mailbox := fun u => ?_ }
  · have hold := hs.handed u
    rw [hpacer] at hold
    by_cases hu : u = t
    · subst hu
      simp only [Function.update_self, remaining, if_neg hleft.1, List.nil_append]
      simp only [remaining, List.mem_cons, true_or, if_true] at hold
      show ((s.target u).offered ++ [packet] ++ _).Sublist _
      rw [List.append_assoc]
      exact hold
    · simp only [Function.update_of_ne hu, remaining]
      simp only [remaining, List.mem_cons, hu, false_or] at hold
      exact hold
  · by_cases hu : u = t
    · subst hu
      simp only [Function.update_self]
      exact (hs.mailbox u).offer packet
    · simp only [Function.update_of_ne hu]
      exact hs.mailbox u

/-- A change of a target that offers it nothing. -/
theorem Flows.target (hs : s.Flows) {target : Target}
    (hoffered : target.offered = (s.target t).offered)
    (hmailbox : target.pending.Passes target.written target.offered) :
    { s with target := Function.update s.target t target }.Flows := by
  refine { hs with handed := fun u => ?_, mailbox := fun u => ?_ }
  · by_cases hu : u = t
    · subst hu
      simp only [Function.update_self, hoffered]
      exact hs.handed u
    · simp only [Function.update_of_ne hu]
      exact hs.handed u
  · by_cases hu : u = t
    · subst hu
      simp only [Function.update_self]
      exact hmailbox
    · simp only [Function.update_of_ne hu]
      exact hs.mailbox u

theorem Flows.step (hs : s.Flows) (hstep : s.step l = some s') : s'.Flows := by
  cases l with
  | read packet =>
    simp only [Egress.step, Option.ite_none_left_eq_some, Option.some.injEq] at hstep
    obtain ⟨-, rfl⟩ := hstep
    exact hs.read packet
  | takeFrame targets =>
    simp only [Egress.step, Option.ite_none_right_eq_some, Option.map_eq_some_iff] at hstep
    obtain ⟨⟨hidle, hnodup⟩, ⟨packets, frames⟩, htake, rfl⟩ := hstep
    dsimp only
    split
    · -- a frame without targets is skipped
      have hdistinct : Distinct s.pacer := hs.distinct
      refine (hs.takeFrame hidle hnodup htake).drop hdistinct fun t => ?_
      rw [hidle]
      exact List.nil_sublist _
    · exact hs.takeFrame hidle hnodup htake
  | pace =>
    simp only [Egress.step] at hstep
    split at hstep
    · cases hstep
      exact hs.drop trivial fun t => List.nil_sublist _
    · next packet packets targets hpacer =>
      have hdistinct := hs.distinct
      rw [hpacer] at hdistinct
      split at hstep
      · cases hstep
        exact hs.drop trivial fun t => List.nil_sublist _
      · split at hstep
        · cases hstep
          exact hs.drop trivial fun t => List.nil_sublist _
        · cases hstep
          refine hs.drop hdistinct fun t => ?_
          rw [hpacer]
          exact List.Sublist.refl _
    · cases hstep
  | admitPacket =>
    simp only [Egress.step] at hstep
    split at hstep
    · next packet packets targets hpacer =>
      have hdistinct := hs.distinct
      rw [hpacer] at hdistinct
      cases hstep
      refine hs.drop ⟨hdistinct, hdistinct⟩ fun t => ?_
      rw [hpacer, remaining, remaining]
      split <;> exact List.Sublist.refl _
    · cases hstep
  | hand =>
    simp only [Egress.step] at hstep
    split at hstep
    · next packet packets targets hpacer =>
      have hdistinct := hs.distinct
      rw [hpacer] at hdistinct
      cases hstep
      refine hs.drop hdistinct.2 fun t => ?_
      rw [hpacer]
      exact List.Sublist.refl _
    · next packet t left packets targets hpacer =>
      cases hstep
      exact hs.hand hpacer
    · cases hstep
  | stopPacer =>
    simp only [Egress.step] at hstep
    split at hstep
    · split at hstep <;> cases hstep
      exact hs.drop trivial fun t => List.nil_sublist _
    · split at hstep <;> cases hstep
      exact hs.drop trivial fun t => List.nil_sublist _
    · cases hstep
  | write t =>
    simp only [Egress.step, Option.ite_none_left_eq_some, Option.map_eq_some_iff] at hstep
    obtain ⟨-, ⟨packet, pending⟩, htake, rfl⟩ := hstep
    exact hs.target rfl ((hs.mailbox t).took htake)
  | exitWriter t =>
    simp only [Egress.step, Option.ite_none_right_eq_some, Option.some.injEq] at hstep
    obtain ⟨-, rfl⟩ := hstep
    exact hs.target rfl (hs.mailbox t)
  | removeTarget t =>
    obtain rfl := Option.some.inj hstep
    exact hs.target rfl (hs.mailbox t)
  | readStop | setPublicationActive _ | setFPS _ | stop =>
    obtain rfl := Option.some.inj hstep
    exact { hs with }

theorem flows_of_reachable {ok : Egress → Label → Prop} (hr : (lts fps).Reachable ok s) :
    s.Flows :=
  hr.invariant_ofStep (I := Flows) (flows_new fps) fun _ _ _ hs _ hstep => hs.step hstep

/-- What is read is fed to the frame buffer, unless the publication is paused;
the other sections leave both alone. -/
theorem assembly_step (hstep : s.step l = some s') :
    s'.assembly = s.assembly ∧ s'.sent = s.sent ∨
      ∃ packet, s'.sent = s.sent ++ [packet] ∧
        (s'.assembly = s.assembly ∨ s'.assembly = s.assembly.step packet) := by
  cases l with
  | read packet =>
    simp only [Egress.step, Option.ite_none_left_eq_some, Option.some.injEq] at hstep
    obtain ⟨-, rfl⟩ := hstep
    refine .inr ⟨packet, ?_⟩
    unfold Egress.read
    dsimp only
    split
    · exact ⟨rfl, .inl rfl⟩
    · split
      · exact ⟨rfl, .inr rfl⟩
      · split <;> exact ⟨rfl, .inr rfl⟩
  | takeFrame targets =>
    simp only [Egress.step, Option.ite_none_right_eq_some, Option.map_eq_some_iff] at hstep
    obtain ⟨-, taken, -, rfl⟩ := hstep
    split <;> exact .inl ⟨rfl, rfl⟩
  | write t =>
    simp only [Egress.step, Option.ite_none_left_eq_some, Option.map_eq_some_iff] at hstep
    obtain ⟨-, taken, -, rfl⟩ := hstep
    exact .inl ⟨rfl, rfl⟩
  | pace | admitPacket | hand | stopPacer =>
    simp only [Egress.step] at hstep
    repeat' split at hstep
    all_goals cases hstep
    all_goals exact .inl ⟨rfl, rfl⟩
  | exitWriter t =>
    simp only [Egress.step, Option.ite_none_right_eq_some, Option.some.injEq] at hstep
    obtain ⟨-, rfl⟩ := hstep
    exact .inl ⟨rfl, rfl⟩
  | readStop | removeTarget _ | setPublicationActive _ | setFPS _ | stop =>
    obtain rfl := Option.some.inj hstep
    exact .inl ⟨rfl, rfl⟩

/-- The frame buffer of the read loop is fed the packets that are read while
the publication is active. -/
theorem assembly_of_reachable {ok : Egress → Label → Prop} (hr : (lts fps).Reachable ok s) :
    Assembly.lts.Reachable Lts.Any s.assembly := by
  have hnew : Assembly.lts.Reachable Lts.Any Assembly.new := ⟨_, rfl, .refl _⟩
  refine hr.invariant_ofStep (I := fun s => Assembly.lts.Reachable Lts.Any s.assembly) hnew ?_
  intro s l s' hs _ hstep
  rcases assembly_step hstep with ⟨hsame, -⟩ | ⟨packet, -, hsame | hfed⟩
  · rw [hsame]
    exact hs
  · rw [hsame]
    exact hs
  · rw [hfed]
    exact hs.step (l := packet) trivial rfl

/-- The frames, one after the other, were gathered from what was read. -/
theorem parts_of_reachable {ok : Egress → Label → Prop} (hr : (lts fps).Reachable ok s) :
    s.assembly.parts.Sublist s.sent := by
  refine hr.invariant_of (I := fun s => s.assembly.parts.Sublist s.sent)
    (J := fun s => s.assembly.buffer.Gathers s.assembly.fed)
    (fun _ hr => Assembly.gathers_of_reachable (assembly_of_reachable hr)) ?_ ?_
  · rintro s rfl
    exact List.Sublist.refl _
  · intro s l s' hs _ hparts _ hstep
    rcases assembly_step hstep with ⟨hsame, hsent⟩ | ⟨packet, hsent, hsame | hfed⟩
    · rw [hsame, hsent]
      exact hparts
    · rw [hsame, hsent]
      exact hparts.trans (List.sublist_append_left _ _)
    · rw [hfed, hsent]
      exact Assembly.parts_step hs hparts packet

/-- How what a receiver's track is written comes from what the source sent.
The frames are gathered one after the other, so no packet is of two; inside
a frame the packets stand as `Frame.WellFormed` says. -/
structure Delivers (sent : List Packet) (frames : List Frame) (written : List Packet) :
    Prop where
  gathered : (frames.map (·.fed)).flatten.Sublist sent
  wellFormed : ∀ frame ∈ frames, frame.WellFormed
  ordered : written.Sublist (frames.map (·.packets)).flatten
  once : written.Subperm sent

/-- **What a receiver is sent**, whatever the goroutines do, are packets of the
frames that were gathered from what the source sent: frame by frame in the
order in which they were sent, inside a frame by sequence number, and no packet
more often than it was sent. -/
theorem written_sublist {ok : Egress → Label → Prop} (hr : (lts fps).Reachable ok s)
    (t : TargetId) : Delivers s.sent s.assembly.frames (s.target t).written := by
  have hs := flows_of_reachable hr
  have hgathered : (s.assembly.frames.map (·.fed)).flatten.Sublist s.sent :=
    (List.sublist_append_left _ _).trans (parts_of_reachable hr)
  have hwellFormed := Assembly.wellFormed_of_reachable (assembly_of_reachable hr)
  have hordered : (s.target t).written.Sublist (s.assembly.frames.map (·.packets)).flatten :=
    calc (s.target t).written.Sublist (s.target t).offered := (hs.mailbox t).taken_sublist
      List.Sublist _ s.paced.flatten := (List.sublist_append_left _ _).trans (hs.handed t)
      List.Sublist _ s.shown.flatten := flatten_sublist hs.queue.taken_sublist
      List.Sublist _ (s.assembly.frames.map (·.packets)).flatten := flatten_sublist hs.shown
  have hpackets := Assembly.packets_subperm_fed hwellFormed
  exact ⟨hgathered, hwellFormed, hordered,
    (hordered.subperm.trans hpackets).trans hgathered.subperm⟩

/-- A packet of a frame of three. -/
def sample (sequenceNumber : BitVec 16) (marker : Bool) : Packet :=
  ⟨9000, sequenceNumber, marker, 1200⟩

/-- The second of three packets comes first. They go to two receivers, of which
one is removed before its writer has written. -/
theorem written_sublist_reordered : ∃ s, (lts 30).Reachable Lts.Any s ∧
    Delivers s.sent s.assembly.frames (s.target 0).written ∧
    s.sent = [sample 8 false, sample 7 false, sample 9 true] ∧
    (s.target 0).written = [sample 7 false, sample 8 false, sample 9 true] ∧
    (s.target 1).written = [] := by
  obtain ⟨s, hr, ho⟩ := Lts.exists_reachable_of_exec Lts.Any step (new 30)
    [.read (sample 8 false), .read (sample 7 false), .read (sample 9 true), .takeFrame [0, 1],
      .pace, .admitPacket, .hand, .hand, .hand, .removeTarget 1, .exitWriter 1, .write 0,
      .pace, .admitPacket, .hand, .hand, .hand, .write 0,
      .pace, .admitPacket, .hand, .hand, .hand, .write 0]
    (fun s => (s.sent, (s.target 0).written, (s.target 1).written))
    ([sample 8 false, sample 7 false, sample 9 true],
      [sample 7 false, sample 8 false, sample 9 true], [])
    (fun _ _ _ => trivial) (by decide)
  obtain ⟨hsent, htargets⟩ := Prod.mk.inj ho
  obtain ⟨hwritten, hnone⟩ := Prod.mk.inj htargets
  exact ⟨s, hr, written_sublist hr 0, hsent, hwritten, hnone⟩

/-! ## A pause -/

/-- The packet that the pacer has past the check of `paused` and not yet
handed to `t`. -/
def inHand (t : TargetId) : Pacing → List Packet
  | .waiting packet _ targets => if t ∈ targets then [packet] else []
  | .handing packet left _ _ => if t ∈ left then [packet] else []
  | _ => []

/-- What a pause leaves on its way to the receiver of `t`. -/
def onItsWay (s : Egress) (t : TargetId) : List Packet :=
  (s.target t).pending.pending ++ inHand t s.pacer

theorem length_inHand_le (t : TargetId) (pacer : Pacing) : (inHand t pacer).length ≤ 1 := by
  unfold inHand
  split
  · split <;> simp
  · split <;> simp
  · exact Nat.zero_le _

/-- From `s` to `s'` the receiver of `t` is written nothing but what was on its
way, and what is on its way is of the rest. -/
def Drains (t : TargetId) (s s' : Egress) : Prop :=
  ∃ late, (s'.target t).written = (s.target t).written ++ late ∧
    (late ++ s'.onItsWay t).Sublist (s.onItsWay t)

theorem Drains.trans {s'' : Egress} (h : Drains t s s') (h' : Drains t s' s'') :
    Drains t s s'' := by
  obtain ⟨late, hwritten, hway⟩ := h
  obtain ⟨later, hwritten', hway'⟩ := h'
  refine ⟨late ++ later, by rw [hwritten', hwritten, List.append_assoc], ?_⟩
  rw [List.append_assoc]
  exact ((List.Sublist.refl late).append hway').trans hway

/-- Nothing is written and nothing comes on its way. -/
theorem drains_of_sublist (hwritten : (s'.target t).written = (s.target t).written)
    (hway : (s'.onItsWay t).Sublist (s.onItsWay t)) : Drains t s s' :=
  ⟨[], by rw [hwritten, List.append_nil], hway⟩

/-- A pacer that hands nothing more. -/
theorem drains_of_idle {pacer : Pacing} (hpacer : inHand t pacer = []) :
    Drains t s { s with pacer := pacer } := by
  refine drains_of_sublist rfl ?_
  show ((s.target t).pending.pending ++ inHand t pacer).Sublist _
  rw [hpacer, List.append_nil]
  exact List.sublist_append_left _ _

theorem enqueue_sublist (target : Target) (packet : Packet) :
    (target.enqueue packet).pending.pending.Sublist (target.pending.pending ++ [packet]) := by
  unfold Target.enqueue
  cases h : target.pending.offer packet with
  | none => exact List.sublist_append_left _ _
  | some m =>
    show m.pending.Sublist _
    rw [Mailbox.offer_eq_some h]

/-- What changes another target, or what the pacer has for another. -/
theorem drains_other {u : TargetId} (hne : t ≠ u) {target : Target} {pacer : Pacing}
    (hpacer : inHand t pacer = inHand t s.pacer) :
    Drains t s { s with target := Function.update s.target u target, pacer := pacer } := by
  refine drains_of_sublist ?_ ?_
  · simp only [Function.update_of_ne hne]
  · simp only [onItsWay, Function.update_of_ne hne, hpacer]
    exact List.Sublist.refl _

/-- The packet in hand goes into the mailbox, or is dropped. -/
theorem drains_hand {u : TargetId} {packet : Packet} {left : List TargetId}
    {packets : List Packet} {targets : List TargetId}
    (hpacer : s.pacer = .handing packet (u :: left) packets targets) (hout : u ∉ left) :
    Drains t s { s with
      target := Function.update s.target u ((s.target u).enqueue packet)
      pacer := .handing packet left packets targets } := by
  by_cases ht : t = u
  · subst ht
    refine drains_of_sublist ?_ ?_
    · simp only [Function.update_self]
      rfl
    · simp only [onItsWay, hpacer, Function.update_self, inHand, if_neg hout, List.append_nil,
        List.mem_cons, true_or, if_true]
      exact enqueue_sublist _ _
  · refine drains_other ht ?_
    simp only [hpacer, inHand, List.mem_cons, ht, false_or]

theorem drains_write {u : TargetId} {packet : Packet}
    {pending : Mailbox Packet targetVideoQueueDepth}
    (htake : (s.target u).pending.take = some (packet, pending)) :
    Drains t s { s with
      target := Function.update s.target u ((s.target u).wrote packet pending) } := by
  by_cases ht : t = u
  · subst ht
    refine ⟨[packet], ?_, ?_⟩
    · simp only [Function.update_self]
      rfl
    · simp only [onItsWay, Function.update_self, Mailbox.take_eq_some htake]
      exact List.Sublist.refl _
  · exact drains_other ht rfl

/-- A change of a target that touches neither its mailbox nor what is written. -/
theorem drains_target {u : TargetId} {target : Target}
    (hpending : target.pending = (s.target u).pending)
    (hwritten : target.written = (s.target u).written) :
    Drains t s { s with target := Function.update s.target u target } := by
  by_cases ht : t = u
  · subst ht
    refine drains_of_sublist ?_ ?_
    · simp only [Function.update_self, hwritten]
    · simp only [onItsWay, Function.update_self, hpending]
      exact List.Sublist.refl _
  · exact drains_other ht rfl

theorem drains_refl (s : Egress) : Drains t s s :=
  drains_of_sublist rfl (List.Sublist.refl _)

/-- While the publication is paused nothing comes on its way to a receiver. -/
theorem drains_step (hs : s.Flows) (hpaused : s.paused = true) (hstep : s.step l = some s')
    (t : TargetId) : Drains t s s' := by
  cases l with
  | read packet =>
    simp only [Egress.step, Option.ite_none_left_eq_some, Option.some.injEq] at hstep
    obtain ⟨-, rfl⟩ := hstep
    unfold Egress.read
    rw [if_pos (show ({ s with sent := s.sent ++ [packet] } : Egress).paused = true from hpaused)]
    exact drains_refl s
  | takeFrame targets =>
    simp only [Egress.step, Option.ite_none_right_eq_some, Option.map_eq_some_iff] at hstep
    obtain ⟨-, taken, -, rfl⟩ := hstep
    split
    · exact drains_refl s
    · exact (drains_refl s).trans (drains_of_idle rfl)
  | pace =>
    simp only [Egress.step] at hstep
    split at hstep
    · cases hstep
      exact drains_of_idle rfl
    · rw [if_pos hpaused] at hstep
      cases hstep
      exact drains_of_idle rfl
    · cases hstep
  | admitPacket =>
    simp only [Egress.step] at hstep
    split at hstep
    · next packet packets targets hpacer =>
      cases hstep
      refine drains_of_sublist rfl ?_
      simp only [onItsWay, hpacer, inHand]
      exact List.Sublist.refl _
    · cases hstep
  | hand =>
    simp only [Egress.step] at hstep
    split at hstep
    · cases hstep
      exact drains_of_idle rfl
    · next packet u left packets targets hpacer =>
      have hdistinct := hs.distinct
      rw [hpacer] at hdistinct
      cases hstep
      exact drains_hand hpacer (List.nodup_cons.mp hdistinct.1).1
    · cases hstep
  | stopPacer =>
    simp only [Egress.step] at hstep
    split at hstep
    · split at hstep <;> cases hstep
      exact drains_of_idle rfl
    · split at hstep <;> cases hstep
      exact drains_of_idle rfl
    · cases hstep
  | write u =>
    simp only [Egress.step, Option.ite_none_left_eq_some, Option.map_eq_some_iff] at hstep
    obtain ⟨-, ⟨packet, pending⟩, htake, rfl⟩ := hstep
    exact drains_write htake
  | exitWriter u =>
    simp only [Egress.step, Option.ite_none_right_eq_some, Option.some.injEq] at hstep
    obtain ⟨-, rfl⟩ := hstep
    exact drains_target rfl rfl
  | removeTarget u =>
    obtain rfl := Option.some.inj hstep
    exact drains_target rfl rfl
  | readStop | setPublicationActive _ | setFPS _ | stop =>
    obtain rfl := Option.some.inj hstep
    exact drains_refl s

/-- **A pause takes hold**: as long as a publication stays paused, all that a
receiver is still written was in its mailbox, or is the one packet in the
pacer's hands, when the pause began. -/
theorem written_of_paused {ok : Egress → Label → Prop} (hr : (lts fps).Reachable ok s)
    (hrun : (lts fps).Run (fun s _ => s.paused = true) s s') (t : TargetId) :
    (inHand t s.pacer).length ≤ 1 ∧
      ∃ late, (s'.target t).written = (s.target t).written ++ late ∧
        late.Sublist ((s.target t).pending.pending ++ inHand t s.pacer) := by
  refine ⟨length_inHand_le t s.pacer, ?_⟩
  have hkeeps := hrun.invariant (I := fun s' => s'.Flows ∧ Drains t s s')
    (fun a l b ha hpaused htr =>
      ⟨ha.1.step htr, ha.2.trans (drains_step ha.1 hpaused htr t)⟩)
    ⟨flows_of_reachable hr, drains_refl s⟩
  obtain ⟨late, hwritten, hway⟩ := hkeeps.2
  exact ⟨late, hwritten, (List.sublist_append_left _ _).trans hway⟩

/-- The publication is paused with the second packet of a frame past its check
and the first in the mailbox; the third is not sent, nor is the next frame. -/
theorem written_of_paused_midway : ∃ s s', (lts 30).Reachable Lts.Any s ∧
    (lts 30).Run (fun s _ => s.paused = true) s s' ∧
    ((inHand 0 s.pacer).length ≤ 1 ∧
      ∃ late, (s'.target 0).written = (s.target 0).written ++ late ∧
        late.Sublist ((s.target 0).pending.pending ++ inHand 0 s.pacer)) ∧
    (s.target 0).written = [] ∧
    (s'.target 0).written = [sample 7 false, sample 8 false] := by
  obtain ⟨s, s', hr, hrun, ho⟩ := Lts.exists_run_of_execWhen (fun _ _ => true)
    (fun (s : Egress) _ => s.paused) step (new 30)
    [.read (sample 8 false), .read (sample 7 false), .read (sample 9 true), .takeFrame [0],
      .pace, .admitPacket, .hand, .hand, .pace, .setPublicationActive false]
    [.read ⟨12000, 10, true, 900⟩, .admitPacket, .hand, .hand, .pace, .write 0, .write 0]
    (fun s s' => ((s.target 0).written, (s'.target 0).written))
    ([], [sample 7 false, sample 8 false]) (by decide)
  obtain ⟨hnone, htwo⟩ := Prod.mk.inj ho
  exact ⟨s, s', hr.any, hrun, written_of_paused hr hrun 0, hnone, htwo⟩

end Egress

end SlowMeet.Media
