import Mathlib.Data.List.Infix
import SlowMeet.Lib.Lts
import SlowMeet.Lib.Mailbox
import SlowMeet.Signaling.Protocol

/-!
# The outbound queue

`write`, `flushOutbound` and the writer goroutine of a client. Any goroutine
may write; the writer alone talks to the connection. A write that finds the
queue full closes the connection, in a step of its own: until then others may
still get a message in.
-/

namespace SlowMeet.Signaling

open Lib

/-- A goroutine that writes to the client. -/
abbrev Sender := Nat

/-- A call of `flushOutbound`. -/
abbrev FlushId := Nat

abbrev outboundQueueSize : Nat := 512

/-- A message with the goroutine that wrote it. -/
abbrev Entry := Sender × Message

/-- What the channel `outbound` carries. -/
inductive Item
  | message (entry : Entry)
  | sentinel (flush : FlushId)
  deriving DecidableEq

/-- Where the writer goroutine stands. -/
inductive Writer
  | idle
  /-- In `writeFrame`; `broken` when the connection was closed before. -/
  | writing (entry : Entry) (broken : Bool)
  | failing
  /-- `writerDone` is closed. -/
  | exited
  deriving DecidableEq

namespace Writer

def running : Writer → Bool
  | idle | writing _ _ => true
  | failing | exited => false

/-- What was taken from the queue and is not written yet. -/
def holds : Writer → List Entry
  | writing entry _ => [entry]
  | _ => []

/-- What may still reach the wire. -/
def solid : Writer → List Entry
  | writing entry false => [entry]
  | _ => []

end Writer

/-- Where a call of `flushOutbound` stands. -/
inductive FlushPhase
  | absent
  | entering
  | queued
  | returned (delivered : Bool)
  deriving DecidableEq

/-- A call of `flushOutbound`, with what had been accepted when it began. -/
structure Flush where
  phase : FlushPhase
  /-- The sentinel's channel is closed. -/
  signalled : Bool
  before : List Entry

/-- The outbound side of a client, with what was written to it, what of that
the queue accepted, and what the connection was handed. -/
structure Outbound where
  queue : Mailbox Item outboundQueueSize
  writer : Writer
  stopping : Bool
  closed : Bool
  /-- Who was refused and has not closed the connection yet. -/
  refused : Finset Sender
  flush : FlushId → Flush
  attempted : List Entry
  accepted : List Entry
  wire : List Entry

namespace Outbound

inductive Label
  | write (sender : Sender) (msg : Message)
  | closeFull (sender : Sender)
  | take
  | wrote (sent failed : Bool)
  | giveUp
  | stop
  | exit
  | closeConn
  | flushOutbound (flush : FlushId)
  | enqueueSentinel (flush : FlushId)
  | flushed (flush : FlushId)
  | flushAbandoned (flush : FlushId)

def new : Outbound where
  queue := .empty
  writer := .idle
  stopping := false
  closed := false
  refused := ∅
  flush _ := ⟨.absent, false, []⟩
  attempted := []
  accepted := []
  wire := []

def setFlush (s : Outbound) (f : FlushId) (flush : Flush) : Outbound :=
  { s with flush := Function.update s.flush f flush }

/-- `write`. -/
def write (s : Outbound) (sender : Sender) (msg : Message) : Outbound :=
  match s.queue.offer (.message (sender, msg)) with
  | some queue => { s with
      queue := queue
      attempted := s.attempted ++ [(sender, msg)]
      accepted := s.accepted ++ [(sender, msg)] }
  | none => { s with
      attempted := s.attempted ++ [(sender, msg)]
      refused := insert sender s.refused }

/-- The writer takes an item; a sentinel's channel it closes at once. -/
def received (s : Outbound) : Item × Mailbox Item outboundQueueSize → Outbound
  | (.message entry, queue) => { s with queue := queue, writer := .writing entry s.closed }
  | (.sentinel f, queue) =>
    { s with queue := queue }.setFlush f { s.flush f with signalled := true }

def step (s : Outbound) : Label → Option Outbound
  | .write sender msg => if sender ∈ s.refused then none else some (s.write sender msg)
  | .closeFull sender =>
    if sender ∈ s.refused then
      some { s with closed := true, refused := s.refused.erase sender }
    else none
  | .take => if s.writer = .idle then s.queue.take.map s.received else none
  | .wrote sent failed =>
    match s.writer with
    | .writing entry _ => some { s with
        wire := if sent then s.wire ++ [entry] else s.wire
        writer := if failed then .failing else .idle }
    | _ => none
  | .giveUp =>
    if s.writer = .failing then some { s with closed := true, writer := .exited } else none
  | .stop => some { s with stopping := true }
  | .exit =>
    if s.writer = .idle ∧ s.stopping = true then some { s with writer := .exited } else none
  | .closeConn => some { s with closed := true }
  | .flushOutbound f =>
    if (s.flush f).phase = .absent then some (s.setFlush f ⟨.entering, false, s.accepted⟩)
    else none
  | .enqueueSentinel f =>
    if (s.flush f).phase = .entering then
      (s.queue.offer (.sentinel f)).map fun queue =>
        { s with queue := queue }.setFlush f { s.flush f with phase := .queued }
    else none
  | .flushed f =>
    if (s.flush f).phase = .queued ∧ (s.flush f).signalled = true then
      some (s.setFlush f { s.flush f with phase := .returned true })
    else none
  | .flushAbandoned f =>
    if ((s.flush f).phase = .entering ∨ (s.flush f).phase = .queued) ∧ s.writer = .exited then
      some (s.setFlush f { s.flush f with phase := .returned false })
    else none

def lts : Lts Outbound Label := .ofStep new step

/-- What the websocket library promises of a frame write: on a connection that
was closed before it fails and sends nothing, and one that does not fail has
handed the frame over. -/
def respects (s : Outbound) : Label → Bool
  | .wrote sent failed =>
    match s.writer with
    | .writing _ true => !sent && failed
    | _ => sent || failed
  | _ => true

variable {s s' : Outbound} {l : Label} {f : FlushId} {sender : Sender} {msg : Message}

/-- The messages among the items. -/
def messages : List Item → List Entry
  | [] => []
  | .message entry :: rest => entry :: messages rest
  | .sentinel _ :: rest => messages rest

theorem messages_append (xs ys : List Item) : messages (xs ++ ys) = messages xs ++ messages ys := by
  induction xs with
  | nil => rfl
  | cons item rest ih =>
    cases item with
    | message entry => exact congrArg (entry :: ·) ih
    | sentinel f => exact ih

/-- What one goroutine puts into the queue. -/
def items (sender : Sender) (msgs : List Message) : List Item :=
  msgs.map fun msg => .message (sender, msg)

/-! ## Accounting -/

/-- Where everything accepted is, and what a flush waits for. -/
structure Accounts (s : Outbound) : Prop where
  running : s.writer.running = true →
    s.wire ++ s.writer.holds ++ messages s.queue.pending = s.accepted
  wire : s.wire <+: s.accepted
  before : ∀ f, (s.flush f).before <+: s.accepted
  ahead : s.writer.running = true → ∀ f front back,
    s.queue.pending = front ++ .sentinel f :: back →
      (s.flush f).before <+: s.wire ++ s.writer.holds ++ messages front
  known : ∀ f, .sentinel f ∈ s.queue.pending → (s.flush f).phase ≠ .absent
  signalled : ∀ f, (s.flush f).signalled = true →
    (s.flush f).before <+: s.wire ∧ (s.flush f).phase ≠ .absent
  delivered : ∀ f, (s.flush f).phase = .returned true → (s.flush f).signalled = true
  abandoned : ∀ f, (s.flush f).phase = .returned false → s.writer = .exited

theorem accounts_new : new.Accounts where
  running _ := rfl
  wire := List.prefix_refl _
  before _ := List.prefix_refl _
  ahead _ _ front back h := by
    cases front <;> cases h
  known _ h := by cases h
  signalled _ h := by cases h
  delivered _ h := by cases h
  abandoned _ h := by cases h

/-- A change of what neither the queue, the writer nor a flush knows of. -/
theorem Accounts.of_same (hs : s.Accounts) (hqueue : s'.queue = s.queue)
    (hwriter : s'.writer = s.writer) (hflush : s'.flush = s.flush)
    (haccepted : s'.accepted = s.accepted) (hwire : s'.wire = s.wire) : s'.Accounts := by
  obtain ⟨queue, writer, stopping, closed, refused, flush, attempted, accepted, wire⟩ := s'
  subst hqueue hwriter hflush haccepted hwire
  exact ⟨hs.running, hs.wire, hs.before, hs.ahead, hs.known, hs.signalled, hs.delivered,
    hs.abandoned⟩

/-- A sentinel in a queue that has grown by one item. -/
theorem split_append {queue front back : List Item} {item : Item}
    (h : queue ++ [item] = front ++ .sentinel f :: back) :
    (item = .sentinel f ∧ queue = front) ∨
      ∃ rest, queue = front ++ .sentinel f :: rest := by
  rcases List.eq_nil_or_concat back with rfl | ⟨rest, last, rfl⟩
  · have hlast := List.append_inj' h rfl
    exact .inl ⟨(List.cons.inj hlast.2).1, hlast.1⟩
  · rw [List.concat_eq_append, ← List.cons_append, ← List.append_assoc] at h
    exact .inr ⟨rest, (List.append_inj' h rfl).1⟩

theorem Accounts.write (hs : s.Accounts) (sender : Sender) (msg : Message) :
    (s.write sender msg).Accounts := by
  unfold Outbound.write
  split
  next queue hoffer =>
    have hpending := Mailbox.offer_eq_some hoffer
    have hgrown : s.accepted <+: s.accepted ++ [(sender, msg)] := List.prefix_append _ _
    refine ⟨fun h => ?_, hs.wire.trans hgrown, fun f => (hs.before f).trans hgrown,
      fun h f front back hsplit => ?_, fun f hmem => ?_, hs.signalled, hs.delivered, hs.abandoned⟩
    · show s.wire ++ s.writer.holds ++ messages queue.pending = _
      rw [hpending, messages_append, ← List.append_assoc, hs.running h]
      rfl
    · rw [show queue.pending = _ from hpending] at hsplit
      rcases split_append hsplit with ⟨hitem, -⟩ | ⟨rest, hqueue⟩
      · cases hitem
      · exact hs.ahead h f front rest hqueue
    · rw [show queue.pending = _ from hpending] at hmem
      rcases List.mem_append.mp hmem with hmem | hmem
      · exact hs.known f hmem
      · cases List.mem_singleton.mp hmem
  next => exact hs.of_same rfl rfl rfl rfl rfl

/-- The writer takes a message. -/
theorem Accounts.takeMessage (hs : s.Accounts) (hidle : s.writer = .idle) {entry : Entry}
    {queue : Mailbox Item outboundQueueSize}
    (hpending : s.queue.pending = .message entry :: queue.pending) :
    Accounts { s with queue := queue, writer := .writing entry s.closed } := by
  have hrunning := hs.running (by rw [hidle]; rfl)
  rw [hidle, hpending] at hrunning
  refine ⟨fun _ => ?_, hs.wire, hs.before, fun _ f front back hsplit => ?_, fun f hmem => ?_,
    hs.signalled, hs.delivered, fun f h => ?_⟩
  · show s.wire ++ [entry] ++ messages queue.pending = s.accepted
    rw [← hrunning]
    simp [Writer.holds, messages]
  · have hahead := hs.ahead (by rw [hidle]; rfl) f (.message entry :: front) back
      (by rw [hpending, show queue.pending = _ from hsplit, List.cons_append])
    rw [hidle] at hahead
    show _ <+: s.wire ++ [entry] ++ messages front
    simpa [Writer.holds, messages] using hahead
  · exact hs.known f (hpending ▸ List.mem_cons_of_mem _ hmem)
  · have hexited := hs.abandoned f h
    rw [hidle] at hexited
    cases hexited

/-- The queue loses a sentinel at its head. -/
theorem Accounts.dropSentinel (hs : s.Accounts) (hactive : s.writer.running = true)
    {queue : Mailbox Item outboundQueueSize}
    (hpending : s.queue.pending = .sentinel f :: queue.pending) :
    Accounts { s with queue := queue } := by
  refine { hs with running := fun _ => ?_, ahead := fun _ g front back hsplit => ?_,
                   known := fun g hmem => ?_ }
  · have hrunning := hs.running hactive
    rw [hpending] at hrunning
    exact hrunning
  · exact hs.ahead hactive g (.sentinel f :: front) back
      (by rw [hpending, show queue.pending = _ from hsplit, List.cons_append])
  · exact hs.known g (hpending ▸ List.mem_cons_of_mem _ hmem)

/-- The queue gains the sentinel of a call that has begun. -/
theorem Accounts.addSentinel (hs : s.Accounts) (hbegun : (s.flush f).phase ≠ .absent)
    {queue : Mailbox Item outboundQueueSize}
    (hpending : queue.pending = s.queue.pending ++ [.sentinel f]) :
    Accounts { s with queue := queue } := by
  refine { hs with running := fun h => ?_, ahead := fun h g front back hsplit => ?_,
                   known := fun g hmem => ?_ }
  · show s.wire ++ s.writer.holds ++ messages queue.pending = _
    rw [hpending, messages_append, ← List.append_assoc, hs.running h]
    exact List.append_nil _
  · rw [show queue.pending = _ from hpending] at hsplit
    rcases split_append hsplit with ⟨hitem, rfl⟩ | ⟨rest, hqueue⟩
    · -- the new one waits for all that was accepted
      show _ <+: s.wire ++ s.writer.holds ++ messages s.queue.pending
      rw [hs.running h]
      exact hs.before g
    · exact hs.ahead h g front rest hqueue
  · rw [show queue.pending = _ from hpending] at hmem
    rcases List.mem_append.mp hmem with hmem | hmem
    · exact hs.known g hmem
    · cases List.mem_singleton.mp hmem
      exact hbegun

/-- A call goes on. -/
theorem Accounts.setFlush (hs : s.Accounts) {flush : Flush}
    (hbefore : flush.before = (s.flush f).before ∨
      (s.flush f).phase = .absent ∧ flush.before <+: s.accepted)
    (hbegun : flush.phase ≠ .absent)
    (hsignalled : flush.signalled = true → flush.before <+: s.wire)
    (hdelivered : flush.phase = .returned true → flush.signalled = true)
    (habandoned : flush.phase = .returned false → s.writer = .exited) :
    (s.setFlush f flush).Accounts := by
  have hself : (s.setFlush f flush).flush f = flush := Function.update_self ..
  have hother : ∀ g, g ≠ f → (s.setFlush f flush).flush g = s.flush g :=
    fun g hg => Function.update_of_ne hg ..
  refine ⟨hs.running, hs.wire, fun g => ?_, fun h g front back hsplit => ?_, fun g hmem => ?_,
    fun g h => ?_, fun g h => ?_, fun g h => ?_⟩
  · by_cases hg : g = f
    · subst hg
      rw [hself]
      rcases hbefore with hsame | ⟨-, hbefore⟩
      · rw [hsame]
        exact hs.before g
      · exact hbefore
    · rw [hother g hg]
      exact hs.before g
  · by_cases hg : g = f
    · subst hg
      rw [hself]
      rcases hbefore with hsame | ⟨habsent, -⟩
      · rw [hsame]
        exact hs.ahead h g front back hsplit
      · have hmem : .sentinel g ∈ s.queue.pending := by
          rw [show s.queue.pending = _ from hsplit]
          exact List.mem_append_right _ List.mem_cons_self
        exact absurd habsent (hs.known g hmem)
    · rw [hother g hg]
      exact hs.ahead h g front back hsplit
  · by_cases hg : g = f
    · subst hg
      rw [hself]
      exact hbegun
    · rw [hother g hg]
      exact hs.known g hmem
  · by_cases hg : g = f
    · subst hg
      rw [hself] at h ⊢
      exact ⟨hsignalled h, hbegun⟩
    · rw [hother g hg] at h ⊢
      exact hs.signalled g h
  · by_cases hg : g = f
    · subst hg
      rw [hself] at h ⊢
      exact hdelivered h
    · rw [hother g hg] at h ⊢
      exact hs.delivered g h
  · by_cases hg : g = f
    · subst hg
      rw [hself] at h
      exact habandoned h
    · rw [hother g hg] at h
      exact hs.abandoned g h

/-- The writer takes an item; what stood before a sentinel is on the wire. -/
theorem Accounts.received (hs : s.Accounts) (hidle : s.writer = .idle) {item : Item}
    {queue : Mailbox Item outboundQueueSize} (htake : s.queue.take = some (item, queue)) :
    (s.received (item, queue)).Accounts := by
  have hpending := Mailbox.take_eq_some htake
  have hactive : s.writer.running = true := by rw [hidle]; rfl
  cases item with
  | message entry => exact hs.takeMessage hidle hpending
  | sentinel f =>
    have hahead := hs.ahead hactive f [] queue.pending hpending
    rw [hidle] at hahead
    have hreached : (s.flush f).before <+: s.wire := by
      simpa [Writer.holds, messages] using hahead
    have hbegun := hs.known f (hpending ▸ List.mem_cons_self)
    exact (hs.dropSentinel hactive hpending).setFlush (.inl rfl) hbegun (fun _ => hreached)
      (fun _ => rfl) (hs.abandoned f)

/-- A write ends, with the frame on the wire when it did not fail. -/
theorem Accounts.wrote (hs : s.Accounts) {entry : Entry} {broken sent failed : Bool}
    (hwriting : s.writer = .writing entry broken) (hsent : failed = false → sent = true) :
    Accounts { s with
      wire := if sent then s.wire ++ [entry] else s.wire
      writer := if failed then .failing else .idle } := by
  have hrunning := hs.running (by rw [hwriting]; rfl)
  rw [hwriting] at hrunning
  have hgrown : s.wire <+: if sent then s.wire ++ [entry] else s.wire := by
    cases sent
    · exact List.prefix_refl _
    · exact List.prefix_append _ _
  have hnot : s.writer ≠ .exited := by
    rw [hwriting]
    exact Writer.noConfusion
  refine { hs with running := fun h => ?_, wire := ?_, ahead := fun h f front back hsplit => ?_,
                   signalled := fun f h => ⟨(hs.signalled f h).1.trans hgrown, (hs.signalled f h).2⟩,
                   abandoned := fun f h => absurd (hs.abandoned f h) hnot }
  · cases failed with
    | false =>
      obtain rfl := hsent rfl
      exact (List.append_nil (s.wire ++ [entry])).symm ▸ hrunning
    | true => cases h
  · cases sent with
    | false => exact hs.wire
    | true => exact ⟨messages s.queue.pending, hrunning⟩
  · cases failed with
    | false =>
      obtain rfl := hsent rfl
      have hahead := hs.ahead (by rw [hwriting]; rfl) f front back hsplit
      rw [hwriting] at hahead
      exact (List.append_nil (s.wire ++ [entry])).symm ▸ hahead
    | true => cases h

/-- The writer exits. -/
theorem Accounts.exit (hs : s.Accounts) (closed : Bool) :
    Accounts { s with closed := closed, writer := .exited } :=
  { hs with
    running := fun h => (by cases h)
    ahead := fun h => (by cases h)
    abandoned := fun _ _ => rfl }

theorem Accounts.step (hs : s.Accounts) (hok : respects s l = true)
    (hstep : s.step l = some s') : s'.Accounts := by
  cases l with
  | write sender msg =>
    simp only [Outbound.step, Option.ite_none_left_eq_some, Option.some.injEq] at hstep
    obtain ⟨-, rfl⟩ := hstep
    exact hs.write sender msg
  | closeFull sender =>
    simp only [Outbound.step, Option.ite_none_right_eq_some, Option.some.injEq] at hstep
    obtain ⟨-, rfl⟩ := hstep
    exact hs.of_same rfl rfl rfl rfl rfl
  | take =>
    simp only [Outbound.step, Option.ite_none_right_eq_some, Option.map_eq_some_iff] at hstep
    obtain ⟨hidle, ⟨item, queue⟩, htake, rfl⟩ := hstep
    exact hs.received hidle htake
  | wrote sent failed =>
    simp only [Outbound.step] at hstep
    split at hstep
    · next entry broken hwriting =>
      cases hstep
      refine hs.wrote hwriting fun hfailed => ?_
      subst hfailed
      rw [respects, hwriting] at hok
      cases broken with
      | false => simpa using hok
      | true => simp at hok
    · cases hstep
  | giveUp =>
    simp only [Outbound.step, Option.ite_none_right_eq_some, Option.some.injEq] at hstep
    obtain ⟨-, rfl⟩ := hstep
    exact hs.exit true
  | exit =>
    simp only [Outbound.step, Option.ite_none_right_eq_some, Option.some.injEq] at hstep
    obtain ⟨-, rfl⟩ := hstep
    exact hs.exit s.closed
  | stop | closeConn =>
    obtain rfl := Option.some.inj hstep
    exact hs.of_same rfl rfl rfl rfl rfl
  | flushOutbound f =>
    simp only [Outbound.step, Option.ite_none_right_eq_some, Option.some.injEq] at hstep
    obtain ⟨habsent, rfl⟩ := hstep
    exact hs.setFlush (.inr ⟨habsent, List.prefix_refl _⟩) FlushPhase.noConfusion
      (fun h => (by cases h)) (fun h => (by cases h)) fun h => (by cases h)
  | enqueueSentinel f =>
    simp only [Outbound.step, Option.ite_none_right_eq_some, Option.map_eq_some_iff] at hstep
    obtain ⟨hentering, queue, hoffer, rfl⟩ := hstep
    have hbegun : (s.flush f).phase ≠ .absent := by
      rw [hentering]
      exact FlushPhase.noConfusion
    exact (hs.addSentinel hbegun (Mailbox.offer_eq_some hoffer)).setFlush (.inl rfl)
      FlushPhase.noConfusion (fun h => (hs.signalled f h).1) (fun h => (by cases h))
      fun h => (by cases h)
  | flushed f =>
    simp only [Outbound.step, Option.ite_none_right_eq_some, Option.some.injEq] at hstep
    obtain ⟨⟨-, hsignalled⟩, rfl⟩ := hstep
    exact hs.setFlush (.inl rfl) FlushPhase.noConfusion (fun h => (hs.signalled f h).1)
      (fun _ => hsignalled) fun h => (by cases h)
  | flushAbandoned f =>
    simp only [Outbound.step, Option.ite_none_right_eq_some, Option.some.injEq] at hstep
    obtain ⟨⟨-, hexited⟩, rfl⟩ := hstep
    exact hs.setFlush (.inl rfl) FlushPhase.noConfusion (fun h => (hs.signalled f h).1)
      (fun h => (by cases h)) fun _ => hexited

theorem accounts_of_reachable (hr : lts.Reachable (fun s l => respects s l = true) s) :
    s.Accounts :=
  hr.invariant_ofStep (I := Accounts) accounts_new fun _ _ _ hs hok hstep => hs.step hok hstep

/-! ## How full the queue gets -/

/-- No call of `flushOutbound` begins; in `ServeHTTP` one is the last thing
before it returns. -/
def Unflushed (_ : Outbound) (l : Label) : Prop := ∀ f, l ≠ .flushOutbound f

/-- The queue holds at most what was written. -/
theorem pending_le_attempted (hr : lts.Reachable Unflushed s) :
    s.queue.pending.length ≤ s.attempted.length := by
  refine (hr.invariant_ofStep (I := fun s => (∀ f, (s.flush f).phase = .absent) ∧
    s.queue.pending.length ≤ s.attempted.length) ⟨fun _ => rfl, Nat.le_refl 0⟩ ?_).2
  intro s l s' ⟨habsent, hle⟩ hok hstep
  cases l with
  | write sender msg =>
    simp only [Outbound.step, Option.ite_none_left_eq_some, Option.some.injEq] at hstep
    obtain ⟨-, rfl⟩ := hstep
    unfold Outbound.write
    split
    · next queue hoffer =>
      refine ⟨habsent, ?_⟩
      have hpending := Mailbox.offer_eq_some hoffer
      show queue.pending.length ≤ (s.attempted ++ [(sender, msg)]).length
      rw [hpending, List.length_append, List.length_append, List.length_singleton,
        List.length_singleton]
      omega
    · refine ⟨habsent, ?_⟩
      show s.queue.pending.length ≤ (s.attempted ++ [(sender, msg)]).length
      rw [List.length_append]
      omega
  | take =>
    simp only [Outbound.step, Option.ite_none_right_eq_some, Option.map_eq_some_iff] at hstep
    obtain ⟨-, ⟨item, queue⟩, htake, rfl⟩ := hstep
    have hpending := Mailbox.take_eq_some htake
    have hless : queue.pending.length ≤ s.attempted.length := by
      rw [hpending, List.length_cons] at hle
      omega
    cases item with
    | message entry => exact ⟨habsent, hless⟩
    | sentinel f =>
      refine ⟨fun g => ?_, hless⟩
      simp only [received, setFlush, Function.update_apply]
      split
      · exact habsent f
      · exact habsent g
  | wrote sent failed =>
    simp only [Outbound.step] at hstep
    split at hstep <;> cases hstep
    exact ⟨habsent, hle⟩
  | closeFull _ | giveUp | exit =>
    simp only [Outbound.step, Option.ite_none_right_eq_some, Option.some.injEq] at hstep
    obtain ⟨-, rfl⟩ := hstep
    exact ⟨habsent, hle⟩
  | stop | closeConn =>
    obtain rfl := Option.some.inj hstep
    exact ⟨habsent, hle⟩
  | flushOutbound f => exact absurd rfl (hok f)
  | enqueueSentinel f | flushed f | flushAbandoned f =>
    -- a call that has not begun
    simp [Outbound.step, habsent f] at hstep

/-! ## What a sender gets through -/

/-- What one goroutine wrote, of a list of entries. -/
def ofSender (sender : Sender) (entries : List Entry) : List Entry :=
  entries.filter fun entry => entry.1 = sender

theorem ofSender_append (xs ys : List Entry) :
    ofSender sender (xs ++ ys) = ofSender sender xs ++ ofSender sender ys :=
  List.filter_append xs ys

theorem ofSender_mono {xs ys : List Entry} (h : xs <+: ys) :
    ofSender sender xs <+: ofSender sender ys :=
  h.filter _

/-- A sender is on the wire with a prefix of its writes. While the connection
is open nobody's writes but those of the refused have been dropped; once it is
closed the wire gets at most the frame in flight. -/
structure Ordered (s : Outbound) : Prop where
  solid : ∀ g, ofSender g (s.wire ++ s.writer.solid) <+: ofSender g s.attempted
  accepted : s.closed = false → ∀ g, ofSender g s.accepted <+: ofSender g s.attempted ∧
    (g ∉ s.refused → ofSender g s.accepted = ofSender g s.attempted)

theorem ordered_new : new.Ordered where
  solid _ := List.prefix_refl _
  accepted _ _ := ⟨List.prefix_refl _, fun _ => rfl⟩

theorem Ordered.write (hs : s.Ordered) (hfree : sender ∉ s.refused) :
    (s.write sender msg).Ordered := by
  have hgrown : ∀ g, ofSender g s.attempted <+: ofSender g (s.attempted ++ [(sender, msg)]) :=
    fun g => ofSender_mono (List.prefix_append _ _)
  unfold Outbound.write
  split
  · refine ⟨fun g => (hs.solid g).trans (hgrown g), fun hopen g => ?_⟩
    obtain ⟨hcomes, hall⟩ := hs.accepted hopen g
    simp only [ofSender_append]
    by_cases hg : g = sender
    · -- the writer itself has lost nothing so far
      subst hg
      rw [hall hfree]
      exact ⟨List.prefix_refl _, fun _ => rfl⟩
    · have hnone : ofSender g [(sender, msg)] = [] := by
        simp [ofSender, Ne.symm hg]
      rw [hnone, List.append_nil, List.append_nil]
      exact ⟨hcomes, hall⟩
  · refine ⟨fun g => (hs.solid g).trans (hgrown g), fun hopen g => ?_⟩
    obtain ⟨hcomes, hall⟩ := hs.accepted hopen g
    refine ⟨hcomes.trans (hgrown g), fun hg => ?_⟩
    obtain ⟨hother, hg⟩ := not_or.mp fun h => hg (Finset.mem_insert.mpr h)
    have hnone : ofSender g [(sender, msg)] = [] := by
      simp [ofSender, Ne.symm hother]
    rw [hall hg, ofSender_append, hnone, List.append_nil]

/-- The writer takes a message: it counts for the wire while the connection is
open, and all accepted before it is there already. -/
theorem Ordered.takeMessage (hs : s.Ordered) (haccounts : s.Accounts) (hidle : s.writer = .idle)
    {entry : Entry} {queue : Mailbox Item outboundQueueSize}
    (hpending : s.queue.pending = .message entry :: queue.pending) :
    Ordered { s with queue := queue, writer := .writing entry s.closed } := by
  refine ⟨fun g => ?_, hs.accepted⟩
  cases hclosed : s.closed with
  | true =>
    have hsolid := hs.solid g
    rw [hidle] at hsolid
    exact hsolid
  | false =>
    have hrunning := haccounts.running (by rw [hidle]; rfl)
    rw [hidle, hpending] at hrunning
    have hwire : s.wire ++ [entry] <+: s.accepted := by
      refine ⟨messages queue.pending, ?_⟩
      rw [← hrunning]
      simp [Writer.holds, messages]
    exact (ofSender_mono hwire).trans (hs.accepted hclosed g).1

theorem Ordered.wrote (hs : s.Ordered) {entry : Entry} {broken sent failed : Bool}
    (hwriting : s.writer = .writing entry broken) (hbroken : broken = true → sent = false) :
    Ordered { s with
      wire := if sent then s.wire ++ [entry] else s.wire
      writer := if failed then .failing else .idle } := by
  refine ⟨fun g => ?_, hs.accepted⟩
  have hsolid := hs.solid g
  rw [hwriting] at hsolid
  have hnone : (if failed then Writer.failing else .idle).solid = [] := by cases failed <;> rfl
  show ofSender g ((if sent then s.wire ++ [entry] else s.wire) ++ _) <+: _
  rw [hnone, List.append_nil]
  cases sent with
  | false => exact (ofSender_mono (List.prefix_append _ _)).trans hsolid
  | true =>
    cases broken with
    | false => exact hsolid
    | true => cases hbroken rfl

/-- The writer stops, or the connection closes. -/
theorem Ordered.close (hs : s.Ordered) (hsolid : s'.writer.solid <+: s.writer.solid)
    (hwire : s'.wire = s.wire) (hattempted : s'.attempted = s.attempted)
    (hopen : s'.closed = false → s.closed = false ∧ s'.refused = s.refused ∧
      s'.accepted = s.accepted) : s'.Ordered := by
  refine ⟨fun g => ?_, fun h g => ?_⟩
  · rw [hwire, hattempted]
    exact (ofSender_mono ((List.prefix_append_right_inj _).mpr hsolid)).trans (hs.solid g)
  · obtain ⟨hclosed, hrefused, haccepted⟩ := hopen h
    rw [hrefused, haccepted, hattempted]
    exact hs.accepted hclosed g

theorem Ordered.step (hs : s.Ordered) (haccounts : s.Accounts) (hok : respects s l = true)
    (hstep : s.step l = some s') : s'.Ordered := by
  cases l with
  | write sender msg =>
    simp only [Outbound.step, Option.ite_none_left_eq_some, Option.some.injEq] at hstep
    obtain ⟨hfree, rfl⟩ := hstep
    exact hs.write hfree
  | closeFull sender =>
    simp only [Outbound.step, Option.ite_none_right_eq_some, Option.some.injEq] at hstep
    obtain ⟨-, rfl⟩ := hstep
    exact hs.close (List.prefix_refl _) rfl rfl fun h => (by cases h)
  | take =>
    simp only [Outbound.step, Option.ite_none_right_eq_some, Option.map_eq_some_iff] at hstep
    obtain ⟨hidle, ⟨item, queue⟩, htake, rfl⟩ := hstep
    cases item with
    | message entry => exact hs.takeMessage haccounts hidle (Mailbox.take_eq_some htake)
    | sentinel f => exact { hs with }
  | wrote sent failed =>
    simp only [Outbound.step] at hstep
    split at hstep
    · next entry broken hwriting =>
      cases hstep
      refine hs.wrote hwriting fun hbroken => ?_
      subst hbroken
      rw [respects, hwriting] at hok
      simp only [Bool.and_eq_true, Bool.not_eq_true'] at hok
      exact hok.1
    · cases hstep
  | giveUp =>
    simp only [Outbound.step, Option.ite_none_right_eq_some, Option.some.injEq] at hstep
    obtain ⟨-, rfl⟩ := hstep
    exact hs.close (List.nil_prefix) rfl rfl fun h => (by cases h)
  | exit =>
    simp only [Outbound.step, Option.ite_none_right_eq_some, Option.some.injEq] at hstep
    obtain ⟨-, rfl⟩ := hstep
    exact hs.close List.nil_prefix rfl rfl fun h => ⟨h, rfl, rfl⟩
  | closeConn =>
    obtain rfl := Option.some.inj hstep
    exact hs.close (List.prefix_refl _) rfl rfl fun h => (by cases h)
  | stop =>
    obtain rfl := Option.some.inj hstep
    exact { hs with }
  | enqueueSentinel f =>
    simp only [Outbound.step, Option.ite_none_right_eq_some, Option.map_eq_some_iff] at hstep
    obtain ⟨-, queue, -, rfl⟩ := hstep
    exact { hs with }
  | flushOutbound f | flushed f | flushAbandoned f =>
    simp only [Outbound.step, Option.ite_none_right_eq_some, Option.some.injEq] at hstep
    obtain ⟨-, rfl⟩ := hstep
    exact { hs with }

theorem ordered_of_reachable (hr : lts.Reachable (fun s l => respects s l = true) s) :
    s.Ordered :=
  hr.invariant_of (J := Accounts) (fun _ => accounts_of_reachable)
    (fun t ht => by
      obtain rfl : t = new := ht
      exact ordered_new)
    fun _ _ _ haccounts _ hs hok hstep => hs.step haccounts hok hstep

/-- **No sender's messages have a gap**: of every goroutine's writes a prefix
reaches the connection, in order and each once, whoever else writes, whichever
writes are refused and whenever the connection closes. -/
theorem ofSender_wire_prefix (hr : lts.Reachable (fun s l => respects s l = true) s)
    (g : Sender) : ofSender g s.wire <+: ofSender g s.attempted :=
  (ofSender_mono (List.prefix_append _ _)).trans ((ordered_of_reachable hr).solid g)

/-- Two goroutines write in turn; the connection closes with one message on
the wire and one in the writer's hands. -/
theorem ofSender_wire_prefix_closed : ∃ s,
    lts.Reachable (fun s l => respects s l = true) s ∧
    ofSender 0 s.wire <+: ofSender 0 s.attempted ∧
    s.wire = [(0, .roomFull)] ∧
    s.attempted = [(0, .roomFull), (1, .screenState true none), (0, .screenState false none)] := by
  obtain ⟨s, hr, ho⟩ := Lts.exists_reachable_of_execWhen respects step new
    [.write 0 .roomFull, .write 1 (.screenState true none), .take,
      .write 0 (.screenState false none), .wrote true false, .take, .closeConn,
      .wrote false true, .giveUp]
    (fun s => (s.wire, s.attempted))
    ([(0, .roomFull)],
      [(0, .roomFull), (1, .screenState true none), (0, .screenState false none)]) (by decide)
  obtain ⟨hwire, hattempted⟩ := Prod.mk.inj ho
  exact ⟨s, hr, ofSender_wire_prefix hr 0, hwire, hattempted⟩

/-- **A flush that returns has waited for everything** the queue had accepted
when it began, unless the writer is gone. -/
theorem before_prefix_of_returned (hr : lts.Reachable (fun s l => respects s l = true) s)
    {delivered : Bool} (hreturned : (s.flush f).phase = .returned delivered) :
    (delivered = true → (s.flush f).before <+: s.wire) ∧
      (delivered = false → s.writer = .exited) := by
  have hs := accounts_of_reachable hr
  cases delivered with
  | true =>
    have hreached := (hs.signalled f (hs.delivered f hreturned)).1
    exact ⟨fun _ => hreached, fun h => (by cases h)⟩
  | false => exact ⟨fun h => (by cases h), fun _ => hs.abandoned f hreturned⟩

/-- A flush behind one message, with another written after it. -/
theorem before_prefix_of_returned_behind : ∃ s,
    lts.Reachable (fun s l => respects s l = true) s ∧
    ((true = true → (s.flush 0).before <+: s.wire) ∧ (true = false → s.writer = .exited)) ∧
    (s.flush 0).before = [(0, .roomFull)] ∧ s.accepted.length = 2 := by
  obtain ⟨s, hr, ho⟩ := Lts.exists_reachable_of_execWhen respects step new
    [.write 0 .roomFull, .flushOutbound 0, .take, .enqueueSentinel 0,
      .write 1 (.screenState true none), .wrote true false, .take, .flushed 0]
    (fun s => ((s.flush 0).phase, (s.flush 0).before, s.accepted.length))
    (.returned true, [(0, .roomFull)], 2) (by decide)
  obtain ⟨hreturned, ho⟩ := Prod.mk.inj ho
  obtain ⟨hbefore, hlength⟩ := Prod.mk.inj ho
  exact ⟨s, hr, before_prefix_of_returned hr hreturned, hbefore, hlength⟩

end Outbound

end SlowMeet.Signaling
