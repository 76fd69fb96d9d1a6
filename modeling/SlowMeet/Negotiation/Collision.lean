import SlowMeet.Negotiation.Exchange

/-!
# Glare never wedges a call

What the exchange guarantees, read off the system, with an invariant of the
browser's queue and one of the server's pending offer: when the system comes
to rest nothing is left behind.

The queue's invariant ties a batch in flight to the signalling state. A batch
is in flight from the pump that takes it until the operation that settles its
offer or rolls it back has told the queue; no other operation meets an offer
of the browser's own.
-/

namespace SlowMeet.Negotiation

open Lib

/-- The pump has taken a batch whose offer is still to be sent. -/
def Pumping.calls : Pumping → Bool
  | .starting _ | .calling _ => true
  | .idle | .returned .. | .finishing => false

/-- Its operation is on the chain, or runs. -/
def Pumping.chained : Pumping → Bool
  | .calling _ => true
  | .idle | .starting _ | .returned .. | .finishing => false

namespace Browser

/-- The running operation makes an offer. -/
def making (b : Browser) : Bool :=
  match b.task with
  | .creating | .setting _ | .sending _ => true
  | _ => false

/-- An own offer awaits its answer, or the queue is yet to hear of its end. -/
def awaiting (b : Browser) : Bool :=
  b.peer.offered ||
    match b.task with
    | .settled | .rolled _ => true
    | _ => false

/-- What the batch in flight, the pump and the chain say of each other. -/
structure Pumped (b : Browser) : Prop where
  flight : b.queue.inFlight.isSome = (b.queue.pumping.calls || b.awaiting)
  calls : b.queue.pumping.calls = true → b.awaiting = true → ∃ n, b.task = .sending n
  chained : b.chain.count .sendOffer + b.making.toNat = b.queue.pumping.chained.toNat
  returned : ∀ batch result, b.queue.pumping = .returned batch result → result = some true
  rejected : b.queue.rejected = []

/-- Whatever is pending has someone to pump it. -/
structure Queued (b : Browser) : Prop extends b.Pumped where
  pending : b.queue.pending ≠ [] →
    b.queue.inFlight.isSome = true ∨ b.queue.pumping ≠ .idle ∨ Glare.busy b.task = true

variable {b b' : Browser}

theorem calls_of_chained {p : Pumping} (h : p.chained = true) : p.calls = true := by
  cases p <;> simp_all [Pumping.chained, Pumping.calls]

/-- An offer in the making is one the pump has called for. -/
theorem Pumped.chained_of_making (h : b.Pumped) (hmaking : b.making = true) :
    b.queue.pumping.chained = true ∧ b.chain.count .sendOffer = 0 := by
  have hcount := h.chained
  rw [hmaking] at hcount
  cases hchained : b.queue.pumping.chained with
  | false =>
    rw [hchained] at hcount
    simp at hcount
  | true =>
    rw [hchained] at hcount
    simp only [Bool.toNat_true] at hcount
    exact ⟨rfl, by omega⟩

/-- While an offer is out, the pump calls for no other. -/
theorem Pumped.not_calls (h : b.Pumped) (hawaiting : b.awaiting = true)
    (htask : ∀ n, b.task ≠ .sending n) : b.queue.pumping.calls = false := by
  cases hcalls : b.queue.pumping.calls with
  | false => rfl
  | true =>
    obtain ⟨n, hn⟩ := h.calls hcalls hawaiting
    exact absurd hn (htask n)

/-- A call of `pump` leaves nothing pending that no one will pump. -/
theorem Pumped.pump (h : b.Pumped)
    (hstable : b.isStable = false → b.peer.offered = true ∨ Glare.busy b.task = true) :
    { b with queue := b.queue.pump b.isStable }.Queued := by
  by_cases hskip : b.queue.pumping ≠ .idle ∨ b.queue.inFlight.isSome ∨ b.queue.pending = []
  · have hpump : b.queue.pump b.isStable = b.queue := by simp [RenegotiationQueue.pump, hskip]
    rw [hpump]
    refine ⟨h, fun hpending => ?_⟩
    rcases hskip with hpumping | hflight | hnil
    · exact .inr (.inl hpumping)
    · exact .inl hflight
    · exact absurd hnil hpending
  · cases hs : b.isStable with
    | false =>
      have hpump : b.queue.pump false = b.queue := by simp [RenegotiationQueue.pump]
      rw [hpump]
      refine ⟨h, fun _ => ?_⟩
      rcases hstable hs with hoffered | hbusy
      · refine .inl ?_
        rw [h.flight, awaiting, hoffered]
        simp
      · exact .inr (.inr hbusy)
    | true =>
      have hpump : b.queue.pump true = { b.queue with
          pending := [], inFlight := some ⟨b.queue.batches, b.queue.pending⟩
          batches := b.queue.batches + 1, pumping := .starting b.queue.batches } := by
        simp [RenegotiationQueue.pump, hskip]
      simp only [not_or, not_not, Bool.not_eq_true, Option.isSome_eq_false_iff] at hskip
      obtain ⟨hidle, hnone, hpending⟩ := hskip
      have hawaiting : b.awaiting = false := by
        have hflight := h.flight
        rw [Option.isNone_iff_eq_none.mp hnone, hidle] at hflight
        simpa [Pumping.calls] using hflight.symm
      have hchained := h.chained
      rw [hidle] at hchained
      rw [hpump]
      refine ⟨⟨rfl, fun _ ha => ?_, hchained, fun batch result hret => ?_, h.rejected⟩, fun hp => ?_⟩
      · rw [show b.awaiting = true from ha] at hawaiting
        cases hawaiting
      · cases hret
      · exact absurd rfl hp

/-- What of the browser the invariant speaks of. -/
theorem Pumped.congr (h : b.Pumped) (hpeer : b'.awaiting = b.awaiting)
    (htask : b'.making = b.making) (hsending : ∀ n, b.task = .sending n → b'.task = .sending n)
    (hchain : b'.chain.count .sendOffer = b.chain.count .sendOffer)
    (hflight : b'.queue.inFlight = b.queue.inFlight) (hpumping : b'.queue.pumping = b.queue.pumping)
    (hrejected : b'.queue.rejected = b.queue.rejected) : b'.Pumped := by
  refine ⟨?_, fun hc ha => ?_, ?_, fun batch result hret => ?_, ?_⟩
  · rw [hflight, hpumping, hpeer, h.flight]
  · rw [hpumping] at hc
    rw [hpeer] at ha
    obtain ⟨n, hn⟩ := h.calls hc ha
    exact ⟨n, hsending n hn⟩
  · rw [hchain, htask, hpumping, h.chained]
  · exact h.returned batch result (hpumping ▸ hret)
  · rw [hrejected, h.rejected]

theorem Queued.same (h : b.Queued) (hpeer : b'.peer = b.peer) (htask : b'.task = b.task)
    (hchain : b'.chain.count .sendOffer = b.chain.count .sendOffer) (hqueue : b'.queue = b.queue) :
    b'.Queued := by
  have hawaiting : b'.awaiting = b.awaiting := by simp only [awaiting, hpeer, htask]
  have hmaking : b'.making = b.making := by simp only [making, htask]
  refine ⟨h.toPumped.congr hawaiting hmaking (fun n hn => htask.trans hn) hchain ?_ ?_ ?_, ?_⟩
  · rw [hqueue]
  · rw [hqueue]
  · rw [hqueue]
  · rw [hqueue, htask]
    exact h.pending

theorem queued_new : new.Queued :=
  ⟨⟨rfl, fun h => (by cases h), rfl, fun _ _ h => (by cases h), rfl⟩, fun h => absurd rfl h⟩

end Browser

namespace Server

/-- A client that has applied an offer is ready, or about to be; and what is
pending waits for an answer, or for the client to be ready. -/
structure Waiting (s : Server) : Prop where
  handled : s.remoteOffers ≠ [] → s.handler.busy = true ∨ s.negotiationReady = true
  waits : s.pendingOffer = true → s.offerInFlight = true ∨ s.negotiationReady = false

variable {s t : Server} {l : Label} {iceRestart : Bool}

theorem Offers.waiting (h : Offers s iceRestart t) (handler : Handler) (hs : s.Waiting)
    (hhandler : s.handler.busy = true → handler.busy = true) : { t with handler }.Waiting := by
  have hhandled : ∀ {ready : Bool}, s.remoteOffers ≠ [] → ready = s.negotiationReady →
      handler.busy = true ∨ ready = true := by
    intro ready hne hready
    rcases hs.handled hne with hbusy | h
    · exact .inl (hhandler hbusy)
    · exact .inr (hready.trans h)
  cases h with
  | queue hbusy => exact ⟨fun hne => hhandled hne rfl, fun _ => hbusy⟩
  | create hready hfree => exact ⟨fun hne => hhandled hne rfl, fun _ => .inl rfl⟩

theorem Moves.waiting (h : Moves s l t) (hs : s.Waiting) : t.Waiting := by
  have hsame : ∀ handler : Handler, s.handler.busy = false → s.remoteOffers ≠ [] →
      handler.busy = true ∨ s.negotiationReady = true := by
    intro handler hfree hne
    rcases hs.handled hne with hbusy | h
    · rw [hfree] at hbusy
      cases hbusy
    · exact .inr h
  cases h with
  | drop hidle _ | candidate hidle _ => exact ⟨hs.handled, hs.waits⟩
  | stray hidle _ | full hidle _ | iceRestart hidle =>
    exact ⟨hsame _ (by rw [hidle]; rfl), hs.waits⟩
  | accept hidle hfree => exact ⟨fun _ => .inl rfl, fun _ => .inr rfl⟩
  | settle hidle hflight => exact ⟨hsame _ (by rw [hidle]; rfl), fun hp => (by cases hp)⟩
  | answer hhandler => exact ⟨fun _ => .inl rfl, hs.waits⟩
  | finish hhandler =>
    rw [thenOffer_eq]
    exact ⟨fun _ => .inr rfl, fun hp => (by cases hp)⟩
  | offer hhandler hoffers =>
    exact hoffers.waiting .idle hs fun hbusy => by simp [hhandler, Handler.busy] at hbusy
  | reply hhandler | refresh hhandler _ =>
    rw [thenOffer_eq]
    exact ⟨hsame _ (by rw [hhandler]; rfl), hs.waits⟩
  | sendOffer hoffers =>
    have hhandler : t.handler = s.handler := by cases hoffers <;> rfl
    exact hoffers.waiting t.handler hs fun hbusy => by rwa [hhandler]
  | localCandidate _ _ => exact ⟨hs.handled, hs.waits⟩

theorem waiting_new : new.Waiting :=
  ⟨fun h => absurd rfl h, fun h => (by cases h)⟩

end Server

namespace System

variable {s t : System} {l : Label} {browser : Browser}

/-! ## The queue along a run -/

/-- Where the peer connection is not stable, an own offer is out, or the
running operation handles one of the server. -/
theorem offered_or_busy (hs : s.view.Stage) (h : s.browser.isStable = false) :
    s.browser.peer.offered = true ∨ Glare.busy s.browser.task = true := by
  cases hpeer : s.browser.peer with
  | stable => simp [Browser.isStable, hpeer] at h
  | haveLocalOffer n => exact .inl rfl
  | haveRemoteOffer n => exact .inr (hs.busy_of_remote hpeer)

theorem queued_begin {operation : Operation} {rest : List Operation} (hs : s.view.Stage)
    (hq : s.browser.Queued) (htask : s.browser.task = .idle)
    (hchain : s.browser.chain = operation :: rest) :
    ({ s.browser with chain := rest }.beginOperation operation).Queued := by
  have hmaking : s.browser.making = false := by simp [Browser.making, htask]
  have hcount := hq.chained
  rw [hmaking, hchain] at hcount
  have hkept : ∀ task : Task, s.browser.queue.pending ≠ [] →
      s.browser.queue.inFlight.isSome = true ∨ s.browser.queue.pumping ≠ .idle ∨
        Glare.busy task = true := by
    intro task hpending
    rcases hq.pending hpending with h | h | h
    · exact .inl h
    · exact .inr (.inl h)
    · simp [htask, Glare.busy] at h
  -- an operation of the server's meets no batch of the pump's while an own offer is out
  have hnext : ∀ task : Task, operation ≠ .sendOffer →
      { s.browser with chain := rest, task }.making = false →
      { s.browser with chain := rest, task }.awaiting = s.browser.awaiting →
      { s.browser with chain := rest, task }.Queued := by
    intro task hop hmake hawait
    refine ⟨hq.toPumped.congr hawait (hmake.trans hmaking.symm) (fun n hn => ?_) ?_ rfl rfl rfl,
      hkept task⟩
    · simp [htask] at hn
    · show rest.count .sendOffer = s.browser.chain.count .sendOffer
      rw [hchain, List.count_cons_of_ne hop]
  cases operation with
  | sendOffer =>
    rw [List.count_cons_self] at hcount
    have hchained : s.browser.queue.pumping.chained = true := by
      cases hc : s.browser.queue.pumping.chained with
      | true => rfl
      | false =>
        rw [hc] at hcount
        simp at hcount
    have hcalls := Browser.calls_of_chained hchained
    have hawaiting : s.browser.awaiting = false := by
      cases ha : s.browser.awaiting with
      | false => rfl
      | true =>
        obtain ⟨n, hn⟩ := hq.calls hcalls ha
        simp [htask] at hn
    have hstable : s.browser.isStable = true := by
      cases hst : s.browser.isStable with
      | true => rfl
      | false =>
        rcases offered_or_busy hs hst with h | h
        · simp [Browser.awaiting, h] at hawaiting
        · simp [htask, Glare.busy] at h
    have hbegin : { s.browser with chain := rest }.beginOperation .sendOffer =
        { s.browser with chain := rest, task := .creating } := by
      have hst : { s.browser with chain := rest }.isStable = true := hstable
      simp [Browser.beginOperation, hst]
    have hawaiting' : { s.browser with chain := rest, task := .creating }.awaiting = false := by
      simpa [Browser.awaiting, htask] using hawaiting
    rw [hbegin]
    refine ⟨⟨?_, fun _ ha => ?_, ?_, hq.returned, hq.rejected⟩, hkept _⟩
    · rw [hawaiting', ← hawaiting]
      exact hq.flight
    · rw [hawaiting'] at ha
      cases ha
    · simpa [Browser.making] using hcount
  | offer sdp =>
    simp only [Browser.beginOperation]
    split
    · exact hnext _ (by simp) rfl (by simp [Browser.awaiting, htask])
    · exact hnext _ (by simp) rfl (by simp [Browser.awaiting, htask])
  | answer sdp =>
    have hdown : s.view.down = .answer sdp :: (rest.filterMap Operation.sdp? ++
        s.server.outbound.filterMap Outbound.sdp?) := by simp [view, hchain]
    have hpeer : s.browser.peer = .haveLocalOffer sdp := (hs.take htask hdown).1
    have hbegin : { s.browser with chain := rest }.beginOperation (.answer sdp) =
        { s.browser with chain := rest, task := .settling sdp } := by
      simp [Browser.beginOperation, hpeer, Signaling.offered]
    rw [hbegin]
    exact hnext _ (by simp) rfl (by simp [Browser.awaiting, htask])
  | candidate c =>
    have hcount' : rest.count .sendOffer = s.browser.chain.count .sendOffer := by
      rw [hchain, List.count_cons_of_ne (by simp)]
    simp only [Browser.beginOperation]
    split
    · exact hq.same rfl rfl hcount' rfl
    · exact hq.same rfl rfl hcount' rfl

/-- An operation that goes on, or ends, without a word to the queue. -/
theorem queued_advance (hs : s.view.Stage) (hq : s.browser.Queued)
    (h : s.browser.advance = some browser) : browser.Queued := by
  have hstable := offered_or_busy hs
  cases htask : s.browser.task with
  | idle => simp [Browser.advance, htask] at h
  | creating =>
    simp only [Browser.advance, htask, Option.some.injEq] at h
    subst h
    refine ⟨hq.toPumped.congr (by simp [Browser.awaiting, htask]) (by simp [Browser.making, htask])
      (fun n hn => by simp [htask] at hn) rfl rfl rfl rfl, fun hp => ?_⟩
    simpa [htask, Glare.busy] using hq.pending hp
  | setting sdp =>
    have hpeer : s.browser.peer = .stable := hs.stable_of_setting htask
    simp only [Browser.advance, htask, hpeer, Signaling.setLocalOffer_stable, Option.some.injEq] at h
    subst h
    have hmaking : s.browser.making = true := by simp [Browser.making, htask]
    have hcalls := Browser.calls_of_chained (hq.chained_of_making hmaking).1
    refine ⟨⟨?_, fun _ _ => ⟨sdp, rfl⟩, ?_, hq.returned, hq.rejected⟩, fun hp => ?_⟩
    · have hflight := hq.flight
      rw [hcalls] at hflight
      simpa [hcalls] using hflight
    · simpa [Browser.making, htask] using hq.chained
    · simpa [htask, Glare.busy] using hq.pending hp
  | sending sdp =>
    have hpeer : s.browser.peer = .haveLocalOffer sdp := (hs.send htask).1
    have hmaking : s.browser.making = true := by simp [Browser.making, htask]
    obtain ⟨hchained, hcount⟩ := hq.chained_of_making hmaking
    have hflight := hq.flight
    rw [Browser.calls_of_chained hchained, Bool.true_or] at hflight
    cases hpumping : s.browser.queue.pumping with
    | calling batch =>
      simp only [Browser.advance, htask, RenegotiationQueue.finishOffer, hpumping,
        Option.some.injEq] at h
      subst h
      refine ⟨⟨?_, fun hc => (by cases hc), ?_, fun b result hret => ?_, hq.rejected⟩,
        fun _ => .inl hflight⟩
      · simpa [Browser.awaiting, hpeer, Signaling.offered] using hflight
      · simpa [Browser.making, Pumping.chained] using hcount
      · cases hret
        rfl
    | idle | starting _ | returned _ _ | finishing => simp [hpumping, Pumping.chained] at hchained
  | rolling sdp =>
    obtain ⟨own, hpeer, -⟩ := hs.rollback htask
    replace hpeer : s.browser.peer = .haveLocalOffer own := hpeer
    simp only [Browser.advance, htask, hpeer, Signaling.rollback_haveLocalOffer,
      Option.some.injEq] at h
    subst h
    refine ⟨hq.toPumped.congr (by simp [Browser.awaiting, hpeer, Signaling.offered])
      (by simp [Browser.making, htask]) (fun n hn => by simp [htask] at hn) rfl rfl rfl rfl,
      fun _ => .inr (.inr rfl)⟩
  | rolled sdp =>
    have hpeer : s.browser.peer = .stable := (hs.proceed htask).1
    have hawaiting : s.browser.awaiting = true := by simp [Browser.awaiting, htask]
    have hcalls := hq.not_calls hawaiting (by simp [htask])
    have hflight := hq.flight
    rw [hcalls, hawaiting] at hflight
    obtain ⟨batch, hbatch⟩ := Option.isSome_iff_exists.mp hflight
    simp only [Browser.advance, htask, RenegotiationQueue.rollback, hbatch, Option.some.injEq] at h
    subst h
    refine ⟨⟨?_, fun hc => ?_, ?_, hq.returned, hq.rejected⟩, fun _ => .inr (.inr rfl)⟩
    · simp [Browser.awaiting, hpeer, Signaling.offered, hcalls]
    · rw [show s.browser.queue.pumping.calls = true from hc] at hcalls
      cases hcalls
    · simpa [Browser.making, htask] using hq.chained
  | applying sdp =>
    have hpeer : s.browser.peer = .stable := (hs.apply htask).1
    simp only [Browser.advance, htask, hpeer, Signaling.setRemoteOffer_stable,
      Option.some.injEq] at h
    subst h
    exact ⟨hq.toPumped.congr (by simp [Browser.awaiting, hpeer, htask, Signaling.offered])
      (by simp [Browser.making, htask]) (fun n hn => by simp [htask] at hn) rfl rfl rfl rfl,
      fun _ => .inr (.inr rfl)⟩
  | answering sdp =>
    simp only [Browser.advance, htask, Option.some.injEq] at h
    subst h
    exact ⟨hq.toPumped.congr (by simp [Browser.awaiting, htask]) (by simp [Browser.making, htask])
      (fun n hn => by simp [htask] at hn) rfl rfl rfl rfl, fun _ => .inr (.inr rfl)⟩
  | settingAnswer sdp =>
    have hpeer : s.browser.peer = .haveRemoteOffer sdp := (hs.setAnswer htask).1
    simp only [Browser.advance, htask, hpeer, Signaling.setLocalAnswer_haveRemoteOffer,
      Option.some.injEq] at h
    subst h
    exact ⟨hq.toPumped.congr (by simp [Browser.awaiting, hpeer, htask, Signaling.offered])
      (by simp [Browser.making, htask]) (fun n hn => by simp [htask] at hn) rfl rfl rfl rfl,
      fun _ => .inr (.inr rfl)⟩
  | replying sdp =>
    have hpeer : s.browser.peer = .stable := (hs.reply htask).1
    simp only [Browser.advance, htask, RenegotiationQueue.resume, Option.some.injEq] at h
    subst h
    have hended : { s.browser with
        task := .idle, outbound := s.browser.outbound ++ [Inbound.answer sdp] }.Pumped :=
      hq.toPumped.congr (by simp [Browser.awaiting, htask]) (by simp [Browser.making, htask])
        (fun n hn => by simp [htask] at hn) rfl rfl rfl rfl
    exact hended.pump (by simp [Browser.isStable, hpeer])
  | settling sdp =>
    have hpeer : s.browser.peer = .haveLocalOffer sdp := (hs.close htask).1
    simp only [Browser.advance, htask, hpeer, Signaling.setRemoteAnswer_haveLocalOffer,
      Option.some.injEq] at h
    subst h
    refine ⟨hq.toPumped.congr (by simp [Browser.awaiting, hpeer, Signaling.offered])
      (by simp [Browser.making, htask]) (fun n hn => by simp [htask] at hn) rfl rfl rfl rfl,
      fun hp => ?_⟩
    simpa [htask, Glare.busy] using hq.pending hp
  | settled =>
    have hpeer : s.browser.peer = .stable := (hs.finish htask).1
    have hawaiting : s.browser.awaiting = true := by simp [Browser.awaiting, htask]
    have hcalls := hq.not_calls hawaiting (by simp [htask])
    have hflight := hq.flight
    rw [hcalls, hawaiting] at hflight
    obtain ⟨batch, hbatch⟩ := Option.isSome_iff_exists.mp hflight
    simp only [Browser.advance, htask, Browser.finish, RenegotiationQueue.answer, hbatch,
      Option.some.injEq] at h
    subst h
    have hended : { s.browser with
        task := .idle
        queue := { s.browser.queue with
          resolved := s.browser.queue.resolved ++ batch.requests, inFlight := none } }.Pumped := by
      refine ⟨?_, fun hc => ?_, ?_, hq.returned, hq.rejected⟩
      · simp [Browser.awaiting, hpeer, Signaling.offered, hcalls]
      · rw [show s.browser.queue.pumping.calls = true from hc] at hcalls
        cases hcalls
      · simpa [Browser.making, htask] using hq.chained
    exact hended.pump (by simp [Browser.isStable, hpeer])

theorem queued_runPump (hs : s.view.Stage) (hq : s.browser.Queued)
    (h : s.browser.runPump = some browser) : browser.Queued := by
  cases hpumping : s.browser.queue.pumping with
  | idle | calling _ => simp [Browser.runPump, hpumping] at h
  | starting batch =>
    simp only [Browser.runPump, hpumping, Option.some.injEq] at h
    subst h
    have hflight := hq.flight
    have hchained := hq.chained
    rw [hpumping] at hflight hchained
    refine ⟨⟨hflight, fun _ ha => hq.calls (by rw [hpumping]; rfl) ha, ?_,
      fun _ _ hret => (by cases hret), hq.rejected⟩, fun _ => .inr (.inl (by simp))⟩
    simp only [Pumping.chained, Bool.toNat_false] at hchained
    show (s.browser.chain ++ [Operation.sendOffer]).count .sendOffer + s.browser.making.toNat = 1
    rw [List.count_append, List.count_singleton_self]
    omega
  | returned batch result =>
    obtain rfl := hq.returned batch result hpumping
    have hsent : s.browser.queue.sent batch (some true) = s.browser.queue := by
      unfold RenegotiationQueue.sent
      repeat' split
      all_goals first | rfl | contradiction
    simp only [Browser.runPump, hpumping, hsent, Option.some.injEq] at h
    subst h
    have hflight := hq.flight
    have hchained := hq.chained
    rw [hpumping] at hflight hchained
    exact ⟨⟨hflight, fun hc => (by cases hc), hchained, fun _ _ hret => (by cases hret),
      hq.rejected⟩, fun _ => .inr (.inl (by simp))⟩
  | finishing =>
    simp only [Browser.runPump, hpumping, Option.some.injEq] at h
    subst h
    have hflight := hq.flight
    have hchained := hq.chained
    rw [hpumping] at hflight hchained
    have hidle : { s.browser with
        queue := { s.browser.queue with pumping := .idle } }.Pumped :=
      ⟨hflight, fun hc => (by cases hc), hchained, fun _ _ hret => (by cases hret), hq.rejected⟩
    exact hidle.pump (offered_or_busy hs)

theorem queued_step (hs : s.view.Stage) (hq : s.browser.Queued) (h : s.step l = some t) :
    t.browser.Queued := by
  cases l with
  | server l =>
    cases l with
    | receive msg calls => simp [step] at h
    | run calls | sendOffer _ calls | localCandidate _ calls =>
      simp only [step, Option.map_eq_some_iff] at h
      obtain ⟨server, hstep, rfl⟩ := h
      exact hq
  | up calls =>
    cases hout : s.browser.outbound with
    | nil => simp [step, hout] at h
    | cons msg rest =>
      simp only [step, hout, Option.map_eq_some_iff] at h
      obtain ⟨server, hstep, rfl⟩ := h
      exact hq.same rfl rfl rfl rfl
  | down =>
    cases hout : s.server.outbound with
    | nil => simp [step, hout] at h
    | cons msg rest =>
      simp only [step, hout, Option.some.injEq] at h
      subst h
      refine hq.same ?_ ?_ ?_ ?_ <;> cases msg <;> simp [Browser.handleWebRTCMessage]
  | browser l =>
    simp only [step, Option.map_eq_some_iff] at h
    obtain ⟨browser, hstep, rfl⟩ := h
    cases l with
    | request =>
      simp only [Browser.step, RenegotiationQueue.request, Option.some.injEq] at hstep
      subst hstep
      have hpushed : { s.browser with
          queue := { s.browser.queue with
            pending := s.browser.queue.pending ++ [s.browser.queue.requests]
            requests := s.browser.queue.requests + 1 } }.Pumped :=
        hq.toPumped.congr rfl rfl (fun _ hn => hn) rfl rfl rfl rfl
      exact hpushed.pump (offered_or_busy hs)
    | begin =>
      simp only [Browser.step] at hstep
      split at hstep
      case h_2 => simp at hstep
      case h_1 operation rest htask hchain =>
        simp only [Option.some.injEq] at hstep
        exact hstep ▸ queued_begin hs hq htask hchain
    | advance => exact queued_advance hs hq hstep
    | pump => exact queued_runPump hs hq hstep
    | candidate c | iceRestart =>
      simp only [Browser.step, Option.some.injEq] at hstep
      subst hstep
      exact hq.same rfl rfl rfl rfl

/-! ## Every run -/

theorem waiting_step (ho : s.server.Ordered) (hw : s.server.Waiting) (hc : s.Succeeds l)
    (h : s.step l = some t) : t.server.Waiting := by
  cases l with
  | server l =>
    cases l with
    | receive msg calls => simp [step] at h
    | run calls | sendOffer _ calls | localCandidate _ calls =>
      simp only [step, Option.map_eq_some_iff] at h
      obtain ⟨server, hstep, rfl⟩ := h
      exact (Server.moves_of_step ho hc hstep).waiting hw
  | up calls =>
    cases hout : s.browser.outbound with
    | nil => simp [step, hout] at h
    | cons msg rest =>
      simp only [step, hout, Option.map_eq_some_iff] at h
      obtain ⟨server, hstep, rfl⟩ := h
      have hc' : s.server.Succeeds (.receive msg calls) := hc
      exact (Server.moves_of_step ho hc' hstep).waiting hw
  | down =>
    cases hout : s.server.outbound with
    | nil => simp [step, hout] at h
    | cons msg rest =>
      simp only [step, hout, Option.some.injEq] at h
      exact h ▸ ⟨hw.handled, hw.waits⟩
  | browser l =>
    simp only [step, Option.map_eq_some_iff] at h
    obtain ⟨browser, -, rfl⟩ := h
    exact hw

theorem queued_and_waiting_of_reachable (hr : systemLts.Reachable Succeeds s) :
    s.browser.Queued ∧ s.server.Waiting := by
  refine hr.invariant_of
    (I := fun s => s.browser.Queued ∧ s.server.Waiting)
    (J := fun s => s.server.Ordered ∧ s.view.Stage)
    (fun s hr => ?_) (fun s hs => ?_) fun s l t ⟨ho, hs⟩ _ ⟨hq, hw⟩ hc h => ?_
  · obtain ⟨ho, hv⟩ := view_of_reachable hr
    exact ⟨ho, (Glare.stage_and_paired_of_reachable hv).1⟩
  · obtain rfl : s = new := hs
    exact ⟨Browser.queued_new, Server.waiting_new⟩
  · exact ⟨queued_step hs hq h, waiting_step ho hw hc h⟩

/-- No offer or answer is under way, and no handler, chained operation or
queued `sendOffer` runs. -/
structure AtRest (s : System) : Prop where
  up : s.browser.outbound.filterMap Inbound.sdp? = []
  down : s.server.outbound.filterMap Outbound.sdp? = []
  handler : s.server.handler = .idle
  chain : s.browser.chain = []
  task : s.browser.task = .idle
  pumping : s.browser.queue.pumping = .idle

theorem AtRest.stage (hrest : s.AtRest) (hs : s.view.Stage) :
    s.server.offerInFlight = false ∧ s.browser.peer = .stable ∧
      s.server.dropped = s.browser.rolledBack := by
  have hdown : s.view.down = [] := by
    show s.browser.chain.filterMap Operation.sdp? ++ _ = _
    rw [hrest.chain, hrest.down]
    rfl
  have hreply : s.view.reply = none := by
    show s.server.handler.reply? = none
    rw [hrest.handler]
    rfl
  obtain ⟨hflight, hpeer, hdropped⟩ := hs.atRest hrest.up hdown hreply hrest.task
  refine ⟨?_, hpeer, hdropped⟩
  cases h : s.server.offerInFlight with
  | false => rfl
  | true => simp [view, h] at hflight

/-- **The browser's queue is empty at rest.** -/
theorem AtRest.queue (hrest : s.AtRest) (hq : s.browser.Queued) (hpeer : s.browser.peer = .stable) :
    s.browser.queue.pending = [] ∧ s.browser.queue.inFlight = none := by
  have hnone : s.browser.queue.inFlight.isSome = false := by
    rw [hq.flight, hrest.pumping]
    simp [Pumping.calls, Browser.awaiting, hpeer, Signaling.offered, hrest.task]
  refine ⟨?_, by simpa using hnone⟩
  by_contra hpending
  rcases hq.pending hpending with h | h | h
  · rw [hnone] at h
    cases h
  · exact h hrest.pumping
  · rw [hrest.task] at h
    cases h

/-- **Glare never wedges a call.** In every run in which each call that the
signalling state allows is accepted: (a) an answer is applied, on either side,
only to the offer it was made for, and on the browser's side never to one that
was rolled back; (b) the offers the server drops are those the browser rolls
back, but for one still to be rolled back and those still on their way to be
dropped, and no offer of the server is discarded; (c) at rest, once the server
has handled an offer of the browser, both sides are stable and nothing is
pending on either. -/
theorem glare_settles (hr : systemLts.Reachable Succeeds s) :
    ((∀ e ∈ s.server.applied, e.1 = e.2) ∧
      ∀ e ∈ s.browser.applied, e.1 = e.2 ∧ e.1 ∉ s.browser.rolledBack) ∧
    ((∀ n ∈ s.server.dropped, n ∈ s.browser.rolledBack ∨ s.browser.peer = .haveLocalOffer n) ∧
      (∀ n ∈ s.browser.rolledBack, n ∈ s.server.dropped ∨ .offer n ∈ s.browser.outbound) ∧
      s.server.created.length = s.server.applied.length + s.server.offerInFlight.toNat ∧
      (s.AtRest → s.server.dropped = s.browser.rolledBack)) ∧
    (s.AtRest → s.server.remoteOffers ≠ [] →
      s.server.peer = .stable ∧ s.browser.peer = .stable ∧ s.server.offerInFlight = false ∧
        s.server.pendingOffer = false ∧ s.browser.queue.pending = [] ∧
        s.browser.queue.inFlight = none) := by
  obtain ⟨ho, hv⟩ := view_of_reachable hr
  obtain ⟨hs, hp⟩ := Glare.stage_and_paired_of_reachable hv
  obtain ⟨hq, hw⟩ := queued_and_waiting_of_reachable hr
  obtain ⟨late, own, hdiscarded, hlate, hown⟩ := hs.discarded
  refine ⟨⟨hp.impolite, fun e he => ⟨hp.polite e he, hp.not_rolledBack he⟩⟩,
    ⟨fun n hn => ?_, fun n hn => ?_, ho.created, fun hrest => (hrest.stage hs).2.2⟩,
    fun hrest hhandled => ?_⟩
  · have hmem : n ∈ s.browser.rolledBack ++ own := hdiscarded ▸ List.mem_append_left late hn
    rcases List.mem_append.mp hmem with hback | hcurrent
    · exact .inl hback
    · exact .inr (Signaling.localOffer_eq_some.mp (hown n hcurrent))
  · have hmem : n ∈ s.server.dropped ++ late := by
      rw [show s.server.dropped ++ late = _ from hdiscarded]
      exact List.mem_append_left own hn
    rcases List.mem_append.mp hmem with hdropped | hlater
    · exact .inl hdropped
    · refine .inr ?_
      obtain ⟨msg, hmsg, hsdp⟩ := List.mem_filterMap.mp (hlate n hlater)
      cases msg <;> simp_all
  · obtain ⟨hfree, hpeer, -⟩ := hrest.stage hs
    obtain ⟨hpending, hnone⟩ := hrest.queue hq hpeer
    have hready : s.server.negotiationReady = true := by
      rcases hw.handled hhandled with hbusy | hready
      · rw [hrest.handler] at hbusy
        cases hbusy
      · exact hready
    have hoffer : s.server.pendingOffer = false := by
      cases h : s.server.pendingOffer with
      | false => rfl
      | true =>
        have hwait := hw.waits h
        simp [hfree, hready] at hwait
    exact ⟨by simpa [hfree] using ho.peer, hpeer, hfree, hoffer, hpending, hnone⟩

/-- A run with a collision: both sides offer, the browser rolls back and
answers, and its request goes into a second offer. -/
def collisionRun : List Label :=
  let offer : List Label :=
    [.browser .begin, .browser .advance, .browser .advance, .browser .advance, .browser .pump,
      .browser .pump]
  let answered : List Label :=
    [.up {}, .server (.run {}), .server (.run {}), .down, .browser .begin, .browser .advance,
      .browser .advance]
  [.browser .request, .browser .pump] ++ offer ++ answered ++
    [.browser .request, .browser .pump] ++ offer ++ [.server (.sendOffer false {}), .up {}, .down] ++
    [.browser .begin, .browser .advance, .browser .advance, .browser .advance, .browser .advance,
      .browser .advance, .browser .advance, .up {}, .server (.run {}), .browser .pump] ++
    offer ++ answered

theorem glare_settles_collision : ∃ s, systemLts.Reachable Succeeds s ∧
    s.browser.rolledBack = [1] ∧ s.AtRest ∧ s.server.dropped = [1] ∧
    s.server.peer = .stable ∧ s.browser.queue.pending = [] := by
  obtain ⟨s, hr, ho⟩ := Lts.exists_reachable_of_exec Succeeds System.step new collisionRun
    (fun s => (s.browser.rolledBack, s.browser.outbound, s.server.outbound, s.server.handler,
      s.browser.chain, s.browser.task, s.browser.queue.pumping, s.server.remoteOffers))
    ([1], [], [], .idle, [], .idle, .idle, [0, 2])
    (by simp [collisionRun, Succeeds, Server.Label.calls, Calls.succeed_default]) rfl
  simp only [Prod.mk.injEq] at ho
  obtain ⟨hback, hup, hdown, hhandler, hchain, htask, hpumping, hoffers⟩ := ho
  have hrest : s.AtRest :=
    ⟨by rw [hup]; rfl, by rw [hdown]; rfl, hhandler, hchain, htask, hpumping⟩
  obtain ⟨-, ⟨-, -, -, hdropped⟩, hsettled⟩ := glare_settles hr
  obtain ⟨hpeer, -, -, -, hpending, -⟩ := hsettled hrest (by rw [hoffers]; simp)
  exact ⟨s, hr, hback, hrest, (hdropped hrest).trans hback, hpeer, hpending⟩

end System

end SlowMeet.Negotiation
