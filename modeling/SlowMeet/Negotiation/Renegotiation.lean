import SlowMeet.Negotiation.Server

/-!
# Renegotiation is neither lost nor in conflict

What the server does when the peer connection accepts every call and the queue
takes every write: its own offers and the browser's take turns, and whoever
asks for an offer gets one.

`Moves` says once what such a step does; the two invariants are read off it.
-/

namespace SlowMeet.Negotiation

open Lib

/-- The read loop has applied an offer and not finished it. -/
def Handler.busy : Handler → Bool
  | .answering _ | .flushing => true
  | .idle | .offering .. | .replying .. | .refreshing .. => false

/-- The `sendOffer` the handler is about to call, by its ICE restart. -/
def Handler.offers : Handler → Option Bool
  | .offering iceRestart _ => some iceRestart
  | .replying _ offer | .refreshing _ offer => offer
  | .idle | .answering _ | .flushing => none

namespace Server

/-- An own offer has no answer yet. -/
def Unanswered (s : Server) : Prop := s.applied.length < s.created.length

/-- The server's offers and the browser's take turns. -/
structure Ordered (s : Server) : Prop where
  ready : s.offerInFlight = true → s.negotiationReady = true
  peer : s.peer = if s.offerInFlight then .haveLocalOffer (s.created.length - 1) else .stable
  created : s.created.length = s.applied.length + s.offerInFlight.toNat
  busy : s.handler.busy = true → s.negotiationReady = false

/-- What became of a call of `sendOffer`: an offer created since then, or one
that is still to be created. -/
def Served (s : Server) (request : Bool × Nat) : Prop :=
  (∃ k iceRestart, request.2 ≤ k ∧ s.created[k]? = some iceRestart ∧
    (request.1 = true → iceRestart = true)) ∨
  (s.pendingOffer = true ∧ (request.1 = true → s.pendingICERestart = true) ∧
    (s.offerInFlight = true ∨ s.negotiationReady = false)) ∨
  ∃ iceRestart, s.handler.offers = some iceRestart ∧ (request.1 = true → iceRestart = true)

variable {s t : Server} {l : Label} {calls : Calls} {request : Bool × Nat} {iceRestart : Bool}

/-! ## Calls that succeed -/

theorem applyCandidates_of_succeed {accepts : Nat → Candidate → Bool}
    (h : ∀ i candidate, accepts i candidate = true) (i : Nat) (pending : List Candidate) :
    applyCandidates accepts i pending = ([], true) := by
  induction pending generalizing i with
  | nil => rfl
  | cons candidate rest ih => simp [applyCandidates, h i candidate, ih]

theorem applyPendingCandidates_of_succeed (hc : calls.Succeed) (s : Server) :
    s.applyPendingCandidates calls = ({ s with pendingCandidates := [] }, true) := by
  simp [applyPendingCandidates, applyCandidates_of_succeed hc.addICECandidate]

theorem flushCandidates_of_succeed {takes : Nat → Bool} (h : ∀ i, takes i = true) (s : Server)
    (i : Nat) (pending : List Candidate) :
    flushCandidates takes s i pending =
      { s with
        pendingLocalCandidates := [], outbound := s.outbound ++ pending.map Outbound.candidate } := by
  induction pending generalizing s i with
  | nil => simp [flushCandidates]
  | cons candidate rest ih => simp [flushCandidates, h i, ih, write]

/-- What a call of `sendOffer` does: keep the request, or create the offer. -/
inductive Offers (s : Server) (iceRestart : Bool) : Server → Prop
  | queue (hbusy : s.offerInFlight = true ∨ s.negotiationReady = false) :
      Offers s iceRestart { s with
        pendingOffer := true, pendingICERestart := s.pendingICERestart || iceRestart
        requests := s.requests ++ [(iceRestart, s.created.length)] }
  | create (hready : s.negotiationReady = true) (hfree : s.offerInFlight = false) :
      Offers s iceRestart { s with
        offerInFlight := true, offerICERestart := iceRestart
        remoteDescription := s.remoteDescription && !iceRestart
        peer := .haveLocalOffer s.created.length
        created := s.created ++ [iceRestart]
        outbound := s.outbound ++ [.offer s.created.length]
        requests := s.requests ++ [(iceRestart, s.created.length)] }

/-- What a step does when everything it calls succeeds. -/
inductive Moves (s : Server) : Label → Server → Prop
  | drop {sdp : Nat} {calls : Calls} (hidle : s.handler = .idle) (hflight : s.offerInFlight = true) :
      Moves s (.receive (.offer sdp) calls) { s with dropped := s.dropped ++ [sdp] }
  | accept {sdp : Nat} {calls : Calls} (hidle : s.handler = .idle) (hfree : s.offerInFlight = false) :
      Moves s (.receive (.offer sdp) calls) { s with
        negotiationReady := false, remoteDescription := true, pendingCandidates := []
        peer := .stable, remoteOffers := s.remoteOffers ++ [sdp], handler := .answering sdp }
  | stray {sdp : Nat} {calls : Calls} (hidle : s.handler = .idle) (hfree : s.offerInFlight = false) :
      Moves s (.receive (.answer sdp) calls) (s.reply "no offer in flight")
  | settle {sdp : Nat} {calls : Calls} (hidle : s.handler = .idle) (hflight : s.offerInFlight = true) :
      Moves s (.receive (.answer sdp) calls) { s with
        remoteDescription := true, pendingCandidates := []
        offerInFlight := false, offerICERestart := false
        pendingOffer := false, pendingICERestart := false
        peer := .stable, applied := s.applied ++ [(s.created.length - 1, sdp)]
        handler := .refreshing s.offerICERestart
          (if s.pendingOffer then some s.pendingICERestart else none) }
  | candidate {candidate : Candidate} {calls : Calls} (hidle : s.handler = .idle)
      (pending : List Candidate) :
      Moves s (.receive (.candidate candidate) calls) { s with pendingCandidates := pending }
  | full {candidate : Candidate} {calls : Calls} (hidle : s.handler = .idle) (error : String) :
      Moves s (.receive (.candidate candidate) calls) (s.reply error)
  | iceRestart {calls : Calls} (hidle : s.handler = .idle) :
      Moves s (.receive .iceRestart calls) { s with handler := .offering true true }
  | answer {sdp : Nat} {calls : Calls} (hhandler : s.handler = .answering sdp) :
      Moves s (.run calls) { s with
        outbound := s.outbound ++ [.answer sdp]
        keyFrames := s.keyFrames ++ [.subscriptions], handler := .flushing }
  | finish {calls : Calls} (hhandler : s.handler = .flushing) :
      Moves s (.run calls) ({ s with
        negotiationReady := true, pendingLocalCandidates := []
        outbound := s.outbound ++ s.pendingLocalCandidates.map Outbound.candidate
        pendingOffer := false, pendingICERestart := false }.thenOffer
          (if s.pendingOffer then some s.pendingICERestart else none))
  | offer {iceRestart reply : Bool} {calls : Calls} {s' : Server}
      (hhandler : s.handler = .offering iceRestart reply)
      (h : Offers s iceRestart s') : Moves s (.run calls) { s' with handler := .idle }
  | reply {error : String} {offer : Option Bool} {calls : Calls}
      (hhandler : s.handler = .replying error offer) :
      Moves s (.run calls) ((s.write (.error error)).thenOffer offer)
  | refresh {completed : Bool} {offer : Option Bool} {calls : Calls}
      (hhandler : s.handler = .refreshing completed offer)
      (requests : List KeyFrame) :
      Moves s (.run calls) ({ s with keyFrames := s.keyFrames ++ requests }.thenOffer offer)
  | sendOffer {iceRestart : Bool} {calls : Calls} {s' : Server}
      (h : Offers s iceRestart s') :
      Moves s (.sendOffer iceRestart calls) s'
  | localCandidate {candidate : Candidate} {calls : Calls}
      (pending written : List Candidate) :
      Moves s (.localCandidate candidate calls) { s with
        pendingLocalCandidates := pending, outbound := s.outbound ++ written.map Outbound.candidate }

theorem offers_of_succeed (ho : s.Ordered) (hc : calls.Succeed) (iceRestart : Bool) :
    Offers s iceRestart (s.sendOffer calls iceRestart).1 ∧
      (s.sendOffer calls iceRestart).2 = true := by
  cases hready : s.negotiationReady with
  | false =>
    have hq : Offers s iceRestart _ := .queue (.inr hready)
    simpa [Server.sendOffer, queueOffer, hready] using hq
  | true =>
    cases hflight : s.offerInFlight with
    | true =>
      have hq : Offers s iceRestart _ := .queue (.inl hflight)
      simpa [Server.sendOffer, queueOffer, hready, hflight] using hq
    | false =>
      have hpeer : s.peer = .stable := by simpa [hflight] using ho.peer
      have hq : Offers s iceRestart _ := .create hready hflight
      simpa [Server.sendOffer, startOffer, createOffer, hready, hflight, hpeer, hc.createOffer,
        hc.takes, write] using hq

theorem receive_of_succeed (ho : s.Ordered) (hc : calls.Succeed) (hidle : s.handler = .idle)
    (msg : Inbound) : Moves s (.receive msg calls) (s.handleWebRTCMessage calls msg) := by
  cases msg with
  | offer sdp =>
    cases hflight : s.offerInFlight with
    | true => simpa [handleWebRTCMessage, receiveOffer, hflight] using Moves.drop hidle hflight
    | false =>
      have hpeer : s.peer = .stable := by simpa [hflight] using ho.peer
      simpa [handleWebRTCMessage, receiveOffer, hflight, setRemoteOffer, hc.setRemoteOffer, hpeer,
        applyPendingCandidates_of_succeed hc, createAnswer, hc.createAnswer] using
        Moves.accept hidle hflight
  | answer sdp =>
    cases hflight : s.offerInFlight with
    | false => simpa [handleWebRTCMessage, receiveAnswer, hflight] using Moves.stray hidle hflight
    | true =>
      have hpeer : s.peer = .haveLocalOffer (s.created.length - 1) := by
        simpa [hflight] using ho.peer
      simpa [handleWebRTCMessage, receiveAnswer, hflight, applyRemoteAnswer, setRemoteAnswer,
        hc.setRemoteAnswer, hpeer, applyPendingCandidates_of_succeed hc] using
        Moves.settle hidle hflight
  | candidate candidate =>
    simp only [handleWebRTCMessage, addOrQueueCandidate, hc.addICECandidate]
    cases hremote : s.remoteDescription with
    | true => exact .candidate hidle s.pendingCandidates
    | false =>
      by_cases hfull : maxPendingCandidates ≤ s.pendingCandidates.length
      · simpa [hfull] using Moves.full hidle "too many queued ICE candidates"
      · simpa [hfull, hremote] using
          Moves.candidate hidle (s.pendingCandidates ++ [candidate])
  | iceRestart => exact Moves.iceRestart hidle

/-- **What a step can do** when everything it calls succeeds. -/
theorem moves_of_step (ho : s.Ordered) (hc : s.Succeeds l) (h : s.step l = some t) :
    Moves s l t := by
  cases l with
  | receive msg calls =>
    simp only [step, Option.ite_none_right_eq_some, Option.some.injEq] at h
    obtain ⟨hidle, rfl⟩ := h
    exact receive_of_succeed ho hc hidle msg
  | run calls =>
    replace hc : calls.Succeed := hc
    have htakes : calls.takes 0 = true := hc.takes 0
    simp only [step] at h
    cases hhandler : s.handler with
    | idle => simp [hhandler, run] at h
    | answering sdp =>
      simp only [hhandler, run, htakes, if_true, Option.some.injEq] at h
      exact h ▸ .answer hhandler
    | flushing =>
      simp only [hhandler, run, finishOffer, flushPendingLocalCandidates,
        flushCandidates_of_succeed hc.takes, Option.some.injEq] at h
      exact h ▸ .finish hhandler
    | offering iceRestart reply =>
      obtain ⟨hoffers, hok⟩ := offers_of_succeed ho hc iceRestart
      simp only [hhandler, run] at h
      simp only [hok, Bool.not_true, Bool.and_false, Option.some.injEq] at h
      exact h ▸ .offer hhandler hoffers
    | replying error offer =>
      simp only [hhandler, run, htakes, if_true, Option.some.injEq] at h
      exact h ▸ .reply hhandler
    | refreshing completed offer =>
      simp only [hhandler, run, Option.some.injEq] at h
      exact h ▸ .refresh hhandler _
  | sendOffer iceRestart calls =>
    simp only [step, Option.some.injEq] at h
    exact h ▸ .sendOffer (offers_of_succeed ho hc iceRestart).1
  | localCandidate candidate calls =>
    replace hc : calls.Succeed := hc
    have htakes : calls.takes 0 = true := hc.takes 0
    simp only [step, sendOrQueueLocalCandidate, htakes, if_true, Option.some.injEq] at h
    cases hready : s.negotiationReady with
    | false =>
      simpa [hready, ← h] using
        Moves.localCandidate (s := s) (s.pendingLocalCandidates ++ [candidate]) []
    | true =>
      simpa [hready, ← h, write] using
        Moves.localCandidate (s := s) s.pendingLocalCandidates [candidate]

/-! ## Taking turns -/

theorem thenOffer_eq (s : Server) (offer : Option Bool) :
    s.thenOffer offer = { s with handler := offer.elim .idle (.offering · false) } := by
  cases offer <;> rfl

theorem busy_elim (offer : Option Bool) :
    (offer.elim Handler.idle (.offering · false)).busy = false := by
  cases offer <;> rfl

theorem offers_elim (offer : Option Bool) :
    (offer.elim Handler.idle (.offering · false)).offers = offer := by
  cases offer <;> rfl

theorem Offers.ordered (h : Offers s iceRestart t) (hs : s.Ordered) : t.Ordered := by
  cases h with
  | queue hbusy => exact ⟨hs.ready, hs.peer, hs.created, hs.busy⟩
  | create hready hfree =>
    have hcreated := hs.created
    rw [hfree] at hcreated
    refine ⟨fun _ => hready, by simp, ?_, hs.busy⟩
    show (s.created ++ [iceRestart]).length = s.applied.length + 1
    rw [List.length_append, hcreated]
    rfl

/-- A step that touches neither the turn nor the peer. -/
theorem Ordered.same (hs : s.Ordered) (hready : s.negotiationReady = true → t.negotiationReady = true)
    (hflight : t.offerInFlight = s.offerInFlight) (hpeer : t.peer = s.peer)
    (hcreated : t.created = s.created) (happlied : t.applied = s.applied)
    (hbusy : t.handler.busy = true → t.negotiationReady = false) : t.Ordered := by
  refine ⟨fun h => ?_, ?_, ?_, hbusy⟩
  · rw [hflight] at h
    exact hready (hs.ready h)
  · rw [hpeer, hflight, hcreated]
    exact hs.peer
  · rw [hflight, hcreated, happlied]
    exact hs.created

theorem Moves.ordered (h : Moves s l t) (hs : s.Ordered) : t.Ordered := by
  cases h with
  | drop hidle hflight | candidate hidle _ =>
    exact hs.same id rfl rfl rfl rfl (by simp [hidle, Handler.busy])
  | stray hidle hfree | full hidle _ | iceRestart hidle =>
    exact hs.same id rfl rfl rfl rfl (by simp [Server.reply, Handler.busy])
  | accept hidle hfree =>
    refine ⟨fun h => ?_, ?_, hs.created, fun _ => rfl⟩
    · rw [show s.offerInFlight = true from h] at hfree
      cases hfree
    · simp [hfree]
  | settle hidle hflight =>
    have hcreated := hs.created
    rw [hflight] at hcreated
    refine ⟨fun h => (by cases h), by simp, ?_, fun h => (by cases h)⟩
    show s.created.length = (s.applied ++ [_]).length + 0
    rw [List.length_append, hcreated]
    rfl
  | answer hhandler =>
    exact hs.same id rfl rfl rfl rfl fun _ => hs.busy (by rw [hhandler]; rfl)
  | finish hhandler =>
    rw [thenOffer_eq]
    exact hs.same (fun _ => rfl) rfl rfl rfl rfl (by simp [busy_elim])
  | offer hhandler hoffers =>
    exact (hoffers.ordered hs).same id rfl rfl rfl rfl (by simp [Handler.busy])
  | reply hhandler | refresh hhandler _ =>
    rw [thenOffer_eq]
    exact hs.same id rfl rfl rfl rfl (by simp [busy_elim])
  | sendOffer hoffers => exact hoffers.ordered hs
  | localCandidate pending written => exact hs.same id rfl rfl rfl rfl hs.busy

theorem ordered_new : new.Ordered :=
  ⟨fun h => (by cases h), rfl, rfl, fun h => (by cases h)⟩

theorem ordered_of_reachable (hr : serverLts.Reachable Succeeds s) : s.Ordered :=
  hr.invariant_ofStep ordered_new fun _ _ _ hs hc h => (moves_of_step hs hc h).ordered hs

/-- An offer is applied or created only in its turn. -/
theorem Moves.turn (h : Moves s l t) (hs : s.Ordered)
    (hnew : t.remoteOffers ≠ s.remoteOffers ∨ t.created ≠ s.created) :
    ¬ s.Unanswered ∧ t.created.length ≤ s.created.length + 1 := by
  have hcreated := hs.created
  have hfree : s.offerInFlight = false ∧ t.created.length ≤ s.created.length + 1 := by
    cases h with
    | accept hidle hfree => exact ⟨hfree, Nat.le_succ _⟩
    | offer hhandler hoffers | sendOffer hoffers =>
      cases hoffers with
      | queue _ => simp at hnew
      | create hready hfree => exact ⟨hfree, by simp⟩
    | finish hhandler | reply hhandler | refresh hhandler _ =>
      rw [thenOffer_eq] at hnew
      simp [write] at hnew
    | drop | stray | settle | candidate | full | iceRestart | answer | localCandidate =>
      simp [Server.reply] at hnew
  rw [hfree.1, Bool.toNat_false] at hcreated
  refine ⟨?_, hfree.2⟩
  unfold Unanswered
  omega

/-! ## No request is lost -/

/-- A step that creates nothing and leaves what is pending in its place. -/
theorem Served.same (h : s.Served request) (hcreated : t.created = s.created)
    (hpending : t.pendingOffer = s.pendingOffer)
    (hrestart : t.pendingICERestart = s.pendingICERestart)
    (hkept : s.offerInFlight = true ∨ s.negotiationReady = false →
      t.offerInFlight = true ∨ t.negotiationReady = false)
    (hoffers : s.handler.offers = none ∨ t.handler.offers = s.handler.offers) :
    t.Served request := by
  unfold Served
  rw [hcreated, hpending, hrestart]
  rcases h with h | ⟨hp, hi, hb⟩ | ⟨b, hb, hi⟩
  · exact .inl h
  · exact .inr (.inl ⟨hp, hi, hkept hb⟩)
  · rcases hoffers with hnone | hsame
    · rw [hnone] at hb
      cases hb
    · exact .inr (.inr ⟨b, hsame.trans hb, hi⟩)

/-- A call of `sendOffer` serves its own request, and whoever else the handler
called it for. -/
theorem Offers.serves (h : Offers s iceRestart t) (handler : Handler)
    (hle : request.2 ≤ s.created.length) (hrestart : request.1 = true → iceRestart = true) :
    { t with handler }.Served request := by
  cases h with
  | queue hbusy =>
    refine .inr (.inl ⟨rfl, fun hreq => ?_, hbusy⟩)
    show (s.pendingICERestart || iceRestart) = true
    rw [hrestart hreq, Bool.or_true]
  | create hready hfree =>
    exact .inl ⟨s.created.length, iceRestart, hle, by simp, hrestart⟩

/-- It takes no offer from anyone else. -/
theorem Offers.keeps (h : Offers s iceRestart t) (handler : Handler)
    (hle : request.2 ≤ s.created.length) (hs : s.Served request)
    (hhandler : ∀ b, s.handler.offers = some b → handler.offers = some b ∨ b = iceRestart) :
    { t with handler }.Served request := by
  rcases hs with ⟨k, b, hk, hget, hb⟩ | ⟨hp, hi, hbusy⟩ | ⟨b, hoffers, hb⟩
  · refine .inl ⟨k, b, hk, ?_, hb⟩
    have hlt : k < s.created.length := (List.getElem?_eq_some_iff.mp hget).1
    cases h with
    | queue _ => exact hget
    | create _ _ => simpa [List.getElem?_append_left hlt] using hget
  · cases h with
    | queue _ => exact .inr (.inl ⟨rfl, fun hreq => by simp [hi hreq], hbusy⟩)
    | create hready hfree => simp [hready, hfree] at hbusy
  · rcases hhandler b hoffers with hsame | rfl
    · exact .inr (.inr ⟨b, hsame, hb⟩)
    · exact h.serves handler hle hb

/-- Every call of `sendOffer` so far is served. -/
def Kept (s : Server) : Prop :=
  ∀ request ∈ s.requests, request.2 ≤ s.created.length ∧ s.Served request

theorem Offers.kept (h : Offers s iceRestart t) (handler : Handler) (hs : s.Kept)
    (hhandler : ∀ b, s.handler.offers = some b → handler.offers = some b ∨ b = iceRestart) :
    { t with handler }.Kept := by
  have hrequests : t.requests = s.requests ++ [(iceRestart, s.created.length)] := by
    cases h <;> rfl
  have hlen : s.created.length ≤ t.created.length := by cases h <;> simp
  intro request hmem
  replace hmem : request ∈ t.requests := hmem
  rw [hrequests, List.mem_append, List.mem_singleton] at hmem
  rcases hmem with hmem | rfl
  · obtain ⟨hle, hserved⟩ := hs request hmem
    exact ⟨Nat.le_trans hle hlen, h.keeps handler hle hserved hhandler⟩
  · exact ⟨hlen, h.serves handler (Nat.le_refl _) id⟩

/-- What was pending is what the handler is about to offer. -/
theorem Served.released (h : s.Served request) (hcreated : t.created = s.created)
    (hidle : s.handler.offers = none)
    (hoffers : t.handler.offers = if s.pendingOffer then some s.pendingICERestart else none) :
    t.Served request := by
  rcases h with h | ⟨hp, hi, -⟩ | ⟨b, hb, -⟩
  · exact .inl (by rwa [hcreated])
  · rw [hp] at hoffers
    exact .inr (.inr ⟨_, hoffers, hi⟩)
  · rw [hidle] at hb
    cases hb

theorem Moves.kept (h : Moves s l t) (hs : s.Kept) : t.Kept := by
  cases h with
  | drop hidle _ | candidate hidle _ | stray hidle _ | full hidle _ | iceRestart hidle =>
    exact fun request hmem => ⟨(hs request hmem).1, (hs request hmem).2.same rfl rfl rfl id
      (.inl (by rw [hidle]; rfl))⟩
  | accept hidle hfree =>
    exact fun request hmem => ⟨(hs request hmem).1, (hs request hmem).2.same rfl rfl rfl
      (fun _ => .inr rfl) (.inl (by rw [hidle]; rfl))⟩
  | settle hidle hflight =>
    exact fun request hmem => ⟨(hs request hmem).1,
      (hs request hmem).2.released rfl (by rw [hidle]; rfl) rfl⟩
  | answer hhandler =>
    exact fun request hmem => ⟨(hs request hmem).1, (hs request hmem).2.same rfl rfl rfl id
      (.inl (by rw [hhandler]; rfl))⟩
  | finish hhandler =>
    rw [thenOffer_eq]
    exact fun request hmem => ⟨(hs request hmem).1,
      (hs request hmem).2.released rfl (by rw [hhandler]; rfl) (offers_elim _)⟩
  | offer hhandler hoffers =>
    refine hoffers.kept .idle hs fun b hb => ?_
    rw [hhandler] at hb
    exact .inr (Option.some.inj hb).symm
  | reply hhandler | refresh hhandler _ =>
    rw [thenOffer_eq]
    exact fun request hmem => ⟨(hs request hmem).1, (hs request hmem).2.same rfl rfl rfl id
      (.inr (by rw [hhandler]; exact offers_elim _))⟩
  | sendOffer hoffers =>
    have hhandler : t.handler = s.handler := by cases hoffers <;> rfl
    exact hoffers.kept t.handler hs fun b hb => .inl (by rwa [hhandler])
  | localCandidate pending written =>
    exact fun request hmem => ⟨(hs request hmem).1, (hs request hmem).2.same rfl rfl rfl id
      (.inr rfl)⟩

/-- **Renegotiation is never lost and never collides.** In every run whose
peer calls and writes succeed, an offer in flight is one of a ready client;
no step applies an offer of the browser or creates an offer while an own one
is unanswered, and none creates two; and each call of `sendOffer`, with its
ICE restart, is carried by an offer created since or still to be created. -/
theorem renegotiation_kept (hr : serverLts.Reachable Succeeds s) :
    (s.offerInFlight = true → s.negotiationReady = true) ∧
    (∀ l t, s.Succeeds l → s.step l = some t →
      t.remoteOffers ≠ s.remoteOffers ∨ t.created ≠ s.created →
        ¬ s.Unanswered ∧ t.created.length ≤ s.created.length + 1) ∧
    ∀ request ∈ s.requests, s.Served request := by
  have hs := ordered_of_reachable hr
  have hkept : s.Ordered ∧ s.Kept := by
    refine hr.invariant_ofStep (I := fun s => s.Ordered ∧ s.Kept)
      ⟨ordered_new, fun _ hmem => by cases hmem⟩ fun s l t ⟨ho, hk⟩ hc h => ?_
    exact ⟨(moves_of_step ho hc h).ordered ho, (moves_of_step ho hc h).kept hk⟩
  refine ⟨hs.ready, fun l t hc h hnew => (moves_of_step hs hc h).turn hs hnew, fun request hmem => ?_⟩
  exact (hkept.2 request hmem).2

/-- An ICE restart asked for before the browser's first offer was handled is
carried by the offer that follows it. -/
theorem renegotiation_kept_restart : ∃ s, serverLts.Reachable Succeeds s ∧ s.created = [true] ∧
    s.requests = [(true, 0), (true, 0)] ∧ s.offerInFlight = true ∧ s.negotiationReady = true ∧
    ∀ request ∈ s.requests, s.Served request := by
  obtain ⟨s, hr, ho⟩ := Lts.exists_reachable_of_exec Succeeds Server.step new
    [.sendOffer true {}, .receive (.offer 0) {}, .run {}, .run {}, .run {}]
    (fun s => (s.created, s.requests, s.offerInFlight)) ([true], [(true, 0), (true, 0)], true)
    (by simp [Succeeds, Label.calls, Calls.succeed_default]) (by decide)
  simp only [Prod.mk.injEq] at ho
  obtain ⟨hcreated, hrequests, hflight⟩ := ho
  obtain ⟨hready, -, hserved⟩ := renegotiation_kept hr
  exact ⟨s, hr, hcreated, hrequests, hflight, hready hflight, hserved⟩

end Server

end SlowMeet.Negotiation
