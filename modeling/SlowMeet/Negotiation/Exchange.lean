import SlowMeet.Negotiation.Browser
import SlowMeet.Negotiation.Renegotiation

/-!
# The system refines the exchange of an impolite and a polite party

`System.view` forgets the queues, the promises and the candidates of server
and browser, and each step of the system is a step of the exchange or none.
What the exchange guarantees then holds of the system.
-/

namespace SlowMeet.Negotiation

open Lib

def Inbound.sdp? : Inbound → Option Sdp
  | .offer sdp => some (.offer sdp)
  | .answer sdp => some (.answer sdp)
  | .candidate _ | .iceRestart => none

@[simp] theorem Inbound.sdp?_offer (n : Nat) : (Inbound.offer n).sdp? = some (.offer n) := rfl
@[simp] theorem Inbound.sdp?_answer (n : Nat) : (Inbound.answer n).sdp? = some (.answer n) := rfl
@[simp] theorem Inbound.sdp?_candidate (c : Candidate) : (Inbound.candidate c).sdp? = none := rfl
@[simp] theorem Inbound.sdp?_iceRestart : Inbound.iceRestart.sdp? = none := rfl

def Outbound.sdp? : Outbound → Option Sdp
  | .offer sdp => some (.offer sdp)
  | .answer sdp => some (.answer sdp)
  | .candidate _ | .error _ => none

@[simp] theorem Outbound.sdp?_offer (n : Nat) : (Outbound.offer n).sdp? = some (.offer n) := rfl
@[simp] theorem Outbound.sdp?_answer (n : Nat) : (Outbound.answer n).sdp? = some (.answer n) := rfl
@[simp] theorem Outbound.sdp?_candidate (c : Candidate) : (Outbound.candidate c).sdp? = none := rfl
@[simp] theorem Outbound.sdp?_error (text : String) : (Outbound.error text).sdp? = none := rfl

def Operation.sdp? : Operation → Option Sdp
  | .offer sdp => some (.offer sdp)
  | .answer sdp => some (.answer sdp)
  | .sendOffer | .candidate _ => none

@[simp] theorem Operation.sdp?_sendOffer : Operation.sendOffer.sdp? = none := rfl
@[simp] theorem Operation.sdp?_offer (n : Nat) : (Operation.offer n).sdp? = some (.offer n) := rfl
@[simp] theorem Operation.sdp?_answer (n : Nat) : (Operation.answer n).sdp? = some (.answer n) := rfl
@[simp] theorem Operation.sdp?_candidate (c : Candidate) :
    (Operation.candidate c).sdp? = none := rfl

/-- The offer the handler is about to answer. -/
def Handler.reply? : Handler → Option Nat
  | .answering sdp => some sdp
  | .idle | .flushing | .offering .. | .replying .. | .refreshing .. => none

@[simp] theorem Handler.reply?_idle : Handler.idle.reply? = none := rfl
@[simp] theorem Handler.reply?_answering (n : Nat) : (Handler.answering n).reply? = some n := rfl
@[simp] theorem Handler.reply?_flushing : Handler.flushing.reply? = none := rfl
@[simp] theorem Handler.reply?_offering (b reply : Bool) :
    (Handler.offering b reply).reply? = none := rfl
@[simp] theorem Handler.reply?_replying (error : String) (offer : Option Bool) :
    (Handler.replying error offer).reply? = none := rfl
@[simp] theorem Handler.reply?_refreshing (completed : Bool) (offer : Option Bool) :
    (Handler.refreshing completed offer).reply? = none := rfl

@[simp] theorem Handler.reply?_elim (offer : Option Bool) :
    (offer.elim Handler.idle (.offering · false)).reply? = none := by
  cases offer <;> rfl

namespace System

/-- The exchange of offers and answers. -/
def view (s : System) : Glare where
  flight := bif s.server.offerInFlight then some (s.server.created.length - 1) else none
  reply := s.server.handler.reply?
  dropped := s.server.dropped
  impoliteApplied := s.server.applied
  up := s.browser.outbound.filterMap Inbound.sdp?
  down := s.browser.chain.filterMap Operation.sdp? ++ s.server.outbound.filterMap Outbound.sdp?
  peer := s.browser.peer
  task := s.browser.task
  offers := s.browser.offers
  rolledBack := s.browser.rolledBack
  politeApplied := s.browser.applied

variable {s t : System} {l : Label} {calls : Calls}

theorem view_new : new.view = .new := rfl

/-! ## The server's steps -/

theorem reply?_of_ready {server : Server} (ho : server.Ordered)
    (hready : server.negotiationReady = true) : server.handler.reply? = none := by
  have hbusy : server.handler.busy ≠ true := by
    intro h
    simp [ho.busy h] at hready
  cases hhandler : server.handler <;> simp_all [Handler.busy]

/-- A call of `sendOffer` makes an offer, or shows nothing. -/
theorem view_offers {server : Server} {iceRestart : Bool} {handler : Handler}
    (ho : s.server.Ordered) (h : s.server.Offers iceRestart server)
    (hhandler : handler.reply? = s.server.handler.reply?) :
    { s with server := { server with handler } }.view = s.view ∨
      Glare.Step s.view { s with server := { server with handler } }.view := by
  cases h with
  | queue _ =>
    left
    simp only [view, hhandler]
  | create hready hfree =>
    right
    have hstep := Glare.Step.offer (g := s.view) s.server.created.length (by simp [view, hfree])
      (reply?_of_ready ho hready)
    simpa [view, hhandler] using hstep

theorem view_up {msg : Inbound} {rest : List Inbound} {server : Server}
    (hout : s.browser.outbound = msg :: rest) (h : s.server.Moves (.receive msg calls) server) :
    System.view ⟨server, { s.browser with outbound := rest }⟩ = s.view ∨
      Glare.Step s.view (System.view ⟨server, { s.browser with outbound := rest }⟩) := by
  cases h with
  | @drop sdp _ hidle hflight =>
    right
    have hup : s.view.up = .offer sdp :: rest.filterMap Inbound.sdp? := by
      simp [view, hout]
    have hfly : s.view.flight = some (s.server.created.length - 1) := by simp [view, hflight]
    simpa [view] using Glare.Step.drop hup hfly
  | @accept sdp _ hidle hfree =>
    right
    have hup : s.view.up = .offer sdp :: rest.filterMap Inbound.sdp? := by
      simp [view, hout]
    have hfly : s.view.flight = none := by simp [view, hfree]
    have hreply : s.view.reply = none := by simp [view, hidle]
    simpa [view] using Glare.Step.accept hup hfly hreply
  | @stray sdp _ hidle hfree =>
    right
    have hup : s.view.up = .answer sdp :: rest.filterMap Inbound.sdp? := by
      simp [view, hout]
    have hfly : s.view.flight = none := by simp [view, hfree]
    simpa [view, Server.reply, hidle] using Glare.Step.stray hup hfly
  | @settle sdp _ hidle hflight =>
    right
    have hup : s.view.up = .answer sdp :: rest.filterMap Inbound.sdp? := by
      simp [view, hout]
    have hfly : s.view.flight = some (s.server.created.length - 1) := by simp [view, hflight]
    simpa [view, hidle] using Glare.Step.settle hup hfly
  | candidate hidle _ =>
    left
    simp [view, hout, List.filterMap_cons]
  | full hidle _ | iceRestart hidle =>
    left
    simp [view, hout, hidle, Server.reply, List.filterMap_cons]

theorem view_server {l : Server.Label} {server : Server} (ho : s.server.Ordered)
    (h : s.server.Moves l server) (hl : ∀ msg calls, l ≠ .receive msg calls) :
    System.view ⟨server, s.browser⟩ = s.view ∨
      Glare.Step s.view (System.view ⟨server, s.browser⟩) := by
  cases h with
  | drop | accept | stray | settle | candidate | full | iceRestart => exact absurd rfl (hl _ _)
  | @answer sdp _ hhandler =>
    right
    have hreply : s.view.reply = some sdp := by simp [view, hhandler]
    simpa [view] using Glare.Step.answer hreply
  | finish hhandler =>
    left
    rw [Server.thenOffer_eq]
    simp [view, hhandler]
  | offer hhandler hoffers => exact view_offers ho hoffers (by rw [hhandler]; rfl)
  | reply hhandler | refresh hhandler _ =>
    left
    rw [Server.thenOffer_eq]
    simp [view, hhandler, Server.write, List.filterMap_cons]
  | sendOffer hoffers =>
    have hhandler : server.handler = s.server.handler := by cases hoffers <;> rfl
    exact view_offers ho hoffers (by rw [hhandler])
  | localCandidate _ written =>
    left
    simp [view]

theorem view_down {msg : Outbound} {rest : List Outbound} (hout : s.server.outbound = msg :: rest) :
    System.view ⟨{ s.server with outbound := rest }, s.browser.handleWebRTCMessage msg⟩ =
      s.view := by
  cases msg <;>
    simp [view, hout, Browser.handleWebRTCMessage, List.filterMap_cons]

/-! ## The browser's steps -/

theorem view_begin {operation : Operation} {rest : List Operation}
    (htask : s.browser.task = .idle) (hchain : s.browser.chain = operation :: rest) :
    System.view { s with browser := { s.browser with chain := rest }.beginOperation operation } =
        s.view ∨
      Glare.Step s.view
        (System.view { s with browser := { s.browser with chain := rest }.beginOperation operation }) := by
  have hidle : s.view.task = .idle := htask
  cases operation with
  | sendOffer =>
    by_cases hpeer : s.browser.peer = .stable
    · right
      simpa [view, hchain, Browser.beginOperation, Browser.isStable, hpeer, List.filterMap_cons] using
        Glare.Step.begin hidle hpeer
    · left
      simp [view, hchain, Browser.beginOperation, Browser.isStable, hpeer, Browser.finish, htask,
        List.filterMap_cons]
  | offer sdp =>
    right
    have hdown : s.view.down = .offer sdp :: (rest.filterMap Operation.sdp? ++
        s.server.outbound.filterMap Outbound.sdp?) := by simp [view, hchain]
    cases hpeer : s.browser.peer.offered with
    | false =>
      simpa [view, Browser.beginOperation, hpeer] using Glare.Step.receive hidle hdown hpeer
    | true =>
      obtain ⟨own, hown⟩ := Signaling.offered_eq_true.mp hpeer
      simpa [view, Browser.beginOperation, hpeer] using Glare.Step.collide hidle hdown hown
  | answer sdp =>
    right
    have hdown : s.view.down = .answer sdp :: (rest.filterMap Operation.sdp? ++
        s.server.outbound.filterMap Outbound.sdp?) := by simp [view, hchain]
    cases hpeer : s.browser.peer.offered with
    | false =>
      simpa [view, Browser.beginOperation, hpeer, Browser.finish, htask] using
        Glare.Step.ignore hidle hdown hpeer
    | true => simpa [view, Browser.beginOperation, hpeer] using Glare.Step.take hidle hdown hpeer
  | candidate c =>
    left
    simp only [view, hchain, Browser.beginOperation, List.filterMap_cons, Operation.sdp?_candidate]
    split <;> rfl

/-- No call of the running operation is refused. -/
theorem view_advance {browser : Browser} (hs : s.view.Stage)
    (h : s.browser.advance = some browser) :
    Glare.Step s.view (System.view { s with browser }) := by
  cases htask : s.browser.task with
  | idle => simp [Browser.advance, htask] at h
  | creating =>
    simp only [Browser.advance, htask, Option.some.injEq] at h
    subst h
    simpa [view] using Glare.Step.create (g := s.view) htask
  | setting sdp =>
    have hpeer : s.browser.peer = .stable := hs.stable_of_setting htask
    simp only [Browser.advance, htask, hpeer, Signaling.setLocalOffer_stable, Option.some.injEq] at h
    subst h
    have hset : s.view.peer.setLocalOffer sdp = some (.haveLocalOffer sdp) := by simp [view, hpeer]
    simpa [view] using Glare.Step.set htask hset
  | sending sdp =>
    simp only [Browser.advance, htask, Option.some.injEq] at h
    subst h
    simpa [view] using Glare.Step.send (g := s.view) htask
  | rolling sdp =>
    obtain ⟨own, hpeer, -⟩ := hs.rollback htask
    replace hpeer : s.browser.peer = .haveLocalOffer own := hpeer
    simp only [Browser.advance, htask, hpeer, Signaling.rollback_haveLocalOffer,
      Option.some.injEq] at h
    subst h
    simpa [view, Signaling.localOffer] using Glare.Step.rollback (g := s.view) htask hpeer
  | rolled sdp =>
    simp only [Browser.advance, htask, Option.some.injEq] at h
    subst h
    simpa [view] using Glare.Step.proceed (g := s.view) htask
  | applying sdp =>
    have hpeer : s.browser.peer = .stable := (hs.apply htask).1
    simp only [Browser.advance, htask, hpeer, Signaling.setRemoteOffer_stable,
      Option.some.injEq] at h
    subst h
    have hset : s.view.peer.setRemoteOffer sdp = some (.haveRemoteOffer sdp) := by
      simp [view, hpeer]
    simpa [view] using Glare.Step.apply htask hset
  | answering sdp =>
    simp only [Browser.advance, htask, Option.some.injEq] at h
    subst h
    simpa [view] using Glare.Step.createAnswer (g := s.view) htask
  | settingAnswer sdp =>
    have hpeer : s.browser.peer = .haveRemoteOffer sdp := (hs.setAnswer htask).1
    simp only [Browser.advance, htask, hpeer, Signaling.setLocalAnswer_haveRemoteOffer,
      Option.some.injEq] at h
    subst h
    have hset : s.view.peer.setLocalAnswer = some .stable := by simp [view, hpeer]
    simpa [view] using Glare.Step.setAnswer htask hset
  | replying sdp =>
    simp only [Browser.advance, htask, Option.some.injEq] at h
    subst h
    simpa [view] using Glare.Step.reply (g := s.view) htask
  | settling sdp =>
    have hpeer : s.browser.peer = .haveLocalOffer sdp := (hs.close htask).1
    simp only [Browser.advance, htask, hpeer, Signaling.setRemoteAnswer_haveLocalOffer,
      Option.some.injEq] at h
    subst h
    simpa [view, Signaling.localOffer] using Glare.Step.close (g := s.view) htask hpeer
  | settled =>
    simp only [Browser.advance, htask, Option.some.injEq] at h
    subst h
    simpa [view, Browser.finish] using Glare.Step.finish (g := s.view) htask

/-- The pump adds at most a call of `sendOffer` to the chain. -/
theorem view_runPump {browser : Browser} (h : s.browser.runPump = some browser) :
    System.view { s with browser } = s.view := by
  unfold Browser.runPump at h
  cases hpump : s.browser.queue.pumping <;> simp only [hpump, reduceCtorEq, Option.some.injEq] at h
  all_goals
    subst h
    simp [view, List.filterMap_cons]

/-- **The system refines the exchange**: each step shows one of its steps, or
nothing. -/
theorem view_step (ho : s.server.Ordered) (hs : s.view.Stage) (hc : s.Succeeds l)
    (h : s.step l = some t) : t.view = s.view ∨ Glare.Step s.view t.view := by
  cases l with
  | server l =>
    cases l with
    | receive msg calls => simp [step] at h
    | run calls | sendOffer _ calls | localCandidate _ calls =>
      simp only [step, Option.map_eq_some_iff] at h
      obtain ⟨server, hstep, rfl⟩ := h
      exact view_server ho (Server.moves_of_step ho hc hstep) (by simp)
  | up calls =>
    cases hout : s.browser.outbound with
    | nil => simp [step, hout] at h
    | cons msg rest =>
      simp only [step, hout, Option.map_eq_some_iff] at h
      obtain ⟨server, hstep, rfl⟩ := h
      exact view_up hout (Server.moves_of_step ho hc hstep)
  | down =>
    cases hout : s.server.outbound with
    | nil => simp [step, hout] at h
    | cons msg rest =>
      simp only [step, hout, Option.some.injEq] at h
      exact h ▸ .inl (view_down hout)
  | browser l =>
    simp only [step, Option.map_eq_some_iff] at h
    obtain ⟨browser, hstep, rfl⟩ := h
    cases l with
    | request =>
      simp only [Browser.step, Option.some.injEq] at hstep
      exact hstep ▸ .inl rfl
    | begin =>
      simp only [Browser.step] at hstep
      split at hstep
      case h_2 => simp at hstep
      case h_1 operation rest htask hchain =>
        simp only [Option.some.injEq] at hstep
        exact hstep ▸ view_begin htask hchain
    | advance => exact .inr (view_advance hs hstep)
    | pump => exact .inl (view_runPump hstep)
    | candidate c | iceRestart =>
      simp only [Browser.step, Option.some.injEq] at hstep
      left
      simp [← hstep, view, List.filterMap_cons]

/-! ## Every run -/

/-- The server's half keeps its turns. -/
theorem ordered_step (ho : s.server.Ordered) (hc : s.Succeeds l) (h : s.step l = some t) :
    t.server.Ordered := by
  cases l with
  | server l =>
    cases l with
    | receive msg calls => simp [step] at h
    | run calls | sendOffer _ calls | localCandidate _ calls =>
      simp only [step, Option.map_eq_some_iff] at h
      obtain ⟨server, hstep, rfl⟩ := h
      exact (Server.moves_of_step ho hc hstep).ordered ho
  | up calls =>
    cases hout : s.browser.outbound with
    | nil => simp [step, hout] at h
    | cons msg rest =>
      simp only [step, hout, Option.map_eq_some_iff] at h
      obtain ⟨server, hstep, rfl⟩ := h
      have hc' : s.server.Succeeds (.receive msg calls) := hc
      exact (Server.moves_of_step ho hc' hstep).ordered ho
  | down =>
    cases hout : s.server.outbound with
    | nil => simp [step, hout] at h
    | cons msg rest =>
      simp only [step, hout, Option.some.injEq] at h
      exact h ▸ ⟨ho.ready, ho.peer, ho.created, ho.busy⟩
  | browser l =>
    simp only [step, Option.map_eq_some_iff] at h
    obtain ⟨browser, -, rfl⟩ := h
    exact ho

theorem view_of_reachable (hr : systemLts.Reachable Succeeds s) :
    s.server.Ordered ∧ Glare.lts.Reachable Lts.Any s.view := by
  have hnew : Glare.lts.init new.view := view_new
  refine hr.invariant_ofStep
    (I := fun s => s.server.Ordered ∧ Glare.lts.Reachable Lts.Any s.view)
    ⟨Server.ordered_new, .init hnew⟩ fun s l t ⟨ho, hv⟩ hc h => ?_
  refine ⟨ordered_step ho hc h, ?_⟩
  rcases view_step ho (Glare.stage_and_paired_of_reachable hv).1 hc h with hsame | hstep
  · exact hsame ▸ hv
  · exact hv.step (l := ()) trivial hstep

end System

end SlowMeet.Negotiation
