import Mathlib.Data.List.Induction
import SlowMeet.Negotiation.Failures

/-!
# The server's own candidates

A candidate is gathered for a local description, and the browser has to read
the description first. An offer is written before `negotiationMu` is released;
an answer is written after it is, and what is gathered in between waits for
it. Here every candidate comes with the number of its description among those
that were set, and the outbound queue takes every write.
-/

namespace SlowMeet.Negotiation

open Lib

/-! ## What was written -/

def Outbound.candidate? : Outbound → Option Candidate
  | .candidate c => some c
  | _ => none

/-- A local description. -/
def Outbound.describes : Outbound → Bool
  | .offer _ | .answer _ => true
  | .candidate _ | .error _ => false

def candidates (log : List Outbound) : List Candidate := log.filterMap Outbound.candidate?

/-- The local descriptions that were written. -/
def descriptions (log : List Outbound) : List Outbound := log.filter Outbound.describes

/-- The candidates were written in the order they were gathered, each after the
description it was gathered for: `gathered` has their descriptions' numbers. -/
def InTurn (gathered : List (Candidate × Nat)) (log : List Outbound) : Prop :=
  ∀ before candidate after, log = before ++ .candidate candidate :: after →
    ∃ description, gathered[(candidates before).length]? = some (candidate, description) ∧
      description < (descriptions before).length

section Written

variable {gathered more : List (Candidate × Nat)} {log : List Outbound} {m : Outbound}
  {candidate : Candidate}

@[simp] theorem candidates_append (log rest : List Outbound) :
    candidates (log ++ rest) = candidates log ++ candidates rest :=
  List.filterMap_append

@[simp] theorem descriptions_append (log rest : List Outbound) :
    descriptions (log ++ rest) = descriptions log ++ descriptions rest :=
  List.filter_append ..

@[simp] theorem candidates_candidate : candidates [.candidate candidate] = [candidate] := rfl

@[simp] theorem descriptions_candidate : descriptions [.candidate candidate] = [] := rfl

@[simp] theorem candidates_map_candidate (pending : List Candidate) :
    candidates (pending.map .candidate) = pending := by
  induction pending with
  | nil => rfl
  | cons candidate pending ih =>
    show candidate :: candidates (pending.map .candidate) = _
    rw [ih]

@[simp] theorem descriptions_map_candidate (pending : List Candidate) :
    descriptions (pending.map .candidate) = [] := by
  induction pending with
  | nil => rfl
  | cons candidate pending ih =>
    rw [← ih]
    rfl

theorem inTurn_nil : InTurn gathered [] := by
  intro before candidate after h
  simp at h

/-- One more message, which is in turn if it is a candidate. -/
theorem InTurn.concat (h : InTurn gathered log)
    (hm : ∀ candidate, m = .candidate candidate →
      ∃ description, gathered[(candidates log).length]? = some (candidate, description) ∧
        description < (descriptions log).length) :
    InTurn gathered (log ++ [m]) := by
  intro before candidate after heq
  cases after using List.reverseRecOn with
  | nil =>
    obtain ⟨rfl, hm'⟩ := List.append_inj' heq rfl
    exact hm candidate (List.cons_eq_cons.mp hm').1
  | append_singleton after last =>
    rw [← List.cons_append, ← List.append_assoc] at heq
    obtain ⟨hlog, -⟩ := List.append_inj' heq rfl
    exact h before candidate after hlog

theorem InTurn.other (h : InTurn gathered log) (hm : m.candidate? = none) :
    InTurn gathered (log ++ [m]) := by
  apply h.concat
  rintro candidate rfl
  cases hm

/-- What was gathered later changes nothing. -/
theorem InTurn.append (h : InTurn gathered log) : InTurn (gathered ++ more) log := by
  intro before candidate after heq
  obtain ⟨description, hget, hlt⟩ := h before candidate after heq
  refine ⟨description, ?_, hlt⟩
  rw [List.getElem?_append_left (List.getElem?_eq_some_iff.mp hget).1, hget]

/-- The candidate that comes next, once every description is written. -/
theorem inTurn_next {pending : List Candidate}
    (horder : candidates log ++ candidate :: pending = gathered.map Prod.fst)
    (hcauses : ∀ entry ∈ gathered, entry.2 < (descriptions log).length) :
    ∃ description, gathered[(candidates log).length]? = some (candidate, description) ∧
      description < (descriptions log).length := by
  have hget : (gathered.map Prod.fst)[(candidates log).length]? = some candidate := by
    rw [← horder, List.getElem?_append_right (Nat.le_refl _), Nat.sub_self]
    rfl
  rw [List.getElem?_map, Option.map_eq_some_iff] at hget
  obtain ⟨⟨_, description⟩, hentry, rfl⟩ := hget
  exact ⟨description, hentry, hcauses _ (List.mem_of_getElem? hentry)⟩

/-- The whole of what was waiting. -/
theorem InTurn.flush {pending : List Candidate} (h : InTurn gathered log)
    (horder : candidates log ++ pending = gathered.map Prod.fst)
    (hcauses : ∀ entry ∈ gathered, entry.2 < (descriptions log).length) :
    InTurn gathered (log ++ pending.map .candidate) := by
  induction pending generalizing log with
  | nil => simpa using h
  | cons candidate pending ih =>
    have hfirst : InTurn gathered (log ++ [.candidate candidate]) := by
      apply h.concat
      intro candidate' heq
      obtain rfl : candidate = candidate' := by simpa using heq
      exact inTurn_next horder hcauses
    have hrest := ih hfirst (by simpa using horder) (by simpa using hcauses)
    simpa using hrest

end Written

/-! ## The server's steps -/

namespace Server

variable {s t : Server} {calls : Calls}

/-- An answer was created and is not written. -/
def answering (s : Server) : Bool :=
  match s.handler with
  | .answering _ => true
  | _ => false

/-- The answer that is set and not written. -/
def unwritten (s : Server) : List Outbound :=
  match s.handler with
  | .answering sdp => [.answer sdp]
  | _ => []

theorem unwritten_of_quiet (h : s.answering = false) : s.unwritten = [] := by
  unfold answering at h
  unfold unwritten
  split at h
  · cases h
  · rfl

/-- The local descriptions a step sets: an answer, or the offers it creates. -/
def sets (s t : Server) : Label → List Outbound
  | .receive _ _ => t.unwritten
  | _ => (List.range' s.created.length (t.created.length - s.created.length)).map .offer

theorem range'_self {t : Server} (hcreated : t.created.length = s.created.length) :
    (List.range' s.created.length (t.created.length - s.created.length)).map Outbound.offer =
      [] := by
  rw [hcreated, Nat.sub_self]
  rfl

/-- What no step but a flush does to the candidates: they stay, and nothing
opens the way for them. -/
structure Holds (s t : Server) : Prop where
  pending : t.pendingLocalCandidates = s.pendingLocalCandidates
  ready : t.negotiationReady = true → s.negotiationReady = true

/-- `sendOffer` writes the offer it creates, or leaves things as they are. -/
theorem sendOffer_writes (htakes : ∀ i, calls.takes i = true) (s : Server) (iceRestart : Bool) :
    Holds s (s.sendOffer calls iceRestart).1 ∧
      (s.sendOffer calls iceRestart).1.handler = s.handler ∧
      (((s.sendOffer calls iceRestart).1.outbound = s.outbound ∧
          (s.sendOffer calls iceRestart).1.created = s.created) ∨
        (s.negotiationReady = true ∧
          (s.sendOffer calls iceRestart).1.outbound = s.outbound ++ [.offer s.created.length] ∧
          (s.sendOffer calls iceRestart).1.created = s.created ++ [iceRestart])) := by
  unfold sendOffer
  dsimp only
  cases hready : s.negotiationReady with
  | false => exact ⟨⟨rfl, fun h => hready ▸ h⟩, rfl, .inl ⟨rfl, rfl⟩⟩
  | true =>
    cases hflight : s.offerInFlight with
    | true => exact ⟨⟨rfl, fun _ => hready⟩, rfl, .inl ⟨rfl, rfl⟩⟩
    | false =>
      unfold startOffer createOffer
      simp only [Bool.not_true, Bool.false_eq_true, if_false]
      cases calls.createOffer with
      | false => exact ⟨⟨rfl, fun _ => hready⟩, rfl, .inl ⟨rfl, rfl⟩⟩
      | true =>
        cases hpeer : s.peer.setLocalOffer s.created.length with
        | none => exact ⟨⟨rfl, fun _ => hready⟩, rfl, .inl ⟨by simp, by simp⟩⟩
        | some peer =>
          simp only [if_true, Option.map_some, htakes]
          exact ⟨⟨rfl, fun _ => hready⟩, rfl, .inr ⟨trivial, rfl, rfl⟩⟩

theorem thenOffer_frame (s : Server) (offer : Option Bool) :
    (s.thenOffer offer).outbound = s.outbound ∧ (s.thenOffer offer).created = s.created ∧
      Holds s (s.thenOffer offer) ∧ (s.thenOffer offer).answering = false ∧
      (s.thenOffer offer).handler ≠ .flushing := by
  cases offer <;> exact ⟨rfl, rfl, ⟨rfl, fun h => h⟩, rfl, by simp [thenOffer]⟩

theorem finishOffer_ready (s : Server) (calls : Calls) :
    (s.finishOffer calls).negotiationReady = true := by
  unfold finishOffer
  dsimp only
  generalize (if (s.flushPendingLocalCandidates calls).pendingOffer = true then _ else _) = offer
  cases offer <;> rfl

/-- The flush writes all that was waiting. -/
theorem flushCandidates_writes {takes : Nat → Bool} (htakes : ∀ i, takes i = true) (s : Server)
    (i : Nat) (pending : List Candidate) :
    flushCandidates takes s i pending =
      { s with outbound := s.outbound ++ pending.map .candidate, pendingLocalCandidates := [] } := by
  induction pending generalizing s i with
  | nil => simp [flushCandidates]
  | cons candidate rest ih =>
    rw [flushCandidates, if_pos (htakes i), ih]
    simp [write]

/-- What a call on the peer connection leaves alone. -/
structure Frame (s t : Server) : Prop where
  outbound : t.outbound = s.outbound
  pending : t.pendingLocalCandidates = s.pendingLocalCandidates
  ready : t.negotiationReady = s.negotiationReady
  handler : t.handler = s.handler

theorem frame_setRemoteOffer {sdp : Nat} (h : s.setRemoteOffer calls sdp = some t) :
    Frame s t := by
  unfold setRemoteOffer at h
  split at h
  · obtain ⟨peer, -, rfl⟩ := Option.map_eq_some_iff.mp h
    exact ⟨rfl, rfl, rfl, rfl⟩
  · cases h

theorem frame_createAnswer (h : s.createAnswer calls = some t) : Frame s t := by
  unfold createAnswer at h
  split at h
  · obtain ⟨peer, -, rfl⟩ := Option.map_eq_some_iff.mp h
    exact ⟨rfl, rfl, rfl, rfl⟩
  · cases h

theorem frame_applyRemoteAnswer (s : Server) (calls : Calls) (sdp : Nat) :
    Frame s (s.applyRemoteAnswer calls sdp).1 := by
  unfold applyRemoteAnswer setRemoteAnswer
  cases calls.setRemoteAnswer with
  | false => exact ⟨rfl, rfl, rfl, rfl⟩
  | true =>
    cases hpeer : s.peer.setRemoteAnswer with
    | none => exact ⟨rfl, rfl, rfl, rfl⟩
    | some peer => exact ⟨rfl, rfl, rfl, rfl⟩

/-- What a section of the read loop leaves: nothing is written, and the way for
candidates is closed if there is an answer to write. -/
structure Received (s t : Server) : Prop where
  outbound : t.outbound = s.outbound
  holds : Holds s t
  answering : t.answering = true → t.negotiationReady = false
  flushing : t.handler ≠ .flushing

theorem Frame.replied (h : Frame s t) (error : String) : Received s (t.reply error) :=
  ⟨h.outbound, ⟨h.pending, fun hready => h.ready ▸ hready⟩, by simp [reply, answering],
    by simp [reply]⟩

theorem Frame.idle (h : Frame s t) (hidle : s.handler = .idle) : Received s t := by
  have hhandler : t.handler = .idle := h.handler.trans hidle
  refine ⟨h.outbound, ⟨h.pending, fun hready => h.ready ▸ hready⟩, ?_, ?_⟩
  · intro hanswering
    unfold Server.answering at hanswering
    rw [hhandler] at hanswering
    cases hanswering
  · rw [hhandler]
    simp

theorem received_offer (hidle : s.handler = .idle) (sdp : Nat) :
    Received s (s.receiveOffer calls sdp) := by
  unfold receiveOffer
  cases s.offerInFlight with
  | true => exact Frame.idle ⟨rfl, rfl, rfl, rfl⟩ hidle
  | false =>
    cases hoffer : s.setRemoteOffer calls sdp with
    | none => exact Frame.replied ⟨rfl, rfl, rfl, rfl⟩ _
    | some s' =>
      have hframe := frame_setRemoteOffer hoffer
      simp only [Bool.false_eq_true, if_false]
      unfold applyPendingCandidates
      cases applyCandidates calls.addICECandidate 0 s'.pendingCandidates with
      | mk rest ok =>
        cases ok with
        | false =>
          have hrest : Frame s { s' with pendingCandidates := rest } :=
            ⟨hframe.outbound, hframe.pending, hframe.ready, hframe.handler⟩
          exact hrest.replied _
        | true =>
          dsimp only
          split
          · exact ⟨hframe.outbound, ⟨hframe.pending, fun hready => hframe.ready ▸ hready⟩,
              by simp [reply, answering], by simp [reply]⟩
          · rename_i answered hanswer
            have hanswered := frame_createAnswer hanswer
            refine ⟨hanswered.outbound.trans hframe.outbound,
              ⟨hanswered.pending.trans hframe.pending, ?_⟩, fun _ => hanswered.ready, by simp⟩
            intro hready
            have hclosed : answered.negotiationReady = false := hanswered.ready
            exact absurd hready (by simp [hclosed])

theorem received_answer (sdp : Nat) : Received s (s.receiveAnswer calls sdp) := by
  have hframe := frame_applyRemoteAnswer s calls sdp
  unfold receiveAnswer
  cases s.offerInFlight with
  | false => exact Frame.replied ⟨rfl, rfl, rfl, rfl⟩ _
  | true =>
    simp only [Bool.not_true, Bool.false_eq_true, if_false]
    refine ⟨hframe.outbound, ⟨hframe.pending, fun hready => hframe.ready ▸ hready⟩, ?_, ?_⟩
    · unfold Server.answering
      split <;> rename_i hhandler
      · split at hhandler <;> cases hhandler
      · simp
    · split <;> simp

theorem received_handleWebRTCMessage (hidle : s.handler = .idle) (msg : Inbound) :
    Received s (s.handleWebRTCMessage calls msg) := by
  cases msg with
  | offer sdp => exact received_offer hidle sdp
  | answer sdp => exact received_answer sdp
  | candidate candidate =>
    obtain ⟨pending, hadd⟩ := addOrQueueCandidate_fst s calls candidate
    rw [handleWebRTCMessage]
    cases hresult : s.addOrQueueCandidate calls candidate with
    | mk s' error =>
      rw [hresult] at hadd
      obtain rfl : s' = { s with pendingCandidates := pending } := hadd
      have hqueue : Frame s { s with pendingCandidates := pending } := ⟨rfl, rfl, rfl, rfl⟩
      cases error with
      | none => exact hqueue.idle hidle
      | some error => exact hqueue.replied error
  | iceRestart =>
    exact ⟨rfl, ⟨rfl, fun h => h⟩, by simp [handleWebRTCMessage, answering],
      by simp [handleWebRTCMessage]⟩

end Server

/-! ## The system -/

/-- The server, with its candidates and their descriptions. -/
structure Gathering where
  server : Server
  /-- The local descriptions set so far. -/
  set : List Outbound
  /-- Each candidate gathered, with the number of its description. -/
  gathered : List (Candidate × Nat)

namespace Gathering

def new : Gathering := ⟨.new, [], []⟩

/-- A step of the server. A candidate is gathered for a description that is
set, the `description`-th. -/
def step (g : Gathering) (l : Server.Label × Nat) : Option Gathering :=
  match l with
  | (.localCandidate candidate calls, description) =>
    if description < g.set.length then
      (g.server.step (.localCandidate candidate calls)).map fun server =>
        { g with server, gathered := g.gathered ++ [(candidate, description)] }
    else none
  | (l, _) =>
    (g.server.step l).map fun server => { g with server, set := g.set ++ g.server.sets server l }

/-- The outbound queue takes every write. -/
def WritesSucceed (_ : Gathering) (l : Server.Label × Nat) : Prop := ∀ i, l.1.calls.takes i = true

/-- Each candidate once, in the order they were gathered, after its description;
the descriptions in the order they were set; and none waits once the way is
open. -/
structure Delivered (g : Gathering) : Prop where
  described : descriptions g.server.outbound <+: g.set
  order : candidates g.server.outbound ++ g.server.pendingLocalCandidates = g.gathered.map Prod.fst
  inTurn : InTurn g.gathered g.server.outbound
  clear : g.server.negotiationReady = true → g.server.pendingLocalCandidates = []

/-- What the steps keep. -/
structure Sound (g : Gathering) : Prop where
  delivered : g.Delivered
  /-- Every description is written but an answer that is about to be. -/
  described : descriptions g.server.outbound ++ g.server.unwritten = g.set
  causes : ∀ entry ∈ g.gathered, entry.2 < g.set.length
  answering : g.server.answering = true → g.server.negotiationReady = false
  flushing : g.server.handler = .flushing → g.server.negotiationReady = false

variable {g g' : Gathering} {l : Server.Label × Nat}

theorem sound_new : new.Sound where
  delivered := ⟨List.prefix_refl _, rfl, inTurn_nil, fun _ => rfl⟩
  described := rfl
  causes := by simp [new]
  answering h := by cases h
  flushing h := by cases h

/-- A step that writes at most one message, which is no candidate. -/
theorem Sound.advance (h : g.Sound) {t : Server} {more : List Outbound} (log : List Outbound)
    (hlog : t.outbound = g.server.outbound ++ log)
    (hone : log = [] ∨ ∃ m, log = [m] ∧ m.candidate? = none)
    (hholds : g.server.Holds t)
    (hset : descriptions log ++ t.unwritten = g.server.unwritten ++ more)
    (hanswering : t.answering = true → t.negotiationReady = false)
    (hflushing : t.handler = .flushing → t.negotiationReady = false) :
    Sound { g with server := t, set := g.set ++ more } := by
  have hdescribed : descriptions t.outbound ++ t.unwritten = g.set ++ more := by
    rw [hlog, descriptions_append, List.append_assoc, hset, ← List.append_assoc, h.described]
  have hcandidates : candidates log = [] := by
    rcases hone with rfl | ⟨m, rfl, hm⟩
    · rfl
    · simp [candidates, hm]
  constructor
  · constructor
    · exact ⟨t.unwritten, hdescribed⟩
    · show candidates t.outbound ++ t.pendingLocalCandidates = _
      rw [hlog, candidates_append, hcandidates, List.append_nil, hholds.pending, h.delivered.order]
    · show InTurn g.gathered t.outbound
      rw [hlog]
      rcases hone with rfl | ⟨m, rfl, hm⟩
      · rw [List.append_nil]
        exact h.delivered.inTurn
      · exact h.delivered.inTurn.other hm
    · intro hready
      show t.pendingLocalCandidates = []
      rw [hholds.pending]
      exact h.delivered.clear (hholds.ready hready)
  · exact hdescribed
  · intro entry hentry
    have hbefore := h.causes entry hentry
    show entry.2 < (g.set ++ more).length
    rw [List.length_append]
    omega
  · exact hanswering
  · exact hflushing

/-- A section of the read loop. -/
theorem Sound.receive (h : g.Sound) {calls : Calls} {msg : Inbound}
    (hidle : g.server.handler = .idle) :
    Sound { g with
      server := g.server.handleWebRTCMessage calls msg
      set := g.set ++ (g.server.handleWebRTCMessage calls msg).unwritten } := by
  have hreceived : Server.Received g.server (g.server.handleWebRTCMessage calls msg) :=
    Server.received_handleWebRTCMessage hidle msg
  have hquiet : g.server.answering = false := by
    unfold Server.answering
    rw [hidle]
  apply h.advance []
  · rw [hreceived.outbound, List.append_nil]
  · exact .inl rfl
  · exact hreceived.holds
  · rw [Server.unwritten_of_quiet hquiet]
    rfl
  · exact hreceived.answering
  · exact fun hflushing => absurd hflushing hreceived.flushing

/-- `sendOffer`, after which the handler may go on to `handler`. -/
theorem Sound.sendOffer (h : g.Sound) {calls : Calls} (htakes : ∀ i, calls.takes i = true)
    (iceRestart : Bool) {t : Server} {handler : Handler}
    (ht : t = { (g.server.sendOffer calls iceRestart).1 with handler })
    (hsame : handler = g.server.handler ∨
      (g.server.answering = false ∧ t.answering = false ∧ handler ≠ .flushing)) :
    Sound { g with server := t, set := g.set ++ (List.range' g.server.created.length
      (t.created.length - g.server.created.length)).map .offer } := by
  obtain ⟨hholds, -, hwrites⟩ := Server.sendOffer_writes htakes g.server iceRestart
  have hansweringEq : t.answering = g.server.answering := by
    rcases hsame with hsame | ⟨hbefore, hafter, -⟩
    · unfold Server.answering
      rw [ht, hsame]
    · rw [hbefore, hafter]
  have hunwritten : t.unwritten = g.server.unwritten := by
    rcases hsame with hsame | ⟨hbefore, hafter, -⟩
    · unfold Server.unwritten
      rw [ht, hsame]
    · rw [Server.unwritten_of_quiet hbefore, Server.unwritten_of_quiet hafter]
  have hflushing (hhandler : t.handler = .flushing) : g.server.handler = .flushing := by
    have hto : handler = .flushing := by rw [← hhandler, ht]
    rcases hsame with hsame | ⟨-, -, hne⟩
    · rw [← hsame, hto]
    · exact absurd hto hne
  have hclosed (hbefore : g.server.negotiationReady = false) : t.negotiationReady = false := by
    by_contra hopen
    have hready : g.server.negotiationReady = true := hholds.ready (by
      have htrue : t.negotiationReady = true := by simpa using hopen
      rwa [ht] at htrue)
    rw [hbefore] at hready
    cases hready
  have hholds' : g.server.Holds t := by
    rw [ht]
    exact ⟨hholds.pending, hholds.ready⟩
  rcases hwrites with ⟨hout, hcreated⟩ | ⟨hready, hout, hcreated⟩
  · apply h.advance []
    · rw [ht, List.append_nil]
      exact hout
    · exact .inl rfl
    · exact hholds'
    · rw [hunwritten, Server.range'_self (by rw [ht, ← hcreated]), List.append_nil]
      rfl
    · exact fun hanswering => hclosed (h.answering (hansweringEq ▸ hanswering))
    · exact fun hhandler => hclosed (h.flushing (hflushing hhandler))
  · apply h.advance [.offer g.server.created.length]
    · rw [ht]
      exact hout
    · exact .inr ⟨_, rfl, rfl⟩
    · exact hholds'
    · have hlength : t.created.length = g.server.created.length + 1 := by
        have happend := congrArg List.length hcreated
        rw [List.length_append, List.length_singleton] at happend
        rw [ht]
        exact happend
      -- an answer that is not written keeps the way closed
      have hquiet : g.server.answering = false := by
        by_contra hanswering
        have hclosed := h.answering (by simpa using hanswering)
        rw [hready] at hclosed
        cases hclosed
      rw [hunwritten, Server.unwritten_of_quiet hquiet, hlength, Nat.add_sub_cancel_left]
      rfl
    · exact fun hanswering => hclosed (h.answering (hansweringEq ▸ hanswering))
    · exact fun hhandler => hclosed (h.flushing (hflushing hhandler))

/-- The flush of an answered offer. -/
theorem Sound.flush (h : g.Sound) {calls : Calls} (htakes : ∀ i, calls.takes i = true)
    (hhandler : g.server.handler = .flushing) :
    Sound { g with server := g.server.finishOffer calls } := by
  have hquiet : g.server.answering = false := by
    unfold Server.answering
    rw [hhandler]
  have hdescribed : descriptions g.server.outbound = g.set := by
    rw [← h.described, Server.unwritten_of_quiet hquiet, List.append_nil]
  have hcauses : ∀ entry ∈ g.gathered, entry.2 < (descriptions g.server.outbound).length := by
    rw [hdescribed]
    exact h.causes
  unfold Server.finishOffer Server.flushPendingLocalCandidates
  rw [Server.flushCandidates_writes htakes]
  dsimp only
  generalize hoffer : (if g.server.pendingOffer = true then some g.server.pendingICERestart
    else none) = offer
  obtain ⟨hout, -, hholds, hanswering, hflushing⟩ := Server.thenOffer_frame
    { g.server with
      outbound := g.server.outbound ++ g.server.pendingLocalCandidates.map .candidate
      pendingLocalCandidates := [], negotiationReady := true
      pendingOffer := false, pendingICERestart := false } offer
  have hwritten : descriptions (g.server.outbound ++
      g.server.pendingLocalCandidates.map .candidate) = g.set := by
    rw [descriptions_append, descriptions_map_candidate, List.append_nil, hdescribed]
  constructor
  · constructor
    · rw [hout]
      exact hwritten ▸ List.prefix_refl _
    · rw [hout, hholds.pending]
      show candidates (g.server.outbound ++ g.server.pendingLocalCandidates.map .candidate) ++ [] = _
      rw [List.append_nil, candidates_append, candidates_map_candidate, h.delivered.order]
    · rw [hout]
      exact h.delivered.inTurn.flush h.delivered.order hcauses
    · exact fun _ => hholds.pending
  · rw [hout, Server.unwritten_of_quiet hanswering, List.append_nil]
    exact hwritten
  · exact h.causes
  · intro htrue
    rw [hanswering] at htrue
    cases htrue
  · exact fun hto => absurd hto hflushing

/-- The end of a handler, which writes an error at most. -/
theorem Sound.thenOffer (h : g.Sound) (hquiet : g.server.answering = false) {t : Server}
    (log : List Outbound) (hone : log = [] ∨ ∃ m, log = [m] ∧ m.candidate? = none)
    (hnone : descriptions log = []) (hlog : t.outbound = g.server.outbound ++ log)
    (hcreated : t.created = g.server.created) (hholds : g.server.Holds t) (offer : Option Bool) :
    Sound { g with
      server := t.thenOffer offer
      set := g.set ++ (List.range' g.server.created.length
        ((t.thenOffer offer).created.length - g.server.created.length)).map .offer } := by
  obtain ⟨hout, hsame, hthen, hanswering, hflushing⟩ := Server.thenOffer_frame t offer
  apply h.advance log
  · rw [hout, hlog]
  · exact hone
  · exact ⟨hthen.pending.trans hholds.pending, fun hready => hholds.ready (hthen.ready hready)⟩
  · rw [Server.unwritten_of_quiet hquiet, Server.unwritten_of_quiet hanswering,
      Server.range'_self (by rw [hsame, hcreated]), hnone]
  · simp [hanswering]
  · exact fun hto => absurd hto hflushing

/-- The handler's next section or write. -/
theorem Sound.run (h : g.Sound) {calls : Calls} (htakes : ∀ i, calls.takes i = true) {t : Server}
    (ht : g.server.run calls g.server.handler = some t) :
    Sound { g with server := t, set := g.set ++ (List.range' g.server.created.length
      (t.created.length - g.server.created.length)).map .offer } := by
  have hquietOf {handler : Handler} (heq : g.server.handler = handler)
      (hne : ∀ sdp, handler ≠ .answering sdp) : g.server.answering = false := by
    unfold Server.answering
    rw [heq]
    split
    · exact absurd rfl (hne _)
    · rfl
  cases hhandler : g.server.handler with
  | idle => simp [hhandler, Server.run] at ht
  | answering sdp =>
    have hbusy : g.server.answering = true := by
      unfold Server.answering
      rw [hhandler]
    simp only [hhandler, Server.run, htakes, if_true, Option.some.injEq] at ht
    subst ht
    apply h.advance [.answer sdp]
    · rfl
    · exact .inr ⟨_, rfl, rfl⟩
    · exact ⟨rfl, fun hready => hready⟩
    · have hunwritten : g.server.unwritten = [.answer sdp] := by
        unfold Server.unwritten
        rw [hhandler]
      show [Outbound.answer sdp] ++ [] = g.server.unwritten ++ (List.range' g.server.created.length
        (g.server.created.length - g.server.created.length)).map .offer
      rw [hunwritten, Server.range'_self rfl]
    · simp [Server.answering]
    · exact fun _ => h.answering hbusy
  | flushing =>
    simp only [hhandler, Server.run, Option.some.injEq] at ht
    subst ht
    have hcreated : (g.server.finishOffer calls).created = g.server.created := by
      unfold Server.finishOffer Server.flushPendingLocalCandidates
      rw [Server.flushCandidates_writes htakes]
      exact (Server.thenOffer_frame _ _).2.1
    rw [Server.range'_self (by rw [hcreated]), List.append_nil]
    exact h.flush htakes hhandler
  | offering iceRestart reply =>
    have hquiet := hquietOf hhandler (by simp)
    simp only [hhandler, Server.run, Option.some.injEq] at ht
    subst ht
    split
    · exact h.sendOffer htakes iceRestart rfl (.inr ⟨hquiet, rfl, by simp⟩)
    · exact h.sendOffer htakes iceRestart rfl (.inr ⟨hquiet, rfl, by simp⟩)
  | replying error offer =>
    have hquiet := hquietOf hhandler (by simp)
    simp only [hhandler, Server.run, htakes, if_true, Option.some.injEq] at ht
    subst ht
    apply h.thenOffer hquiet [.error error]
    · exact .inr ⟨_, rfl, rfl⟩
    · rfl
    · rfl
    · rfl
    · exact ⟨rfl, fun hready => hready⟩
  | refreshing completed offer =>
    have hquiet := hquietOf hhandler (by simp)
    simp only [hhandler, Server.run, Option.some.injEq] at ht
    subst ht
    apply h.thenOffer hquiet []
    · exact .inl rfl
    · rfl
    · exact (List.append_nil _).symm
    · rfl
    · exact ⟨rfl, fun hready => hready⟩

/-- A candidate is written at once, or waits. -/
theorem Sound.gather (h : g.Sound) {calls : Calls} (htakes : ∀ i, calls.takes i = true)
    {candidate : Candidate} {description : Nat} (hset : description < g.set.length) :
    Sound { g with
      server := g.server.sendOrQueueLocalCandidate calls candidate
      gathered := g.gathered ++ [(candidate, description)] } := by
  have hcauses : ∀ entry ∈ g.gathered ++ [(candidate, description)],
      entry.2 < g.set.length := by
    intro entry hentry
    rw [List.mem_append, List.mem_singleton] at hentry
    rcases hentry with hentry | rfl
    · exact h.causes entry hentry
    · exact hset
  unfold Server.sendOrQueueLocalCandidate
  by_cases hready : g.server.negotiationReady = true
  case neg =>
    rw [if_pos (by simp [hready])]
    refine ⟨⟨h.delivered.described, ?_, h.delivered.inTurn.append,
      fun hopen => absurd hopen hready⟩, h.described, hcauses, h.answering, h.flushing⟩
    show candidates g.server.outbound ++ (g.server.pendingLocalCandidates ++ [candidate]) =
      (g.gathered ++ [(candidate, description)]).map Prod.fst
    rw [← List.append_assoc, h.delivered.order, List.map_append]
    rfl
  case pos =>
    -- Nothing is waiting, and every description is written.
    have hclear := h.delivered.clear hready
    have hquiet : g.server.answering = false := by
      by_contra hanswering
      have hclosed := h.answering (by simpa using hanswering)
      rw [hready] at hclosed
      cases hclosed
    have hdescribed : descriptions g.server.outbound = g.set := by
      rw [← h.described, Server.unwritten_of_quiet hquiet, List.append_nil]
    have horder := h.delivered.order
    rw [hclear, List.append_nil] at horder
    rw [if_neg (by simp [hready]), if_pos (htakes 0)]
    have hwritten : descriptions (g.server.outbound ++ [.candidate candidate]) = g.set := by
      rw [descriptions_append, descriptions_candidate, List.append_nil, hdescribed]
    refine ⟨⟨hwritten ▸ List.prefix_refl _, ?_, ?_, fun _ => hclear⟩, ?_, hcauses, h.answering,
      h.flushing⟩
    · show candidates (g.server.outbound ++ [.candidate candidate]) ++ g.server.pendingLocalCandidates =
        (g.gathered ++ [(candidate, description)]).map Prod.fst
      rw [hclear, List.append_nil, candidates_append, horder, List.map_append]
      rfl
    · apply h.delivered.inTurn.append.concat
      intro candidate' heq
      obtain rfl : candidate = candidate' := by simpa using heq
      refine ⟨description, ?_, hdescribed ▸ hset⟩
      have hlength := congrArg List.length horder
      rw [List.length_map] at hlength
      rw [hlength, List.getElem?_append_right (Nat.le_refl _), Nat.sub_self]
      rfl
    · show descriptions (g.server.outbound ++ [.candidate candidate]) ++ g.server.unwritten = g.set
      rw [hwritten, Server.unwritten_of_quiet hquiet, List.append_nil]

/-- **One step** keeps it. -/
theorem Sound.step (h : g.Sound) (hok : g.WritesSucceed l) (hstep : g.step l = some g') :
    g'.Sound := by
  obtain ⟨l, description⟩ := l
  cases l with
  | localCandidate candidate calls =>
    simp only [Gathering.step, Option.ite_none_right_eq_some] at hstep
    obtain ⟨hset, hstep⟩ := hstep
    obtain ⟨t, ht, rfl⟩ := Option.map_eq_some_iff.mp hstep
    obtain rfl := Option.some_inj.mp ht
    exact h.gather hok hset
  | receive msg calls =>
    obtain ⟨t, ht, rfl⟩ := Option.map_eq_some_iff.mp hstep
    simp only [Server.step, Option.ite_none_right_eq_some, Option.some.injEq] at ht
    obtain ⟨hidle, rfl⟩ := ht
    exact h.receive hidle
  | run calls =>
    obtain ⟨t, ht, rfl⟩ := Option.map_eq_some_iff.mp hstep
    exact h.run hok ht
  | sendOffer iceRestart calls =>
    obtain rfl := Option.some_inj.mp hstep
    exact h.sendOffer hok iceRestart rfl (.inl (Server.sendOffer_writes hok g.server iceRestart).2.1)

end Gathering

/-- The server's half of one negotiation, with what it gathers. -/
def gatheringLts : Lts Gathering (Server.Label × Nat) := .ofStep .new Gathering.step

namespace Gathering

variable {g g' : Gathering}

theorem sound_of_reachable (h : gatheringLts.Reachable WritesSucceed g) : g.Sound :=
  Lts.Reachable.invariant_ofStep sound_new (fun _ _ _ hi hok hstep => hi.step hok hstep) h

/-- **Descriptions precede their candidates.** Whatever the callbacks, the
handlers and `sendOffer` interleave to, the descriptions are written in the
order they were set, and each candidate once at most, in the order they were
gathered and after its description; and once an offer of the browser is
answered, every one that was gathered so far is written. -/
theorem delivered_of_writesSucceed (h : gatheringLts.Reachable WritesSucceed g) :
    g.Delivered ∧
      ∀ calls description, (∀ i, calls.takes i = true) →
        g.step (.run calls, description) = some g' →
        (∀ sdp, g.server.handler = .answering sdp → g'.server.handler = .flushing) ∧
        (g.server.handler = .flushing →
          candidates g'.server.outbound = g'.gathered.map Prod.fst) := by
  refine ⟨(sound_of_reachable h).delivered, ?_⟩
  intro calls description htakes hstep
  have hg' : g'.Sound := sound_of_reachable (h.step (l := (.run calls, description)) htakes hstep)
  obtain ⟨t, ht, rfl⟩ := Option.map_eq_some_iff.mp hstep
  constructor
  · intro sdp hhandler
    simp only [Server.step, hhandler, Server.run, htakes, if_true, Option.some.injEq] at ht
    rw [← ht]
  · intro hhandler
    have hready : t.negotiationReady = true := by
      simp only [Server.step, hhandler, Server.run, Option.some.injEq] at ht
      rw [← ht]
      exact Server.finishOffer_ready g.server calls
    have horder := hg'.delivered.order
    rwa [hg'.delivered.clear hready, List.append_nil] at horder

/-- A candidate that is gathered while the answer is on its way. -/
def sampleCandidate : Candidate := ⟨"candidate:relay", some "0", some 0⟩

theorem delivered_of_writesSucceed_sample :
    ∃ g, gatheringLts.Reachable WritesSucceed g ∧ g.Delivered ∧
      g.set = [.answer 0, .offer 0] ∧ g.server.outbound = [.answer 0, .candidate sampleCandidate, .offer 0,
        .candidate sampleCandidate] := by
  obtain ⟨g, hr, ho⟩ := Lts.exists_reachable_of_exec WritesSucceed step new
    [(.receive (.offer 0) {}, 0), (.localCandidate sampleCandidate {}, 0), (.run {}, 0),
      (.run {}, 0), (.sendOffer false {}, 0), (.localCandidate sampleCandidate {}, 1)]
    (fun g => (g.set, g.server.outbound))
    ([.answer 0, .offer 0],
      [.answer 0, .candidate sampleCandidate, .offer 0, .candidate sampleCandidate])
    (by simp [WritesSucceed, Server.Label.calls]) (by decide)
  obtain ⟨hset, hout⟩ := Prod.mk.inj ho
  exact ⟨g, hr, (@delivered_of_writesSucceed g g hr).1, hset, hout⟩

end Gathering

end SlowMeet.Negotiation
