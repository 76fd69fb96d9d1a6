import Mathlib.Data.List.Induction
import SlowMeet.Diagnostics.Report

/-!
# The candidate path

The part of `runDiagnosticsUpdate` that names the path of the connection:
the pass over the report that files the candidates, the join with the
selected pair, and the classification.

The join reads the candidates' identifiers off `selectedCandidatePair`, which
in its scope is the function and not the pair it answered. `pairPath` is the
join with the pair.
-/

namespace SlowMeet.Diagnostics.Path

open Lib

/-- An entry of a statistics report, with the fields of pairs and candidates
that the path depends on. -/
structure PathStat extends Stat where
  localCandidateId : Option String := none
  remoteCandidateId : Option String := none
  candidateType : Option String := none
  protocol : Option String := none
  relayProtocol : Option String := none
  deriving DecidableEq

/-- The fields of `values` that describe the path. -/
structure CandidatePath where
  icePath : Option String := none
  iceTransport : Option String := none
  iceCandidateType : Option String := none
  deriving DecidableEq, Repr

/-- `text ||`: an absent and an empty text are falsy. -/
def truthy (text : Option String) : Option String := text.filter fun text => text ≠ ""

/-- `pairs.get`: of the succeeded pairs with this identifier the last. -/
def succeededPair (report : List PathStat) (id : String) : Option PathStat :=
  (report.filter fun stat => stat.succeeded && stat.id = some id).getLast?

/-- The pair a transport entry selects. -/
def PathStat.transportPair (report : List PathStat) (stat : PathStat) : Option PathStat :=
  if stat.type ≠ some "transport" then none
  else (truthy stat.selectedCandidatePairId).bind (succeededPair report)

/-- `selectedCandidatePair`, on the entries with their candidate fields. -/
def selectedCandidatePair (report : List PathStat) : Option PathStat :=
  match report.findSome? (·.transportPair report) with
  | some selected => some selected
  | none =>
    report.find? fun stat =>
      stat.succeeded && (stat.selected = some true || stat.nominated = some true)

def PathStat.isCandidate (stat : PathStat) : Bool :=
  stat.type = some "local-candidate" || stat.type = some "remote-candidate"

/-- `candidatesById.set`, for an entry that is a candidate with an
identifier. -/
def fileCandidate (candidatesById : GoMap String PathStat) (stat : PathStat) :
    GoMap String PathStat :=
  match truthy stat.id with
  | some id => if stat.isCandidate then candidatesById.insert id stat else candidatesById
  | none => candidatesById

def candidatesById (report : List PathStat) : GoMap String PathStat :=
  report.foldl fileCandidate ∅

/-- `candidatesById.get`; nothing is filed under `undefined`. -/
def candidate (report : List PathStat) (id : Option String) : Option PathStat :=
  id.bind (candidatesById report).lookup

/-! ## The classification -/

section
variable (toUpperCase : String → String) (localCandidate remoteCandidate : Option PathStat)

/-- `localCandidate?.field || remoteCandidate?.field`. -/
def either (field : PathStat → Option String) : Option String :=
  (truthy (localCandidate.bind field)).or (truthy (remoteCandidate.bind field))

def relayed : Bool :=
  localCandidate.bind (·.candidateType) = some "relay" ||
    remoteCandidate.bind (·.candidateType) = some "relay"

/-- The branch of `runDiagnosticsUpdate` that classifies the candidates. -/
def pathOf : CandidatePath where
  iceCandidateType :=
    (either localCandidate remoteCandidate (·.candidateType)).map fun _ =>
      (truthy (localCandidate.bind (·.candidateType))).getD "unknown" ++ "/" ++
        (truthy (remoteCandidate.bind (·.candidateType))).getD "unknown"
  iceTransport := either localCandidate remoteCandidate (·.protocol)
  icePath :=
    if relayed localCandidate remoteCandidate then
      match (either localCandidate remoteCandidate (·.relayProtocol)).or
          (either localCandidate remoteCandidate (·.protocol)) with
      | some relayProtocol => some ("TURN/" ++ toUpperCase relayProtocol)
      | none => some "TURN"
    else
      (either localCandidate remoteCandidate (·.protocol)).map fun protocol =>
        "Direct/" ++ toUpperCase protocol

end

/-- The path `runDiagnosticsUpdate` computes. The function
`selectedCandidatePair` has neither a `localCandidateId` nor a
`remoteCandidateId`. -/
def candidatePath (toUpperCase : String → String) (report : List PathStat) : CandidatePath :=
  pathOf toUpperCase (candidate report none) (candidate report none)

/-- The candidates of the pair that `selectedCandidatePair` answers. -/
def localCandidate (report : List PathStat) : Option PathStat :=
  (selectedCandidatePair report).bind fun pair => candidate report pair.localCandidateId

def remoteCandidate (report : List PathStat) : Option PathStat :=
  (selectedCandidatePair report).bind fun pair => candidate report pair.remoteCandidateId

/-- The path of these candidates. -/
def pairPath (toUpperCase : String → String) (report : List PathStat) : CandidatePath :=
  pathOf toUpperCase (localCandidate report) (remoteCandidate report)

/-! ## What the path should say -/

variable {toUpperCase : String → String} {report report' : List PathStat}
  {near far : Option PathStat}

/-- The candidates carry neither a type nor a protocol. -/
def Bare (near far : Option PathStat) : Prop :=
  either near far (·.candidateType) = none ∧ either near far (·.protocol) = none

def CandidatePath.IsTURN (path : CandidatePath) : Prop :=
  path.icePath = some "TURN" ∨ ∃ protocol, path.icePath = some ("TURN/" ++ protocol)

/-- A path is that of the selected pair's candidates. -/
structure Describes (toUpperCase : String → String) (report : List PathStat)
    (path : CandidatePath) : Prop where
  fields : path = pairPath toUpperCase report
  turn : path.IsTURN ↔ relayed (localCandidate report) (remoteCandidate report) = true
  direct : relayed (localCandidate report) (remoteCandidate report) = false →
    ∀ protocol, either (localCandidate report) (remoteCandidate report) (·.protocol) =
      some protocol → path.icePath = some ("Direct/" ++ toUpperCase protocol)
  null : path = {} → Bare (localCandidate report) (remoteCandidate report)

/-- The two kinds of path differ in their first letter. -/
theorem direct_ne_turn (text text' : String) : "Direct/" ++ text ≠ "TURN" ++ text' := by
  intro h
  have hletters := congrArg (fun s : String => s.toList.head?) h
  simp at hletters

theorem pathOf_turn : (pathOf toUpperCase near far).IsTURN ↔ relayed near far = true := by
  unfold CandidatePath.IsTURN pathOf
  cases hrelayed : relayed near far with
  | true =>
    simp only [if_true, iff_true]
    cases (either near far (·.relayProtocol)).or (either near far (·.protocol)) with
    | none => exact Or.inl rfl
    | some relayProtocol => exact Or.inr ⟨toUpperCase relayProtocol, rfl⟩
  | false =>
    simp only [Bool.false_eq_true, if_false, iff_false, Option.map_eq_some_iff, not_or,
      not_exists, not_and]
    constructor
    · intro protocol _ h
      exact direct_ne_turn (toUpperCase protocol) "" (h.trans (String.append_empty).symm)
    · intro relayProtocol protocol _ h
      have hslash : "TURN/" ++ relayProtocol = "TURN" ++ ("/" ++ relayProtocol) := by
        rw [← String.append_assoc]
        rfl
      exact direct_ne_turn (toUpperCase protocol) ("/" ++ relayProtocol) (h.trans hslash)

theorem pathOf_direct (h : relayed near far = false) {protocol : String}
    (hprotocol : either near far (·.protocol) = some protocol) :
    (pathOf toUpperCase near far).icePath = some ("Direct/" ++ toUpperCase protocol) := by
  simp [pathOf, h, hprotocol]

theorem truthy_relay {type : Option String} (h : type = some "relay") :
    truthy type = some "relay" := by
  rw [h]
  rfl

/-- A relay is a type. -/
theorem not_bare_of_relayed (h : relayed near far = true) : ¬Bare near far := by
  intro hbare
  obtain ⟨htype, -⟩ := hbare
  rw [either, Option.or_eq_none_iff] at htype
  rw [relayed, Bool.or_eq_true, decide_eq_true_eq, decide_eq_true_eq] at h
  cases h with
  | inl hnear =>
    rw [truthy_relay hnear] at htype
    cases htype.1
  | inr hfar =>
    rw [truthy_relay hfar] at htype
    cases htype.2

/-- Nothing is known of the path exactly when the candidates carry nothing. -/
theorem pathOf_eq_none_iff : pathOf toUpperCase near far = {} ↔ Bare near far := by
  constructor
  · intro h
    have htype := congrArg CandidatePath.iceCandidateType h
    have hprotocol := congrArg CandidatePath.iceTransport h
    exact ⟨Option.map_eq_none_iff.mp htype, hprotocol⟩
  · intro h
    have hrelayed : relayed near far = false := by
      rw [← Bool.not_eq_true]
      intro hrelayed
      exact not_bare_of_relayed hrelayed h
    obtain ⟨htype, hprotocol⟩ := h
    simp [pathOf, htype, hprotocol, hrelayed]

theorem pairPath_describes : Describes toUpperCase report (pairPath toUpperCase report) where
  fields := rfl
  turn := pathOf_turn
  direct h _ hprotocol := pathOf_direct h hprotocol
  null := pathOf_eq_none_iff.mp

/-! ## The order of the report -/

/-- Of a list whose members meeting `p` are all the same, the last that meets
it is the only one. -/
theorem getLast?_filter_eq_some_iff {α : Type*} {l : List α} {p : α → Bool} {a : α}
    (h : ∀ b ∈ l, ∀ c ∈ l, p b = true → p c = true → b = c) :
    (l.filter p).getLast? = some a ↔ a ∈ l ∧ p a = true := by
  rw [← List.mem_filter]
  constructor
  · exact List.mem_of_getLast?
  · intro ha
    obtain ⟨b, hb⟩ := Option.isSome_iff_exists.mp
      (List.getLast?_isSome.mpr (List.ne_nil_of_mem ha))
    have hmem := List.mem_filter.mp (List.mem_of_getLast? hb)
    have hmem' := List.mem_filter.mp ha
    rw [hb, h b hmem.1 a hmem'.1 hmem.2 hmem'.2]

theorem getLast?_filter_perm {α : Type*} {l l' : List α} {p : α → Bool} (hperm : l'.Perm l)
    (h : ∀ b ∈ l, ∀ c ∈ l, p b = true → p c = true → b = c) :
    (l'.filter p).getLast? = (l.filter p).getLast? := by
  apply Option.ext
  intro a
  rw [getLast?_filter_eq_some_iff h, getLast?_filter_eq_some_iff, hperm.mem_iff]
  intro b hb c hc
  exact h b (hperm.mem_iff.mp hb) c (hperm.mem_iff.mp hc)

/-- The first answer of a search whose answers are all the same. -/
theorem findSome?_eq_some_of_forall {α β : Type*} {l : List α} {f : α → Option β} {a : α} {b : β}
    (ha : a ∈ l) (hb : f a = some b) (h : ∀ c ∈ l, ∀ d, f c = some d → d = b) :
    l.findSome? f = some b := by
  induction l with
  | nil => cases ha
  | cons c rest ih =>
    rw [List.findSome?_cons]
    cases hc : f c with
    | some d => rw [h c List.mem_cons_self d hc]
    | none =>
      have hrest : a ∈ rest := by
        obtain rfl | hrest := List.mem_cons.mp ha
        · rw [hb] at hc
          cases hc
        · exact hrest
      exact ih hrest fun e he => h e (List.mem_cons_of_mem c he)

/-- The entries have identifiers of their own. -/
def UniqueIDs (report : List PathStat) : Prop :=
  (report.map fun stat => stat.id).Nodup

instance : Decidable (UniqueIDs report) := inferInstanceAs (Decidable (List.Nodup _))

/-- One transport selects a pair that succeeded. -/
def OneTransport (report : List PathStat) : Prop :=
  ∃ stat ∈ report, (stat.transportPair report).isSome = true ∧
    ∀ other ∈ report, (other.transportPair report).isSome = true → other = stat

theorem UniqueIDs.eq (h : UniqueIDs report) {a b : PathStat} (ha : a ∈ report) (hb : b ∈ report)
    (heq : a.id = b.id) : a = b :=
  List.inj_on_of_nodup_map h ha hb heq

/-- What is filed under an identifier is the last candidate that has it. -/
theorem lookup_candidatesById (report : List PathStat) (id : String) :
    (candidatesById report).lookup id =
      (report.filter fun stat => stat.isCandidate && truthy stat.id = some id).getLast? := by
  -- the last entry is filed last
  induction report using List.reverseRecOn with
  | nil => rfl
  | append_singleton report stat ih =>
    rw [candidatesById, List.foldl_append, List.filter_append, List.getLast?_append, ← ih]
    show (fileCandidate (candidatesById report) stat).lookup id = _
    unfold fileCandidate
    cases hid : truthy stat.id with
    | none => simp [hid]
    | some own =>
      by_cases hcandidate : stat.isCandidate = true
      · by_cases hown : own = id
        · subst hown
          simp [hid, hcandidate]
        · have hne : id ≠ own := fun h => hown h.symm
          simp [hid, hcandidate, hown, hne]
      · simp [hid, hcandidate]

theorem truthy_eq_some_iff {text : Option String} {value : String} :
    truthy text = some value ↔ text = some value ∧ value ≠ "" := by
  simp [truthy, Option.filter_eq_some_iff]

section
variable (hids : UniqueIDs report) (hperm : report'.Perm report)

include hids hperm

theorem succeededPair_perm (id : String) : succeededPair report' id = succeededPair report id := by
  apply getLast?_filter_perm hperm
  intro b hb c hc hb' hc'
  rw [Bool.and_eq_true, decide_eq_true_eq] at hb' hc'
  exact hids.eq hb hc (hb'.2.trans hc'.2.symm)

theorem candidate_perm (id : Option String) : candidate report' id = candidate report id := by
  unfold candidate
  congr 1
  funext id
  rw [lookup_candidatesById, lookup_candidatesById]
  apply getLast?_filter_perm hperm
  intro b hb c hc hb' hc'
  rw [Bool.and_eq_true, decide_eq_true_eq, truthy_eq_some_iff] at hb' hc'
  exact hids.eq hb hc (hb'.2.1.trans hc'.2.1.symm)

theorem transportPair_perm (stat : PathStat) :
    stat.transportPair report' = stat.transportPair report := by
  have hpairs : succeededPair report' = succeededPair report :=
    funext (succeededPair_perm hids hperm)
  unfold PathStat.transportPair
  rw [hpairs]

/-- One transport decides, wherever it stands in the report. -/
theorem selectedCandidatePair_perm (hone : OneTransport report) :
    selectedCandidatePair report' = selectedCandidatePair report := by
  obtain ⟨stat, hstat, hsome, honly⟩ := hone
  obtain ⟨pair, hpair⟩ := Option.isSome_iff_exists.mp hsome
  have hanswer : ∀ other ∈ report, ∀ answer, other.transportPair report = some answer →
      answer = pair := by
    intro other hother answer hanswer
    obtain rfl := honly other hother (Option.isSome_iff_exists.mpr ⟨answer, hanswer⟩)
    exact Option.some.inj (hanswer.symm.trans hpair)
  have hfirst : report.findSome? (·.transportPair report) = some pair :=
    findSome?_eq_some_of_forall hstat hpair hanswer
  have hfirst' : report'.findSome? (·.transportPair report') = some pair := by
    apply findSome?_eq_some_of_forall (hperm.mem_iff.mpr hstat)
    · rw [transportPair_perm hids hperm]
      exact hpair
    · intro other hother answer
      rw [transportPair_perm hids hperm]
      exact hanswer other (hperm.mem_iff.mp hother) answer
  rw [selectedCandidatePair, selectedCandidatePair, hfirst, hfirst']

/-- **The order of the report does not matter** to the path of the selected
pair, when one transport selects it. -/
theorem pairPath_perm (hone : OneTransport report) :
    pairPath toUpperCase report' = pairPath toUpperCase report := by
  have hcandidate : candidate report' = candidate report :=
    funext (candidate_perm hids hperm)
  rw [pairPath, pairPath, localCandidate, localCandidate, remoteCandidate, remoteCandidate,
    selectedCandidatePair_perm hids hperm hone, hcandidate]

end

/-! ## The selected pair and its round-trip time -/

theorem map_succeededPair (report : List PathStat) (id : String) :
    (succeededPair report id).map PathStat.toStat =
      pairWithId (report.map PathStat.toStat) id := by
  rw [succeededPair, pairWithId, List.filter_map, List.getLast?_map]
  rfl

theorem findSome?_map_of_forall {α β γ δ : Type*} {l : List α} {f : α → γ} {g : γ → Option δ}
    {h : α → Option β} {k : β → δ} (heq : ∀ a, g (f a) = (h a).map k) :
    (l.map f).findSome? g = (l.findSome? h).map k := by
  induction l with
  | nil => rfl
  | cons a rest ih =>
    rw [List.map_cons, List.findSome?_cons, List.findSome?_cons, heq]
    cases h a with
    | none => exact ih
    | some b => rfl

/-- The pair whose candidates name the path is the one whose round-trip time
is reported. -/
theorem map_selectedCandidatePair (report : List PathStat) :
    (selectedCandidatePair report).map PathStat.toStat =
      Diagnostics.selectedCandidatePair (report.map PathStat.toStat) := by
  unfold Diagnostics.selectedCandidatePair selectedCandidatePair
  dsimp only
  rw [findSome?_map_of_forall (h := fun stat => stat.transportPair report)
    (k := PathStat.toStat)]
  · cases report.findSome? fun stat => stat.transportPair report with
    | some pair => rfl
    | none =>
      dsimp only [Option.map_none]
      rw [List.find?_map]
      rfl
  · intro stat
    unfold PathStat.transportPair
    split_ifs with htype
    · rfl
    · split
      · rename_i hid
        rw [hid]
        rfl
      · rename_i hid
        rw [hid]
        rfl
      · rename_i id hempty hid
        rw [truthy_eq_some_iff.mpr ⟨hid, hempty⟩]
        exact (map_succeededPair report id).symm

/-! ## What the path says -/

/-- The path is always unknown. -/
theorem candidatePath_eq_none (report : List PathStat) :
    candidatePath toUpperCase report = {} := rfl

/-- **Where the diagnostics describe the selected pair**: exactly when there
is nothing to describe, that is, when its candidates carry neither a type nor
a protocol. -/
theorem candidatePath_describes_iff (toUpperCase : String → String) (report : List PathStat) :
    (Describes toUpperCase report (candidatePath toUpperCase report) ∧
        (UniqueIDs report → OneTransport report → ∀ report', report'.Perm report →
          candidatePath toUpperCase report' = candidatePath toUpperCase report)) ↔
      Bare (localCandidate report) (remoteCandidate report) := by
  constructor
  · intro h
    exact h.1.null (candidatePath_eq_none report)
  · intro h
    have hpath : candidatePath toUpperCase report = pairPath toUpperCase report :=
      (candidatePath_eq_none report).trans (pathOf_eq_none_iff.mpr h).symm
    constructor
    · rw [hpath]
      exact pairPath_describes
    · intro _ _ report' _
      rfl

/-- One transport, its pair and the pair's relayed candidate. -/
def relayReport : List PathStat :=
  [{ id := some "T01", type := some "transport", selectedCandidatePairId := some "CP1" },
    { id := some "CP1", type := some "candidate-pair", state := some "succeeded",
      nominated := some true, localCandidateId := some "L1", remoteCandidateId := some "R1" },
    { id := some "L1", type := some "local-candidate", candidateType := some "relay",
      protocol := some "udp", relayProtocol := some "tcp" },
    { id := some "R1", type := some "remote-candidate", candidateType := some "host",
      protocol := some "udp" }]

/-- A relayed connection whose path is unknown. -/
theorem not_describes_relayReport :
    UniqueIDs relayReport ∧ pairPath String.toUpper relayReport =
        ⟨some "TURN/TCP", some "udp", some "relay/host"⟩ ∧
      ¬Describes String.toUpper relayReport (candidatePath String.toUpper relayReport) := by
  refine ⟨by decide, by decide +kernel, ?_⟩
  intro h
  have hbare := h.null (candidatePath_eq_none relayReport)
  exact absurd hbare.1 (by decide +kernel)

end SlowMeet.Diagnostics.Path
