import SlowMeet.Negotiation.Server
import SlowMeet.Signaling.Admission

/-!
# The room is private

A hub with the negotiation of each of its clients, which write to one queue
and are kept in two here. Before its admission a client gets answers to its
own input and nothing else, and the password check comes before the
admission.
-/

namespace SlowMeet.Signaling

open Lib Negotiation

/-- A hub and its clients' negotiations. The last four fields are history:
what each client sent, who passed the password check, who was made a room
member, and whose deadline fired before. -/
structure Service where
  hub : Hub
  negotiation : ClientId → Server
  inputs : ClientId → Nat
  passed : Finset ClientId
  admitted : Finset ClientId
  expired : Finset ClientId

namespace Service

def new (cfg : Config) : Service where
  hub := Hub.new cfg
  negotiation _ := Server.new
  inputs _ := 0
  passed := ∅
  admitted := ∅
  expired := ∅

inductive Label
  | hub (l : Hub.Label)
  | negotiate (c : ClientId) (l : Server.Label)

/-- One read loop reads for both: the hub takes what is not for the
negotiation, of which only a client with a participant has one. The callbacks
of the negotiation are those of its peer. -/
def enabled (s : Service) : Label → Bool
  | .hub (.receive c _ input) =>
    (s.negotiation c).handler = .idle &&
      (input ≠ some .webrtc || (s.hub.client c).participant.isNone)
  | .hub _ => true
  | .negotiate c (.receive _ _) =>
    (s.hub.client c).phase = .reading && (s.hub.client c).participant.isSome
  | .negotiate _ (.run _) => true
  | .negotiate c (.sendOffer _ _) | .negotiate c (.localCandidate _ _) => (s.hub.client c).hasPeer

/-- What the hub's step adds to the history. -/
def record (s : Service) (hub : Hub) (l : Hub.Label) : Service :=
  { s with
    hub := hub
    inputs := fun d => s.inputs d + l.asks d
    passed := match l with
      | .receive c allowed input => if s.hub.passes c allowed input then insert c s.passed else s.passed
      | _ => s.passed
    admitted := s.admitted ∪ hub.roomMembers
    expired := match l with
      | .expireAdmission c => if c ∈ s.admitted then s.expired else insert c s.expired
      | _ => s.expired }

def step (s : Service) (l : Label) : Option Service :=
  if s.enabled l then
    match l with
    | .hub l => (s.hub.step l).map fun hub => s.record hub l
    | .negotiate c l => ((s.negotiation c).step l).map fun server =>
        { s with negotiation := Function.update s.negotiation c server }
  else none

/-- The read loop of `c` takes the step. -/
def Label.reader : Label → Option ClientId
  | .hub l => l.handler
  | .negotiate _ _ => none

/-- Every interleaving of a hub and its negotiations. -/
def lts (cfg : Config) : Lts Service Label := .ofStep (new cfg) step

variable {s t : Service} {c d : ClientId}

/-- An answer to the client's input that it refuses. -/
def IsError (msg : Message) : Prop := ∃ text, msg = .error text

/-- What a client that was not admitted has been sent. -/
structure Unanswered (s : Service) (d : ClientId) : Prop where
  negotiation : (s.negotiation d).outbound = []
  errors : ∀ msg ∈ (s.hub.client d).outbound, IsError msg
  answers : (s.hub.client d).outbound.length ≤ s.inputs d

/-- The room is private. -/
structure Private (s : Service) : Prop where
  unanswered : ∀ d ∉ s.admitted, s.Unanswered d
  events : ∀ d, ∀ msg ∈ (s.hub.client d).outbound, ¬ IsError msg → d ∈ s.admitted ∧ d ∈ s.passed
  members : s.hub.roomMembers ⊆ s.admitted
  expired : ∀ d ∈ s.expired, d ∉ s.admitted

/-! ## The invariant -/

/-- Who is known to the room, at a reachable service. -/
structure Guarded (s : Service) : Prop where
  members : s.hub.roomMembers ⊆ s.admitted
  seated : ∀ c, s.hub.Seated c → c ∈ s.admitted
  told : ∀ c, (s.hub.client c).phase.recipients ⊆ s.admitted
  credited : ∀ c, s.hub.Credited c → c ∈ s.passed
  admitted : s.admitted ⊆ s.passed
  expired : ∀ c ∈ s.expired, c ∉ s.admitted ∧ (s.hub.client c).admissionExpired = true
  silent : ∀ c ∉ s.admitted, (s.negotiation c).negotiationReady = false ∧
    (s.negotiation c).handler = .idle ∧ (s.negotiation c).outbound = []
  errors : ∀ c ∉ s.admitted, ∀ msg ∈ (s.hub.client c).outbound, IsError msg
  answers : ∀ c ∉ s.admitted, (s.hub.client c).outbound.length + s.hub.owed c ≤ s.inputs c

theorem Guarded.outside (hs : s.Guarded) (hd : d ∉ s.admitted) : s.hub.Outside d where
  member hmember := hd (hs.members hmember)
  seated hseated := hd (hs.seated d hseated)
  told c htold := hd (hs.told c htold)

theorem guarded_new (cfg : Config) : (new cfg).Guarded where
  members := Finset.Subset.refl _
  seated c hc := by
    rcases hc with hc | ⟨hc, -⟩ <;> cases hc
  told c := Finset.Subset.refl _
  credited c hc := by
    rcases hc with hc | hc
    · exact absurd rfl hc
    · cases hc
  admitted := Finset.Subset.refl _
  expired c hc := absurd hc (Finset.notMem_empty c)
  silent c _ := ⟨rfl, rfl, rfl⟩
  errors c _ msg hmsg := absurd hmsg List.not_mem_nil
  answers c _ := Nat.le_refl 0

/-! ## One step -/

/-- What a step of the service is. -/
inductive Steps (s : Service) : Label → Service → Prop
  | hub (l : Hub.Label) (h' : Hub) (hstep : s.hub.step l = some h') :
      Steps s (.hub l) (s.record h' l)
  | negotiate (c : ClientId) (l : Server.Label) (server : Server)
      (hserver : (s.negotiation c).step l = some server)
      (hreceive : ∀ msg calls, l = .receive msg calls → (s.hub.client c).phase = .reading ∧
        (s.hub.client c).participant ≠ none) :
      Steps s (.negotiate c l)
        { s with negotiation := Function.update s.negotiation c server }

theorem steps_of_step {l : Label} (hstep : s.step l = some t) : s.Steps l t := by
  unfold step at hstep
  split at hstep
  next henabled =>
    cases l with
    | hub l =>
      obtain ⟨h', hhub, rfl⟩ := Option.map_eq_some_iff.mp hstep
      exact .hub l h' hhub
    | negotiate c l =>
      obtain ⟨server, hserver, rfl⟩ := Option.map_eq_some_iff.mp hstep
      refine .negotiate c l server hserver ?_
      rintro msg calls rfl
      simp only [enabled, Bool.and_eq_true, decide_eq_true_eq] at henabled
      exact ⟨henabled.1, by simpa [Option.isSome_iff_ne_none] using henabled.2⟩
  next => cases hstep

/-- A negotiation that no message has reached keeps what it has to send. -/
theorem silent_step {n n' : Server} {l : Server.Label} (hstep : n.step l = some n')
    (hready : n.negotiationReady = false) (hidle : n.handler = .idle) (hnil : n.outbound = [])
    (hl : ∀ msg calls, l ≠ .receive msg calls) :
    n'.negotiationReady = false ∧ n'.handler = .idle ∧ n'.outbound = [] := by
  cases l with
  | receive msg calls => exact absurd rfl (hl msg calls)
  | run calls => simp [Server.step, Server.run, hidle] at hstep
  | sendOffer iceRestart calls =>
    simp only [Server.step, Server.sendOffer, hready, Bool.not_false, if_true,
      Option.some.injEq] at hstep
    subst hstep
    exact ⟨rfl, hidle, hnil⟩
  | localCandidate candidate calls =>
    simp only [Server.step, Server.sendOrQueueLocalCandidate, hready, Bool.not_false, if_true,
      Option.some.injEq] at hstep
    subst hstep
    exact ⟨rfl, hidle, hnil⟩

/-- A step of the hub. -/
theorem Guarded.hub (hs : s.Guarded) (hpresent : s.hub.Present) {l : Hub.Label} {h' : Hub}
    (hstep : s.hub.step l = some h') : (s.record h' l).Guarded := by
  have hsteps := Hub.steps_of_step hstep
  have hgrow : s.admitted ⊆ s.admitted ∪ h'.roomMembers := Finset.subset_union_left
  have hanswers : ∀ c ∉ s.admitted ∪ h'.roomMembers, s.hub.Answers h' c l := by
    intro c hc
    rw [Finset.notMem_union] at hc
    exact Hub.answers_step hsteps (hs.outside hc.1) hc.2
  have hcredited : ∀ c, h'.Credited c → c ∈ (s.record h' l).passed := by
    intro c hc
    rcases Hub.credited_step hstep hc with hbefore | ⟨allowed, input, rfl, hpasses⟩
    · have hpassed := hs.credited c hbefore
      cases l <;> simp only [record] <;> first | exact hpassed | skip
      split
      · exact Finset.mem_insert_of_mem hpassed
      · exact hpassed
    · simp [record, hpasses]
  have hpassed : s.passed ⊆ (s.record h' l).passed := by
    cases l <;> simp only [record] <;> first | exact Finset.Subset.refl _ | skip
    split
    · exact Finset.subset_insert _ _
    · exact Finset.Subset.refl _
  have hmember : ∀ c ∈ h'.roomMembers, c ∈ s.admitted ∨
      (s.hub.client c).participant ≠ none ∧ ¬ s.hub.Expired c := by
    intro c hc
    rcases Hub.member_of_step hsteps hc with hbefore | hnew
    · exact Or.inl (hs.members hbefore)
    · exact Or.inr hnew
  constructor
  case members => exact Finset.subset_union_right
  case seated =>
    intro c hc
    rcases Hub.seated_step hpresent hsteps hc with hbefore | hc
    · exact hgrow (hs.seated c hbefore)
    · exact Finset.mem_union_right _ hc
  case told =>
    intro c
    refine (Hub.recipients_step hsteps c).trans ?_
    exact (Finset.union_subset (hs.told c) hs.members).trans hgrow
  case credited => exact hcredited
  case admitted =>
    intro c hc
    rcases Finset.mem_union.mp hc with hc | hc
    · exact hpassed (hs.admitted hc)
    · rcases hmember c hc with hc | ⟨hknown, -⟩
      · exact hpassed (hs.admitted hc)
      · exact hpassed (hs.credited c (Or.inl hknown))
  case expired =>
    have hold : ∀ c ∈ s.expired, c ∉ s.admitted ∪ h'.roomMembers ∧ h'.Expired c := by
      intro c hc
      obtain ⟨hout, hexpired⟩ := hs.expired c hc
      refine ⟨?_, Hub.Expired.step hsteps hexpired⟩
      rw [Finset.notMem_union]
      exact ⟨hout, fun hc => (hmember c hc).elim hout fun hnew => hnew.2 hexpired⟩
    intro c hc
    cases l with
    | expireAdmission e =>
      simp only [record] at hc
      split at hc
      · exact hold c hc
      next hout =>
      rcases Finset.mem_insert.mp hc with rfl | hc
      · cases hsteps with
        | expireAdmission _ hphase =>
          have hnot : c ∉ s.hub.roomMembers := fun hc => hout (hs.members hc)
          simp only [record, Hub.expireAdmission, if_neg hnot]
          rw [Finset.notMem_union]
          exact ⟨⟨hout, hnot⟩, by simp [Hub.update]⟩
      · exact hold c hc
    | _ => exact hold c hc
  case silent =>
    intro c hc
    exact hs.silent c fun hc' => hc (hgrow hc')
  case errors =>
    intro c hc msg hmsg
    have hbefore := hs.errors c fun hc' => hc (hgrow hc')
    rcases hanswers c hc with ⟨hsame, -⟩ | ⟨text, hsent, -, -⟩
    · exact hbefore msg (hsame ▸ hmsg)
    · have hmsg' : msg ∈ (s.hub.client c).outbound ++ [.error text] := hsent ▸ hmsg
      rcases List.mem_append.mp hmsg' with hmsg | hmsg
      · exact hbefore msg hmsg
      · exact ⟨text, List.mem_singleton.mp hmsg⟩
  case answers =>
    intro c hc
    have hbefore := hs.answers c fun hc' => hc (hgrow hc')
    show (h'.client c).outbound.length + h'.owed c ≤ s.inputs c + l.asks c
    rcases hanswers c hc with ⟨hsame, howed⟩ | ⟨text, hsent, -, howed⟩
    · rw [hsame]
      omega
    · rw [hsent, List.length_append, List.length_singleton]
      omega

/-- A step of a negotiation. -/
theorem Guarded.negotiate (hs : s.Guarded) {l : Server.Label} {server : Server}
    (hserver : (s.negotiation c).step l = some server)
    (hreceive : ∀ msg calls, l = .receive msg calls → (s.hub.client c).phase = .reading ∧
      (s.hub.client c).participant ≠ none) :
    Guarded { s with negotiation := Function.update s.negotiation c server } := by
  constructor
  case silent =>
    intro d hd
    by_cases hdc : d = c
    · subst hdc
      obtain ⟨hready, hidle, hnil⟩ := hs.silent d hd
      simp only [Function.update_self]
      refine silent_step hserver hready hidle hnil ?_
      rintro msg calls rfl
      exact hd (hs.seated d (Or.inr (hreceive msg calls rfl)))
    · simp only [Function.update_of_ne hdc]
      exact hs.silent d hd
  case members => exact hs.members
  case seated => exact hs.seated
  case told => exact hs.told
  case credited => exact hs.credited
  case admitted => exact hs.admitted
  case expired => exact hs.expired
  case errors => exact hs.errors
  case answers => exact hs.answers

/-! ## Runs -/

/-- A condition on the steps of the hub. -/
def Keeps (ok : Hub → Hub.Label → Prop) (s : Service) : Label → Prop
  | .hub l => ok s.hub l
  | .negotiate _ _ => True

/-- The hub of a service runs as a hub does. -/
theorem reachable_hub_of_keeps {cfg : Config} {ok : Hub → Hub.Label → Prop}
    (hr : (lts cfg).Reachable (Keeps ok) s) : (Hub.lts cfg).Reachable ok s.hub := by
  have hnew : (Hub.lts cfg).Reachable ok (Hub.new cfg) := .init rfl
  refine hr.invariant_ofStep (I := fun s => (Hub.lts cfg).Reachable ok s.hub) hnew ?_
  intro s l t hs hok hstep
  cases steps_of_step hstep with
  | hub l h' hhub => exact hs.step hok hhub
  | negotiate c l server hserver hreceive => exact hs

theorem reachable_hub {cfg : Config} (hr : (lts cfg).Reachable Lts.Any s) :
    (Hub.lts cfg).Reachable Lts.Any s.hub :=
  reachable_hub_of_keeps (hr.mono fun _ l _ => by cases l <;> trivial)

theorem guarded_of_reachable {cfg : Config} (hr : (lts cfg).Reachable Lts.Any s) : s.Guarded := by
  refine hr.invariant_of (I := Guarded) (J := fun s => s.hub.Present)
    (fun s hs => Hub.present_of_reachable (reachable_hub hs)) ?_ ?_
  · rintro s rfl
    exact guarded_new cfg
  · intro s l t hpresent _ hs _ hstep
    cases steps_of_step hstep with
    | hub l h' hhub => exact hs.hub hpresent hhub
    | negotiate c l server hserver hreceive => exact hs.negotiate hserver hreceive

theorem Guarded.isPrivate (hs : s.Guarded) : s.Private where
  unanswered d hd :=
    ⟨(hs.silent d hd).2.2, hs.errors d hd, le_trans (Nat.le_add_right _ _) (hs.answers d hd)⟩
  events d msg hmsg hevent := by
    have hd : d ∈ s.admitted := by
      by_contra hd
      exact hevent (hs.errors d hd msg hmsg)
    exact ⟨hd, hs.admitted hd⟩
  members := hs.members
  expired d hd := (hs.expired d hd).1

/-- Whoever was admitted once is known, and not on the way to an admission. -/
def Past (s : Service) : Prop :=
  ∀ c ∈ s.admitted, (s.hub.client c).participant ≠ none ∧
    (s.hub.client c).phase.arriving = false

/-- A participant is not forgotten. -/
theorem known_step {h h' : Hub} (hpresent : h.Present) {l : Hub.Label} (hstep : h.Steps l h')
    (hknown : (h.client c).participant ≠ none) : (h'.client c).participant ≠ none := by
  have hidentity := Hub.identity_step hstep c
  generalize hown : (h'.client c).own = own at hidentity
  have hparticipant : (h'.client c).participant = own.1 := by rw [← hown]; rfl
  rw [hparticipant]
  cases hidentity with
  | same | reaps _ _ => exact hknown
  | tookOver ok name token previous hphase _ _ =>
    exact absurd (hpresent.unknown c (by rw [hphase]; rfl)) hknown
  | resumed _ _ _ _ _ _ | entered _ _ _ | refreshed _ _ _ _ _ _ _ | fired _ _ _ =>
    exact Option.some_ne_none _

theorem Past.hub (hs : s.Past) (hpresent : s.hub.Present) {l : Hub.Label} {h' : Hub}
    (hpresent' : h'.Present) (hstep : s.hub.Steps l h') : (s.record h' l).Past := by
  intro c hc
  rcases Finset.mem_union.mp hc with hc | hc
  · obtain ⟨hknown, hsettled⟩ := hs c hc
    refine ⟨known_step hpresent hstep hknown, ?_⟩
    show (h'.client c).phase.arriving = false
    rcases Hub.next_step hstep c with hsame | ⟨-, hnext⟩
    · rw [hsame]
      exact hsettled
    · rw [Bool.eq_false_iff]
      intro harriving
      rcases hnext.arriving harriving with hbefore | hunknown
      · rw [hsettled] at hbefore
        cases hbefore
      · exact hknown (hpresent.unknown c hunknown)
  · obtain ⟨⟨p, hp, -⟩, hroom⟩ := hpresent'.member c hc
    refine ⟨fun hnone => ?_, ?_⟩
    · rw [Client.participantID, show (h'.client c).participant = none from hnone] at hp
      cases hp
    · show (h'.client c).phase.arriving = false
      generalize (h'.client c).phase = phase at hroom
      cases phase <;> first | rfl | cases hroom

theorem past_of_reachable {cfg : Config} (hr : (lts cfg).Reachable Lts.Any s) : s.Past := by
  refine hr.invariant_of (I := Past) (J := fun s => s.hub.Present)
    (fun s hs => Hub.present_of_reachable (reachable_hub hs)) ?_ ?_
  · rintro s rfl c hc
    exact absurd hc (Finset.notMem_empty c)
  · intro s l t hpresent hpresent' hs _ hstep
    cases steps_of_step hstep with
    | hub l h' hhub => exact hs.hub hpresent hpresent' (Hub.steps_of_step hhub)
    | negotiate c l server hserver hreceive => exact hs

/-- On the way to its admission a client has been written what answers its
input, and no more. -/
theorem writes_of_arriving {cfg : Config} (hr : (lts cfg).Reachable Lts.Any s)
    (harriving : (s.hub.client c).phase.arriving = true) :
    (s.hub.client c).outbound.length + (s.negotiation c).outbound.length ≤ s.inputs c := by
  have hout : c ∉ s.admitted := by
    intro hc
    have hsettled := (past_of_reachable hr c hc).2
    rw [harriving] at hsettled
    cases hsettled
  have hs := (guarded_of_reachable hr).isPrivate.unanswered c hout
  rw [hs.negotiation]
  exact hs.answers

/-- **The room is private**: at every moment of every run a client that was
not admitted has been sent nothing but errors, no more than it had inputs;
each was written by its own read loop; everything else went to clients that
passed the password check and were admitted; and a client whose deadline
fired first is not and will not be a member. -/
theorem private_of_reachable {cfg : Config} {l : Label} (hr : (lts cfg).Reachable Lts.Any s)
    (hstep : s.step l = some t) :
    t.Private ∧ ∀ d ∉ t.admitted, (t.hub.client d).outbound = (s.hub.client d).outbound ∨
      l.reader = some d ∧
        ∃ text, (t.hub.client d).outbound = (s.hub.client d).outbound ++ [.error text] := by
  have hs := guarded_of_reachable hr
  have ht : (lts cfg).Reachable Lts.Any t := hr.step trivial hstep
  refine ⟨(guarded_of_reachable ht).isPrivate, fun d hd => ?_⟩
  cases steps_of_step hstep with
  | hub l h' hhub =>
    have hd' : d ∉ s.admitted ∪ h'.roomMembers := hd
    rw [Finset.notMem_union] at hd'
    rcases Hub.answers_step (Hub.steps_of_step hhub) (hs.outside hd'.1) hd'.2 with
      ⟨hsame, -⟩ | ⟨text, hsent, hreader, -⟩
    · exact Or.inl hsame
    · exact Or.inr ⟨hreader, text, hsent⟩
  | negotiate c l server hserver hreceive => exact Or.inl rfl

/-- The member 0 chats, and the connection 1 is told that it has not joined. -/
theorem private_chat : ∃ s t : Service, (lts Hub.sampleConfig).Reachable Lts.Any s ∧
    (s.hub.roomMembers = {0} ∧ s.hub.nextID = 2) ∧
    s.step (.hub (.receive 1 true (some (.chat ['a'])))) = some t ∧
    t.Private ∧ ∀ d ∉ t.admitted, (t.hub.client d).outbound = (s.hub.client d).outbound ∨
      some 1 = some d ∧
        ∃ text, (t.hub.client d).outbound = (s.hub.client d).outbound ++ [.error text] := by
  have hexec : (((Hub.joins 0 ++ [Hub.Label.connect 1] ++ Hub.runs 1 2 ++
      [Hub.Label.receive 0 true (some (.chat ['a']))] ++ Hub.runs 0 1).map Label.hub).foldlM step
        (new Hub.sampleConfig)).map (fun s : Service => decide ((s.hub.roomMembers = {0} ∧ s.hub.nextID = 2) ∧
          (s.step (.hub (.receive 1 true (some (.chat ['a']))))).isSome = true)) = some true := by
    decide
  obtain ⟨s, hr, ho⟩ := Lts.exists_reachable_of_exec Lts.Any step (new Hub.sampleConfig) _ _ _
    (fun _ _ _ => trivial) hexec
  obtain ⟨hroom, hsome⟩ := of_decide_eq_true ho
  obtain ⟨t, ht⟩ := Option.isSome_iff_exists.mp hsome
  exact ⟨s, t, hr, hroom, ht, private_of_reachable hr ht⟩

end Service

end SlowMeet.Signaling
