import SlowMeet.Signaling.Session

/-!
# Who owns a meeting slot

`Slotted s p` says, for each place the slot of `p` can be in, what the
tokens, the pending entries and the connections of `p` look like. The
connections that reclaimed `p` one after the other form a chain: only the
last may wait, and all below one that does not wait have finished.
-/

namespace SlowMeet.Signaling

-- the events below share one list of field equations
set_option linter.unusedSimpArgs false

/-- What a stage means for the slot of its participant. -/
inductive Kind
  | outside
  | entering (p : ParticipantID)
  | waiting (previous : ClientId)
  /-- Up to the first decision of `disconnect`. -/
  | present
  /-- After it, by a connection that was superseded. -/
  | superseded
  /-- After it, by the connection that holds the slot. -/
  | yielding
  | casting
  | notifying
  | over

def Stage.kind : Stage → Kind
  | .outside => .outside
  | .entering p => .entering p
  | .waiting previous => .waiting previous
  | .joining | .announcing | .settled | .closing | .ending => .present
  | .parting d => if d.superseded then .superseded else .yielding
  | .removing => .yielding
  | .casting => .casting
  | .notifying _ => .notifying
  | .over => .over

def Life.kind (l : Life) : Kind := l.stage.kind

theorem Life.kind_stage (l : Life) : l.stage.kind = l.kind := rfl

theorem Life.kind_mk (stage : Stage) (pid : Option ParticipantID)
    (resumed joined announced intentional takeover reaping : Bool)
    (shown : ParticipantID → Bool) :
    Life.kind ⟨stage, pid, resumed, joined, announced, intentional, takeover, reaping, shown⟩ =
      stage.kind := rfl

namespace Session

/-- The slot of `p` and everything that refers to it. -/
structure Slotted (s : Session) (p : ParticipantID) : Prop where
  ids : s.ids p = true ↔ s.slot p ≠ .free
  held : ∀ c, s.slot p = .held c →
    (s.life c).kind = .entering p ∧ s.active p = none ∨
      (s.life c).pid = some p ∧ ((s.life c).kind = .present ∨ ∃ b, (s.life c).kind = .waiting b) ∧
        s.active p = some c ∨
      (s.life c).pid = some p ∧ (s.life c).kind = .yielding ∧ s.active p = none
  graced : ∀ c, s.slot p = .graced c → (s.life c).pid = some p ∧ s.active p = none ∧
    (s.pending p = some (c, true) ∧ (s.life c).kind = .over ∨
      s.pending p = some (c, false) ∧ (s.life c).kind = .notifying)
  reaping : ∀ c, s.slot p = .reaping c → (s.life c).pid = some p ∧ s.active p = none ∧
    (s.life c).kind = .over ∧ (s.life c).reaping = true
  closing : s.slot p = .closing → s.active p = none ∧ p ∈ s.closingIDs ∧ s.closed = true
  free : s.slot p = .free → s.active p = none
  pending : ∀ c armed, s.pending p = some (c, armed) → s.slot p = .graced c
  active : ∀ c, s.active p = some c → s.slot p = .held c
  reaper : ∀ c, (s.life c).pid = some p → (s.life c).reaping = true → s.slot p = .reaping c
  closer : p ∈ s.closingIDs → s.slot p = .closing
  entering : ∀ c, (s.life c).kind = .entering p →
    s.slot p = .held c ∧ ∀ c', (s.life c').pid ≠ some p
  yielding : ∀ c, (s.life c).pid = some p → (s.life c).kind = .yielding → s.slot p = .held c
  casting : ∀ c, (s.life c).pid = some p → (s.life c).kind = .casting → s.slot p = .free
  /-- Who waits, waits for the connection it superseded. -/
  waiting : ∀ c b, (s.life c).pid = some p → (s.life c).kind = .waiting b →
    (s.life b).pid = some p ∧ s.rank c = s.rank b + 1
  /-- Below a connection that does not wait, all have finished. -/
  lower : ∀ c c', (s.life c).pid = some p → (s.life c').pid = some p → s.rank c' < s.rank c →
    (∃ b, (s.life c).kind = .waiting b) ∨ (s.life c').kind = .over
  rank : ∀ c c', (s.life c).pid = some p → (s.life c').pid = some p → s.rank c' = s.rank c →
    c' = c
  /-- The owner is the last of the chain. -/
  top : ∀ c c', s.slot p = .held c ∨ s.slot p = .graced c ∨ s.slot p = .reaping c →
    (s.life c).pid = some p → (s.life c').pid = some p → s.rank c' ≤ s.rank c
  done : ∀ c, (s.life c).pid = some p → s.slot p = .free ∨ s.slot p = .closing →
    (s.life c).kind = .casting ∨ (s.life c).kind = .notifying ∨ (s.life c).kind = .over
  next : s.slot p ≠ .free → p < s.next
  seen : ∀ c, (s.life c).pid = some p → p < s.next

/-- The ownership invariant of the protocol. -/
structure Owned (s : Session) : Prop where
  slotted : ∀ p, s.Slotted p
  fresh : ∀ c, (s.life c).kind = .outside ∨ (∃ p, (s.life c).kind = .entering p) →
    (s.life c).pid = none
  known : ∀ c, (s.life c).pid = none →
    (s.life c).kind = .outside ∨ (∃ p, (s.life c).kind = .entering p) ∨ (s.life c).kind = .over
  reaper : ∀ c, (s.life c).reaping = true → (s.life c).pid ≠ none

variable {s t : Session}

theorem Owned.start (timeout : Nat) : (Session.start timeout).Owned := by
  refine ⟨fun p => ?_, fun _ _ => rfl, fun _ _ => Or.inl rfl, ?_⟩
  · constructor <;> simp [Session.start, Life.new, Life.kind, Stage.kind]
  · simp [Session.start, Life.new]

/-- Events that leave kinds, slots and tokens alone keep the invariant. -/
theorem Owned.congr (h : s.Owned) (hkind : ∀ c, (t.life c).kind = (s.life c).kind)
    (hpid : ∀ c, (t.life c).pid = (s.life c).pid)
    (hreaping : ∀ c, (t.life c).reaping = (s.life c).reaping) (hids : t.ids = s.ids)
    (hactive : t.active = s.active) (hpending : t.pending = s.pending)
    (hclosing : t.closingIDs = s.closingIDs) (hclosed : t.closed = s.closed)
    (hnext : s.next ≤ t.next) (hrank : t.rank = s.rank) (hslot : t.slot = s.slot) : t.Owned := by
  refine ⟨fun p => ?_, fun c => ?_, fun c => ?_, fun c => ?_⟩
  · obtain ⟨h1, h2, h3, h4, h5, h6, h7, h8, h9, h10, h11, h12, h13, h14, h15, h16, h17, h18, h19,
      h20⟩ := h.slotted p
    constructor <;>
      simp only [hkind, hpid, hreaping, hids, hactive, hpending, hclosing, hclosed, hrank, hslot] <;>
      first
        | assumption
        | exact fun hp => Nat.lt_of_lt_of_le (h19 hp) hnext
        | exact fun c hc => Nat.lt_of_lt_of_le (h20 c hc) hnext
  · rw [hkind, hpid]
    exact h.fresh c
  · rw [hkind, hpid]
    exact h.known c
  · rw [hreaping, hpid]
    exact h.reaper c

/-- A connection may change anything but its kind, its participant and its
expiry; so may the fields no slot refers to. -/
theorem Owned.withLife (h : s.Owned) {c : ClientId} {l : Life}
    (hkind : l.kind = (s.life c).kind) (hpid : l.pid = (s.life c).pid)
    (hreaping : l.reaping = (s.life c).reaping) : (s.setLife c l).Owned := by
  have hlife : ∀ d, (s.setLife c l).life d = if d = c then l else s.life d := by
    simp [Session.setLife, Function.update_apply]
  refine h.congr ?_ ?_ ?_ rfl rfl rfl rfl rfl le_rfl rfl rfl <;> intro d <;> rw [hlife] <;>
    split <;> simp_all

theorem Owned.withStage (h : s.Owned) (c : ClientId) (stage : Stage)
    (hkind : stage.kind = (s.life c).kind) : (s.setStage c stage).Owned :=
  h.withLife hkind rfl rfl

theorem Owned.withMembers (h : s.Owned) (members : Finset ClientId) :
    Owned { s with members := members } :=
  h.congr (fun _ => rfl) (fun _ => rfl) (fun _ => rfl) rfl rfl rfl rfl rfl le_rfl rfl rfl

/-- Telling the room about a participant moves no slot. -/
theorem Owned.withTold (h : s.Owned) (told : ClientId → Prop) [DecidablePred told]
    (p : ParticipantID) (shown : Bool) : Owned { s with life := s.tell told p shown } := by
  refine h.congr ?_ ?_ ?_ rfl rfl rfl rfl rfl le_rfl rfl rfl <;> intro d <;>
    simp only [Session.tell] <;> split <;> rfl

/-- An event of connection `c` about participant `p`: nothing is changed of
the other connections, nor of the slots of the other participants. -/
structure Touches (c : ClientId) (p : ParticipantID) (s t : Session) : Prop where
  life : ∀ d, d ≠ c → t.life d = s.life d ∧ t.rank d = s.rank d
  pid : ∀ q, (s.life c).pid = some q ∨ (t.life c).pid = some q ∨
    (s.life c).kind = .entering q ∨ (t.life c).kind = .entering q → q = p
  ids : ∀ q, q ≠ p → t.ids q = s.ids q
  active : ∀ q, q ≠ p → t.active q = s.active q
  pending : ∀ q, q ≠ p → t.pending q = s.pending q
  slot : ∀ q, q ≠ p → t.slot q = s.slot q
  closing : ∀ q, q ≠ p → (q ∈ t.closingIDs ↔ q ∈ s.closingIDs)
  closed : t.closed = s.closed
  next : s.next ≤ t.next

theorem Slotted.frame {c : ClientId} {p q : ParticipantID} (h : s.Slotted q) (hq : q ≠ p)
    (ht : Touches c p s t) : t.Slotted q := by
  have hc : (s.life c).pid ≠ some q ∧ (t.life c).pid ≠ some q ∧ (s.life c).kind ≠ .entering q ∧
      (t.life c).kind ≠ .entering q := by
    refine ⟨fun hx => ?_, fun hx => ?_, fun hx => ?_, fun hx => ?_⟩ <;>
      exact hq (ht.pid q (by simp [hx]))
  obtain ⟨hlife, -, hids, hactive, hpending, hslot, hclosing, hclosed, hnext⟩ := ht
  specialize hids q hq
  specialize hactive q hq
  specialize hpending q hq
  specialize hslot q hq
  specialize hclosing q hq
  cases h
  constructor <;> grind

/-- After an event of `c` about `p`, the slot of `p` and the connection `c`
are all there is to look at. -/
theorem Owned.at (h : s.Owned) (c : ClientId) (p : ParticipantID) (hp : t.Slotted p)
    (ht : Touches c p s t)
    (hc : ((t.life c).kind = .outside ∨ (∃ q, (t.life c).kind = .entering q) →
        (t.life c).pid = none) ∧
      ((t.life c).pid = none → (t.life c).kind = .outside ∨
        (∃ q, (t.life c).kind = .entering q) ∨ (t.life c).kind = .over) ∧
      ((t.life c).reaping = true → (t.life c).pid ≠ none)) : t.Owned := by
  obtain ⟨hfresh, hknown, hreaper⟩ := hc
  refine ⟨fun q => ?_, fun d => ?_, fun d => ?_, fun d => ?_⟩
  · by_cases hq : q = p
    · exact hq ▸ hp
    · exact (h.slotted q).frame hq ht
  all_goals by_cases hd : d = c
  · exact hd ▸ hfresh
  · exact (ht.life d hd).1 ▸ h.fresh d
  · exact hd ▸ hknown
  · exact (ht.life d hd).1 ▸ h.known d
  · exact hd ▸ hreaper
  · exact (ht.life d hd).1 ▸ h.reaper d

/-- A fresh identifier has no slot and no connection. -/
theorem Owned.join (h : s.Owned) {c : ClientId} (hstage : (s.life c).stage = .outside) :
    Owned { s.setStage c (.entering s.next) with
      ids := Function.update s.ids s.next true
      next := s.next + 1
      joinedAt := Function.update s.joinedAt c s.admissions
      slot := Function.update s.slot s.next (.held c) } := by
  have hkind : (s.life c).kind = .outside := by rw [Life.kind, hstage]; rfl
  have hpid := h.fresh c (Or.inl hkind)
  have hreaping : (s.life c).reaping ≠ true := fun hr => h.reaper c hr hpid
  refine h.at c s.next ?_ ?_ ?_
  · cases h.slotted s.next
    constructor <;>
      simp only [setStage, setLife, Function.update_apply, apply_ite Life.kind,
        apply_ite Life.pid, apply_ite Life.reaping, Life.kind_mk, Stage.kind] <;>
      grind
  · constructor <;>
      simp only [setStage, setLife, Function.update_apply, apply_ite Life.kind,
        apply_ite Life.pid, apply_ite Life.reaping, Life.kind_mk, Stage.kind] <;>
      grind
  · have := h.fresh c
    have := h.known c
    have := h.reaper c
    simp only [setStage, setLife, Function.update_apply, apply_ite Life.kind, apply_ite Life.pid,
      apply_ite Life.reaping, Life.kind_mk, Stage.kind]
    grind

theorem Owned.enter (h : s.Owned) {c : ClientId} {p : ParticipantID}
    (hstage : (s.life c).stage = .entering p) :
    Owned { s.setLife c { s.life c with stage := .joining, pid := some p } with
      active := Function.update s.active p (some c) } := by
  have hkind : (s.life c).kind = .entering p := by rw [Life.kind, hstage]; rfl
  have hpid := h.fresh c (Or.inr ⟨p, hkind⟩)
  have hreaping : (s.life c).reaping ≠ true := fun hr => h.reaper c hr hpid
  refine h.at c p ?_ ?_ ?_
  · cases h.slotted p
    constructor <;>
      simp only [setStage, setLife, Function.update_apply, apply_ite Life.kind,
        apply_ite Life.pid, apply_ite Life.reaping, Life.kind_mk, Stage.kind] <;>
      grind
  · constructor <;>
      simp only [setStage, setLife, Function.update_apply, apply_ite Life.kind,
        apply_ite Life.pid, apply_ite Life.reaping, Life.kind_mk, Stage.kind] <;>
      grind
  · have := h.fresh c
    have := h.known c
    have := h.reaper c
    simp only [setStage, setLife, Function.update_apply, apply_ite Life.kind, apply_ite Life.pid,
      apply_ite Life.reaping, Life.kind_mk, Stage.kind]
    grind

theorem Owned.resume (h : s.Owned) {c previous : ClientId} {p : ParticipantID} {armed : Bool}
    (hstage : (s.life c).stage = .outside) (hp : s.pending p = some (previous, armed)) :
    Owned { s.setLife c { s.life c with
        stage := .waiting previous, pid := some p, resumed := true, takeover := false } with
      pending := Function.update s.pending p none
      active := Function.update s.active p (some c)
      joinedAt := Function.update s.joinedAt c s.admissions
      rank := Function.update s.rank c (s.rank previous + 1)
      slot := Function.update s.slot p (.held c) } := by
  have hkind : (s.life c).kind = .outside := by rw [Life.kind, hstage]; rfl
  have hpid := h.fresh c (Or.inl hkind)
  have hreaping : (s.life c).reaping ≠ true := fun hr => h.reaper c hr hpid
  refine h.at c p ?_ ?_ ?_
  · cases h.slotted p
    constructor <;>
      simp only [setStage, setLife, Function.update_apply, apply_ite Life.kind,
        apply_ite Life.pid, apply_ite Life.reaping, Life.kind_mk, Stage.kind] <;>
      grind
  · constructor <;>
      simp only [setStage, setLife, Function.update_apply, apply_ite Life.kind,
        apply_ite Life.pid, apply_ite Life.reaping, Life.kind_mk, Stage.kind] <;>
      grind
  · have := h.fresh c
    have := h.known c
    have := h.reaper c
    simp only [setStage, setLife, Function.update_apply, apply_ite Life.kind, apply_ite Life.pid,
      apply_ite Life.reaping, Life.kind_mk, Stage.kind]
    grind

theorem Owned.takeover (h : s.Owned) {c previous : ClientId} {p : ParticipantID}
    (hstage : (s.life c).stage = .outside) (hp : s.pending p = none)
    (hactive : s.active p = some previous) :
    Owned { s.setLife c { s.life c with
        stage := .waiting previous, pid := some p, resumed := true, takeover := true } with
      active := Function.update s.active p (some c)
      rank := Function.update s.rank c (s.rank previous + 1)
      slot := Function.update s.slot p (.held c) } := by
  have hkind : (s.life c).kind = .outside := by rw [Life.kind, hstage]; rfl
  have hpid := h.fresh c (Or.inl hkind)
  have hreaping : (s.life c).reaping ≠ true := fun hr => h.reaper c hr hpid
  refine h.at c p ?_ ?_ ?_
  · cases h.slotted p
    constructor <;>
      simp only [setStage, setLife, Function.update_apply, apply_ite Life.kind,
        apply_ite Life.pid, apply_ite Life.reaping, Life.kind_mk, Stage.kind] <;>
      grind
  · constructor <;>
      simp only [setStage, setLife, Function.update_apply, apply_ite Life.kind,
        apply_ite Life.pid, apply_ite Life.reaping, Life.kind_mk, Stage.kind] <;>
      grind
  · have := h.fresh c
    have := h.known c
    have := h.reaper c
    simp only [setStage, setLife, Function.update_apply, apply_ite Life.kind, apply_ite Life.pid,
      apply_ite Life.reaping, Life.kind_mk, Stage.kind]
    grind

/-- The connection waited for has finished, and with it all before it. -/
theorem Owned.proceed (h : s.Owned) {c previous : ClientId} {p : ParticipantID}
    (hstage : (s.life c).stage = .waiting previous) (hpid : (s.life c).pid = some p)
    (hover : (s.life previous).stage = .over) :
    Owned (s.setStage c .joining) := by
  have hkind : (s.life c).kind = .waiting previous := by rw [Life.kind, hstage]; rfl
  have hprevious : (s.life previous).kind = .over := by rw [Life.kind, hover]; rfl
  refine h.at c p ?_ ?_ ?_
  · cases h.slotted p
    constructor <;>
      simp only [setStage, setLife, Function.update_apply, apply_ite Life.kind,
        apply_ite Life.pid, apply_ite Life.reaping, Life.kind_mk, Stage.kind] <;>
      grind
  · constructor <;>
      simp only [setStage, setLife, Function.update_apply, apply_ite Life.kind,
        apply_ite Life.pid, apply_ite Life.reaping, Life.kind_mk, Stage.kind] <;>
      grind
  · have := h.fresh c
    have := h.known c
    have := h.reaper c
    simp only [setStage, setLife, Function.update_apply, apply_ite Life.kind, apply_ite Life.pid,
      apply_ite Life.reaping, Life.kind_mk, Stage.kind]
    grind

theorem Owned.part (h : s.Owned) {c : ClientId} {p : ParticipantID} (hstage : (s.life c).stage = .ending)
    (hpid : (s.life c).pid = some p) :
    Owned { s.setStage c (.parting (s.departure c p)) with
      active := if s.active p = some c then Function.update s.active p none else s.active } := by
  have hkind : (s.life c).kind = .present := by rw [Life.kind, hstage]; rfl
  have hsuperseded : (s.departure c p).superseded = !decide (s.active p = some c) := by
    simp [departure]
  refine h.at c p ?_ ?_ ?_
  · cases h.slotted p
    constructor <;>
      simp only [setStage, setLife, Function.update_apply, apply_ite Life.kind,
        apply_ite Life.pid, apply_ite Life.reaping, Life.kind_mk, Stage.kind] <;>
      grind
  · constructor <;>
      simp only [setStage, setLife, Function.update_apply, apply_ite Life.kind,
        apply_ite Life.pid, apply_ite Life.reaping, Life.kind_mk, Stage.kind] <;>
      grind
  · have := h.fresh c
    have := h.known c
    have := h.reaper c
    simp only [setStage, setLife, Function.update_apply, apply_ite Life.kind, apply_ite Life.pid,
      apply_ite Life.reaping, Life.kind_mk, Stage.kind]
    grind

theorem Owned.settleSuperseded (h : s.Owned) {c : ClientId} {p : ParticipantID} {d : Departure}
    (hstage : (s.life c).stage = .parting d) (hpid : (s.life c).pid = some p)
    (hd : d.superseded = true) :
    Owned (s.setStage c .over) := by
  have hkind : (s.life c).kind = .superseded := by simp [Life.kind, hstage, Stage.kind, hd]
  refine h.at c p ?_ ?_ ?_
  · cases h.slotted p
    constructor <;>
      simp only [setStage, setLife, Function.update_apply, apply_ite Life.kind,
        apply_ite Life.pid, apply_ite Life.reaping, Life.kind_mk, Stage.kind] <;>
      grind
  · constructor <;>
      simp only [setStage, setLife, Function.update_apply, apply_ite Life.kind,
        apply_ite Life.pid, apply_ite Life.reaping, Life.kind_mk, Stage.kind] <;>
      grind
  · have := h.fresh c
    have := h.known c
    have := h.reaper c
    simp only [setStage, setLife, Function.update_apply, apply_ite Life.kind, apply_ite Life.pid,
      apply_ite Life.reaping, Life.kind_mk, Stage.kind]
    grind

theorem Owned.settleGrace (h : s.Owned) {c : ClientId} {p : ParticipantID} {d : Departure}
    (hstage : (s.life c).stage = .parting d) (hpid : (s.life c).pid = some p)
    (hd : d.superseded = false) :
    Owned { s.setStage c (.notifying d.clients) with
      pending := Function.update s.pending p (some (c, false))
      slot := Function.update s.slot p (.graced c) } := by
  have hkind : (s.life c).kind = .yielding := by simp [Life.kind, hstage, Stage.kind, hd]
  refine h.at c p ?_ ?_ ?_
  · cases h.slotted p
    constructor <;>
      simp only [setStage, setLife, Function.update_apply, apply_ite Life.kind,
        apply_ite Life.pid, apply_ite Life.reaping, Life.kind_mk, Stage.kind] <;>
      grind
  · constructor <;>
      simp only [setStage, setLife, Function.update_apply, apply_ite Life.kind,
        apply_ite Life.pid, apply_ite Life.reaping, Life.kind_mk, Stage.kind] <;>
      grind
  · have := h.fresh c
    have := h.known c
    have := h.reaper c
    simp only [setStage, setLife, Function.update_apply, apply_ite Life.kind, apply_ite Life.pid,
      apply_ite Life.reaping, Life.kind_mk, Stage.kind]
    grind

theorem Owned.leave (h : s.Owned) {c : ClientId} {p : ParticipantID} (hstage : (s.life c).stage = .removing)
    (hpid : (s.life c).pid = some p) :
    Owned { s.setStage c (if (s.life c).announced && s.ids p then .casting else .over) with
      ids := Function.update s.ids p false
      slot := Function.update s.slot p .free } := by
  have hkind : (s.life c).kind = .yielding := by rw [Life.kind, hstage]; rfl
  refine h.at c p ?_ ?_ ?_
  · cases h.slotted p
    constructor <;>
      simp only [setStage, setLife, Function.update_apply, apply_ite Life.kind,
        apply_ite Life.pid, apply_ite Life.reaping, Life.kind_mk, apply_ite Stage.kind,
        Stage.kind] <;>
      grind
  · constructor <;>
      simp only [setStage, setLife, Function.update_apply, apply_ite Life.kind,
        apply_ite Life.pid, apply_ite Life.reaping, Life.kind_mk, apply_ite Stage.kind,
        Stage.kind] <;>
      grind
  · have := h.fresh c
    have := h.known c
    have := h.reaper c
    simp only [setStage, setLife, Function.update_apply, apply_ite Life.kind, apply_ite Life.pid,
      apply_ite Life.reaping, Life.kind_mk, apply_ite Stage.kind, Stage.kind]
    grind

theorem Owned.arm (h : s.Owned) {c : ClientId} {p : ParticipantID} (hstage : (s.life c).stage = .notifying ∅)
    (hpid : (s.life c).pid = some p) :
    Owned { s.setStage c .over with
      pending := if (s.pending p).map Prod.fst = some c then
          Function.update s.pending p (some (c, true))
        else s.pending } := by
  have hkind : (s.life c).kind = .notifying := by rw [Life.kind, hstage]; rfl
  have hentry : (s.pending p).map Prod.fst = some c ↔ ∃ armed, s.pending p = some (c, armed) := by
    cases s.pending p <;> simp [Prod.ext_iff]
  refine h.at c p ?_ ?_ ?_
  · cases h.slotted p
    constructor <;>
      simp only [setStage, setLife, Function.update_apply, apply_ite Life.kind,
        apply_ite Life.pid, apply_ite Life.reaping, Life.kind_mk, Stage.kind, hentry] <;>
      grind
  · constructor <;>
      simp only [setStage, setLife, Function.update_apply, apply_ite Life.kind,
        apply_ite Life.pid, apply_ite Life.reaping, Life.kind_mk, Stage.kind, hentry] <;>
      grind
  · have := h.fresh c
    have := h.known c
    have := h.reaper c
    simp only [setStage, setLife, Function.update_apply, apply_ite Life.kind, apply_ite Life.pid,
      apply_ite Life.reaping, Life.kind_mk, Stage.kind, hentry]
    grind

theorem Owned.expire (h : s.Owned) {c : ClientId} {p : ParticipantID} (hpid : (s.life c).pid = some p)
    (hp : s.pending p = some (c, true)) :
    Owned { s.setLife c { s.life c with reaping := true } with
      pending := Function.update s.pending p none
      slot := Function.update s.slot p (.reaping c) } := by
  have hentering : ∀ q, (s.life c).kind ≠ .entering q := fun q hk => by
    simp [h.fresh c (Or.inr ⟨q, hk⟩)] at hpid
  refine h.at c p ?_ ?_ ?_
  · cases h.slotted p
    constructor <;>
      simp only [setStage, setLife, Function.update_apply, apply_ite Life.kind,
        apply_ite Life.pid, apply_ite Life.reaping, Life.kind_mk, Life.kind_stage] <;>
      grind
  · constructor <;>
      simp only [setStage, setLife, Function.update_apply, apply_ite Life.kind,
        apply_ite Life.pid, apply_ite Life.reaping, Life.kind_mk, Life.kind_stage] <;>
      grind
  · have := h.fresh c
    have := h.known c
    have := h.reaper c
    simp only [setStage, setLife, Function.update_apply, apply_ite Life.kind, apply_ite Life.pid,
      apply_ite Life.reaping, Life.kind_mk, Life.kind_stage]
    grind

theorem Owned.reapLeave (h : s.Owned) {c : ClientId} {p : ParticipantID} (hreaping : (s.life c).reaping = true)
    (hpid : (s.life c).pid = some p) :
    Owned { s.setLife c { s.life c with reaping := false } with
      ids := Function.update s.ids p false
      slot := Function.update s.slot p .free } := by
  have hentering : ∀ q, (s.life c).kind ≠ .entering q := fun q hk => by
    simp [h.fresh c (Or.inr ⟨q, hk⟩)] at hpid
  refine h.at c p ?_ ?_ ?_
  · cases h.slotted p
    constructor <;>
      simp only [setStage, setLife, Function.update_apply, apply_ite Life.kind,
        apply_ite Life.pid, apply_ite Life.reaping, Life.kind_mk, Life.kind_stage] <;>
      grind
  · constructor <;>
      simp only [setStage, setLife, Function.update_apply, apply_ite Life.kind,
        apply_ite Life.pid, apply_ite Life.reaping, Life.kind_mk, Life.kind_stage] <;>
      grind
  · have := h.fresh c
    have := h.known c
    have := h.reaper c
    simp only [setStage, setLife, Function.update_apply, apply_ite Life.kind, apply_ite Life.pid,
      apply_ite Life.reaping, Life.kind_mk, Life.kind_stage]
    grind

theorem Owned.castLeft (h : s.Owned) {c : ClientId} {p : ParticipantID}
    (hstage : (s.life c).stage = .casting) (hpid : (s.life c).pid = some p) :
    Owned (s.setStage c .over) := by
  have hkind : (s.life c).kind = .casting := by rw [Life.kind, hstage]; rfl
  refine h.at c p ?_ ?_ ?_
  · cases h.slotted p
    constructor <;>
      simp only [setStage, setLife, Function.update_apply, apply_ite Life.kind,
        apply_ite Life.pid, apply_ite Life.reaping, Life.kind_mk, Stage.kind] <;>
      grind
  · constructor <;>
      simp only [setStage, setLife, Function.update_apply, apply_ite Life.kind,
        apply_ite Life.pid, apply_ite Life.reaping, Life.kind_mk, Stage.kind] <;>
      grind
  · have := h.fresh c
    have := h.known c
    have := h.reaper c
    simp only [setStage, setLife, Function.update_apply, apply_ite Life.kind, apply_ite Life.pid,
      apply_ite Life.reaping, Life.kind_mk, Stage.kind]
    grind

theorem Owned.quit (h : s.Owned) {c : ClientId} (hstage : (s.life c).stage = .outside) :
    Owned (s.setStage c .over) := by
  have hkind : (s.life c).kind = .outside := by rw [Life.kind, hstage]; rfl
  have hpid := h.fresh c (Or.inl hkind)
  refine ⟨fun q => ?_, ?_, ?_, ?_⟩
  · cases h.slotted q
    constructor <;>
    simp only [setStage, setLife, Function.update_apply, apply_ite Life.kind, apply_ite Life.pid,
        apply_ite Life.reaping, Life.kind_mk, Stage.kind] <;>
      grind
  all_goals
    have := h.fresh
    have := h.known
    have := h.reaper
    simp only [setStage, setLife, Function.update_apply, apply_ite Life.kind, apply_ite Life.pid,
      apply_ite Life.reaping, Life.kind_mk, Stage.kind]
    grind

theorem Owned.close (h : s.Owned) {closing : Finset ParticipantID}
    (hclosing : ∀ p, p ∈ closing ↔ p ∈ s.closingIDs ∨ (s.pending p).isSome) :
    Owned { s with
      closed := true
      pending := fun _ => none
      closingIDs := closing
      slot := fun p => if (s.pending p).isSome then .closing else s.slot p } := by
  refine ⟨fun q => ?_, h.fresh, h.known, h.reaper⟩
  have hq := hclosing q
  cases h.slotted q
  rcases hpending : s.pending q with _ | ⟨c, armed⟩ <;>
    simp only [hpending, Option.isSome_none, Option.isSome_some, Bool.false_eq_true, or_false,
      or_true, iff_true] at hq <;>
    constructor <;> simp only [hpending, Option.isSome_none, Option.isSome_some] <;> grind

theorem Owned.closeLeave (h : s.Owned) {p : ParticipantID} (hp : p ∈ s.closingIDs) :
    Owned { s with
      closingIDs := s.closingIDs.erase p
      ids := Function.update s.ids p false
      slot := Function.update s.slot p .free } := by
  refine ⟨fun q => ?_, h.fresh, h.known, h.reaper⟩
  cases h.slotted q
  constructor <;> simp only [Function.update_apply, Finset.mem_erase] <;> grind

/-- Whoever a live token leads to is its participant. -/
theorem Owned.pid_of_active (h : s.Owned) {c : ClientId} {p : ParticipantID}
    (hactive : s.active p = some c) : (s.life c).pid = some p := by
  have hheld := (h.slotted p).held c ((h.slotted p).active c hactive)
  simp only [hactive, reduceCtorEq, and_false, or_false, false_or] at hheld
  exact hheld.1

/-- **Every event keeps the slots owned.** -/
theorem Owned.step (h : s.Owned) {e : Event} (hstep : s.Step e t) : t.Owned := by
  -- a connection with a stage of its own has a participant
  have hpid : ∀ c, (∀ p, (s.life c).kind ≠ .entering p) → (s.life c).kind ≠ .outside →
      (s.life c).kind ≠ .over → ∃ p, (s.life c).pid = some p := by
    intro c he ho hv
    cases hc : (s.life c).pid with
    | some p => exact ⟨p, rfl⟩
    | none =>
      rcases h.known c hc with hk | ⟨p, hk⟩ | hk
      · exact absurd hk ho
      · exact absurd hk (he p)
      · exact absurd hk hv
  cases hstep with
  | draw next hnext =>
    exact h.congr (fun _ => rfl) (fun _ => rfl) (fun _ => rfl) rfl rfl rfl rfl rfl hnext rfl rfl
  | join c hstage => exact h.join hstage
  | enter c p hstage => exact h.enter hstage
  | resume c p previous armed hstage hp => exact h.resume hstage hp
  | takeover c p previous hstage hp hactive => exact h.takeover hstage hp hactive
  | proceed c previous hstage hover =>
    obtain ⟨p, hp⟩ := hpid c (by simp [Life.kind, hstage, Stage.kind])
      (by simp [Life.kind, hstage, Stage.kind]) (by simp [Life.kind, hstage, Stage.kind])
    exact h.proceed hstage hp hover
  | admission c p hstage hp hclosed =>
    refine (h.withLife (l := { s.life c with
      stage := .announcing
      shown := fun q => (s.life c).shown q || (q ≠ p && s.ids q && (s.pending q).isNone) })
      ?_ rfl rfl).congr (fun _ => rfl) (fun _ => rfl) (fun _ => rfl) rfl rfl rfl rfl rfl le_rfl rfl rfl
    simp [Life.kind, hstage, Stage.kind]
  | admissionFail c hstage =>
    refine (h.withStage c .closing ?_).withMembers _
    simp [Life.kind, hstage, Stage.kind]
  | announce c p hstage hp =>
    have htell := h.withTold (s.Hears c) p true
    have hlife : s.tell (s.Hears c) p true c = s.life c := by simp [Session.tell, Hears]
    exact htell.withLife (by simp [hlife, Life.kind, hstage, Stage.kind]) (by simp [hlife])
      (by simp [hlife])
  | fail c intentional hstage =>
    refine h.withLife ?_ rfl rfl
    rcases hstage with ⟨hstage, -⟩ | hstage <;> simp [Life.kind, hstage, Stage.kind]
  | depart c hstage =>
    refine (h.withStage c .ending ?_).withMembers _
    simp [Life.kind, hstage, Stage.kind]
  | part c p hstage hp => exact h.part hstage hp
  | settleSuperseded c d hstage hd =>
    obtain ⟨p, hp⟩ := hpid c (by simp [Life.kind, hstage, Stage.kind, hd])
      (by simp [Life.kind, hstage, Stage.kind, hd]) (by simp [Life.kind, hstage, Stage.kind, hd])
    exact h.settleSuperseded hstage hp hd
  | settleRemove c d hstage hd =>
    refine h.withStage _ _ ?_
    simp [Life.kind, hstage, Stage.kind, hd]
  | settleGrace c p d hstage hp hd => exact h.settleGrace hstage hp hd
  | leave c p hstage hp => exact h.leave hstage hp
  | castLeft c p hstage hp =>
    have hlife : (s.tell (· ∈ s.members) p false c).stage = .casting ∧
        (s.tell (· ∈ s.members) p false c).pid = some p := by
      simp only [Session.tell]
      split <;> exact ⟨hstage, hp⟩
    exact (h.withTold (· ∈ s.members) p false).castLeft hlife.1 hlife.2
  | notify c d p clients hstage hp hd =>
    have hd' := h.withLife (c := d)
      (l := { s.life d with shown := Function.update (s.life d).shown p false }) rfl rfl rfl
    refine hd'.withLife ?_ rfl rfl
    by_cases hcd : c = d
    · subst hcd
      simp [Session.setLife, Life.kind, hstage, Stage.kind]
    · simp [Session.setLife, hcd, Life.kind, hstage, Stage.kind]
  | arm c p hstage hp => exact h.arm hstage hp
  | quit c hstage => exact h.quit hstage
  | expire c p hp hpending => exact h.expire hp hpending
  | reapLeave c p hreaping hp => exact h.reapLeave hreaping hp
  | close closing hclosing => exact h.close hclosing
  | closeLeave p hp => exact h.closeLeave hp

/-- **The slots are owned in every state of every run.** -/
theorem Owned.reachable {timeout : Nat} {ok : Session → Event → Prop}
    (h : (lts timeout).Reachable ok s) : s.Owned :=
  h.invariant (fun s₀ (hs : s₀ = .start timeout) => hs ▸ .start timeout)
    fun _ _ _ ho _ htr => ho.step htr

/-! ## Where a slot is released -/

/-- `c` serves `p` and has not begun to disconnect. -/
def Connected (s : Session) (c : ClientId) (p : ParticipantID) : Prop :=
  (s.life c).kind = .entering p ∨
    (s.life c).pid = some p ∧ ((s.life c).kind = .present ∨ ∃ b, (s.life c).kind = .waiting b)

/-- A slot held by a connection that has let go of `p` is no other's. -/
theorem Slotted.not_connected {p : ParticipantID} (h : s.Slotted p) {c : ClientId}
    (hpid : (s.life c).pid = some p) (hkind : (s.life c).kind = .yielding ∨ (s.life c).kind = .over)
    (howner : s.slot p = .held c ∨ s.slot p = .reaping c) (c' : ClientId) :
    ¬ s.Connected c' p := by
  have htop := h.top c c'
  have hlower := h.lower c c' hpid
  have hrank := h.rank c c' hpid
  have hentering := h.entering c'
  rintro (hk | ⟨hp, hk⟩) <;> grind

/-- **No event frees a slot under a connection that serves its participant.** -/
theorem Owned.released (h : s.Owned) {e : Event} (hstep : s.Step e t) {p : ParticipantID}
    (hp : s.ids p = true) (hfree : t.ids p = false) (c : ClientId) : ¬ s.Connected c p := by
  cases hstep <;> simp only [setStage, setLife, Function.update_apply] at hfree
  case leave c' q hstage hpid =>
    have hs := h.slotted q
    have hkind : (s.life c').kind = .yielding := by rw [Life.kind, hstage]; rfl
    obtain rfl : p = q := by grind
    exact hs.not_connected hpid (Or.inl hkind) (Or.inl (hs.yielding c' hpid hkind)) c
  case reapLeave c' q hreaping hpid =>
    have hs := h.slotted q
    have hslot := hs.reaper c' hpid hreaping
    obtain rfl : p = q := by grind
    exact hs.not_connected hpid (Or.inr (hs.reaping c' hslot).2.2.1) (Or.inr hslot) c
  case closeLeave q hq =>
    have hs := h.slotted q
    have hslot := hs.closer hq
    have hdone := hs.done c
    have hentering := hs.entering c
    obtain rfl : p = q := by grind
    rintro (hk | ⟨hp, hk⟩) <;> grind
  all_goals grind

/-- A closed hub keeps no pending entry. -/
def Shut (s : Session) : Prop := s.closed = true → ∀ p, s.pending p = none

theorem Shut.step (h : s.Shut) {e : Event} (hstep : s.Step e t) : t.Shut := by
  unfold Shut at h ⊢
  cases hstep <;> simp only [setStage, setLife, Function.update_apply] <;>
    grind [Session.givesUp]

theorem Shut.reachable {timeout : Nat} {ok : Session → Event → Prop}
    (h : (lts timeout).Reachable ok s) : s.Shut :=
  h.invariant (fun s₀ (hs : s₀ = .start timeout) => hs ▸ fun _ _ => rfl)
    fun _ _ _ hm _ htr => hm.step htr

end Session

end SlowMeet.Signaling
