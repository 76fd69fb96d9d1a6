import SlowMeet.Signaling.Ownership

/-!
# Rosters agree with the meeting

The roster of an admitted client is a replay followed by the joins and the
departures it was told of. `Rostered` says what a client shows while joins
and departures are under way; with nothing under way it is the meeting less
the pending participants.
-/

namespace SlowMeet.Signaling

/-- Before its admission. -/
def Stage.early : Stage → Bool
  | .outside | .entering _ | .waiting _ | .joining => true
  | _ => false

/-- Admitted, and neither failed nor leaving. -/
def Stage.admitted : Stage → Bool
  | .announcing | .settled => true
  | _ => false

/-- Between its admission and the end of its membership. -/
def Stage.inRoom : Stage → Bool
  | .announcing | .settled | .closing => true
  | _ => false

/-- From the end of the wait to the decision about the slot. -/
def Stage.current : Stage → Bool
  | .joining | .announcing | .settled | .closing | .ending | .parting _ | .removing => true
  | _ => false

theorem Stage.kind_of_current {stage : Stage} (h : stage.current = true) :
    stage.kind = .present ∨ stage.kind = .superseded ∨ stage.kind = .yielding := by
  cases stage <;> simp_all [Stage.current, Stage.kind]

namespace Session

variable {s t : Session} {p : ParticipantID}

attribute [local grind] Stage.early Stage.admitted Stage.inRoom Stage.current

theorem setLife_life (s : Session) (c : ClientId) (l : Life) (d : ClientId) :
    (s.setLife c l).life d = if d = c then l else s.life d := by
  simp [setLife, Function.update_apply]

theorem setStage_life (s : Session) (c : ClientId) (stage : Stage) (d : ClientId) :
    (s.setStage c stage).life d = if d = c then { s.life c with stage := stage } else s.life d :=
  s.setLife_life c _ d

/-- What a connection's stage says about its flags. -/
structure Flagged (s : Session) : Prop where
  unannounced : ∀ c, (s.life c).stage.early = true ∨ (s.life c).stage = .announcing →
    (s.life c).announced = false
  settled : ∀ c, (s.life c).stage = .settled → (s.life c).announced = true
  untaken : ∀ c, (s.life c).stage = .outside ∨ (∃ p, (s.life c).stage = .entering p) →
    (s.life c).takeover = false
  joinedAt : ∀ c, s.joinedAt c ≤ s.admissions

/-- One connection moves: its flags have to go with its stage. -/
theorem Flagged.update (h : s.Flagged) (c : ClientId) (l : Life)
    (hlife : t.life = Function.update s.life c l) (hjoined : ∀ d, t.joinedAt d ≤ t.admissions)
    (hunannounced : l.stage.early = true ∨ l.stage = .announcing → l.announced = false)
    (hsettled : l.stage = .settled → l.announced = true)
    (huntaken : l.stage = .outside ∨ (∃ p, l.stage = .entering p) → l.takeover = false) :
    t.Flagged := by
  refine ⟨fun d => ?_, fun d => ?_, fun d => ?_, hjoined⟩
  all_goals
    rw [hlife, Function.update_apply]
    split
  · exact hunannounced
  · exact h.unannounced d
  · exact hsettled
  · exact h.settled d
  · exact huntaken
  · exact h.untaken d

/-- A joiner is not admitted before it joins. -/
theorem Flagged.joinedAt_update (h : s.Flagged) (c : ClientId) (d : ClientId) :
    Function.update s.joinedAt c s.admissions d ≤ s.admissions := by
  rw [Function.update_apply]
  split
  · exact le_rfl
  · exact h.joinedAt d

/-- Whoever is shown a join or a departure keeps its flags. -/
theorem Flagged.told (h : s.Flagged) (hlife : ∀ d, (t.life d).stage = (s.life d).stage ∧
      (t.life d).announced = (s.life d).announced ∧ (t.life d).takeover = (s.life d).takeover)
    (hjoined : ∀ d, t.joinedAt d ≤ t.admissions) : t.Flagged := by
  refine ⟨fun d => ?_, fun d => ?_, fun d => ?_, hjoined⟩
  all_goals
    obtain ⟨hstage, hannounced, htakeover⟩ := hlife d
    rw [hstage]
  · rw [hannounced]
    exact h.unannounced d
  · rw [hannounced]
    exact h.settled d
  · rw [htakeover]
    exact h.untaken d

theorem Flagged.step (h : s.Flagged) {e : Event} (hstep : s.Step e t) : t.Flagged := by
  have hjoined := h.joinedAt
  cases hstep with
  | draw => exact h.told (fun _ => ⟨rfl, rfl, rfl⟩) hjoined
  | join c hstage =>
    have hflags := h.unannounced c (Or.inl (by rw [hstage]; rfl))
    have htakeover := h.untaken c (Or.inl hstage)
    exact h.update c _ rfl (h.joinedAt_update c) (fun _ => hflags) (by simp) fun _ => htakeover
  | enter c p hstage =>
    have hflags := h.unannounced c (Or.inl (by rw [hstage]; rfl))
    exact h.update c _ rfl hjoined (fun _ => hflags) (by simp) (by simp)
  | resume c p previous armed hstage hp =>
    have hflags := h.unannounced c (Or.inl (by rw [hstage]; rfl))
    exact h.update c _ rfl (h.joinedAt_update c) (fun _ => hflags) (by simp) (by simp)
  | takeover c p previous hstage hp hactive =>
    have hflags := h.unannounced c (Or.inl (by rw [hstage]; rfl))
    exact h.update c _ rfl hjoined (fun _ => hflags) (by simp) (by simp)
  | proceed c previous hstage hover =>
    have hflags := h.unannounced c (Or.inl (by rw [hstage]; rfl))
    exact h.update c _ rfl hjoined (fun _ => hflags) (by simp) (by simp)
  | admission c p hstage hpid hclosed =>
    have hflags := h.unannounced c (Or.inl (by rw [hstage]; rfl))
    exact h.update c _ rfl (fun d => (hjoined d).trans (Nat.le_succ _)) (fun _ => hflags) (by simp)
      (by simp)
  | admissionFail c hstage => exact h.update c _ rfl hjoined (by simp [Stage.early]) (by simp) (by simp)
  | announce c p hstage hpid =>
    have htold : Flagged { s with life := s.tell (s.Hears c) p true } := by
      refine h.told (fun d => ?_) hjoined
      simp only [tell]
      split <;> exact ⟨rfl, rfl, rfl⟩
    exact htold.update c _ rfl hjoined (by simp [Stage.early]) (fun _ => rfl) (by simp)
  | fail c intentional hstage => exact h.update c _ rfl hjoined (by simp [Stage.early]) (by simp) (by simp)
  | depart c hstage => exact h.update c _ rfl hjoined (by simp [Stage.early]) (by simp) (by simp)
  | part c p hstage hpid => exact h.update c _ rfl hjoined (by simp [Stage.early]) (by simp) (by simp)
  | settleSuperseded c d hstage hd =>
    exact h.update c _ rfl hjoined (by simp [Stage.early]) (by simp) (by simp)
  | settleRemove c d hstage hd =>
    exact h.update c _ rfl hjoined (by simp [Stage.early]) (by simp) (by simp)
  | settleGrace c p d hstage hpid hd hgive =>
    exact h.update c _ rfl hjoined (by simp [Stage.early]) (by simp) (by simp)
  | leave c p hstage hpid =>
    refine h.update c _ rfl hjoined ?_ ?_ ?_
    all_goals
      dsimp only
      split <;> simp [Stage.early]
  | castLeft c p hstage hpid =>
    have htold : Flagged { s with life := s.tell (· ∈ s.members) p false } := by
      refine h.told (fun d => ?_) hjoined
      simp only [tell]
      split <;> exact ⟨rfl, rfl, rfl⟩
    exact htold.update c _ rfl hjoined (by simp [Stage.early]) (by simp) (by simp)
  | notify c d p clients hstage hpid hd =>
    have htold : (s.setLife d { s.life d with
        shown := Function.update (s.life d).shown p false }).Flagged := by
      refine h.told (fun d' => ?_) hjoined
      simp only [setLife, Function.update_apply]
      split
      · next hd' => exact hd' ▸ ⟨rfl, rfl, rfl⟩
      · exact ⟨rfl, rfl, rfl⟩
    exact htold.update c _ rfl hjoined (by simp [Stage.early]) (by simp) (by simp)
  | arm c p hstage hpid => exact h.update c _ rfl hjoined (by simp [Stage.early]) (by simp) (by simp)
  | quit c hstage => exact h.update c _ rfl hjoined (by simp [Stage.early]) (by simp) (by simp)
  | expire c p hpid hp =>
    exact h.update c _ rfl hjoined (h.unannounced c) (h.settled c) (h.untaken c)
  | reapLeave c p hreaping hpid =>
    exact h.update c _ rfl hjoined (h.unannounced c) (h.settled c) (h.untaken c)
  | close closing hclosing => exact h.told (fun _ => ⟨rfl, rfl, rfl⟩) hjoined
  | closeLeave p hp => exact h.told (fun _ => ⟨rfl, rfl, rfl⟩) hjoined

/-- Who has been in the room: a connection counts in no departure, and shows
nobody, before its admission. -/
structure Membered (s : Session) : Prop where
  admitted : ∀ c, (s.life c).stage.admitted = true → c ∈ s.members
  member : ∀ c ∈ s.members, (s.life c).stage.inRoom = true
  parting : ∀ c d, (s.life c).stage = .parting d →
    ∀ c' ∈ d.clients, (s.life c').stage.early = false
  notifying : ∀ c clients, (s.life c).stage = .notifying clients →
    ∀ c' ∈ clients, (s.life c').stage.early = false
  unseen : ∀ c, (s.life c).stage.early = true → (s.life c).shown = fun _ => false

theorem Membered.late (h : s.Membered) (c : ClientId) (hc : c ∈ s.members) :
    (s.life c).stage.early = false := by
  have hroom := h.member c hc
  cases hstage : (s.life c).stage <;> simp_all [Stage.inRoom, Stage.early]

/-- One connection moves, and no connection back to before its admission. -/
theorem Membered.update (h : s.Membered) (c : ClientId) (l : Life)
    (hlife : t.life = Function.update s.life c l) (hmembers : ∀ d, d ≠ c → (d ∈ t.members ↔ d ∈ s.members))
    (hadmitted : l.stage.admitted = false ∨ c ∈ t.members)
    (hmember : c ∈ t.members → l.stage.inRoom = true)
    (hparting : ∀ d, l.stage = .parting d → ∀ c' ∈ d.clients, c' = c ∨ (s.life c').stage.early = false)
    (hnotifying : ∀ clients, l.stage = .notifying clients →
      ∀ c' ∈ clients, (s.life c').stage.early = false)
    (hearly : l.stage.early = false ∨
      (s.life c).stage.early = true ∧ l.shown = (s.life c).shown) : t.Membered := by
  have hlate : ∀ d, (s.life d).stage.early = false → (t.life d).stage.early = false := by
    intro d hd
    rw [hlife, Function.update_apply]
    split
    · next hdc =>
      subst hdc
      rcases hearly with hl | ⟨hs, -⟩
      · exact hl
      · simp [hs] at hd
    · exact hd
  refine ⟨fun d => ?_, fun d => ?_, fun d => ?_, fun d => ?_, fun d => ?_⟩
  all_goals by_cases hd : d = c
  · subst hd
    rw [hlife, Function.update_self]
    intro hl
    rcases hadmitted with hnot | hc
    · simp [hl] at hnot
    · exact hc
  · rw [hlife, Function.update_of_ne hd, hmembers d hd]
    exact h.admitted d
  · subst hd
    rw [hlife, Function.update_self]
    exact hmember
  · rw [hlife, Function.update_of_ne hd, hmembers d hd]
    exact h.member d
  · subst hd
    intro departure hst c' hc'
    have hst' : l.stage = .parting departure := by rwa [hlife, Function.update_self] at hst
    rcases hparting departure hst' c' hc' with rfl | hc'
    · rw [hst]
      rfl
    · exact hlate c' hc'
  · intro departure hst c' hc'
    have hst' : (s.life d).stage = .parting departure := by
      rwa [hlife, Function.update_of_ne hd] at hst
    exact hlate c' (h.parting d departure hst' c' hc')
  · subst hd
    intro clients hst c' hc'
    have hst' : l.stage = .notifying clients := by rwa [hlife, Function.update_self] at hst
    exact hlate c' (hnotifying clients hst' c' hc')
  · intro clients hst c' hc'
    have hst' : (s.life d).stage = .notifying clients := by
      rwa [hlife, Function.update_of_ne hd] at hst
    exact hlate c' (h.notifying d clients hst' c' hc')
  · subst hd
    rw [hlife, Function.update_self]
    intro hl
    rcases hearly with hnot | ⟨hs, hshown⟩
    · simp [hl] at hnot
    · rw [hshown]
      exact h.unseen d hs
  · rw [hlife, Function.update_of_ne hd]
    exact h.unseen d

/-- Only connections that have been admitted are shown anything. -/
theorem Membered.told (h : s.Membered) (hmembers : t.members = s.members)
    (hlife : ∀ d, (t.life d).stage = (s.life d).stage ∧
      ((t.life d).shown = (s.life d).shown ∨ (s.life d).stage.early = false)) : t.Membered := by
  have hstage : ∀ d, (t.life d).stage = (s.life d).stage := fun d => (hlife d).1
  refine ⟨fun d => ?_, fun d => ?_, fun d => ?_, fun d => ?_, fun d hd => ?_⟩
  all_goals simp only [hstage, hmembers] at *
  · exact h.admitted d
  · exact h.member d
  · exact h.parting d
  · exact h.notifying d
  · rcases (hlife d).2 with hshown | hlate
    · rw [hshown]
      exact h.unseen d hd
    · simp [hd] at hlate

/-- A connection moves within its stage. -/
theorem Membered.moved (h : s.Membered) (c : ClientId) (l : Life)
    (hlife : t.life = Function.update s.life c l) (hmembers : t.members = s.members)
    (hstage : l.stage = (s.life c).stage) (hshown : l.shown = (s.life c).shown) : t.Membered := by
  refine h.update c l hlife (fun _ _ => by rw [hmembers]) ?_ ?_ ?_ ?_ ?_
  all_goals rw [hstage]
  · rw [hmembers]
    cases hl : (s.life c).stage.admitted with
    | false => exact Or.inl rfl
    | true => exact Or.inr (h.admitted c hl)
  · rw [hmembers]
    exact h.member c
  · exact fun d hst c' hc' => Or.inr (h.parting c d hst c' hc')
  · exact h.notifying c
  · cases hl : (s.life c).stage.early with
    | false => exact Or.inl rfl
    | true => exact Or.inr ⟨rfl, hshown⟩

theorem Membered.step (h : s.Membered) {e : Event} (hstep : s.Step e t) : t.Membered := by
  have hlate := h.late
  have hmember := h.member
  cases hstep with
  | draw => exact h.told rfl fun _ => ⟨rfl, Or.inl rfl⟩
  | join c hstage | enter c p hstage | resume c p previous armed hstage hp
  | takeover c p previous hstage hp hactive | proceed c previous hstage hover =>
    have hearly : (s.life c).stage.early = true := by rw [hstage]; rfl
    refine h.update c _ rfl (fun _ _ => Iff.rfl) (Or.inl rfl) ?_ (by simp) (by simp)
      (Or.inr ⟨hearly, rfl⟩)
    intro hc
    simp [hlate c hc] at hearly
  | admission c p hstage hpid hclosed =>
    exact h.update c _ rfl (fun d hd => by simp [hd]) (Or.inr (by simp)) (fun _ => rfl)
      (by simp) (by simp) (Or.inl rfl)
  | admissionFail c hstage =>
    exact h.update c _ rfl (fun d hd => by simp [hd]) (Or.inl rfl) (fun _ => rfl) (by simp)
      (by simp) (Or.inl rfl)
  | announce c p hstage hpid =>
    have hc : c ∈ s.members := h.admitted c (by rw [hstage]; rfl)
    have htold : Membered { s with life := s.tell (s.Hears c) p true } := by
      refine h.told rfl fun d => ?_
      simp only [tell]
      split
      · next hd => exact ⟨rfl, Or.inr (hlate d hd.1)⟩
      · exact ⟨rfl, Or.inl rfl⟩
    exact htold.update c _ rfl (fun _ _ => Iff.rfl) (Or.inr hc) (fun _ => rfl) (by simp)
      (by simp) (Or.inl rfl)
  | fail c intentional hstage =>
    exact h.update c _ rfl (fun _ _ => Iff.rfl) (Or.inl rfl) (fun _ => rfl) (by simp) (by simp)
      (Or.inl rfl)
  | depart c hstage =>
    exact h.update c _ rfl (fun d hd => by simp [hd]) (Or.inl rfl) (by simp) (by simp) (by simp)
      (Or.inl rfl)
  | part c p hstage hpid =>
    refine h.update c _ rfl (fun _ _ => Iff.rfl) (Or.inl rfl) ?_ ?_ (by simp) (Or.inl rfl)
    · intro hc
      have hroom := hmember c hc
      rw [hstage] at hroom
      exact absurd hroom (by simp [Stage.inRoom])
    · rintro _ ⟨⟩ c' hc'
      simp only [departure, Finset.mem_filter] at hc'
      exact Or.inr (hlate c' hc'.1)
  | settleSuperseded c d hstage hd | settleRemove c d hstage hd | arm c p hstage hpid
  | quit c hstage =>
    refine h.update c _ rfl (fun _ _ => Iff.rfl) (Or.inl rfl) ?_ (by simp) (by simp) (Or.inl rfl)
    intro hc
    have hroom := hmember c hc
    rw [hstage] at hroom
    exact absurd hroom (by simp [Stage.inRoom])
  | settleGrace c p d hstage hpid hd hgive =>
    refine h.update c _ rfl (fun _ _ => Iff.rfl) (Or.inl rfl) ?_ (by simp) ?_ (Or.inl rfl)
    · intro hc
      have hroom := hmember c hc
      rw [hstage] at hroom
      exact absurd hroom (by simp [Stage.inRoom])
    · rintro _ ⟨⟩
      exact h.parting c d hstage
  | leave c p hstage hpid =>
    have hc : c ∉ s.members := fun hc => by
      have hroom := hmember c hc
      rw [hstage] at hroom
      exact absurd hroom (by simp [Stage.inRoom])
    refine h.update c _ rfl (fun _ _ => Iff.rfl) ?_ (fun hc' => absurd hc' hc) ?_ ?_ ?_
    all_goals
      dsimp only
      split <;> simp [Stage.admitted, Stage.early]
  | castLeft c p hstage hpid =>
    have hc : c ∉ s.members := fun hc => by
      have hroom := hmember c hc
      rw [hstage] at hroom
      exact absurd hroom (by simp [Stage.inRoom])
    have htold : Membered { s with life := s.tell (· ∈ s.members) p false } := by
      refine h.told rfl fun d => ?_
      simp only [tell]
      split
      · next hd => exact ⟨rfl, Or.inr (hlate d hd)⟩
      · exact ⟨rfl, Or.inl rfl⟩
    exact htold.update c _ rfl (fun _ _ => Iff.rfl) (Or.inl rfl) (fun hc' => absurd hc' hc) (by simp)
      (by simp) (Or.inl rfl)
  | notify c d p clients hstage hpid hd =>
    have hc : c ∉ s.members := fun hc => by
      have hroom := hmember c hc
      rw [hstage] at hroom
      exact absurd hroom (by simp [Stage.inRoom])
    have htold : (s.setLife d { s.life d with
        shown := Function.update (s.life d).shown p false }).Membered := by
      refine h.told rfl fun d' => ?_
      rw [setLife_life]
      split
      · next hd' =>
        subst hd'
        exact ⟨rfl, Or.inr (h.notifying c clients hstage d' hd)⟩
      · exact ⟨rfl, Or.inl rfl⟩
    refine htold.update c _ rfl (fun _ _ => Iff.rfl) (Or.inl rfl) (fun hc' => absurd hc' hc) (by simp) ?_
      (Or.inl rfl)
    rintro _ ⟨⟩ c' hc'
    have hlate' := h.notifying c clients hstage c' (Finset.mem_of_mem_erase hc')
    rw [setLife_life]
    split
    · next hd' => exact hd' ▸ hlate'
    · exact hlate'
  | expire c p hpid hp =>
    exact h.moved c _ rfl rfl rfl rfl
  | reapLeave c p hreaping hpid =>
    exact h.moved c _ rfl rfl rfl rfl
  | close closing hclosing => exact h.told rfl fun _ => ⟨rfl, Or.inl rfl⟩
  | closeLeave p hp => exact h.told rfl fun _ => ⟨rfl, Or.inl rfl⟩

/-- The room has been told of the participant of `c`. -/
def Told (s : Session) (c : ClientId) : Prop :=
  (s.life c).stage.current = true ∧ ((s.life c).announced = true ∨ (s.life c).takeover = true) ∨
    ∃ b, (s.life c).stage = .waiting b ∧ (s.life c).takeover = true ∧ (s.life b).stage = .over

/-- A departure of `q` is still to be told to `d`. -/
def Leaving (s : Session) (d : ClientId) (q : ParticipantID) : Prop :=
  ∃ c, (s.life c).pid = some q ∧
    ((s.life c).stage = .casting ∨ ∃ clients, (s.life c).stage = .notifying clients ∧ d ∈ clients)

/-- What the rosters show while joins and departures are under way. -/
structure Rostered (s : Session) : Prop where
  superseded : ∀ c d, (s.life c).stage = .parting d → d.superseded = true →
    (s.life c).announced = true ∨ (s.life c).takeover = true
  waiting : ∀ c b, (s.life c).stage = .waiting b →
    ((s.life c).takeover = true → (s.life b).kind ≠ .notifying) ∧
      ((s.life c).takeover = false → (s.life b).kind = .notifying ∨ (s.life b).kind = .over)
  shows : ∀ c d q, (s.life c).pid = some q → s.Told c → (s.life d).stage.admitted = true →
    (s.life d).pid ≠ some q → (s.life d).shown q = true
  phantom : ∀ d q, (s.life d).stage.admitted = true → (s.life d).pid ≠ some q →
    (s.life d).shown q = true → s.Leaving d q ∨ ∃ c, s.slot q = .held c ∧
      ((s.life c).announced = true ∨ (s.life c).takeover = true ∨ s.joinedAt c < s.admittedAt d)

/-- Nobody is admitted while an expiry is about to leave the meeting, or
while a departure that keeps the slot already knows whom it will tell; and no
connection that some roster shows leaves, or is replaced, unannounced. -/
def tellsRoom (s : Session) : Event → Prop
  | .admission _ true => ∀ c, (s.life c).reaping = false
  | .settle c => ∀ d p, (s.life c).stage = .parting d → (s.life c).pid = some p →
      d.superseded = false → s.givesUp c d = false →
        ∀ c', (s.life c').stage.admitted = true → (s.life c').pid ≠ some p → c' ∈ d.clients
  | .leave c => (s.life c).announced = true ∨ ∀ d, (s.life d).stage.admitted = true →
      (s.life c).takeover = false ∧ s.admittedAt d ≤ s.joinedAt c
  | .part c => (∃ p, (s.life c).pid = some p ∧ s.active p = some c) ∨
      (s.life c).announced = true ∨ (s.life c).takeover = true
  | _ => True

/-- The flags by which a holder of a slot accounts for a roster that shows
its participant. -/
def Known (s : Session) (c d : ClientId) : Prop :=
  (s.life c).announced = true ∨ (s.life c).takeover = true ∨ s.joinedAt c < s.admittedAt d

/-- An event of one connection that nobody is told about: the rosters stay
what they are, so only the places that account for them matter. -/
theorem Rostered.frame (h : s.Rostered) {c : ClientId}
    (hlife : ∀ d, d ≠ c → t.life d = s.life d)
    (hadmitted : (t.life c).stage.admitted = true → (s.life c).stage.admitted = true ∧
      (t.life c).shown = (s.life c).shown ∧ (t.life c).pid = (s.life c).pid)
    (hleaving : ∀ d q, s.Leaving d q → t.Leaving d q)
    (hheld : ∀ d q c', (s.life d).stage.admitted = true → (s.life d).pid ≠ some q →
      s.slot q = .held c' → s.Known c' d → t.Leaving d q ∨ ∃ c'', t.slot q = .held c'' ∧ t.Known c'' d)
    (htold : ∀ c' q, (t.life c').pid = some q → t.Told c' →
      ∃ c'', (s.life c'').pid = some q ∧ s.Told c'')
    (hsuperseded : ∀ d, (t.life c).stage = .parting d → d.superseded = true →
      (t.life c).announced = true ∨ (t.life c).takeover = true)
    (hwaiting : ∀ c' b, (t.life c').stage = .waiting b →
      ((t.life c').takeover = true → (t.life b).kind ≠ .notifying) ∧
        ((t.life c').takeover = false → (t.life b).kind = .notifying ∨ (t.life b).kind = .over)) :
    t.Rostered := by
  have hadm : ∀ d, (t.life d).stage.admitted = true → (s.life d).stage.admitted = true ∧
      (t.life d).shown = (s.life d).shown ∧ (t.life d).pid = (s.life d).pid := by
    intro d hd
    by_cases hdc : d = c
    · subst hdc
      exact hadmitted hd
    · rw [hlife d hdc] at hd ⊢
      exact ⟨hd, rfl, rfl⟩
  refine ⟨fun c' d hst hsup => ?_, hwaiting, ?_, ?_⟩
  · by_cases hc : c' = c
    · subst hc
      exact hsuperseded d hst hsup
    · rw [hlife c' hc] at hst ⊢
      exact h.superseded c' d hst hsup
  · intro c' d q hp htell hd hne
    obtain ⟨h1, h2, h3⟩ := hadm d hd
    obtain ⟨c'', hp'', htell''⟩ := htold c' q hp htell
    rw [h2]
    exact h.shows c'' d q hp'' htell'' h1 (h3 ▸ hne)
  · intro d q hd hne hshown
    obtain ⟨h1, h2, h3⟩ := hadm d hd
    rcases h.phantom d q h1 (h3 ▸ hne) (h2 ▸ hshown) with hl | ⟨c', hslot, hknown⟩
    · exact Or.inl (hleaving d q hl)
    · exact hheld d q c' h1 (h3 ▸ hne) hslot hknown

/-- Whoever was leaving for a roster still is, if the connection that moved
was not. -/
theorem Leaving.frame {c : ClientId} {d : ClientId} {q : ParticipantID} (h : s.Leaving d q)
    (hlife : ∀ d, d ≠ c → t.life d = s.life d)
    (hc : (s.life c).pid = none ∨ (s.life c).stage ≠ .casting ∧
      ∀ clients, (s.life c).stage ≠ .notifying clients) : t.Leaving d q := by
  obtain ⟨c', hp, hst⟩ := h
  have hne : c' ≠ c := by
    rintro rfl
    rcases hc with hc | ⟨h1, h2⟩
    · simp [hc] at hp
    · rcases hst with hst | ⟨clients, hst, -⟩
      · exact h1 hst
      · exact h2 clients hst
  exact ⟨c', by rw [hlife c' hne]; exact hp, by rw [hlife c' hne]; exact hst⟩

/-! ## The chain of a participant's connections -/

/-- A connection of `p` that has not let go of it finds the slot held. -/
theorem Slotted.held_of_current (h : s.Slotted p) {c : ClientId} (hp : (s.life c).pid = some p)
    (hc : (s.life c).stage.current = true ∨ ∃ b, (s.life c).stage = .waiting b) :
    ∃ c', s.slot p = .held c' := by
  have hkind : (s.life c).kind ≠ .casting ∧ (s.life c).kind ≠ .notifying ∧
      (s.life c).kind ≠ .over := by
    rcases hc with hc | ⟨b, hb⟩
    · rcases Stage.kind_of_current hc with hk | hk | hk <;> simp [Life.kind, hk]
    · simp [Life.kind, hb, Stage.kind]
  -- an owner that has handed `p` on is the last of the chain, and not waiting
  have key : ∀ c', (s.slot p = .graced c' ∨ s.slot p = .reaping c') → (s.life c').pid = some p →
      (s.life c').kind ≠ .notifying ∧ (s.life c').kind ≠ .over := by
    intro c' hslot hp'
    have htop := h.top c' c (Or.inr hslot) hp' hp
    have hlower := h.lower c' c hp' hp
    have hrank := h.rank c c' hp hp'
    grind
  have hdone := h.done c hp
  cases hslot : s.slot p with
  | free => grind
  | held c' => exact ⟨c', rfl⟩
  | graced c' =>
    have := h.graced c' hslot
    grind
  | reaping c' =>
    have := h.reaping c' hslot
    grind
  | closing => grind

/-- While a connection of `p` tells the room that `p` left, no other one has
shown `p` to it. -/
theorem Slotted.not_told_of_notifying (h : s.Slotted p) {c : ClientId} (c' : ClientId)
    (hp : (s.life c).pid = some p) (hkind : (s.life c).kind = .notifying)
    (hp' : (s.life c').pid = some p) : ¬ s.Told c' := by
  have hlower := h.lower
  have hrank := h.rank
  have hwaiting := h.waiting
  rintro (⟨hcur, -⟩ | ⟨b, hb, -, hover⟩)
  · have hkind' : (s.life c').kind ≠ .over ∧ (s.life c').kind ≠ .notifying ∧
        ∀ b, (s.life c').kind ≠ .waiting b := by
      rcases Stage.kind_of_current hcur with hk | hk | hk <;> simp [Life.kind, hk]
    grind
  · have hb' : (s.life c').kind = .waiting b := by simp [Life.kind, hb, Stage.kind]
    have hover' : (s.life b).kind = .over := by simp [Life.kind, hover, Stage.kind]
    grind

/-- Nobody waits for the holder of a slot. -/
theorem Owned.not_awaited (h : s.Owned) {c : ClientId} (hp : (s.life c).pid = some p)
    (hheld : s.slot p = .held c) (c' : ClientId) : (s.life c').stage ≠ .waiting c := by
  intro hc'
  have hkind : (s.life c').kind = .waiting c := by simp [Life.kind, hc', Stage.kind]
  cases hp' : (s.life c').pid with
  | none =>
    have hknown := h.known c' hp'
    simp [hkind] at hknown
  | some q =>
    obtain ⟨hq, hrank⟩ := (h.slotted q).waiting c' c hp' hkind
    obtain rfl : q = p := by simpa [hp] using hq.symm
    have htop := (h.slotted q).top c c' (Or.inl hheld) hp hp'
    omega

/-! ## One lemma for each event -/

/-- The replay shows the newcomer everyone who has a slot and no pending
entry; whoever holds such a slot joined before. -/
theorem Rostered.admission (h : s.Rostered) (ho : s.Owned) (hf : s.Flagged) (hm : s.Membered)
    {c : ClientId} (hok : s.tellsRoom (.admission c true)) (hstage : (s.life c).stage = .joining)
    (hpid : (s.life c).pid = some p) (hclosed : s.closed = false) :
    Rostered { s.setLife c { s.life c with
        stage := .announcing
        shown := fun q => (s.life c).shown q ||
          (q ≠ p && s.ids q && (s.pending q).isNone) } with
      members := insert c s.members
      admissions := s.admissions + 1
      admittedAt := Function.update s.admittedAt c (s.admissions + 1) } := by
  have hwaiting := h.waiting
  have hsuperseded := h.superseded
  have hunseen : ∀ q, (s.life c).shown q = false := by
    simp [hm.unseen c (by rw [hstage]; rfl)]
  have hold : ∀ c' q, (s.life c').pid = some q → s.Told c' → s.ids q = true ∧ s.pending q = none := by
    intro c' q hp htold
    have hs := ho.slotted q
    obtain ⟨c'', hheld⟩ := hs.held_of_current hp (by
      rcases htold with ⟨hc, -⟩ | ⟨b, hb, -⟩
      · exact Or.inl hc
      · exact Or.inr ⟨b, hb⟩)
    refine ⟨hs.ids.mpr (by simp [hheld]), ?_⟩
    cases hq : s.pending q with
    | none => rfl
    | some entry =>
      have := hs.pending entry.1 entry.2 hq
      simp [hheld] at this
  refine ⟨?_, ?_, ?_, ?_⟩ <;> simp only [Told, Leaving, setLife, Function.update_apply]
  · grind
  · grind [Life.kind, Stage.kind]
  · intro c' d q hp htold hd hne
    have htold' : s.Told c' := by
      simp only [Told]
      grind
    have hp' : (s.life c').pid = some q := by grind
    by_cases hdc : d = c
    · obtain ⟨hids, hpending⟩ := hold c' q hp' htold'
      have hqp : q ≠ p := by grind
      simp [hdc, hids, hpending, hqp]
    · have := h.shows c' d q hp' htold'
      grind
  · intro d q hd hne hshown
    by_cases hdc : d = c
    · subst hdc
      obtain ⟨hqp, hids, hpending⟩ : q ≠ p ∧ s.ids q = true ∧ s.pending q = none := by
        simpa [hunseen, and_assoc] using hshown
      have hs := ho.slotted q
      cases hslot : s.slot q with
      | free => simp [hs.ids, hslot] at hids
      | held c' =>
        have := hf.joinedAt c'
        refine Or.inr ⟨c', rfl, Or.inr (Or.inr ?_)⟩
        rw [if_pos rfl]
        omega
      | graced c' =>
        have := hs.graced c' hslot
        simp [hpending] at this
      | reaping c' =>
        have := hs.reaping c' hslot
        simp [hok c'] at this
      | closing =>
        have := hs.closing hslot
        simp [hclosed] at this
    · rcases h.phantom d q (by simpa [hdc] using hd) (by simpa [hdc] using hne)
        (by simpa [hdc] using hshown) with ⟨c', hp, hst⟩ | ⟨c', hslot, hknown⟩
      · exact Or.inl ⟨c', by grind, by grind⟩
      · exact Or.inr ⟨c', hslot, by grind⟩

/-- The holder of a slot that another connection of its participant has not
let go of took it over. -/
theorem Rostered.taken_of_present (h : s.Rostered) (ho : s.Owned) {c : ClientId} (c' : ClientId)
    (hpid : (s.life c).pid = some p) (hkind : (s.life c).kind = .present)
    (hheld : s.slot p = .held c') (hne : c' ≠ c) : (s.life c').takeover = true := by
  have hs := ho.slotted p
  have hpid' : (s.life c').pid = some p := by
    have hheld' := hs.held c' hheld
    have hentering := hs.entering c'
    grind
  have hlt : s.rank c < s.rank c' := by
    have htop := hs.top c' c (Or.inl hheld) hpid' hpid
    have hrank := hs.rank c' c hpid' hpid
    grind
  obtain ⟨b, hb⟩ : ∃ b, (s.life c').kind = .waiting b := by
    simpa [hkind] using hs.lower c' c hpid' hpid hlt
  have hstage : (s.life c').stage = .waiting b := by
    cases hst : (s.life c').stage <;> simp_all [Life.kind, Stage.kind]
    grind
  by_contra htakeover
  -- it resumed then, so the connection before it and all below have finished
  have hover := (h.waiting c' b hstage).2 (by simpa using htakeover)
  obtain ⟨hb', hrank⟩ := hs.waiting c' b hpid' hb
  have hlower := hs.lower b c hb' hpid
  have hsame := hs.rank b c hb' hpid
  grind

/-- The room shows the newcomer unless it took over, and then it did
before. -/
theorem Rostered.announce (h : s.Rostered) (ho : s.Owned) (hm : s.Membered) {c : ClientId}
    (hstage : (s.life c).stage = .announcing) (hpid : (s.life c).pid = some p) :
    Rostered (setLife { s with life := s.tell (s.Hears c) p true } c
      { s.life c with stage := .settled, joined := true, announced := true }) := by
  have hs := ho.slotted p
  have hkind : (s.life c).kind = .present := by rw [Life.kind, hstage]; rfl
  have hwaiting := h.waiting
  have hsuperseded := h.superseded
  have hadmitted := hm.admitted
  have hholder := fun d => h.taken_of_present ho d hpid hkind
  obtain ⟨c₀, hheld⟩ := hs.held_of_current hpid (Or.inl (by rw [hstage]; rfl))
  refine ⟨?_, ?_, ?_, ?_⟩ <;>
    simp only [Told, Leaving, setLife, Function.update_apply, tell, apply_ite Life.stage,
      apply_ite Life.pid, apply_ite Life.takeover, apply_ite Life.announced, apply_ite Life.shown,
      ite_self, apply_ite Life.kind, Life.kind_mk]
  · grind
  · grind [Life.kind, Stage.kind]
  · intro c' d q hp htold hd hne
    by_cases hc' : c' = c
    · subst hc'
      obtain rfl : p = q := by simpa [hpid] using hp
      have hshows := h.shows c' d p hpid
      have hheld : ∀ b, (s.life c').stage ≠ .waiting b := by simp [hstage]
      have := hadmitted d
      grind [Told, Hears]
    · have hshows := h.shows c' d q
      grind [Told]
  · intro d q hd hne hshown
    by_cases hnew : q = p ∧ s.Hears c d
    · obtain ⟨rfl, -⟩ := hnew
      refine Or.inr ⟨c₀, hheld, ?_⟩
      by_cases hc₀ : c₀ = c
      · simp [hc₀]
      · have := hholder c₀ hheld hc₀
        grind
    · have hbefore : (s.life d).shown q = true := by grind
      rcases h.phantom d q (by grind [Stage.admitted]) (by grind) hbefore with
        ⟨c', hp, hst⟩ | ⟨c', hslot, hknown⟩
      · exact Or.inl ⟨c', by grind, by grind⟩
      · exact Or.inr ⟨c', hslot, by grind⟩

/-- Nobody still shows a participant whose departure the room was told. -/
theorem Rostered.castLeft (h : s.Rostered) (ho : s.Owned) (hm : s.Membered) {c : ClientId}
    (hstage : (s.life c).stage = .casting) (hpid : (s.life c).pid = some p) :
    Rostered (setStage { s with life := s.tell (· ∈ s.members) p false } c .over) := by
  have hs := ho.slotted p
  have hkind : (s.life c).kind = .casting := by rw [Life.kind, hstage]; rfl
  have hfree := hs.casting c hpid hkind
  have hwaiting := h.waiting
  have hsuperseded := h.superseded
  have hadmitted := hm.admitted
  have hgone : ∀ c', (s.life c').pid = some p →
      ¬ ((s.life c').stage.current = true ∨ ∃ b, (s.life c').stage = .waiting b) := by
    intro c' hp hc'
    obtain ⟨c'', hheld⟩ := hs.held_of_current hp hc'
    simp [hfree] at hheld
  have hback : ∀ c' q b, (s.life c').pid = some q → (s.life c').stage = .waiting b →
      (s.life b).pid = some q := fun c' q b hq hb =>
    ((ho.slotted q).waiting c' b hq (by simp [Life.kind, hb, Stage.kind])).1
  refine ⟨?_, ?_, ?_, ?_⟩ <;>
    simp only [Told, Leaving, setStage, setLife, Function.update_apply, tell, apply_ite Life.stage,
      apply_ite Life.pid, apply_ite Life.takeover, apply_ite Life.announced, apply_ite Life.shown,
      ite_self, apply_ite Life.kind, Life.kind_mk, Life.kind_stage]
  · grind
  · grind [Stage.kind]
  · intro c' d q hp htold hd hne
    have hp' : (s.life c').pid = some q := by grind
    have htold' : s.Told c' := by
      simp only [Told]
      grind
    have hshows := h.shows c' d q hp' htold'
    have := hgone c'
    grind [Told]
  · intro d q hd hne hshown
    have hq : q ≠ p := by
      have := hadmitted d
      grind
    rcases h.phantom d q (by grind) (by grind) (by grind) with ⟨c', hp, hst⟩ | ⟨c', hslot, hknown⟩
    · exact Or.inl ⟨c', by grind, by grind⟩
    · exact Or.inr ⟨c', hslot, by grind⟩

/-- No other connection has shown `d` the participant it is told has left. -/
theorem Rostered.notify (h : s.Rostered) (ho : s.Owned) {c d : ClientId}
    {clients : Finset ClientId} (hstage : (s.life c).stage = .notifying clients)
    (hpid : (s.life c).pid = some p) :
    Rostered ((s.setLife d { s.life d with
      shown := Function.update (s.life d).shown p false }).setStage c
        (.notifying (clients.erase d))) := by
  have hs := ho.slotted p
  have hkind : (s.life c).kind = .notifying := by rw [Life.kind, hstage]; rfl
  have hwaiting := h.waiting
  have hsuperseded := h.superseded
  have htold := fun c' => hs.not_told_of_notifying c' hpid hkind
  refine ⟨?_, ?_, ?_, ?_⟩ <;>
    simp only [Told, Leaving, setStage, setLife, Function.update_apply, apply_ite Life.stage,
      apply_ite Life.pid, apply_ite Life.takeover, apply_ite Life.announced, apply_ite Life.shown,
      apply_ite Life.kind, Life.kind_mk, Life.kind_stage]
  · grind
  · grind [Stage.kind]
  · intro c' d' q hp htold' hd hne
    have hp' : (s.life c').pid = some q := by grind
    have htold'' : s.Told c' := by
      simp only [Told]
      grind
    have hshows := h.shows c' d' q hp' htold''
    have := htold c'
    grind
  · intro d' q hd hne hshown
    rcases h.phantom d' q (by grind) (by grind) (by grind) with ⟨c', hp, hst⟩ | ⟨c', hslot, hknown⟩
    · refine Or.inl ⟨c', by grind, ?_⟩
      by_cases hc' : c' = c
      · subst hc'
        obtain rfl : p = q := by simpa [hpid] using hp
        refine Or.inr ⟨clients.erase d, by grind, ?_⟩
        grind
      · grind
    · exact Or.inr ⟨c', hslot, by grind⟩

/-- Who waits has the participant of the connection it waits for. -/
theorem Owned.pid_of_waiting (h : s.Owned) {c b : ClientId} (hb : (s.life c).stage = .waiting b) :
    (s.life c).pid = (s.life b).pid := by
  have hkind : (s.life c).kind = .waiting b := by rw [Life.kind, hb]; rfl
  cases hp : (s.life c).pid with
  | none =>
    have hknown := h.known c hp
    simp [hkind] at hknown
  | some q => rw [((h.slotted q).waiting c b hp hkind).1]

/-- A connection that moves on without being told of by anybody. -/
theorem Rostered.moves (h : s.Rostered) (ho : s.Owned) {c : ClientId} {l : Life}
    (hlife : t.life = Function.update s.life c l) (hslot : t.slot = s.slot)
    (hjoined : t.joinedAt = s.joinedAt) (hadmittedAt : t.admittedAt = s.admittedAt)
    (hl : l.pid = (s.life c).pid ∧ l.takeover = (s.life c).takeover ∧
      l.announced = (s.life c).announced ∧ l.shown = (s.life c).shown)
    (hkind : (s.life c).kind ≠ .casting ∧ (s.life c).kind ≠ .notifying ∧ (s.life c).kind ≠ .over)
    (hkind' : l.kind ≠ .notifying ∧ ∀ b, l.stage ≠ .waiting b)
    (hadmitted : l.stage.admitted = true → (s.life c).stage.admitted = true)
    (htold : t.Told c → s.Told c)
    (hover : l.stage = .over → ∀ q, (s.life c).pid = some q → s.Told c)
    (hsuperseded : ∀ d, l.stage = .parting d → d.superseded = true →
      (s.life c).announced = true ∨ (s.life c).takeover = true) : t.Rostered := by
  obtain ⟨hpid, htakeover, hannounced, hshown⟩ := hl
  have hc : t.life c = l := by rw [hlife, Function.update_self]
  have hne : ∀ d, d ≠ c → t.life d = s.life d := fun d hd => by
    rw [hlife, Function.update_of_ne hd]
  have hquiet : (s.life c).stage ≠ .casting ∧ ∀ clients, (s.life c).stage ≠ .notifying clients := by
    refine ⟨fun hst => hkind.1 ?_, fun clients hst => hkind.2.1 ?_⟩ <;> rw [Life.kind, hst] <;> rfl
  refine h.frame hne ?_ (fun d q hl => hl.frame hne (Or.inr hquiet)) ?_ ?_ ?_ ?_
  · rw [hc]
    exact fun hl => ⟨hadmitted hl, hshown, hpid⟩
  · intro d q c' _ _ hheld hknown
    refine Or.inr ⟨c', hslot ▸ hheld, ?_⟩
    rw [Known, hjoined, hadmittedAt]
    by_cases hd : c' = c
    · rw [hd, hc, hannounced, htakeover]
      rwa [hd] at hknown
    · rwa [hne c' hd]
  · intro c' q hq htold'
    by_cases hd : c' = c
    · subst hd
      exact ⟨c', by rw [← hpid, ← hc]; exact hq, htold htold'⟩
    · rw [hne c' hd] at hq
      rcases htold' with ⟨hcurrent, hflag⟩ | ⟨b, hb, hflag, hst⟩
      · rw [hne c' hd] at hcurrent hflag
        exact ⟨c', hq, Or.inl ⟨hcurrent, hflag⟩⟩
      · rw [hne c' hd] at hb hflag
        by_cases hbc : b = c
        -- the connection that `c'` waits for is the one that moves
        · subst hbc
          have hq' : (s.life b).pid = some q := by rw [← ho.pid_of_waiting hb, hq]
          exact ⟨b, hq', hover (by rw [← hc]; exact hst) q hq'⟩
        · rw [hne b hbc] at hst
          exact ⟨c', hq, Or.inr ⟨b, hb, hflag, hst⟩⟩
  · rw [hc, hannounced, htakeover]
    exact hsuperseded
  · intro c' b hb
    have hd : c' ≠ c := by
      intro hd
      rw [hd, hc] at hb
      exact hkind'.2 b hb
    rw [hne c' hd] at hb ⊢
    obtain ⟨htaken, huntaken⟩ := h.waiting c' b hb
    by_cases hbc : b = c
    · rw [hbc] at huntaken ⊢
      rw [hc]
      refine ⟨fun _ => hkind'.1, fun hflag => ?_⟩
      rcases huntaken hflag with hk | hk
      · exact absurd hk hkind.2.1
      · exact absurd hk hkind.2.2
    · rw [hne b hbc]
      exact ⟨htaken, huntaken⟩

/-- A connection that has not let go of its slot moves on, or was told of. -/
theorem Rostered.onward (h : s.Rostered) (ho : s.Owned) {c : ClientId} {l : Life}
    (hlife : t.life = Function.update s.life c l) (hslot : t.slot = s.slot)
    (hjoined : t.joinedAt = s.joinedAt) (hadmittedAt : t.admittedAt = s.admittedAt)
    (hl : l.pid = (s.life c).pid ∧ l.takeover = (s.life c).takeover ∧
      l.announced = (s.life c).announced ∧ l.shown = (s.life c).shown)
    (hcurrent : (s.life c).stage.current = true) (hunadmitted : l.stage.admitted = false)
    (hstage : l.stage.current = true ∨ l.stage = .over ∧
      ((s.life c).announced = true ∨ (s.life c).takeover = true))
    (hsuperseded : ∀ d, l.stage = .parting d → d.superseded = true →
      (s.life c).announced = true ∨ (s.life c).takeover = true) : t.Rostered := by
  have hc : t.life c = l := by rw [hlife, Function.update_self]
  have hnotWaiting : ∀ b, l.stage ≠ .waiting b := by
    intro b hb
    rw [hb] at hstage
    simp [Stage.current] at hstage
  have hnotNotifying : l.kind ≠ .notifying := by
    rcases hstage with hst | ⟨hst, -⟩
    · rcases Stage.kind_of_current hst with hk | hk | hk <;> simp [Life.kind, hk]
    · simp [Life.kind, hst, Stage.kind]
  refine h.moves ho hlife hslot hjoined hadmittedAt hl ?_ ⟨hnotNotifying, hnotWaiting⟩ ?_ ?_ ?_
    hsuperseded
  · rcases Stage.kind_of_current hcurrent with hk | hk | hk <;> simp [Life.kind, hk]
  · simp [hunadmitted]
  · rintro (⟨-, hflag⟩ | ⟨b, hb, -⟩)
    · rw [hc, hl.2.1, hl.2.2.1] at hflag
      exact Or.inl ⟨hcurrent, hflag⟩
    · rw [hc] at hb
      exact absurd hb (hnotWaiting b)
  · intro hover q _
    rcases hstage with hst | ⟨-, hflag⟩
    · simp [hover, Stage.current] at hst
    · exact Or.inl ⟨hcurrent, hflag⟩

theorem Rostered.proceed (h : s.Rostered) (ho : s.Owned) (hf : s.Flagged) {c previous : ClientId}
    (hstage : (s.life c).stage = .waiting previous) (hover : (s.life previous).stage = .over) :
    (s.setStage c .joining).Rostered := by
  have hunannounced := hf.unannounced c (Or.inl (by rw [hstage]; rfl))
  refine h.moves ho rfl rfl rfl rfl ⟨rfl, rfl, rfl, rfl⟩ ?_ ?_ ?_ ?_ ?_ ?_
  · simp [Life.kind, hstage, Stage.kind]
  · simp [Life.kind, Stage.kind]
  · simp [Stage.admitted]
  · rintro (⟨-, hflag⟩ | ⟨b, hb, -⟩)
    · -- unannounced, so it took over from a connection that has finished
      rw [setStage_life, if_pos rfl] at hflag
      exact Or.inr ⟨previous, hstage, by simpa [hunannounced] using hflag, hover⟩
    · simp [setStage_life] at hb
  · simp
  · simp

theorem Rostered.quit (h : s.Rostered) (ho : s.Owned) {c : ClientId}
    (hstage : (s.life c).stage = .outside) : (s.setStage c .over).Rostered := by
  have hkind : (s.life c).kind = .outside := by rw [Life.kind, hstage]; rfl
  have hpid := ho.fresh c (Or.inl hkind)
  refine h.moves ho rfl rfl rfl rfl ⟨rfl, rfl, rfl, rfl⟩ ?_ ?_ ?_ ?_ ?_ ?_
  · simp [hkind]
  · simp [Life.kind, Stage.kind]
  · simp [Stage.admitted]
  · rintro (⟨hcurrent, -⟩ | ⟨b, hb, -⟩)
    · simp [setStage_life, Stage.current] at hcurrent
    · simp [setStage_life] at hb
  · simp [hpid]
  · simp

theorem Rostered.settleGrace (h : s.Rostered) (ho : s.Owned) {c : ClientId} {d : Departure}
    (hok : s.tellsRoom (.settle c)) (hstage : (s.life c).stage = .parting d)
    (hpid : (s.life c).pid = some p) (hd : d.superseded = false) (hgive : s.givesUp c d = false) :
    Rostered { s.setStage c (.notifying d.clients) with
      pending := Function.update s.pending p (some (c, false))
      slot := Function.update s.slot p (.graced c) } := by
  have hwaiting := h.waiting
  have hquiet : (s.life c).stage ≠ .casting ∧ ∀ clients, (s.life c).stage ≠ .notifying clients := by
    simp [hstage]
  have hs := ho.slotted p
  have hkind : (s.life c).kind = .yielding := by simp [Life.kind, hstage, Stage.kind, hd]
  have hheld := hs.yielding c hpid hkind
  have hunawaited := ho.not_awaited hpid hheld
  have hcounted := hok d p hstage hpid hd hgive
  refine h.frame (c := c) ?_ ?_ (fun d q hl => hl.frame (c := c) ?_ (Or.inr hquiet)) ?_ ?_ ?_ ?_ <;>
    simp only [Told, Known, setStage, setLife, Function.update_apply]
  · grind
  · grind
  · grind
  · intro d' q c' hd' hne hslot hknown
    by_cases hq : q = p
    · subst hq
      exact Or.inl ⟨c, by simp [hpid], Or.inr ⟨d.clients, by simp, hcounted d' hd' hne⟩⟩
    · exact Or.inr ⟨c', by grind, by grind⟩
  · grind
  · grind
  · grind [Life.kind, Stage.kind]

theorem Rostered.join (h : s.Rostered) (ho : s.Owned)
    {c : ClientId} (hstep : s.Step (.join c) t) : t.Rostered := by
  have hwaiting := h.waiting
  cases hstep with
  | join c hstage =>
    have hs := ho.slotted s.next
    have hkind : (s.life c).kind = .outside := by rw [Life.kind, hstage]; rfl
    have hpid := ho.fresh c (Or.inl hkind)
    refine h.frame (c := c) ?_ ?_ (fun d q hl => hl.frame (c := c) ?_ (Or.inl hpid)) ?_ ?_ ?_ ?_ <;>
      simp only [Told, Known, setStage, setLife, Function.update_apply]
    · grind
    · grind
    · grind
    · intro d q c' hd hne hslot hknown
      have hq : q ≠ s.next := by
        rintro rfl
        have := hs.next
        grind
      have hc' : c' ≠ c := by
        rintro rfl
        have := (ho.slotted q).held c' hslot
        grind
      exact Or.inr ⟨c', by grind, by grind⟩
    · grind
    · grind
    · grind [Life.kind, Stage.kind]

theorem Rostered.enter (h : s.Rostered) (ho : s.Owned) (hf : s.Flagged)
    {c : ClientId} (hstep : s.Step (.enter c) t) : t.Rostered := by
  have hwaiting := h.waiting
  have huntaken := hf.untaken
  have hunannounced := hf.unannounced
  cases hstep with
  | enter c p hstage =>
    have hkind : (s.life c).kind = .entering p := by rw [Life.kind, hstage]; rfl
    have hpid := ho.fresh c (Or.inr ⟨p, hkind⟩)
    refine h.frame (c := c) ?_ ?_ (fun d q hl => hl.frame (c := c) ?_ (Or.inl hpid)) ?_ ?_ ?_ ?_ <;>
      simp only [Told, Known, setLife, Function.update_apply]
    · grind
    · grind
    · grind
    · exact fun d q c' hd hne hslot hknown => Or.inr ⟨c', by grind, by grind⟩
    · grind
    · grind
    · grind [Life.kind, Stage.kind]

theorem Rostered.resume (h : s.Rostered) (ho : s.Owned)
    {c : ClientId} (hstep : s.Step (.resume c p) t) : t.Rostered := by
  have hwaiting := h.waiting
  cases hstep with
  | resume c p previous armed hstage hp =>
    have hs := ho.slotted p
    have hgraced := hs.pending previous armed hp
    have hprevious := hs.graced previous hgraced
    have hkind : (s.life c).kind = .outside := by rw [Life.kind, hstage]; rfl
    have hpid := ho.fresh c (Or.inl hkind)
    refine h.frame (c := c) ?_ ?_ (fun d q hl => hl.frame (c := c) ?_ (Or.inl hpid)) ?_ ?_ ?_ ?_ <;>
      simp only [Told, Known, setLife, Function.update_apply]
    · grind
    · grind
    · grind
    · intro d q c' hd hne hslot hknown
      have hc' : c' ≠ c := by
        rintro rfl
        have := (ho.slotted q).held c' hslot
        grind
      exact Or.inr ⟨c', by grind, by grind⟩
    · grind
    · grind
    · grind [Life.kind, Stage.kind]

theorem Rostered.takeover (h : s.Rostered) (ho : s.Owned)
    {c : ClientId} (hstep : s.Step (.takeover c p) t) : t.Rostered := by
  have hwaiting := h.waiting
  cases hstep with
  | takeover c p previous hstage hp hactive =>
    have hs := ho.slotted p
    have hheld := hs.active previous hactive
    have hprevious := hs.held previous hheld
    have hkind : (s.life c).kind = .outside := by rw [Life.kind, hstage]; rfl
    have hpid := ho.fresh c (Or.inl hkind)
    refine h.frame (c := c) ?_ ?_ (fun d q hl => hl.frame (c := c) ?_ (Or.inl hpid)) ?_ ?_ ?_ ?_ <;>
      simp only [Told, Known, setLife, Function.update_apply]
    · grind
    · grind
    · grind
    · intro d q c' hd hne hslot hknown
      have hc' : c' ≠ c := by
        rintro rfl
        have := (ho.slotted q).held c' hslot
        grind
      by_cases hq : q = p
      · exact Or.inr ⟨c, by grind, by grind⟩
      · exact Or.inr ⟨c', by grind, by grind⟩
    · grind [Life.kind, Stage.kind]
    · grind
    · grind [Life.kind, Stage.kind]

theorem Rostered.leave (h : s.Rostered) (ho : s.Owned)
    {c : ClientId} (hok : s.tellsRoom (.leave c)) (hstep : s.Step (.leave c) t) : t.Rostered := by
  have hwaiting := h.waiting
  cases hstep with
  | leave c p hstage hpid =>
    have hquiet : (s.life c).stage ≠ .casting ∧ ∀ clients, (s.life c).stage ≠ .notifying clients := by
      simp [hstage]
    have hs := ho.slotted p
    have hkind : (s.life c).kind = .yielding := by rw [Life.kind, hstage]; rfl
    have hheld := hs.yielding c hpid hkind
    have hunawaited := ho.not_awaited hpid hheld
    have hids : s.ids p = true := hs.ids.mpr (by simp [hheld])
    refine h.frame (c := c) ?_ ?_ (fun d q hl => hl.frame (c := c) ?_ (Or.inr hquiet)) ?_ ?_ ?_ ?_ <;>
      simp only [Told, Known, setStage, setLife, Function.update_apply]
    · grind
    · grind
    · grind
    · intro d q c' hd hne hslot hknown
      by_cases hq : q = p
      · subst hq
        obtain rfl : c = c' := by simpa [hheld] using hslot
        have hannounced : (s.life c).announced = true := by
          rcases hok with hok | hok
          · exact hok
          · obtain ⟨htakeover, hbefore⟩ := hok d hd
            rcases hknown with hk | hk | hk
            · exact hk
            · simp [htakeover] at hk
            · omega
        exact Or.inl ⟨c, by simp [hpid], Or.inl (by simp [hannounced, hids])⟩
      · exact Or.inr ⟨c', by grind, by grind⟩
    · grind
    · grind
    · grind [Life.kind, Stage.kind]

theorem Rostered.arm (h : s.Rostered)
    {c : ClientId} (hstep : s.Step (.arm c) t) : t.Rostered := by
  have hwaiting := h.waiting
  cases hstep with
  | arm c p hstage hpid =>
    have hkind : (s.life c).kind = .notifying := by rw [Life.kind, hstage]; rfl
    refine h.frame (c := c) ?_ ?_ ?_ ?_ ?_ ?_ ?_ <;>
      simp only [Told, Known, setStage, setLife, Function.update_apply]
    · grind
    · grind
    · rintro d q ⟨c', hp', hst'⟩
      have hc' : c' ≠ c := by
        rintro rfl
        simp [hstage] at hst'
      exact ⟨c', by simpa [hc'] using hp', by simpa [hc'] using hst'⟩
    · exact fun d q c' hd hne hslot hknown => Or.inr ⟨c', by grind, by grind⟩
    · grind
    · grind
    · grind [Life.kind, Stage.kind]

theorem Rostered.expire (h : s.Rostered) (ho : s.Owned)
    {c : ClientId} (hstep : s.Step (.expire c) t) : t.Rostered := by
  have hwaiting := h.waiting
  cases hstep with
  | expire c p hpid hp =>
    have hgraced := (ho.slotted p).pending c true hp
    have hsuperseded := h.superseded c
    refine h.frame (c := c) ?_ ?_ ?_ ?_ ?_ ?_ ?_ <;>
      simp only [Told, Known, setLife, Function.update_apply]
    · grind
    · grind
    · rintro d q ⟨c', hp', hst'⟩
      exact ⟨c', by grind, by grind⟩
    · exact fun d q c' hd hne hslot hknown => Or.inr ⟨c', by grind, by grind⟩
    · grind
    · grind
    · grind [Life.kind, Stage.kind]

theorem Rostered.reapLeave (h : s.Rostered) (ho : s.Owned)
    {c : ClientId} (hstep : s.Step (.reapLeave c) t) : t.Rostered := by
  have hwaiting := h.waiting
  cases hstep with
  | reapLeave c p hreaping hpid =>
    have hslot := (ho.slotted p).reaper c hpid hreaping
    have hsuperseded := h.superseded c
    refine h.frame (c := c) ?_ ?_ ?_ ?_ ?_ ?_ ?_ <;>
      simp only [Told, Known, setLife, Function.update_apply]
    · grind
    · grind
    · rintro d q ⟨c', hp', hst'⟩
      exact ⟨c', by grind, by grind⟩
    · exact fun d q c' hd hne hslot hknown => Or.inr ⟨c', by grind, by grind⟩
    · grind
    · grind
    · grind [Life.kind, Stage.kind]

theorem Rostered.close (h : s.Rostered) (ho : s.Owned)
    (hstep : s.Step (.close) t) : t.Rostered := by
  cases hstep with
  | close closing hclosing =>
    have hpending := fun q => (ho.slotted q).pending
    refine h.frame (c := 0) (fun _ _ => rfl) (fun hd => ⟨hd, rfl, rfl⟩) (fun _ _ hl => hl) ?_
      (fun c' q hp hc' => ⟨c', hp, hc'⟩) 
      (h.superseded 0) h.waiting
    intro d q c' hd hne hslot hknown
    refine Or.inr ⟨c', ?_, hknown⟩
    cases hq : s.pending q with
    | none => simpa [hq] using hslot
    | some entry =>
      have := hpending q entry.1 entry.2 hq
      simp [hslot] at this

theorem Rostered.closeLeave (h : s.Rostered) (ho : s.Owned)
    (hstep : s.Step (.closeLeave p) t) : t.Rostered := by
  cases hstep with
  | closeLeave p hp =>
    have hclosing := (ho.slotted p).closer hp
    refine h.frame (c := 0) (fun _ _ => rfl) (fun hd => ⟨hd, rfl, rfl⟩) (fun _ _ hl => hl) ?_
      (fun c' q hp hc' => ⟨c', hp, hc'⟩) 
      (h.superseded 0) h.waiting
    intro d q c' hd hne hslot hknown
    have hq : q ≠ p := by
      rintro rfl
      simp [hclosing] at hslot
    exact Or.inr ⟨c', by simpa [hq] using hslot, hknown⟩

theorem Rostered.step (h : s.Rostered) (ho : s.Owned) (hf : s.Flagged) (hm : s.Membered)
    {e : Event} (hok : s.tellsRoom e) (hstep : s.Step e t) : t.Rostered := by
  cases hstep with
  | draw => exact ⟨h.superseded, h.waiting, h.shows, h.phantom⟩
  | join c hstage => exact h.join ho (.join c hstage)
  | enter c p hstage => exact h.enter ho hf (.enter c p hstage)
  | resume c p previous armed hstage hp => exact h.resume ho (.resume c p previous armed hstage hp)
  | takeover c p previous hstage hp hactive =>
    exact h.takeover ho (.takeover c p previous hstage hp hactive)
  | proceed c previous hstage hover => exact h.proceed ho hf hstage hover
  | admission c p hstage hpid hclosed => exact h.admission ho hf hm hok hstage hpid hclosed
  | admissionFail c hstage =>
    refine h.onward ho rfl rfl rfl rfl ⟨rfl, rfl, rfl, rfl⟩ ?_ rfl (Or.inl rfl) (by simp)
    rw [hstage]
    rfl
  | announce c p hstage hpid => exact h.announce ho hm hstage hpid
  | fail c intentional hstage =>
    refine h.onward ho rfl rfl rfl rfl ⟨rfl, rfl, rfl, rfl⟩ ?_ rfl (Or.inl rfl) (by simp)
    rcases hstage with ⟨hstage, -⟩ | hstage <;> rw [hstage] <;> rfl
  | depart c hstage =>
    refine h.onward ho rfl rfl rfl rfl ⟨rfl, rfl, rfl, rfl⟩ ?_ rfl (Or.inl rfl) (by simp)
    rw [hstage]
    rfl
  | part c p hstage hpid =>
    refine h.onward ho rfl rfl rfl rfl ⟨rfl, rfl, rfl, rfl⟩ ?_ rfl (Or.inl rfl) ?_
    · rw [hstage]
      rfl
    · rintro d ⟨⟩ hsuperseded
      rcases hok with ⟨q, hq, hactive⟩ | hflag
      · obtain rfl : p = q := by simpa [hpid] using hq
        simp [departure, hactive] at hsuperseded
      · exact hflag
  | settleSuperseded c d hstage hd =>
    refine h.onward ho rfl rfl rfl rfl ⟨rfl, rfl, rfl, rfl⟩ ?_ rfl
      (Or.inr ⟨rfl, h.superseded c d hstage hd⟩) (by simp)
    rw [hstage]
    rfl
  | settleRemove c d hstage hd =>
    refine h.onward ho rfl rfl rfl rfl ⟨rfl, rfl, rfl, rfl⟩ ?_ rfl (Or.inl rfl) (by simp)
    rw [hstage]
    rfl
  | settleGrace c p d hstage hpid hd hgive =>
    exact h.settleGrace ho hok hstage hpid hd hgive
  | leave c p hstage hpid => exact h.leave ho hok (.leave c p hstage hpid)
  | castLeft c p hstage hpid => exact h.castLeft ho hm hstage hpid
  | notify c d p clients hstage hpid hd => exact h.notify ho hstage hpid
  | arm c p hstage hpid => exact h.arm (.arm c p hstage hpid)
  | quit c hstage => exact h.quit ho hstage
  | expire c p hpid hp => exact h.expire ho (.expire c p hpid hp)
  | reapLeave c p hreaping hpid => exact h.reapLeave ho (.reapLeave c p hreaping hpid)
  | close closing hclosing => exact h.close ho (.close closing hclosing)
  | closeLeave p hp => exact h.closeLeave ho (.closeLeave p hp)

/-! ## Runs -/

theorem Flagged.start (timeout : Nat) : (Session.start timeout).Flagged := by
  constructor <;> simp [Session.start, Life.new]

theorem Membered.start (timeout : Nat) : (Session.start timeout).Membered := by
  constructor <;> simp [Session.start, Life.new, Stage.admitted]

theorem Rostered.start (timeout : Nat) : (Session.start timeout).Rostered := by
  constructor <;> simp [Session.start, Life.new, Stage.admitted]

theorem Membered.reachable {timeout : Nat} {ok : Session → Event → Prop}
    (h : (lts timeout).Reachable ok s) : s.Membered :=
  h.invariant (fun s₀ (hs : s₀ = .start timeout) => hs ▸ .start timeout)
    fun _ _ _ hm _ htr => hm.step htr

/-- Rosters are accounted for wherever the room is told of what happens. -/
theorem Rostered.reachable {timeout : Nat} (h : (lts timeout).Reachable tellsRoom s) :
    s.Rostered ∧ s.Flagged := by
  have key : s.Rostered ∧ s.Owned ∧ s.Flagged ∧ s.Membered := by
    refine Lib.Lts.Reachable.invariant
      (I := fun s : Session => s.Rostered ∧ s.Owned ∧ s.Flagged ∧ s.Membered) ?_ ?_ h
    · rintro _ rfl
      exact ⟨.start timeout, .start timeout, .start timeout, .start timeout⟩
    · rintro a e b ⟨hr, ho, hf, hm⟩ hok htr
      exact ⟨hr.step ho hf hm hok htr, ho.step htr, hf.step htr, hm.step htr⟩
  exact ⟨key.1, key.2.2.1⟩

/-- No join, departure or expiry is in progress. -/
structure Quiet (s : Session) : Prop where
  stage : ∀ c, (s.life c).stage = .outside ∨ (s.life c).stage = .settled ∨ (s.life c).stage = .over
  reaping : ∀ c, (s.life c).reaping = false
  closing : s.closingIDs = ∅

/-- With nothing in progress a roster is the meeting less the pending
participants. -/
theorem Rostered.agree (h : s.Rostered) (ho : s.Owned) (hf : s.Flagged) (hquiet : s.Quiet)
    {d : ClientId} (hd : (s.life d).stage = .settled) {q : ParticipantID}
    (hq : (s.life d).pid ≠ some q) :
    (s.life d).shown q = true ↔ s.ids q = true ∧ s.pending q = none := by
  have hs := ho.slotted q
  have hadmitted : (s.life d).stage.admitted = true := by rw [hd]; rfl
  constructor
  · intro hshown
    rcases h.phantom d q hadmitted hq hshown with ⟨c, -, hst⟩ | ⟨c, hheld, -⟩
    · have := hquiet.stage c
      grind
    · refine ⟨hs.ids.mpr (by simp [hheld]), ?_⟩
      cases hp : s.pending q with
      | none => rfl
      | some entry =>
        have := hs.pending entry.1 entry.2 hp
        simp [hheld] at this
  · rintro ⟨hids, hpending⟩
    cases hslot : s.slot q with
    | free => simp [hs.ids, hslot] at hids
    | held c =>
      have hpid : (s.life c).pid = some q ∧ (s.life c).stage = .settled := by
        have hheld := hs.held c hslot
        rcases hquiet.stage c with hst | hst | hst <;>
          simp_all [Life.kind, Stage.kind]
      refine h.shows c d q hpid.1 (Or.inl ⟨?_, Or.inl (hf.settled c hpid.2)⟩) hadmitted hq
      rw [hpid.2]
      rfl
    | graced c =>
      have := hs.graced c hslot
      simp [hpending] at this
    | reaping c =>
      have := hs.reaping c hslot
      simp [hquiet.reaping c] at this
    | closing =>
      have := hs.closing hslot
      simp [hquiet.closing] at this

end Session

end SlowMeet.Signaling
