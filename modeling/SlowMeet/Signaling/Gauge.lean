import SlowMeet.Lib.Census
import SlowMeet.Signaling.HandAgreement

/-!
# The connection gauge

`Metrics.peerConnections`: raised when a join has been announced, lowered in
`disconnect` after a connection that had joined. It is an atomic counter beside
the hub, so the two run side by side here.
-/

namespace SlowMeet.Signaling

open Lib Media

namespace Session

variable {s t : Session} {e : Event}

/-- `announce` sets both flags. -/
def Paired (s : Session) : Prop := ∀ c, (s.life c).joined = (s.life c).announced

/-- Whoever is told of a join or a departure keeps its flags. -/
theorem tell_flags (told : ClientId → Prop) [DecidablePred told] (p : ParticipantID)
    (shown : Bool) (c : ClientId) :
    (s.tell told p shown c).joined = (s.life c).joined ∧
      (s.tell told p shown c).announced = (s.life c).announced := by
  unfold tell
  split <;> exact ⟨rfl, rfl⟩

/-- Nothing but an announcement sets a flag, and nothing clears one. -/
theorem joined_step (hstep : s.Step e t) (c : ClientId) :
    ((t.life c).joined = (s.life c).joined ∧ (t.life c).announced = (s.life c).announced) ∨
      e = .announce c ∧ (t.life c).joined = true ∧ (t.life c).announced = true := by
  cases hstep with
  | announce d p hstage hpid =>
    rw [setLife_life]
    by_cases hc : c = d
    · subst hc
      rw [if_pos rfl]
      exact .inr ⟨rfl, rfl, rfl⟩
    · rw [if_neg hc]
      exact .inl (tell_flags _ _ _ c)
  | castLeft d p hstage hpid =>
    left
    rw [setStage_life]
    split
    · next hc =>
      subst hc
      exact tell_flags _ _ _ c
    · exact tell_flags _ _ _ c
  | notify d d' p clients hstage hpid hd =>
    left
    rw [setStage_life, setLife_life, setLife_life]
    split
    · next hc =>
      subst hc
      split
      · next hc =>
        subst hc
        exact ⟨rfl, rfl⟩
      · exact ⟨rfl, rfl⟩
    · split
      · next hc =>
        subst hc
        exact ⟨rfl, rfl⟩
      · exact ⟨rfl, rfl⟩
  | draw _ _ | close _ _ | closeLeave _ _ => exact .inl ⟨rfl, rfl⟩
  | enter d _ _ | resume d _ _ _ _ _ | takeover d _ _ _ _ _ | admission d _ _ _ _
    | fail d _ _ | expire d _ _ _ | reapLeave d _ _ _ =>
    left
    show ((Session.setLife s d _).life c).joined = _ ∧ ((Session.setLife s d _).life c).announced = _
    rw [setLife_life]
    split
    · next hc =>
      subst hc
      exact ⟨rfl, rfl⟩
    · exact ⟨rfl, rfl⟩
  | join d _ | proceed d _ _ _ | admissionFail d _ | depart d _ | part d _ _ _
    | settleSuperseded d _ _ _ | settleRemove d _ _ _ _ | settleGrace d _ _ _ _ _ _
    | leave d _ _ _ | arm d _ _ _ | quit d _ =>
    left
    show ((Session.setStage s d _).life c).joined = _ ∧
      ((Session.setStage s d _).life c).announced = _
    rw [setStage_life]
    split
    · next hc =>
      subst hc
      exact ⟨rfl, rfl⟩
    · exact ⟨rfl, rfl⟩

theorem Paired.step (hs : s.Paired) (hstep : s.Step e t) : t.Paired := by
  intro c
  rcases joined_step hstep c with ⟨hjoined, hannounced⟩ | ⟨-, hjoined, hannounced⟩
  · rw [hjoined, hannounced]
    exact hs c
  · rw [hjoined, hannounced]

theorem Paired.reachable {timeout : Nat} {ok : Session → Event → Prop}
    (hr : (lts timeout).Reachable ok s) : s.Paired :=
  hr.invariant (I := Paired)
    (fun t ht => by
      obtain rfl : t = .start timeout := ht
      exact fun _ => rfl)
    fun _ _ _ hs _ htr => hs.step htr

end Session

/-- From the announcement of a join to the `PeerLeft` of its departure. -/
def Phase.attended : Phase → Bool
  | .reading | .handling _ | .closing | .disconnecting | .parting _ .unregister
  | .parting _ .closePeer | .parting _ .releaseScreen => true
  | _ => false

/-- Between an admission and its announcement, and between the end of a
membership and the second decision of `disconnect`. -/
def Phase.changing : Phase → Bool
  | .releasing | .announcing | .closing | .disconnecting | .parting _ _ => true
  | _ => false

namespace Hub

variable {h h' : Hub} {c d : ClientId} {l : Label} {ok : Bool}

/-- What the gauge counts. -/
def counted (h : Hub) (c : ClientId) : Bool :=
  (h.client c).joined && (h.client c).phase.attended

/-- What a step adds to the gauge. -/
def peerDelta (h : Hub) : Label → ℤ
  | .run c _ =>
    match (h.client c).phase with
    | .announcing => 1
    | .parting _ .releaseScreen => if (h.client c).joined then -1 else 0
    | _ => 0
  | _ => 0

/-! ## The flag -/

/-- What the flag says of a connection. -/
structure Joined (h : Hub) : Prop where
  early : ∀ c, ((h.client c).phase.stage (h.client c).participant.isSome).early = true ∨
    (h.client c).phase.stage (h.client c).participant.isSome = .announcing →
      (h.client c).joined = false
  settled : ∀ c, (h.client c).phase.stage (h.client c).participant.isSome = .settled →
    (h.client c).joined = true ∧ c ∈ h.roomMembers

theorem joined_of_reachable {cfg : Config} {ok : Hub → Label → Prop}
    (hr : (lts cfg).Reachable ok h) : h.Joined := by
  obtain ⟨-, s, hs, rank, slot, rfl⟩ := reachable_session Lts.Any (fun _ _ _ _ _ => trivial) hr
  have hflagged : (h.session rank slot).Flagged :=
    hs.invariant (fun s₀ (hs : s₀ = .start _) => hs ▸ .start _) fun _ _ _ hf _ htr => hf.step htr
  have hmembered : (h.session rank slot).Membered := .reachable hs
  have hpaired : (h.session rank slot).Paired := .reachable hs
  refine ⟨fun c hearly => ?_, fun c hsettled => ⟨?_, ?_⟩⟩
  · exact (hpaired c).trans (hflagged.unannounced c hearly)
  · exact (hpaired c).trans (hflagged.settled c hsettled)
  · refine hmembered.admitted c ?_
    show (((h.client c).phase.stage (h.client c).participant.isSome)).admitted = true
    rw [hsettled]
    rfl

/-- The flag is set by the announcement. -/
theorem joined_step {cfg : Config} {ok : Hub → Label → Prop} (hr : (lts cfg).Reachable ok h)
    (hstep : h.Steps l h') (c : ClientId) :
    (h'.client c).joined = (h.client c).joined ∨
      (∃ ok, l = .run c ok) ∧ (h.client c).phase = .announcing ∧ (h'.client c).joined = true := by
  obtain ⟨hk, rank, slot, ho, hm⟩ := owned_of_reachable hr
  obtain ⟨rank', slot', hevent⟩ := step_event hk ho hm hstep
  rcases Session.joined_step hevent c with ⟨hsame, -⟩ | ⟨hannounce, hjoined, -⟩
  · exact .inl hsame
  · obtain ⟨e, ok, rfl⟩ := event_announces (.inl ⟨c, hannounce⟩)
    obtain ⟨rfl, hphase⟩ := (runEvent_announces e ok).1 c hannounce
    exact .inr ⟨⟨ok, rfl⟩, hphase, hjoined⟩

/-! ## What a step does to the count -/

theorem run_closing (hphase : (h.client c).phase = .closing) (hrun : h.run c ok = some h') :
    (h'.client c).phase =
      if (h.client c).participant.isSome then .disconnecting else .finished := by
  simp only [run, hphase, Option.some.injEq] at hrun
  subst hrun
  exact phase_goto _ _

theorem run_disconnecting (hphase : (h.client c).phase = .disconnecting)
    (hrun : h.run c ok = some h') : (h'.client c).phase.attended = true := by
  cases hq : (h.client c).participant with
  | none => simp [run, hphase, hq] at hrun
  | some q =>
    simp only [run, hphase, hq, Option.some.injEq] at hrun
    subst hrun
    rw [disconnect, phase_goto]
    split <;> rfl

/-- `disconnect` lets go of the count with the screen share. -/
theorem run_parting {departure : Departure} {at_ : Teardown}
    (hphase : (h.client c).phase = .parting departure at_) (hrun : h.run c ok = some h') :
    (h'.client c).phase.attended =
      ((h.client c).phase.attended && decide (at_ ≠ .releaseScreen)) := by
  cases hq : (h.client c).participant with
  | none => simp [run, hphase, hq] at hrun
  | some q =>
    simp only [run, hphase, hq, Option.some.injEq] at hrun
    subst hrun
    rw [hphase]
    cases at_ with
    | releaseScreen =>
      simp only [runTeardown, releaseScreenShare]
      split
      · rw [phase_update]
        rfl
      · rw [phase_goto]
        rfl
    | settle =>
      simp only [runTeardown, settle]
      repeat' split
      all_goals
        rw [phase_goto]
        rfl
    | unregister | closePeer | unpublish | screenCast =>
      simp only [runTeardown, phase_goto]
      rfl

/-- A connection with the flag goes on being attended, but where it leaves. -/
theorem attended_step {cfg : Config} {ok : Hub → Label → Prop} (hr : (lts cfg).Reachable ok h)
    (hok : ok h l) (hstep : h.step l = some h') (hjoined : (h.client c).joined = true)
    (hleaves : ¬ ((∃ ok, l = .run c ok) ∧
      ∃ departure, (h.client c).phase = .parting departure .releaseScreen)) :
    (h'.client c).phase.attended = (h.client c).phase.attended := by
  have hsteps := steps_of_step hstep
  have hflags := joined_of_reachable hr
  have hflags' := joined_of_reachable (hr.step hok hstep)
  -- a connection with the flag is past its announcement, before and after
  have hlate : ¬ (((h.client c).phase.stage (h.client c).participant.isSome).early = true ∨
      (h.client c).phase.stage (h.client c).participant.isSome = .announcing) := by
    intro hearly
    rw [hflags.early c hearly] at hjoined
    cases hjoined
  have hjoined' : (h'.client c).joined = true := by
    rcases joined_step hr hsteps c with hsame | ⟨-, -, hset⟩
    · rw [hsame, hjoined]
    · exact hset
  have hlate' : ¬ ((h'.client c).phase.stage (h'.client c).participant.isSome).early = true := by
    intro hearly
    rw [hflags'.early c (.inl hearly)] at hjoined'
    cases hjoined'
  by_cases hsame : (h'.client c).phase = (h.client c).phase
  · rw [hsame]
  obtain ⟨-, hnext⟩ := (next_step hsteps c).resolve_left hsame
  have hruns : (h.client c).phase ≠ .absent → (h.client c).phase ≠ .reading →
      (∀ clients, (h.client c).phase ≠ .notifying clients) → ∃ ok, l = .run c ok :=
    fun habsent hread hnotify => (stays_step hsteps habsent hread hnotify).resolve_left hsame
  cases hphase : (h.client c).phase with
  | reading =>
    rw [hphase] at hnext
    rcases hnext with hnext | ⟨_, _, hnext⟩ | ⟨_, hnext⟩ | ⟨_, hnext⟩
    · rw [hnext]
      rfl
    · rw [hnext] at hlate'
      exact absurd rfl hlate'
    · rw [hnext] at hlate'
      exact absurd rfl hlate'
    · rw [hnext]
      rfl
  | handling handler =>
    rw [hphase] at hnext
    rcases hnext with hnext | ⟨_, hnext⟩ <;> rw [hnext] <;> rfl
  | closing =>
    obtain ⟨ok', rfl⟩ := hruns (by simp [hphase]) (by simp [hphase]) (by simp [hphase])
    rw [run_closing hphase hstep]
    cases hq : (h.client c).participant with
    | none =>
      rw [hphase, hq] at hlate
      exact absurd (.inl rfl) hlate
    | some q => rfl
  | disconnecting =>
    obtain ⟨ok', rfl⟩ := hruns (by simp [hphase]) (by simp [hphase]) (by simp [hphase])
    rw [run_disconnecting hphase hstep]
    rfl
  | parting departure at_ =>
    obtain ⟨ok', rfl⟩ := hruns (by simp [hphase]) (by simp [hphase]) (by simp [hphase])
    rw [run_parting hphase hstep, hphase]
    have hat : at_ ≠ .releaseScreen := by
      rintro rfl
      exact hleaves ⟨⟨ok', rfl⟩, departure, hphase⟩
    rw [decide_eq_true hat, Bool.and_true]
  | forgetting | casting | arming | armingGrace =>
    rw [hphase] at hnext
    rw [hnext]
    rfl
  | leaving | scheduling =>
    rw [hphase] at hnext
    rcases hnext with hnext | hnext <;> rw [hnext] <;> rfl
  | notifying clients =>
    rw [hphase] at hnext
    rcases hnext with ⟨_, _, hnext⟩ | ⟨_, hnext⟩ <;> rw [hnext] <;> rfl
  | finished =>
    rw [hphase] at hnext
    exact hnext.elim
  | _ =>
    rw [hphase] at hlate
    exact absurd (by simp [Phase.stage, Stage.early]) hlate

/-- What a step does to what is counted. -/
inductive CountChange (h h' : Hub) (l : Label) : Prop
  | same (hcounted : h'.counted = h.counted) (hdelta : h.peerDelta l = 0)
  | joined (c : ClientId) (hcounted : h'.counted = Function.update h.counted c true)
      (hbefore : h.counted c = false) (hdelta : h.peerDelta l = 1)
  | left (c : ClientId) (hcounted : h'.counted = Function.update h.counted c false)
      (hbefore : h.counted c = true) (hdelta : h.peerDelta l = -1)

/-- The others are counted as before. -/
theorem counted_of_ne {cfg : Config} {ok : Hub → Label → Prop} (hr : (lts cfg).Reachable ok h)
    (hstep : h.Steps (.run c ok') h') (hd : d ≠ c) : h'.counted d = h.counted d := by
  have hphase : (h'.client d).phase = (h.client d).phase := by
    rcases next_step hstep d with hsame | ⟨hhandler, -⟩
    · exact hsame
    · exact absurd (Option.some.inj hhandler).symm hd
  have hjoined : (h'.client d).joined = (h.client d).joined := by
    rcases joined_step hr hstep d with hsame | ⟨⟨_, hrun⟩, -, -⟩
    · exact hsame
    · cases hrun
      exact absurd rfl hd
  rw [counted, counted, hphase, hjoined]

theorem count_step {cfg : Config} {ok : Hub → Label → Prop} (hr : (lts cfg).Reachable ok h)
    (hok : ok h l) (hstep : h.step l = some h') : h.CountChange h' l := by
  have hsteps := steps_of_step hstep
  -- away from the two sections the flag and the attendance stay
  have hsame : (∀ c ok, l = .run c ok → (h.client c).phase ≠ .announcing) →
      (∀ c ok departure, l = .run c ok → (h.client c).phase = .parting departure .releaseScreen →
        (h.client c).joined = false) → h'.counted = h.counted := by
    intro hannounces hleaves
    funext d
    have hflag : (h'.client d).joined = (h.client d).joined := by
      rcases joined_step hr hsteps d with hkept | ⟨⟨ok', rfl⟩, hphase, -⟩
      · exact hkept
      · exact absurd hphase (hannounces d ok' rfl)
    rw [counted, counted, hflag]
    cases hjoined : (h.client d).joined with
    | false => rfl
    | true =>
      refine congrArg (true && ·) (attended_step hr hok hstep hjoined ?_)
      rintro ⟨⟨ok', rfl⟩, departure, hphase⟩
      rw [hleaves d ok' departure rfl hphase] at hjoined
      cases hjoined
  by_cases hrun : ∃ c ok, l = .run c ok
  · obtain ⟨c, ok', rfl⟩ := hrun
    cases hphase : (h.client c).phase with
    | announcing =>
      refine .joined c (funext fun d => ?_) ?_ ?_
      · by_cases hd : d = c
        · subst hd
          rw [Function.update_self]
          cases hq : (h.client d).participant with
          | none => simp [step, run, hphase, hq] at hstep
          | some q =>
            simp only [step, run, hphase, hq, Option.some.injEq] at hstep
            subst hstep
            simp [counted, announce, client_update, Phase.attended]
        · rw [Function.update_of_ne hd]
          exact counted_of_ne hr hsteps hd
      · rw [counted, hphase]
        exact Bool.and_false _
      · simp only [peerDelta, hphase]
    | parting departure at_ =>
      cases at_ with
      | releaseScreen =>
        cases hjoined : (h.client c).joined with
        | true =>
          refine .left c (funext fun d => ?_) ?_ ?_
          · by_cases hd : d = c
            · subst hd
              rw [Function.update_self, counted, run_parting hphase hstep]
              simp
            · rw [Function.update_of_ne hd]
              exact counted_of_ne hr hsteps hd
          · rw [counted, hphase, hjoined]
            rfl
          · simp only [peerDelta, hphase, hjoined, if_true]
        | false =>
          refine .same (hsame (fun e ok'' he => ?_) fun e ok'' dep he hpart => ?_) ?_
          · cases he
            simp [hphase]
          · cases he
            exact hjoined
          · simp [peerDelta, hphase, hjoined]
      | unregister | closePeer | unpublish | screenCast | settle =>
        refine .same (hsame (fun e ok'' he => ?_) fun e ok'' dep he hpart => ?_) ?_
        · cases he
          simp [hphase]
        · cases he
          simp [hphase] at hpart
        · simp [peerDelta, hphase]
    | _ =>
      refine .same (hsame (fun e ok'' he => ?_) fun e ok'' dep he hpart => ?_) ?_
      · cases he
        simp [hphase]
      · cases he
        simp [hphase] at hpart
      · simp [peerDelta, hphase]
  · refine .same (hsame (fun c ok' hl => ?_) fun c ok' _ hl _ => ?_) ?_
    · exact absurd ⟨c, ok', hl⟩ hrun
    · exact absurd ⟨c, ok', hl⟩ hrun
    · cases l with
      | run c ok' => exact absurd ⟨c, ok', rfl⟩ hrun
      | _ => rfl

/-- Where nobody is coming or going, the members are counted. -/
theorem counted_iff_mem (hjoined : h.Joined) (hpresent : h.Present)
    (hquiet : (h.client c).phase.changing = false) : h.counted c = true ↔ c ∈ h.roomMembers := by
  constructor
  · intro hcounted
    obtain ⟨hflag, hattended⟩ := Bool.and_eq_true_iff.mp hcounted
    refine (hjoined.settled c ?_).2
    have hlate := mt (hjoined.early c) (by simp [hflag])
    cases hphase : (h.client c).phase with
    | reading | handling _ =>
      cases hq : (h.client c).participant with
      | none =>
        rw [hphase, hq] at hlate
        exact absurd (.inl rfl) hlate
      | some q => rfl
    | closing | disconnecting | parting _ _ =>
      rw [hphase] at hquiet
      cases hquiet
    | _ =>
      rw [hphase] at hattended
      cases hattended
  · intro hmember
    obtain ⟨⟨p, hp, -⟩, hroom⟩ := hpresent.member c hmember
    obtain ⟨q, hq, -⟩ := Option.map_eq_some_iff.mp hp
    cases hphase : (h.client c).phase with
    | reading | handling _ =>
      have hflag := (hjoined.settled c (by rw [hphase, hq]; rfl)).1
      rw [counted, hflag, hphase]
      rfl
    | releasing | announcing | closing =>
      rw [hphase] at hquiet
      cases hquiet
    | _ =>
      rw [hphase] at hroom
      cases hroom

end Hub

/-! ## The gauge -/

/-- The hub with the gauge beside it. -/
structure Observed where
  hub : Hub
  peerConnections : ℤ

namespace Observed

variable {cfg : Config} {s : Observed} {ok : Observed → Hub.Label → Prop}

/-- A step of the hub, with its `PeerJoined` or `PeerLeft`. -/
def step (s : Observed) (l : Hub.Label) : Option Observed :=
  (s.hub.step l).map fun h => ⟨h, s.peerConnections + s.hub.peerDelta l⟩

def lts (cfg : Config) : Lts Observed Hub.Label := .ofStep ⟨.new cfg, 0⟩ step

/-- The gauge counts. -/
structure Counting (cfg : Config) (s : Observed) : Prop where
  hub : (Hub.lts cfg).Reachable Lts.Any s.hub
  gauge : ∃ n : ℕ, s.peerConnections = n ∧ Counts s.hub.counted n

theorem counting_of_reachable (hr : (lts cfg).Reachable ok s) : s.Counting cfg := by
  refine hr.invariant_ofStep (I := fun s => s.Counting cfg) ?_ ?_
  · refine ⟨.init rfl, 0, rfl, ?_⟩
    exact counts_none
  · intro s l t hs _ hstep
    obtain ⟨h', hhub, rfl⟩ := Option.map_eq_some_iff.mp hstep
    obtain ⟨n, hgauge, hcounts⟩ := hs.gauge
    refine ⟨hs.hub.step trivial hhub, ?_⟩
    cases Hub.count_step hs.hub trivial hhub with
    | same hcounted hdelta =>
      refine ⟨n, ?_, ?_⟩
      · show s.peerConnections + s.hub.peerDelta l = n
        omega
      · show Counts h'.counted n
        rw [hcounted]
        exact hcounts
    | joined c hcounted hbefore hdelta =>
      refine ⟨n + 1, ?_, ?_⟩
      · show s.peerConnections + s.hub.peerDelta l = ((n + 1 : ℕ) : ℤ)
        omega
      · show Counts h'.counted (n + 1)
        rw [hcounted]
        exact hcounts.take hbefore
    | left c hcounted hbefore hdelta =>
      have hpos := hcounts.pos hbefore
      refine ⟨n - 1, ?_, ?_⟩
      · show s.peerConnections + s.hub.peerDelta l = ((n - 1 : ℕ) : ℤ)
        omega
      · show Counts h'.counted (n - 1)
        rw [hcounted]
        exact hcounts.give hbefore

/-- **The gauge is never negative, and exact when nobody is coming or going**:
then it is the number of room members, however often connections were
superseded, resumed, refused or lost before. -/
theorem peerConnections_eq (hr : (lts cfg).Reachable ok s) :
    0 ≤ s.peerConnections ∧
      ((∀ c, (s.hub.client c).phase.changing = false) →
        s.peerConnections = s.hub.roomMembers.card) := by
  have hs := counting_of_reachable hr
  obtain ⟨n, hgauge, hcounts⟩ := hs.gauge
  refine ⟨by omega, fun hquiet => ?_⟩
  have hjoined := Hub.joined_of_reachable hs.hub
  have hpresent := Hub.present_of_reachable hs.hub
  have hmembers : {c | s.hub.counted c = true} = (s.hub.roomMembers : Set ClientId) := by
    ext c
    exact Hub.counted_iff_mem (Hub.joined_of_reachable hs.hub) (Hub.present_of_reachable hs.hub)
      (hquiet c)
  have hcard : ((s.hub.roomMembers.card : ℕ) : ℕ∞) = n := by
    rw [← Set.encard_coe_eq_coe_finsetCard, ← hmembers]
    exact hcounts
  rw [hgauge, Nat.cast_inj.mp hcard]

/-- A participant comes back on a new connection before the old one is seen to
be gone. -/
theorem peerConnections_eq_superseded : ∃ s : Observed, (lts Hub.sampleConfig).Reachable Lts.Any s ∧
    (0 ≤ s.peerConnections ∧ ((∀ c, (s.hub.client c).phase.changing = false) →
      s.peerConnections = s.hub.roomMembers.card)) ∧
    s.peerConnections = 1 ∧ s.hub.roomMembers = {1} := by
  obtain ⟨s, hr, ho⟩ := Lts.exists_reachable_of_exec Lts.Any step ⟨.new Hub.sampleConfig, 0⟩
    (Hub.joins 0 ++ Hub.requests 1 (some ⟨0⟩) ++ Hub.runs 1 2 ++ Hub.drops 0 ++ Hub.runs 0 4 ++
      Hub.runs 1 7)
    (fun (s : Observed) => (s.peerConnections, s.hub.roomMembers))
    ((1 : ℤ), ({1} : Finset ClientId)) (fun _ _ _ => trivial) (by decide)
  obtain ⟨hgauge, hmembers⟩ := Prod.mk.inj ho
  exact ⟨s, hr, peerConnections_eq hr, hgauge, hmembers⟩

end Observed

end SlowMeet.Signaling
