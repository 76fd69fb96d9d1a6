import Mathlib.Logic.Basic

/-!
# Labelled transition systems

Runs whose every step meets a condition, the invariant rule over them, and
the simulation rule that carries a run of one system to a run of another.

A condition is a relation between the state before a step and its label. A
result about unrestricted runs uses `Any`, so that "in every run whose steps
all meet the condition" and "in every run" are one notion at two conditions.
-/

namespace SlowMeet.Lib

universe u v w x

/-- A transition system: a predicate on initial states and a labelled step
relation. -/
structure Lts (σ : Type u) (ℓ : Type v) where
  init : σ → Prop
  tr : σ → ℓ → σ → Prop

namespace Lts

variable {σ : Type u} {ℓ : Type v} {τ : Type w} {κ : Type x}

/-- The condition every step meets. -/
def Any : σ → ℓ → Prop := fun _ _ => True

/-- `M.Run ok s t`: some sequence of steps leads from `s` to `t`, and each
of them meets `ok` where it is taken. -/
inductive Run (M : Lts σ ℓ) (ok : σ → ℓ → Prop) : σ → σ → Prop
  | refl (s : σ) : Run M ok s s
  | snoc {s t u : σ} {l : ℓ} : Run M ok s t → ok t l → M.tr t l u → Run M ok s u

/-- The states some conditioned run reaches from an initial state. -/
def Reachable (M : Lts σ ℓ) (ok : σ → ℓ → Prop) (t : σ) : Prop :=
  ∃ s, M.init s ∧ M.Run ok s t

variable {M : Lts σ ℓ} {ok ok' : σ → ℓ → Prop} {s t u : σ}

theorem Run.trans (hst : M.Run ok s t) (htu : M.Run ok t u) : M.Run ok s u := by
  induction htu with
  | refl => exact hst
  | snoc _ hok htr ih => exact ih.snoc hok htr

theorem Run.mono (h : ∀ s l, ok s l → ok' s l) (hr : M.Run ok s t) : M.Run ok' s t := by
  induction hr with
  | refl => exact .refl _
  | snoc _ hok htr ih => exact ih.snoc (h _ _ hok) htr

/-- **The invariant rule**: what holds at the start of a run and survives
each conditioned step holds at its end. -/
theorem Run.invariant {I : σ → Prop} (hstep : ∀ s l t, I s → ok s l → M.tr s l t → I t)
    (hr : M.Run ok s t) (hs : I s) : I t := by
  induction hr with
  | refl => exact hs
  | snoc _ hok htr ih => exact hstep _ _ _ ih hok htr

/-- Along a run from a state that meets an inductive invariant, a condition
may be checked in another form under the invariant. -/
theorem Run.strengthen {I : σ → Prop} (hstep : ∀ s l t, I s → ok s l → M.tr s l t → I t)
    (h : ∀ s l, I s → ok s l → ok' s l) (hr : M.Run ok s t) (hs : I s) : M.Run ok' s t := by
  have key : M.Run ok' s t ∧ I t := by
    induction hr with
    | refl => exact ⟨.refl _, hs⟩
    | snoc _ hok htr ih => exact ⟨ih.1.snoc (h _ _ ih.2 hok) htr, hstep _ _ _ ih.2 hok htr⟩
  exact key.1

theorem Reachable.init (hs : M.init s) : M.Reachable ok s := ⟨s, hs, .refl s⟩

theorem Reachable.step {l : ℓ} (h : M.Reachable ok s) (hok : ok s l) (htr : M.tr s l t) :
    M.Reachable ok t := by
  obtain ⟨s₀, h₀, hr⟩ := h
  exact ⟨s₀, h₀, hr.snoc hok htr⟩

theorem Reachable.run (h : M.Reachable ok s) (hr : M.Run ok s t) : M.Reachable ok t := by
  obtain ⟨s₀, h₀, hr₀⟩ := h
  exact ⟨s₀, h₀, hr₀.trans hr⟩

theorem Reachable.mono (h : ∀ s l, ok s l → ok' s l) (hr : M.Reachable ok s) :
    M.Reachable ok' s := by
  obtain ⟨s₀, h₀, hr₀⟩ := hr
  exact ⟨s₀, h₀, hr₀.mono h⟩

theorem Reachable.any (hr : M.Reachable ok s) : M.Reachable Any s :=
  hr.mono fun _ _ _ => trivial

/-- A condition may be checked in another form at the states that are
reachable. -/
theorem Reachable.strengthen (h : ∀ s l, M.Reachable ok s → ok s l → ok' s l)
    (hr : M.Reachable ok s) : M.Reachable ok' s := by
  obtain ⟨s₀, h₀, hrun⟩ := hr
  have key : M.Reachable ok s ∧ M.Reachable ok' s := by
    refine hrun.invariant (I := fun s => M.Reachable ok s ∧ M.Reachable ok' s) ?_
      ⟨.init h₀, .init h₀⟩
    intro a l b ⟨ha, ha'⟩ hok htr
    exact ⟨ha.step hok htr, ha'.step (h a l ha hok) htr⟩
  exact key.2

/-- What can hold after a step only where it held before and the step met
`ok'` is witness that all steps did. -/
theorem Reachable.restrict {P : σ → Prop}
    (h : ∀ s l t, M.Reachable ok s → ok s l → M.tr s l t → P t → P s ∧ ok' s l)
    (hr : M.Reachable ok s) (hs : P s) : M.Reachable ok' s := by
  obtain ⟨s₀, h₀, hrun⟩ := hr
  have key : M.Reachable ok s ∧ (P s → M.Reachable ok' s) := by
    refine hrun.invariant (I := fun s => M.Reachable ok s ∧ (P s → M.Reachable ok' s)) ?_
      ⟨.init h₀, fun _ => .init h₀⟩
    intro a l b ⟨ha, ha'⟩ hok htr
    refine ⟨ha.step hok htr, fun hb => ?_⟩
    obtain ⟨hpa, hok'⟩ := h a l b ha hok htr hb
    exact (ha' hpa).step hok' htr
  exact key.2 hs

/-- An inductive invariant holds of every reachable state. -/
theorem Reachable.invariant {I : σ → Prop} (hinit : ∀ s, M.init s → I s)
    (hstep : ∀ s l t, I s → ok s l → M.tr s l t → I t) (hr : M.Reachable ok s) : I s := by
  obtain ⟨s₀, h₀, hrun⟩ := hr
  exact hrun.invariant hstep (hinit s₀ h₀)

/-- The invariant rule in steps: `J` is already known of every reachable
state, and may be used at both ends of the step that preserves `I`. -/
theorem Reachable.invariant_of {I J : σ → Prop} (hJ : ∀ s, M.Reachable ok s → J s)
    (hinit : ∀ s, M.init s → I s)
    (hstep : ∀ s l t, J s → J t → I s → ok s l → M.tr s l t → I t)
    (hr : M.Reachable ok s) : I s := by
  obtain ⟨s₀, h₀, hrun⟩ := hr
  have key : M.Reachable ok s ∧ I s := by
    refine hrun.invariant (I := fun s => M.Reachable ok s ∧ I s) ?_ ⟨.init h₀, hinit s₀ h₀⟩
    intro a l b ⟨ha, hi⟩ hok htr
    exact ⟨ha.step hok htr, hstep a l b (hJ a ha) (hJ b (ha.step hok htr)) hi hok htr⟩
  exact key.2

/-! ## Simulation -/

/-- **The simulation rule**: if every conditioned step from a reachable
state is matched, from any reachable related state of `N`, by a conditioned
step to a related one, reachable states have reachable related ones. -/
theorem Reachable.simulate {N : Lts τ κ} {okN : τ → κ → Prop} (R : σ → τ → Prop)
    (hinit : ∀ s, M.init s → ∃ t, N.init t ∧ R s t)
    (hstep : ∀ s l s' t, M.Reachable ok s → N.Reachable okN t → R s t → ok s l → M.tr s l s' →
      ∃ e t', okN t e ∧ N.tr t e t' ∧ R s' t')
    (hr : M.Reachable ok s) : ∃ t, N.Reachable okN t ∧ R s t := by
  obtain ⟨s₀, h₀, hrun⟩ := hr
  have key : M.Reachable ok s ∧ ∃ t, N.Reachable okN t ∧ R s t := by
    refine hrun.invariant (I := fun s => M.Reachable ok s ∧ ∃ t, N.Reachable okN t ∧ R s t) ?_ ?_
    · intro a l b ⟨ha, t, ht, hR⟩ hok htr
      obtain ⟨e, t', hokN, htrN, hR'⟩ := hstep a l b t ha ht hR hok htr
      exact ⟨ha.step hok htr, t', ht.step hokN htrN, hR'⟩
    · obtain ⟨t, ht, hR⟩ := hinit s₀ h₀
      exact ⟨.init h₀, t, .init ht, hR⟩
  exact key.2

/-! ## Executable systems -/

/-- The system of a start state and a partial step function. -/
def ofStep (start : σ) (step : σ → ℓ → Option σ) : Lts σ ℓ where
  init s := s = start
  tr s l t := step s l = some t

/-- The invariant rule for a start state and a step function. -/
theorem Reachable.invariant_ofStep {start : σ} {step : σ → ℓ → Option σ} {I : σ → Prop}
    (hstart : I start) (hstep : ∀ s l t, I s → ok s l → step s l = some t → I t)
    (hr : (ofStep start step).Reachable ok s) : I s := by
  refine hr.invariant (fun t ht => ?_) hstep
  obtain rfl : t = start := ht
  exact hstart

/-- Run a list of labels, each of which must pass `check` where it is taken. -/
def execWhen (check : σ → ℓ → Bool) (step : σ → ℓ → Option σ) (s : σ) (ls : List ℓ) : Option σ :=
  ls.foldlM (fun s l => if check s l then step s l else none) s

theorem run_of_execWhen {start : σ} {check : σ → ℓ → Bool} {step : σ → ℓ → Option σ}
    {ls : List ℓ} (h : execWhen check step s ls = some t) :
    (ofStep start step).Run (fun s l => check s l = true) s t := by
  induction ls generalizing s with
  | nil =>
    simp only [execWhen, List.foldlM_nil, Option.pure_def, Option.some.injEq] at h
    exact h ▸ .refl s
  | cons l rest ih =>
    simp only [execWhen, List.foldlM_cons, Option.bind_eq_bind, Option.bind_eq_some_iff] at h
    obtain ⟨m, hm, hrest⟩ := h
    by_cases hok : check s l = true
    · rw [if_pos hok] at hm
      have hfirst : (ofStep start step).Run (fun s l => check s l = true) s m :=
        (Run.refl s).snoc hok hm
      exact hfirst.trans (ih hrest)
    · simp [hok] at hm

/-- **Execution is sound**: what a checked execution from the start state
ends in is reachable under the checked condition. -/
theorem reachable_of_execWhen {start : σ} {check : σ → ℓ → Bool} {step : σ → ℓ → Option σ}
    {ls : List ℓ} (h : execWhen check step start ls = some t) :
    (ofStep start step).Reachable (fun s l => check s l = true) t :=
  ⟨start, rfl, run_of_execWhen h⟩

/-- **Execution is sound**, when no label of the execution needs a check of
the state it is taken in. -/
theorem exists_reachable_of_exec {ω : Type*} (ok : σ → ℓ → Prop) (step : σ → ℓ → Option σ)
    (start : σ) (ls : List ℓ) (observe : σ → ω) (o : ω) (hok : ∀ l ∈ ls, ∀ s, ok s l)
    (h : (ls.foldlM step start).map observe = some o) :
    ∃ t, (ofStep start step).Reachable ok t ∧ observe t = o := by
  obtain ⟨t, ht, rfl⟩ := Option.map_eq_some_iff.mp h
  refine ⟨t, ?_, rfl⟩
  have key : ∀ (ls : List ℓ) (s : σ), (∀ l ∈ ls, ∀ s, ok s l) → ls.foldlM step s = some t →
      (ofStep start step).Run ok s t := by
    intro ls
    induction ls with
    | nil =>
      intro s _ h
      simp only [List.foldlM_nil, Option.pure_def, Option.some.injEq] at h
      exact h ▸ .refl s
    | cons l rest ih =>
      intro s hok h
      simp only [List.foldlM_cons, Option.bind_eq_bind, Option.bind_eq_some_iff] at h
      obtain ⟨m, hm, hrest⟩ := h
      have hfirst : (ofStep start step).Run ok s m :=
        (Run.refl s).snoc (hok l List.mem_cons_self s) hm
      exact hfirst.trans (ih m (fun l hl => hok l (List.mem_cons_of_mem _ hl)) hrest)
  exact ⟨start, rfl, key ls start hok ht⟩

/-- An observation of an execution that yields a value is one of some
reachable state. -/
theorem exists_reachable_of_execWhen {ω : Type*} (check : σ → ℓ → Bool)
    (step : σ → ℓ → Option σ) (start : σ) (ls : List ℓ) (observe : σ → ω) (o : ω)
    (h : (execWhen check step start ls).map observe = some o) :
    ∃ t, (ofStep start step).Reachable (fun s l => check s l = true) t ∧ observe t = o := by
  obtain ⟨t, ht, rfl⟩ := Option.map_eq_some_iff.mp h
  exact ⟨t, reachable_of_execWhen ht, rfl⟩

/-- A checked execution from the start state and a second one from where it
ends, with an observation of both ends. -/
theorem exists_run_of_execWhen {ω : Type*} (check check' : σ → ℓ → Bool)
    (step : σ → ℓ → Option σ) (start : σ) (ls ls' : List ℓ) (observe : σ → σ → ω) (o : ω)
    (h : ((execWhen check step start ls).bind fun s =>
      (execWhen check' step s ls').map (observe s)) = some o) :
    ∃ s t, (ofStep start step).Reachable (fun s l => check s l = true) s ∧
      (ofStep start step).Run (fun s l => check' s l = true) s t ∧ observe s t = o := by
  obtain ⟨s, hs, h⟩ := Option.bind_eq_some_iff.mp h
  obtain ⟨t, ht, rfl⟩ := Option.map_eq_some_iff.mp h
  exact ⟨s, t, reachable_of_execWhen hs, run_of_execWhen ht, rfl⟩

/-- A checked execution from the start state, one step, and a second checked
execution after it. -/
theorem exists_step_run_of_execWhen {ω : Type*} (check check' : σ → ℓ → Bool)
    (step : σ → ℓ → Option σ) (start : σ) (ls : List ℓ) (l : ℓ) (ls' : List ℓ)
    (observe : σ → σ → σ → ω) (o : ω)
    (h : ((execWhen check step start ls).bind fun s => (step s l).bind fun m =>
      (execWhen check' step m ls').map (observe s m)) = some o) :
    ∃ s m t, (ofStep start step).Reachable (fun s l => check s l = true) s ∧
      step s l = some m ∧ (ofStep start step).Run (fun s l => check' s l = true) m t ∧
      observe s m t = o := by
  obtain ⟨s, hs, h⟩ := Option.bind_eq_some_iff.mp h
  obtain ⟨m, hm, h⟩ := Option.bind_eq_some_iff.mp h
  obtain ⟨t, ht, rfl⟩ := Option.map_eq_some_iff.mp h
  exact ⟨s, m, t, reachable_of_execWhen hs, hm, run_of_execWhen ht, rfl⟩

end Lts

end SlowMeet.Lib
