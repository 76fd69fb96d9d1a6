import SlowMeet.RateLimit.Account

/-!
# How many guesses a window allows

Every call that takes the mutex charges the account of its key. In a run
whose calls are in order every account stays sound, and the failures of every
window keep to its bound.
-/

namespace SlowMeet.RateLimit

open Lib

namespace System

variable {s t : System} {call : Call} {now : ℚ} {key : String}

/-- The bucket of a key. -/
def bucketOf (s : System) (key : String) : Option Bucket := s.limiter.buckets.lookup key

/-- From `s` to `t` the limiter keeps its constants, and loses no bucket but
by sweeping it. -/
structure Keeps (s t : System) (spared : String → Prop) : Prop where
  rate : t.limiter.rate = s.limiter.rate
  burst : t.limiter.burst = s.limiter.burst
  waiting : t.waiting = s.waiting
  others : ∀ key, spared key → t.bucketOf key = s.bucketOf key ∨ t.bucketOf key = none

/-! ## One call -/

theorem sweep_eq (l : Limiter) (now : ℚ) : (l.sweep now).rate = l.rate ∧
    (l.sweep now).burst = l.burst ∧ ∀ key, (l.sweep now).buckets.lookup key = l.buckets.lookup key ∨
      (l.sweep now).buckets.lookup key = none ∧ ∀ b, l.buckets.lookup key = some b →
        2 * (l.burst / l.rate) < now - b.last := by
  unfold Limiter.sweep
  split
  · exact ⟨rfl, rfl, fun key => Or.inl rfl⟩
  · refine ⟨rfl, rfl, fun key => ?_⟩
    simp only [GoMap.lookup_filter]
    cases hlookup : l.buckets.lookup key with
    | none => exact Or.inl rfl
    | some b =>
      by_cases hidle : 2 * (l.burst / l.rate) < now - b.last
      · right
        simp [Option.filter, hidle]
      · left
        simp [Option.filter, hidle]

theorem charging_allow (correct : Bool) : s.charging (.allow key correct) now =
    if key = "" then none else (s.limiter.sweep now).bucket key now := rfl

theorem charging_refund (attempt : Attempt) : s.charging (.refund attempt) now =
    if attempt.key = "" then none else s.bucketOf attempt.key := rfl

/-- The bucket that is charged is the key's, or a new one where it has none. -/
theorem charging_cases {b : Bucket} (hcharging : s.charging call now = some b) :
    s.bucketOf call.key = some b ∨
      b = ⟨s.limiter.burst, now⟩ ∧ (∃ key correct, call = .allow key correct) ∧
        ∀ old, s.bucketOf call.key = some old → 2 * (s.limiter.burst / s.limiter.rate) < now - old.last := by
  cases call with
  | refund attempt =>
    rw [charging_refund, Option.ite_none_left_eq_some] at hcharging
    exact Or.inl hcharging.2
  | allow key correct =>
    rw [charging_allow, Option.ite_none_left_eq_some] at hcharging
    replace hcharging := hcharging.2
    obtain ⟨-, hburst, hlookup⟩ := sweep_eq s.limiter now
    simp only [Limiter.bucket] at hcharging
    split at hcharging
    next old hold =>
      obtain rfl := Option.some.inj hcharging
      rcases hlookup key with hsame | ⟨hnone, -⟩
      · left
        show s.limiter.buckets.lookup key = some old
        rw [← hsame]
        exact hold
      · rw [hnone] at hold
        cases hold
    next hnone =>
      split at hcharging
      · cases hcharging
      · right
        refine ⟨by rw [← Option.some.inj hcharging, hburst], ⟨key, correct, rfl⟩, fun old hold => ?_⟩
        rcases hlookup key with hsame | ⟨-, hidle⟩
        · rw [hsame] at hnone
          rw [show s.limiter.buckets.lookup key = some old from hold] at hnone
          cases hnone
        · exact hidle old hold

/-- A call that charges no bucket. -/
theorem perform_uncharged (hcharging : s.charging call now = none) :
    s.Keeps (s.perform call now) (fun _ => True) ∧
      (s.perform call now).granted = s.granted ∧ (s.perform call now).charged = s.charged := by
  have hkeep : ∀ limiter : Limiter, limiter.rate = s.limiter.rate → limiter.burst = s.limiter.burst →
      (∀ key, limiter.buckets.lookup key = s.limiter.buckets.lookup key ∨
        limiter.buckets.lookup key = none) →
      s.Keeps { s with limiter } (fun _ => True) :=
    fun limiter hrate hburst hothers => ⟨hrate, hburst, rfl, fun key _ => hothers key⟩
  cases call with
  | refund attempt =>
    have hlimiter : s.limiter.refundAttempt attempt.key now = s.limiter := by
      unfold Limiter.refundAttempt
      split
      · rfl
      next hkey =>
        rw [charging_refund, if_neg hkey] at hcharging
        rw [show s.limiter.buckets.lookup attempt.key = none from hcharging]
    simp only [perform, hcharging, hlimiter, Option.isSome_none, Bool.false_eq_true, if_false]
    exact ⟨hkeep _ rfl rfl fun key => Or.inl rfl, trivial, trivial⟩
  | allow key correct =>
    have hdenied : s.limiter.allowAttempt key now =
        (if key = "" then s.limiter else s.limiter.sweep now, false) := by
      unfold Limiter.allowAttempt
      split
      · rfl
      next hkey =>
        rw [charging_allow, if_neg hkey] at hcharging
        simp only [hcharging]
    simp only [perform, hcharging, hdenied, Option.isSome_none, Bool.false_eq_true, if_false]
    refine ⟨?_, trivial, trivial⟩
    split
    · exact hkeep _ rfl rfl fun key => Or.inl rfl
    · obtain ⟨hrate, hburst, hlookup⟩ := sweep_eq s.limiter now
      exact hkeep _ hrate hburst fun key => (hlookup key).imp_right And.left

/-- A call that charges a bucket. -/
theorem perform_charged {b : Bucket} (hcharging : s.charging call now = some b) :
    ∃ attempts tokens,
      Charge (b.refill s.limiter.rate s.limiter.burst now) s.limiter.burst now call attempts tokens ∧
        s.Keeps (s.perform call now) (· ≠ call.key) ∧
        (s.perform call now).bucketOf call.key = some ⟨tokens, now⟩ ∧
        (s.perform call now).granted = s.granted ++ attempts ∧
        (s.perform call now).charged = Function.update s.charged call.key (some now) := by
  have hcharges := hcharging
  cases call with
  | refund attempt =>
    rw [charging_refund, Option.ite_none_left_eq_some] at hcharging
    obtain ⟨hkey, hlookup⟩ := hcharging
    rw [bucketOf] at hlookup
    refine ⟨[], _, .refunded attempt, ?_⟩
    simp only [perform, hcharges, Limiter.refundAttempt, if_neg hkey, hlookup, Option.isSome_some,
      if_true, List.append_nil]
    refine ⟨⟨rfl, rfl, rfl, fun key hne => Or.inl ?_⟩, ?_, trivial, trivial⟩
    · exact AList.lookup_insert_ne hne
    · exact AList.lookup_insert _
  | allow key correct =>
    rw [charging_allow, Option.ite_none_left_eq_some] at hcharging
    obtain ⟨hkey, hbucket⟩ := hcharging
    obtain ⟨hrate, hburst, hlookup⟩ := sweep_eq s.limiter now
    have hothers : ∀ (b' : Bucket) (key' : String), key' ≠ key →
        ((s.limiter.sweep now).buckets.insert key b').lookup key' = s.limiter.buckets.lookup key' ∨
          ((s.limiter.sweep now).buckets.insert key b').lookup key' = none := by
      intro b' key' hne
      rw [AList.lookup_insert_ne hne]
      exact (hlookup key').imp_right And.left
    by_cases hempty : (b.refill s.limiter.rate s.limiter.burst now).tokens < 1
    · refine ⟨[], _, .denied key correct hempty, ?_⟩
      simp only [perform, hcharges, Limiter.allowAttempt, if_neg hkey, hbucket, hrate, hburst, hempty,
        if_true, Option.isSome_some, List.append_nil]
      exact ⟨⟨rfl, rfl, rfl, fun key' hne => hothers _ key' hne⟩, AList.lookup_insert _, trivial,
        trivial⟩
    · refine ⟨_, _, .granted key correct (not_lt.mp hempty), ?_⟩
      simp only [perform, hcharges, Limiter.allowAttempt, if_neg hkey, hbucket, hrate, hburst, hempty,
        if_false, if_true, Option.isSome_some]
      exact ⟨⟨rfl, rfl, rfl, fun key' hne => hothers _ key' hne⟩, AList.lookup_insert _, trivial,
        trivial⟩

/-! ## Any number of calls -/

/-- The call charges its key in the order of the readings, a bucket that was
swept would be full again, and what it leaves has room for the refunds to
come. -/
structure Orderly (s : System) (call : Call) (now : ℚ) : Prop where
  inOrder : ∀ b, s.charging call now = some b → b.last ≤ now
  refilled : s.bucketOf call.key = none → s.charging call now ≠ none →
    ∀ last, s.charged call.key = some last → last + s.limiter.burst / s.limiter.rate ≤ now
  fits : ∀ b, s.charging call now = some b →
    Fits s.limiter.burst (b.refill s.limiter.rate s.limiter.burst now).tokens (s.owed call.key) call

/-- A call that takes the mutex is in order. -/
def InOrder (s : System) : Label → Prop
  | .lock index => ∀ call now, s.waiting[index]? = some (call, now) → s.Orderly call now
  | _ => True

/-- What is known of a key. -/
def account (s : System) (key : String) : Account :=
  ⟨s.bucketOf key, s.charged key, s.attempts key⟩

/-- Every account is sound, and refunds are for right passwords. -/
structure Sound (s : System) : Prop where
  rate : 0 < s.limiter.rate
  burst : 0 ≤ s.limiter.burst
  correct : ∀ call ∈ s.waiting, ∀ attempt, call.1.attempt? = some attempt → attempt.correct = true
  account : ∀ key, (s.account key).Sound s.limiter.rate s.limiter.burst

theorem sound_new (failuresPerMinute burst : ℤ) (current : ℚ) :
    (new failuresPerMinute burst current).Sound where
  rate := by
    show (0 : ℚ) < ((if failuresPerMinute ≤ 0 then 1 else failuresPerMinute : ℤ) : ℚ) / 60
    have hpos : (0 : ℤ) < if failuresPerMinute ≤ 0 then 1 else failuresPerMinute := by
      split <;> omega
    have hcast : (0 : ℚ) < ((if failuresPerMinute ≤ 0 then 1 else failuresPerMinute : ℤ) : ℚ) := by
      exact_mod_cast hpos
    linarith
  burst := by
    show (0 : ℚ) ≤ ((if burst ≤ 0 then 1 else burst : ℤ) : ℚ)
    have hpos : (0 : ℤ) ≤ if burst ≤ 0 then 1 else burst := by
      split <;> omega
    exact_mod_cast hpos
  correct call hcall := absurd hcall List.not_mem_nil
  account key :=
    { last := fun b hb => by cases hb
      tokens := fun b hb => by cases hb
      fits := fun b hb => by cases hb
      readings := fun attempt hattempt => absurd hattempt List.not_mem_nil
      during := fun _ _ _ hlast => by cases hlast
      after := fun _ _ _ hlast => by cases hlast }

/-- Steps that only move attempts around. -/
theorem Sound.moved (hs : s.Sound) (hlimiter : t.limiter = s.limiter) (hcharged : t.charged = s.charged)
    (houtstanding : t.outstanding.Perm s.outstanding)
    (hcorrect : ∀ call ∈ t.waiting, ∀ attempt, call.1.attempt? = some attempt →
      attempt.correct = true) : t.Sound := by
  refine ⟨hlimiter ▸ hs.rate, hlimiter ▸ hs.burst, hcorrect, fun key => ?_⟩
  rw [hlimiter]
  refine (hs.account key).weaken (congrFun hcharged key) (Or.inl ?_) ?_
  · show t.bucketOf key = s.bucketOf key
    rw [bucketOf, hlimiter, bucketOf]
  · exact (houtstanding.filter _).subperm

/-- A call that takes the mutex leaves the queue. -/
theorem outstanding_perm {index : Nat} (hcall : s.waiting[index]? = some (call, now)) :
    s.outstanding.Perm (call.attempt?.toList ++
      { s with waiting := s.waiting.eraseIdx index }.outstanding) := by
  obtain ⟨hindex, hget⟩ := List.getElem?_eq_some_iff.mp hcall
  have hperm : s.waiting.Perm ((call, now) :: s.waiting.eraseIdx index) := by
    rw [← hget]
    exact (List.getElem_cons_eraseIdx_perm hindex).symm
  have hmap := hperm.filterMap fun call => call.1.attempt?
  refine (List.Perm.append_left s.granted hmap).trans ?_
  cases hattempt : call.attempt? with
  | none => simp [outstanding, hattempt]
  | some attempt => simp [outstanding, hattempt, List.perm_middle]

theorem outstanding_perform {attempts : List Attempt}
    (hwaiting : (s.perform call now).waiting = s.waiting)
    (hgranted : (s.perform call now).granted = s.granted ++ attempts) :
    (s.perform call now).outstanding.Perm (attempts ++ s.outstanding) := by
  rw [outstanding, outstanding, hwaiting, hgranted, List.append_assoc]
  exact List.perm_append_comm_assoc _ _ _

/-- A refund is for a right password. -/
theorem Sound.correct_of_mem (hs : s.Sound) {index : Nat} (hcall : s.waiting[index]? = some (call, now))
    {attempt : Attempt} (hattempt : call.attempt? = some attempt) : attempt.correct = true :=
  hs.correct (call, now) (List.mem_of_getElem? hcall) attempt hattempt

/-- A call in order charges its account in order. -/
theorem Sound.charging_account (hs : s.Sound) {b : Bucket} (hcharging : s.charging call now = some b)
    (hok : s.Orderly call now) :
    (s.account call.key).Charging s.limiter.rate s.limiter.burst b now := by
  refine ⟨?_, hok.inOrder b hcharging⟩
  rcases charging_cases hcharging with hbucket | ⟨hnew, -, hidle⟩
  · exact Or.inl hbucket
  · refine Or.inr ⟨hnew, fun last hlast => ?_⟩
    cases hold : s.bucketOf call.key with
    | none => exact hok.refilled hold (by rw [hcharging]; exact Option.some_ne_none b) last hlast
    | some old =>
      have hsame : s.charged call.key = some old.last := (hs.account call.key).last old hold
      have hlast' : s.charged call.key = some last := hlast
      rw [hlast', Option.some.injEq] at hsame
      have hpos : 0 ≤ s.limiter.burst / s.limiter.rate := div_nonneg hs.burst hs.rate.le
      linarith [hidle old hold]

/-- **A call in order keeps every account sound.** -/
theorem Sound.lock (hs : s.Sound) {index : Nat} (hcall : s.waiting[index]? = some (call, now))
    (hok : s.Orderly call now) :
    ({ s with waiting := s.waiting.eraseIdx index }.perform call now).Sound := by
  generalize hs' : { s with waiting := s.waiting.eraseIdx index } = s'
  have hperm : s.outstanding.Perm (call.attempt?.toList ++ s'.outstanding) := hs' ▸ outstanding_perm hcall
  have hcharging : s'.charging call now = s.charging call now := by rw [← hs']; rfl
  have hlimiter : s'.limiter = s.limiter := by rw [← hs']
  have hchargedAt : s'.charged = s.charged := by rw [← hs']
  have hcorrect : ∀ call ∈ s'.waiting, ∀ attempt, call.1.attempt? = some attempt →
      attempt.correct = true := by
    intro call hcall
    rw [← hs'] at hcall
    exact hs.correct call (List.mem_of_mem_eraseIdx hcall)
  -- the attempts of another key stay, and of any key none is added but by the call
  have hfewer : ∀ key, (s'.attempts key).Subperm (s.attempts key) := fun key =>
    ((List.sublist_append_right _ _).subperm.trans hperm.symm.subperm).filter _
  cases hcase : s.charging call now with
  | none =>
    obtain ⟨hkeeps, hgranted, hcharged⟩ := perform_uncharged (hcharging.trans hcase)
    refine ⟨by rw [hkeeps.rate, hlimiter]; exact hs.rate, by rw [hkeeps.burst, hlimiter]; exact hs.burst,
      hkeeps.waiting ▸ hcorrect, fun key => ?_⟩
    rw [hkeeps.rate, hkeeps.burst, hlimiter]
    refine (hs.account key).weaken ?_ ?_ ?_
    · show (s'.perform call now).charged key = s.charged key
      rw [hcharged, hchargedAt]
    · show (s'.perform call now).bucketOf key = s.bucketOf key ∨ _
      have hothers := hkeeps.others key trivial
      rwa [show s'.bucketOf key = s.bucketOf key by rw [bucketOf, hlimiter, bucketOf]] at hothers
    · refine List.Subperm.trans ?_ (hfewer key)
      have hnothing : (s'.perform call now).granted = s'.granted ++ [] := by
        rw [hgranted, List.append_nil]
      have hsame := outstanding_perform hkeeps.waiting hnothing
      exact (hsame.filter _).subperm
  | some b =>
    obtain ⟨attempts, tokens, hcharge, hkeeps, hbucket, hgranted, hcharged⟩ :=
      perform_charged (hcharging.trans hcase)
    rw [hlimiter] at hcharge
    rw [hchargedAt] at hcharged
    have houtstanding := outstanding_perform hkeeps.waiting hgranted
    refine ⟨by rw [hkeeps.rate, hlimiter]; exact hs.rate, by rw [hkeeps.burst, hlimiter]; exact hs.burst,
      hkeeps.waiting ▸ hcorrect, fun key => ?_⟩
    rw [hkeeps.rate, hkeeps.burst, hlimiter]
    by_cases hkey : key = call.key
    · subst hkey
      have hcharged' : ((s'.perform call now).account call.key).charged = some now := by
        show (s'.perform call now).charged call.key = some now
        rw [hcharged, Function.update_self]
      -- the call's own attempts are all of its key
      have hbefore := hperm.filter fun attempt => attempt.key = call.key
      have hafter := houtstanding.filter fun attempt => attempt.key = call.key
      rw [List.filter_append] at hbefore hafter
      have hown : call.attempt?.toList.filter (fun attempt => attempt.key = call.key) =
          call.attempt?.toList := by
        cases call <;> simp [Call.attempt?, Call.key]
      have hadded : attempts.filter (fun attempt => attempt.key = call.key) = attempts := by
        cases hcharge <;> simp [Call.key]
      rw [hown] at hbefore
      rw [hadded] at hafter
      exact (hs.account call.key).charge hs.rate hs.burst (hs.charging_account hcase hok) hcharge
        (hok.fits b hcase) (fun attempt hattempt => hs.correct_of_mem hcall hattempt) hbucket hcharged'
        hbefore hafter
    · refine (hs.account key).weaken ?_ ?_ ?_
      · show (s'.perform call now).charged key = s.charged key
        rw [hcharged, Function.update_of_ne hkey]
      · show (s'.perform call now).bucketOf key = s.bucketOf key ∨ _
        have hothers := hkeeps.others key hkey
        rwa [show s'.bucketOf key = s.bucketOf key by rw [bucketOf, hlimiter, bucketOf]] at hothers
      · have hnone : attempts.filter (fun attempt => attempt.key = key) = [] := by
          cases hcharge with
          | granted key' correct _ =>
            have hne : ¬ key' = key := fun h => hkey h.symm
            simp [hne]
          | denied _ _ _ => rfl
          | refunded _ => rfl
        have hsame := houtstanding.filter fun attempt => attempt.key = key
        rw [List.filter_append, hnone, List.nil_append] at hsame
        exact hsame.subperm.trans (hfewer key)

/-- Steps keep every account sound. -/
theorem Sound.step {l : Label} (hs : s.Sound) (hok : s.InOrder l) (hstep : s.step l = some t) :
    t.Sound := by
  cases l with
  | tick seconds =>
    simp only [System.step, Option.ite_none_right_eq_some, Option.some.injEq] at hstep
    obtain ⟨-, rfl⟩ := hstep
    exact hs.moved rfl rfl (List.Perm.refl _) hs.correct
  | attempt key correct =>
    obtain rfl := Option.some.inj hstep
    refine hs.moved rfl rfl (List.Perm.of_eq (by simp [outstanding, Call.attempt?])) ?_
    intro call hcall attempt hattempt
    rcases List.mem_append.mp hcall with hcall | hcall
    · exact hs.correct call hcall attempt hattempt
    · rw [List.mem_singleton.mp hcall] at hattempt
      cases hattempt
  | refund index =>
    simp only [System.step] at hstep
    split at hstep
    · cases hstep
    next attempt hget =>
      split at hstep
      next hcorrect =>
        obtain rfl := Option.some.inj hstep
        obtain ⟨hindex, hget⟩ := List.getElem?_eq_some_iff.mp hget
        have hperm : (attempt :: s.granted.eraseIdx index).Perm s.granted := by
          rw [← hget]
          exact List.getElem_cons_eraseIdx_perm hindex
        refine hs.moved rfl rfl ?_ ?_
        · refine List.Perm.trans ?_ (hperm.append_right _)
          simp only [outstanding, Call.attempt?, List.filterMap_append, List.filterMap_cons,
            List.filterMap_nil]
          rw [← List.append_assoc]
          exact List.perm_append_singleton _ _
        · intro call hcall attempt' hattempt
          rcases List.mem_append.mp hcall with hcall | hcall
          · exact hs.correct call hcall attempt' hattempt
          · rw [List.mem_singleton.mp hcall] at hattempt
            obtain rfl := Option.some.inj hattempt
            exact hcorrect
      · cases hstep
  | lock index =>
    simp only [System.step] at hstep
    split at hstep
    · cases hstep
    next call now hcall =>
      obtain rfl := Option.some.inj hstep
      exact hs.lock hcall (hok call now hcall)

/-- **The failures of a key in a window are at most the burst and what the
rate allows in the window**, in every run whose calls are in order. -/
theorem bounded_of_inOrder {failuresPerMinute burst : ℤ} {current : ℚ}
    (hr : (lts failuresPerMinute burst current).Reachable InOrder s) : s.Bounded := by
  have hs : s.Sound := by
    refine hr.invariant_ofStep (I := Sound) (sound_new failuresPerMinute burst current) ?_
    intro s l t hs hok hstep
    exact hs.step hok hstep
  intro key start stop hle
  exact (hs.account key).failures_le hs.rate hs.burst hle

instance {burst tokens : ℚ} {owed : Nat} : Decidable (Fits burst tokens owed call) :=
  match call with
  | .allow _ _ => inferInstanceAs (Decidable (_ ≤ _))
  | .refund _ => inferInstanceAs (Decidable (_ ≤ _))

/-- `InOrder`, by the one bucket that the call charges. -/
def checkInOrder (s : System) : Label → Bool
  | .lock index => (s.waiting[index]?).all fun waiting =>
    (s.charging waiting.1 waiting.2).all fun b =>
      decide (b.last ≤ waiting.2) &&
      ((s.bucketOf waiting.1.key).isSome || (s.charged waiting.1.key).all fun last =>
        decide (last + s.limiter.burst / s.limiter.rate ≤ waiting.2)) &&
      decide (Fits s.limiter.burst (b.refill s.limiter.rate s.limiter.burst waiting.2).tokens
        (s.owed waiting.1.key) waiting.1)
  | _ => true

theorem inOrder_of_check {l : Label} (h : s.checkInOrder l = true) : s.InOrder l := by
  cases l with
  | lock index =>
    intro call now hcall
    have hbuckets : ∀ b, s.charging call now = some b → b.last ≤ now ∧
        (s.bucketOf call.key = none → ∀ last, s.charged call.key = some last →
          last + s.limiter.burst / s.limiter.rate ≤ now) ∧
        Fits s.limiter.burst (b.refill s.limiter.rate s.limiter.burst now).tokens
          (s.owed call.key) call := by
      intro b hb
      simp only [checkInOrder, hcall, Option.all_some, hb, Bool.and_eq_true, decide_eq_true_eq] at h
      refine ⟨h.1.1, ?_, h.2⟩
      intro hnone last hlast
      simpa [hnone, hlast] using h.1.2
    constructor
    case inOrder => exact fun b hb => (hbuckets b hb).1
    case refilled =>
      intro hnone hcharging
      obtain ⟨b, hb⟩ := Option.ne_none_iff_exists'.mp hcharging
      exact (hbuckets b hb).2.1 hnone
    case fits => exact fun b hb => (hbuckets b hb).2.2
  | _ => trivial

/-- One caller has the right password and one fails, then the refill and the
refund grant a failure each: the window's bound is met exactly. -/
theorem bounded_refunded : ∃ s : System, s.failures "a" 0 60 = 3 ∧
    s.limiter.burst + s.limiter.rate * (60 - 0) = 3 ∧ s.Bounded := by
  obtain ⟨s, hr, hs⟩ := Lts.exists_reachable_of_execWhen checkInOrder step (new 1 2 0)
    [.attempt "a" true, .attempt "a" false, .lock 0, .lock 0, .tick 60, .attempt "a" false, .lock 0,
      .refund 0, .lock 0, .attempt "a" false, .attempt "a" false, .lock 0, .lock 0]
    (fun s => (s.failures "a" 0 60, s.limiter.burst + s.limiter.rate * (60 - 0))) (3, 3)
    (by decide +kernel)
  obtain ⟨hfailures, hbound⟩ := Prod.mk.inj hs
  exact ⟨s, hfailures, hbound, bounded_of_inOrder (hr.mono fun _ _ => inOrder_of_check)⟩

/-- A call with an old reading lets the bucket gain the same minute twice. -/
theorem not_bounded_of_oldReading : ¬ ∀ (failuresPerMinute burst : ℤ) (current : ℚ) (s : System),
    (lts failuresPerMinute burst current).Reachable Lts.Any s → s.Bounded := by
  intro hall
  obtain ⟨s, hr, hs⟩ := Lts.exists_reachable_of_exec Lts.Any step (new 1 1 0)
    [.attempt "a" false, .tick 60, .attempt "a" false, .lock 1, .lock 0, .attempt "a" false, .lock 0]
    (fun s => (s.failures "a" 60 60, s.limiter.burst)) (2, 1) (fun _ _ _ => trivial)
    (by decide +kernel)
  obtain ⟨hfailures, hburst⟩ := Prod.mk.inj hs
  have hbound := hall 1 1 0 s hr "a" 60 60 le_rfl
  rw [hfailures, hburst] at hbound
  norm_num at hbound

end System

end SlowMeet.RateLimit
