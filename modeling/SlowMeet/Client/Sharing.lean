import SlowMeet.Client.ScreenShare

/-!
# Browser and hub agree on the local share

Whether the browser shares agrees with whether its client holds the lease,
whenever nothing is under way. A `screen_share_state` does not say which
request it answers: the grant of a request that was given up can settle the
next one, which the hub may refuse.
-/

namespace SlowMeet.Client.ScreenShare

open Lib

variable {participant : ClientId → ParticipantID} {me : ClientId}

/-! ## The invariant -/

namespace Browser

variable {b : Browser} {pending : List Bool} {mine mine' granted granted' revoked revoked' : Prop}

/-- The browser has a share, or has still to release one. -/
def Owes (b : Browser) : Prop :=
  b.screenStream = true ∨ b.stop = .detaching ∨ b.start = .requesting ∨ b.start = .setting ∨
    b.start = .failing

/-- Where the browser stands, against the messages the hub has yet to settle
for it, whether it holds the lease, whether its last start was granted, and
whether a message that ends the share is still to reach it. -/
structure Sound (b : Browser) (pending : List Bool) (mine granted revoked : Prop) : Prop where
  /-- A stop and a catch clause have dropped the stream. -/
  stream : b.screenStream = true →
    b.stop = .idle ∧ b.start ≠ .picking ∧ b.start ≠ .failing ∧ b.start ≠ .restoring
  picking : b.start = .picking → b.stop = .idle
  released : b.Owes ∨ pending.getLast? = some false ∨ pending = [] ∧ ¬ mine
  shared : b.screenStream = true → b.start = .idle ∨ b.start = .setting →
    pending = [] ∧ (mine ∨ revoked)
  asked : b.screenStream = true → b.start = .requesting →
    pending.getLast? = some true ∨ pending = [] ∧ (granted → mine ∨ revoked)

namespace Sound

/-- The settings and the controls do not matter. -/
theorem congr (h : b.Sound pending mine granted revoked) {b' : Browser} (hstart : b'.start = b.start)
    (hstop : b'.stop = b.stop) (hstream : b'.screenStream = b.screenStream) :
    b'.Sound pending mine granted revoked where
  stream := by
    rw [hstart, hstop, hstream]
    exact h.stream
  picking := by
    rw [hstart, hstop]
    exact h.picking
  released := by
    unfold Owes
    rw [hstart, hstop, hstream]
    exact h.released
  shared := by
    rw [hstart, hstream]
    exact h.shared
  asked := by
    rw [hstart, hstream]
    exact h.asked

theorem updateScreenShareUI (h : b.Sound pending mine granted revoked) (self : ParticipantID) :
    (b.updateScreenShareUI self).Sound pending mine granted revoked :=
  h.congr rfl rfl rfl

/-- The lease moves on the hub's side. -/
theorem hub (h : b.Sound pending mine granted revoked) (hmine : mine' → mine)
    (hkept : mine ∨ revoked → mine' ∨ revoked') : b.Sound pending mine' granted revoked' where
  stream := h.stream
  picking := h.picking
  released := by
    refine h.released.imp id (Or.imp id ?_)
    intro ⟨hempty, hother⟩
    exact ⟨hempty, fun h' => hother (hmine h')⟩
  shared := by
    intro hstream hstart
    obtain ⟨hempty, hheld⟩ := h.shared hstream hstart
    exact ⟨hempty, hkept hheld⟩
  asked := by
    intro hstream hstart
    refine (h.asked hstream hstart).imp id ?_
    intro ⟨hempty, hheld⟩
    exact ⟨hempty, fun hgranted => hkept (hheld hgranted)⟩

/-- Without a stream, neither grants nor revocations matter. -/
theorem forget (h : b.Sound pending mine granted revoked) (hstream : b.screenStream = false) :
    b.Sound pending mine granted' revoked' where
  stream := h.stream
  picking := h.picking
  released := h.released
  shared := by simp [hstream]
  asked := by simp [hstream]

/-- A release is sent, which covers whatever the hub has yet to settle. -/
theorem sendRelease (hstream : b.screenStream = false) (hpicking : b.start = .picking → b.stop = .idle) :
    b.Sound (pending ++ [false]) mine granted revoked where
  stream := by simp [hstream]
  picking := hpicking
  released := by simp
  shared := by simp [hstream]
  asked := by simp [hstream]

/-- The hub settles a release. -/
theorem settleRelease (h : b.Sound (false :: pending) mine granted revoked) (hfree : ¬ mine') :
    b.Sound pending mine' granted' revoked where
  stream := h.stream
  picking := h.picking
  released := by
    obtain howes | hlast | ⟨hempty, -⟩ := h.released
    · exact .inl howes
    · cases pending with
      | nil => exact .inr (.inr ⟨rfl, hfree⟩)
      | cons a rest => exact .inr (.inl hlast)
    · cases hempty
  shared := fun hstream hstart => nomatch (h.shared hstream hstart).1
  asked := by
    intro hstream hstart
    obtain hlast | ⟨hempty, -⟩ := h.asked hstream hstart
    · cases pending with
      | nil => cases hlast
      | cons a rest => exact .inl hlast
    · cases hempty

/-- The hub settles a start. -/
theorem settleStart (h : b.Sound (true :: pending) mine granted revoked)
    (hgranted : granted' → mine') : b.Sound pending mine' granted' revoked where
  stream := h.stream
  picking := h.picking
  released := by
    obtain howes | hlast | ⟨hempty, -⟩ := h.released
    · exact .inl howes
    · cases pending with
      | nil => cases hlast
      | cons a rest => exact .inr (.inl hlast)
    · cases hempty
  shared := fun hstream hstart => nomatch (h.shared hstream hstart).1
  asked := by
    intro hstream hstart
    obtain hlast | ⟨hempty, -⟩ := h.asked hstream hstart
    · cases pending with
      | nil => exact .inr ⟨rfl, fun hg => .inl (hgranted hg)⟩
      | cons a rest => exact .inl hlast
    · cases hempty

/-- The catch clause of a start is entered. -/
theorem fail (b : Browser) (pending : List Bool) (mine granted revoked : Prop) :
    b.fail.Sound pending mine granted revoked where
  stream := nofun
  picking := nofun
  released := by simp [Browser.fail, Owes]
  shared := nofun
  asked := nofun

theorem stopScreenShare (h : b.Sound pending mine granted revoked) :
    b.stopScreenShare.Sound pending mine granted revoked := by
  unfold Browser.stopScreenShare
  split
  · rename_i hstops
    have hpicking := (h.stream hstops.2).2.1
    exact ⟨nofun, fun hp => absurd hp hpicking, by simp [Owes], nofun, nofun⟩
  · exact h

theorem stopScreenShare_screenStream (h : b.Sound pending mine granted revoked) :
    b.stopScreenShare.screenStream = false := by
  unfold Browser.stopScreenShare
  split
  · rfl
  · rename_i hstays
    by_cases hstream : b.screenStream = true
    · exact absurd ⟨(h.stream hstream).1, hstream⟩ hstays
    · exact eq_false_of_ne_true hstream

theorem toggleScreenShare (h : b.Sound pending mine granted revoked) (self : ParticipantID) :
    (b.toggleScreenShare self).Sound pending mine granted revoked := by
  unfold Browser.toggleScreenShare
  split
  · exact h
  · rename_i hidle
    split
    · exact h.stopScreenShare
    · rename_i hstream
      split
      · exact h
      · have hstop : b.stop = .idle := by
          by_contra hne
          exact hidle (.inl hne)
        have hstart : b.start = .idle := by
          by_contra hne
          exact hidle (.inr hne)
        refine ⟨?_, fun _ => hstop, ?_, ?_, nofun⟩
        · exact fun h' => absurd h' hstream
        · simpa [Owes, hstart, hstop] using h.released
        · exact fun h' => absurd h' hstream

theorem endStart (h : b.Sound pending mine granted revoked)
    (hstart : b.start = .setting ∧ b.screenStream = true ∨ b.start = .restoring) :
    b.endStart.Sound pending mine granted revoked := by
  have hidle : Sound { b with start := .idle } pending mine granted revoked := by
    refine ⟨?_, nofun, ?_, ?_, nofun⟩
    · exact fun hstream => ⟨(h.stream hstream).1, nofun, nofun, nofun⟩
    · obtain ⟨-, hstream⟩ | hstart := hstart
      · exact .inl (.inl hstream)
      · simpa [Owes, hstart] using h.released
    · intro hstream _
      obtain ⟨hstart, -⟩ | hstart := hstart
      · exact h.shared hstream (.inr hstart)
      · exact absurd hstart (h.stream hstream).2.2.2
  unfold Browser.endStart
  split
  · exact hidle.stopScreenShare
  · exact hidle

/-- While a stop runs, there is no stream. -/
theorem stopping (h : b.Sound pending mine granted revoked) (hstop : b.stop ≠ .idle) :
    b.screenStream = false := by
  by_contra hne
  exact hstop (h.stream (eq_true_of_ne_false hne)).1

theorem endStop (h : b.Sound pending mine granted revoked) (hstop : b.stop = .resuming) :
    Sound { b with stop := .idle } pending mine granted revoked := by
  have hstream : b.screenStream = false := h.stopping (by simp [hstop])
  refine ⟨?_, fun _ => rfl, ?_, ?_, ?_⟩
  · simp [hstream]
  · simpa [Owes, hstop] using h.released
  · simp [hstream]
  · simp [hstream]

theorem captureEnded (h : b.Sound pending mine granted revoked) :
    b.captureEnded.Sound pending mine granted revoked := by
  unfold Browser.captureEnded
  split
  · exact h.stopScreenShare
  · exact h.congr rfl rfl rfl

theorem setAudioOnly (h : b.Sound pending mine granted revoked) (self : ParticipantID)
    (checked : Bool) : (b.setAudioOnly self checked).Sound pending mine granted revoked := by
  have hchecked : Sound { b with audioOnly := checked } pending mine granted revoked :=
    h.congr rfl rfl rfl
  unfold Browser.setAudioOnly
  split
  · exact hchecked.stopScreenShare.updateScreenShareUI self
  · exact hchecked.updateScreenShareUI self

/-- A grant may settle a request only if the hub has granted that one. -/
theorem onScreenShareState (h : b.Sound pending mine granted revoked) {self : ParticipantID}
    {owner : Option ParticipantID}
    (hgrant : owner = some self → b.start = .requesting → true ∉ pending ∧ granted) :
    (b.onScreenShareState self owner).Sound pending mine granted revoked := by
  have hshown : (Browser.updateScreenShareUI self { b with screenShareOwner := owner }).Sound
      pending mine granted revoked := h.congr rfl rfl rfl
  unfold Browser.onScreenShareState
  dsimp only
  split
  · rename_i hstart
    have hstart : b.start = .requesting := hstart
    split
    · rename_i howner
      obtain ⟨hnone, hgranted⟩ := hgrant howner hstart
      refine ⟨?_, nofun, .inl ?_, ?_, nofun⟩
      · exact fun hstream => ⟨(h.stream hstream).1, nofun, nofun, nofun⟩
      · simp [Owes]
      · intro hstream _
        obtain hlast | ⟨hempty, hheld⟩ := h.asked hstream hstart
        · exact absurd (List.mem_of_getLast? hlast) hnone
        · exact ⟨hempty, hheld hgranted⟩
    · split
      · exact Sound.fail _ _ _ _ _
      · exact hshown
  · exact hshown

/-- The message that ends the share leaves none behind. -/
theorem onConfigUpdate (h : b.Sound pending mine granted revoked) (self : ParticipantID)
    {enabled : Bool} (hkept : enabled = true → revoked → revoked') :
    (b.onConfigUpdate self enabled).Sound pending mine granted revoked' := by
  have htold : Sound { b with screenShareEnabled := enabled } pending mine granted revoked :=
    h.congr rfl rfl rfl
  unfold Browser.onConfigUpdate
  split
  · rename_i henabled
    have hmoved : Sound { b with screenShareEnabled := enabled } pending mine granted revoked' :=
      htold.hub (fun hmine => hmine) fun hheld => hheld.imp id (hkept henabled)
    exact hmoved.updateScreenShareUI self
  · have hstream := htold.stopScreenShare_screenStream
    exact (htold.stopScreenShare.forget hstream).updateScreenShareUI self

theorem onParticipantLeft (h : b.Sound pending mine granted revoked) (self left : ParticipantID) :
    (b.onParticipantLeft self left).Sound pending mine granted revoked := by
  unfold Browser.onParticipantLeft
  split
  · exact h.congr rfl rfl rfl
  · exact h

theorem onError (h : b.Sound pending mine granted revoked) :
    b.onError.Sound pending mine granted revoked := by
  unfold Browser.onError
  split
  · exact Sound.fail _ _ _ _ _
  · exact h

end Sound

end Browser

def Handler.pending : Option Handler → List Bool
  | some (.checked active) => [active]
  | _ => []

namespace State

variable {s t : State} {c : ClientId}

/-- The messages of this browser the hub has yet to settle. -/
def pending (me : ClientId) (s : State) : List Bool :=
  Handler.pending (s.handlers.lookup me) ++ s.toServer

/-- A message that ends the share is still to reach the browser. -/
def Revoked (s : State) : Prop :=
  .configUpdate false ∈ s.toBrowser ∨ ∃ i released, s.calls.lookup i = some (.updating false released)

def Sound (me : ClientId) (s : State) : Prop :=
  s.browser.Sound (s.pending me) (s.screenSharer = some me) (s.granted = true) s.Revoked

/-- A grant that settles a request is the answer to it: the hub has no start
of this browser left to settle, and has granted the last. -/
def answered (participant : ClientId → ParticipantID) (me : ClientId) (s : State) :
    Label → Bool
  | .deliver =>
    s.toBrowser.head? = some (.screenShareState (some (participant me))) →
      s.browser.start = .requesting → true ∉ s.pending me ∧ s.granted = true
  | _ => true

theorem pending_setHandler (h : c ≠ me) (handler : Option Handler) :
    (s.setHandler c handler).pending me = s.pending me := by
  rw [pending, pending, lookup_setHandler, if_neg h.symm]
  rfl

theorem pending_setHandler_self (handler : Option Handler) :
    (s.setHandler me handler).pending me = Handler.pending handler ++ s.toServer := by
  rw [pending, lookup_setHandler, if_pos rfl]
  rfl

/-! ## Steps of the browser -/

theorem Sound.picked (h : s.Sound me) {granted : Bool}
    (hstep : s.picked granted = some t) : t.Sound me := by
  unfold State.picked at hstep
  split at hstep
  · rename_i hstart
    obtain rfl := Option.some.inj hstep
    have hstop : s.browser.stop = .idle := h.picking hstart
    cases granted with
    | true => exact ⟨fun _ => ⟨hstop, nofun, nofun, nofun⟩, nofun, .inl (.inl rfl), nofun, nofun⟩
    | false => exact Browser.Sound.fail _ _ _ _ _
  · cases hstep

theorem Sound.prepared (h : s.Sound me) {succeeds : Bool}
    (hstep : s.prepared succeeds = some t) : t.Sound me := by
  unfold State.prepared at hstep
  split at hstep
  · split at hstep
    · obtain rfl := Option.some.inj hstep
      refine ⟨?_, nofun, .inl ?_, nofun, fun _ _ => .inl ?_⟩
      · exact fun hstream => ⟨(h.stream hstream).1, nofun, nofun, nofun⟩
      · simp [Browser.Owes]
      · simp [pending, send, ← List.append_assoc]
    · obtain rfl := Option.some.inj hstep
      exact Browser.Sound.fail _ _ _ _ _
  · cases hstep

theorem Sound.setUp (h : s.Sound me) {succeeds : Bool}
    (hstep : s.setUp participant me succeeds = some t) : t.Sound me := by
  unfold State.setUp at hstep
  split at hstep
  · rename_i hstart
    obtain rfl := Option.some.inj hstep
    unfold Sound
    dsimp only
    split
    · rename_i hends
      have hstream : s.browser.screenStream = true := by
        simp only [Bool.and_eq_true] at hends
        exact hends.1.2
      exact (Browser.Sound.updateScreenShareUI h _).endStart (.inl ⟨hstart, hstream⟩)
    · exact Browser.Sound.fail _ _ _ _ _
  · cases hstep

/-- A step that sends a release from a browser without a stream. -/
theorem Sound.send_false {b : Browser} (hstream : b.screenStream = false)
    (hpicking : b.start = .picking → b.stop = .idle) :
    ({ s.send false with browser := b } : State).Sound me := by
  have hsent : b.Sound (s.pending me ++ [false]) (s.screenSharer = some me) (s.granted = true)
      s.Revoked := .sendRelease hstream hpicking
  unfold State.pending at hsent
  rw [List.append_assoc] at hsent
  exact hsent

theorem Sound.timeout (hstep : s.timeout = some t) : t.Sound me := by
  unfold State.timeout at hstep
  split at hstep
  · obtain rfl := Option.some.inj hstep
    exact Sound.send_false rfl nofun
  · cases hstep

theorem Sound.restored (h : s.Sound me) (hstep : s.restored = some t) : t.Sound me := by
  unfold State.restored at hstep
  split at hstep
  · rename_i hstart
    obtain rfl := Option.some.inj hstep
    exact Browser.Sound.endStart h (.inr hstart)
  · cases hstep

theorem Sound.captureEnded (h : s.Sound me) (hstep : s.captureEnded = some t) : t.Sound me := by
  unfold State.captureEnded at hstep
  split at hstep
  · obtain rfl := Option.some.inj hstep
    exact Browser.Sound.captureEnded h
  · cases hstep

theorem Sound.stopped (h : s.Sound me) (hstep : s.stopped participant me = some t) :
    t.Sound me := by
  unfold State.stopped at hstep
  split at hstep
  · rename_i hstop
    obtain rfl := Option.some.inj hstep
    exact (Browser.Sound.endStop h hstop).updateScreenShareUI _
  · cases hstep

theorem Sound.failed (h : s.Sound me)
    (hstep : s.failed participant me = some t) : t.Sound me := by
  unfold State.failed at hstep
  split at hstep
  · rename_i hstart
    obtain rfl := Option.some.inj hstep
    have hstream : s.browser.screenStream = false := by
      by_contra hne
      exact (h.stream (eq_true_of_ne_false hne)).2.2.1 hstart
    exact Sound.send_false hstream nofun
  · cases hstep

theorem Sound.detached (h : s.Sound me)
    (hstep : s.detached = some t) : t.Sound me := by
  unfold State.detached at hstep
  split at hstep
  · rename_i hstop
    obtain rfl := Option.some.inj hstep
    have hstream : s.browser.screenStream = false :=
      Browser.Sound.stopping h (by rw [hstop]; nofun)
    refine Sound.send_false hstream fun hstart => ?_
    have hidle : s.browser.stop = .idle := h.picking hstart
    rw [hstop] at hidle
    cases hidle
  · cases hstep

theorem Sound.deliver (h : s.Sound me) (hok : s.answered participant me .deliver = true)
    (hstep : s.deliver participant me = some t) : t.Sound me := by
  unfold State.deliver at hstep
  split at hstep
  · rename_i message rest hqueue
    obtain rfl := Option.some.inj hstep
    -- every other message leaves a revocation where it is
    have hkept : message ≠ .configUpdate false → s.Revoked →
        ({ s with
            browser := s.browser.onMessage (participant me) message
            toBrowser := rest } : State).Revoked := by
      intro hother hrevoked
      refine hrevoked.imp (fun hmem => ?_) id
      rw [hqueue, List.mem_cons] at hmem
      exact hmem.resolve_left hother.symm
    cases message with
    | screenShareState owner =>
      refine (Browser.Sound.onScreenShareState h ?_).hub id (Or.imp id (hkept nofun))
      intro howner hstart
      refine of_decide_eq_true hok ?_ hstart
      rw [hqueue, howner]
      rfl
    | configUpdate enabled =>
      refine Browser.Sound.onConfigUpdate h _ fun henabled => hkept ?_
      rw [henabled]
      nofun
    | participantLeft left =>
      exact (Browser.Sound.onParticipantLeft h _ left).hub id (Or.imp id (hkept nofun))
    | error => exact (Browser.Sound.onError h).hub id (Or.imp id (hkept nofun))
  · cases hstep

theorem Sound.stepBrowser (h : s.Sound me) {l : Label} (hok : s.answered participant me l = true)
    (hstep : s.stepBrowser participant me l = some t) : t.Sound me := by
  cases l with
  | toggle =>
    obtain rfl := Option.some.inj hstep
    exact Browser.Sound.toggleScreenShare h _
  | picked granted => exact h.picked hstep
  | prepared succeeds => exact h.prepared hstep
  | timeout => exact Sound.timeout hstep
  | setUp succeeds => exact h.setUp hstep
  | failed => exact h.failed hstep
  | restored => exact h.restored hstep
  | captureEnded => exact h.captureEnded hstep
  | audioOnly checked =>
    obtain rfl := Option.some.inj hstep
    exact Browser.Sound.setAudioOnly h _ checked
  | detached => exact h.detached hstep
  | stopped => exact h.stopped hstep
  | fetched enabled =>
    obtain rfl := Option.some.inj hstep
    exact Browser.Sound.congr h rfl rfl rfl
  | deliver => exact h.deliver hok hstep
  | _ => cases hstep

/-! ## Steps of the hub -/

/-- A step of the hub that settles nothing for this browser. -/
theorem Sound.unsettled (h : s.Sound me) (hbrowser : t.browser = s.browser)
    (hpending : t.pending me = s.pending me) (hgranted : t.granted = s.granted)
    (hmine : t.screenSharer = some me → s.screenSharer = some me)
    (hkept : s.screenSharer = some me ∨ s.Revoked → t.screenSharer = some me ∨ t.Revoked) :
    t.Sound me := by
  unfold Sound
  rw [hbrowser, hpending, hgranted]
  exact Browser.Sound.hub h hmine hkept

/-- Another client's request leaves this client's lease alone. -/
theorem lease_eq_me (hc : c ≠ me) (active : Bool) (screenSharer : Option ClientId) :
    lease c active screenSharer = some me ↔ screenSharer = some me := by
  cases active with
  | false =>
    simp only [lease, Bool.false_eq_true, if_false]
    split
    · rename_i hheld
      simp [hheld, hc]
    · rfl
  | true =>
    simp only [lease, if_true]
    split
    · rename_i hfree
      simp [hfree, hc]
    · rfl

theorem lease_false_ne (screenSharer : Option ClientId) : lease me false screenSharer ≠ some me := by
  simp only [lease, Bool.false_eq_true, if_false]
  split
  · nofun
  · assumption

theorem pending_announcement (active : Bool) (screenSharer : Option ClientId) :
    Handler.pending (announcement participant c active screenSharer) = [] := by
  unfold announcement
  dsimp only
  split
  · rfl
  · split <;> rfl

theorem Sound.read (h : s.Sound me) (hstep : s.read me = some t) :
    t.Sound me := by
  unfold State.read at hstep
  split at hstep
  · rename_i active rest hqueue
    split at hstep
    case isFalse => cases hstep
    rename_i hidle
    obtain rfl := Option.some.inj hstep
    have hpending : s.pending me = active :: rest := by simp [pending, hidle, hqueue, Handler.pending]
    cases hchecked : s.checkConfig active with
    | refusing =>
      -- only a start is refused here
      have hactive : active = true := by
        by_contra hne
        simp [checkConfig, hne] at hchecked
      unfold Sound at h ⊢
      rw [hpending, hactive] at h
      have hrest : ({ s.setHandler me (some .refusing) with
          toServer := rest
          granted := s.granted && decide (Handler.refusing ≠ .refusing) } : State).pending me =
          rest := by
        rw [pending, lookup_setHandler, if_pos rfl]
        rfl
      rw [hrest]
      exact h.settleStart (by simp)
    | checked checkedActive =>
      have hsame : checkedActive = active := by
        unfold checkConfig at hchecked
        split at hchecked
        · cases hchecked
        · exact (Handler.checked.inj hchecked).symm
      refine h.unsettled rfl ?_ (by simp) id id
      rw [hpending, pending, lookup_setHandler, if_pos rfl, hsame]
      rfl
    | announcing owner =>
      unfold checkConfig at hchecked
      split at hchecked <;> cases hchecked
  · cases hstep

theorem Sound.request (h : s.Sound me) {active : Bool}
    (hstep : s.request me c active = some t) : t.Sound me := by
  unfold State.request at hstep
  split at hstep
  · rename_i hother
    obtain rfl := Option.some.inj hstep
    exact h.unsettled rfl (pending_setHandler hother.1 _) rfl id id
  · cases hstep

theorem Sound.leave (h : s.Sound me) (hstep : s.leave participant me c = some t) :
    t.Sound me := by
  unfold State.leave at hstep
  split at hstep
  · obtain rfl := Option.some.inj hstep
    exact h.unsettled rfl rfl rfl id (Or.imp id (Or.imp (List.mem_append_left _) id))
  · cases hstep

theorem Sound.lock (h : s.Sound me) (hstep : s.lock participant me c = some t) :
    t.Sound me := by
  unfold State.lock at hstep
  split at hstep
  · rename_i active hchecked
    obtain rfl := Option.some.inj hstep
    by_cases hc : c = me
    · subst hc
      have hpending : s.pending c = active :: s.toServer := by
        simp [pending, hchecked, Handler.pending]
      unfold Sound at h
      rw [hpending] at h
      have hrest : (s.requestScreenShare participant c c active).pending c = s.toServer := by
        unfold requestScreenShare
        rw [pending, lookup_setHandler, if_pos rfl, pending_announcement]
        rfl
      unfold Sound
      rw [hrest]
      cases active with
      | false => exact h.settleRelease (lease_false_ne _)
      | true => exact h.settleStart (by simp [requestScreenShare])
    · refine h.unsettled rfl (pending_setHandler hc _) (if_neg fun h' => hc h'.1)
        (lease_eq_me hc active _).mp (Or.imp (lease_eq_me hc active _).mpr id)
  · cases hstep

/-- An announcement adds a message and settles nothing. -/
theorem Sound.announce (h : s.Sound me) (hstep : s.announce me c = some t) :
    t.Sound me := by
  have hidle : Handler.pending (s.handlers.lookup c) = [] →
      (s.setHandler c none).pending me = s.pending me := by
    intro hempty
    by_cases hc : c = me
    · subst hc
      rw [pending_setHandler_self, pending, hempty]
      rfl
    · exact pending_setHandler hc _
  unfold State.announce at hstep
  split at hstep
  · rename_i hrefusing
    obtain rfl := Option.some.inj hstep
    have hpending := hidle (by rw [hrefusing]; rfl)
    split
    · refine h.unsettled rfl hpending rfl id (Or.imp id (Or.imp ?_ id))
      exact List.mem_append_left _
    · exact h.unsettled rfl hpending rfl id id
  · rename_i owner hannouncing
    obtain rfl := Option.some.inj hstep
    refine h.unsettled rfl (hidle (by rw [hannouncing]; rfl)) rfl id (Or.imp id (Or.imp ?_ id))
    exact List.mem_append_left _
  · cases hstep

theorem Sound.release (h : s.Sound me) (hstep : s.release me c = some t) :
    t.Sound me := by
  unfold State.release at hstep
  split at hstep
  · rename_i hother
    obtain rfl := Option.some.inj hstep
    unfold releaseScreenShare
    split
    · rename_i hheld
      refine h.unsettled rfl (pending_setHandler hother.1 _) rfl nofun (Or.imp ?_ id)
      intro hmine
      exact absurd (Option.some.inj (hheld.symm.trans hmine)) hother.1
    · exact h
  · cases hstep

/-- A revocation stays on its way while its call moves on. -/
theorem revoked_setCall {i : CallId} (call : Option Call) (h : s.Revoked)
    (hcall : ∀ released, s.calls.lookup i ≠ some (.updating false released)) :
    (s.setCall i call).Revoked := by
  refine h.imp id fun ⟨j, released, hj⟩ => ⟨j, released, ?_⟩
  rw [lookup_setCall, if_neg, hj]
  rintro rfl
  exact hcall released hj

theorem Sound.broadcastConfig (h : s.Sound me) {i : CallId} {enabled : Bool}
    (hstep : s.broadcastConfig i enabled = some t) : t.Sound me := by
  unfold State.broadcastConfig at hstep
  split at hstep
  · rename_i hidle
    obtain rfl := Option.some.inj hstep
    refine h.unsettled rfl rfl rfl id (Or.imp id fun hrevoked => ?_)
    exact revoked_setCall _ hrevoked (by simp [hidle])
  · cases hstep

theorem Sound.lockConfig (h : s.Sound me) {i : CallId}
    (hstep : s.lockConfig i = some t) : t.Sound me := by
  unfold State.lockConfig at hstep
  split at hstep
  · rename_i enabled hentered
    obtain rfl := Option.some.inj hstep
    have hcall : ∀ released, s.calls.lookup i ≠ some (.updating false released) := by
      simp [hentered]
    unfold releaseDisabled
    split
    · rename_i hdisabled
      have hdisabled : enabled = false := by
        simp only [Bool.and_eq_true, Bool.not_eq_true'] at hdisabled
        exact hdisabled.1
      subst hdisabled
      refine h.unsettled rfl rfl rfl nofun fun _ => .inr (.inr ⟨i, true, ?_⟩)
      exact (lookup_setCall s i i _).trans (if_pos rfl)
    · refine h.unsettled rfl rfl rfl id (Or.imp id fun hrevoked => ?_)
      exact revoked_setCall _ hrevoked hcall
  · cases hstep

theorem Sound.updateConfig (h : s.Sound me) {i : CallId}
    (hstep : s.updateConfig i = some t) : t.Sound me := by
  unfold State.updateConfig at hstep
  split at hstep
  · rename_i enabled released hupdating
    obtain rfl := Option.some.inj hstep
    refine h.unsettled rfl rfl rfl id (Or.imp id fun hrevoked => ?_)
    -- its own revocation moves from the call to the connection
    by_cases hdisabled : enabled = false
    · left
      simp [broadcast, hdisabled]
    · have hcall : ∀ r, s.calls.lookup i ≠ some (.updating false r) := by
        simp [hupdating, hdisabled]
      obtain hmem | hcalls :=
        revoked_setCall (if released then some .announcing else none) hrevoked hcall
      · exact .inl (List.mem_append_left _ hmem)
      · exact .inr hcalls
  · cases hstep

theorem Sound.announceConfig (h : s.Sound me) {i : CallId}
    (hstep : s.announceConfig i = some t) : t.Sound me := by
  unfold State.announceConfig at hstep
  split at hstep
  · rename_i hannouncing
    obtain rfl := Option.some.inj hstep
    refine h.unsettled rfl rfl rfl id (Or.imp id fun hrevoked => ?_)
    obtain hmem | hcalls := revoked_setCall (i := i) none hrevoked (by simp [hannouncing])
    · exact .inl (List.mem_append_left _ hmem)
    · exact .inr hcalls
  · cases hstep

theorem Sound.stepHub (h : s.Sound me) {l : Label}
    (hstep : s.stepHub participant me l = some t) : t.Sound me := by
  cases l with
  | read => exact h.read hstep
  | request c active => exact h.request hstep
  | lock c => exact h.lock hstep
  | announce c => exact h.announce hstep
  | release c => exact h.release hstep
  | leave c => exact h.leave hstep
  | refuse =>
    obtain rfl := Option.some.inj hstep
    exact h.unsettled rfl rfl rfl id (Or.imp id (Or.imp (List.mem_append_left _) id))
  | configure enabled =>
    obtain rfl := Option.some.inj hstep
    exact h
  | broadcastConfig i enabled => exact h.broadcastConfig hstep
  | lockConfig i => exact h.lockConfig hstep
  | updateConfig i => exact h.updateConfig hstep
  | announceConfig i => exact h.announceConfig hstep
  | _ => cases hstep

theorem Sound.step (h : s.Sound me) {l : Label} (hok : s.answered participant me l = true)
    (hstep : s.step participant me l = some t) : t.Sound me := by
  unfold State.step at hstep
  cases hbrowser : s.stepBrowser participant me l with
  | some u =>
    rw [hbrowser] at hstep
    obtain rfl := Option.some.inj hstep
    exact h.stepBrowser hok hbrowser
  | none =>
    rw [hbrowser] at hstep
    exact h.stepHub hstep

theorem Opened.sound (h : s.Opened me) : s.Sound me where
  stream := by simp [h.streamless]
  picking := fun _ => h.idle.2
  released := by
    refine .inr (.inr ⟨?_, h.unshared⟩)
    simp [pending, h.handler, h.toServer, Handler.pending]
  shared := by simp [h.streamless]
  asked := by simp [h.streamless]

/-- **Browser and hub agree on the local share** in a run where every grant
that settles a request answers it. -/
theorem agrees_of_answered {start : State} (hstart : start.Opened me)
    (h : (lts participant me start).Reachable (fun s l => s.answered participant me l = true) s)
    (hidle : s.browser.Idle) (hquiet : s.Quiet) : s.Agrees me := by
  have hsound : s.Sound me := Lts.Reachable.invariant_ofStep hstart.sound
    (fun _ _ _ hs hok hstep => hs.step hok hstep) h
  have hpending : s.pending me = [] := by
    simp [pending, hquiet.handlers, hquiet.toServer, Handler.pending]
  have hrevoked : ¬ s.Revoked := by simp [Revoked, hquiet.toBrowser, hquiet.calls]
  constructor
  · intro hstream
    exact (hsound.shared hstream (.inl hidle.1)).2.resolve_right hrevoked
  · intro hmine
    by_contra hstream
    have howes : ¬ s.browser.Owes := by simp [Browser.Owes, hidle.1, hidle.2, hstream]
    obtain hlast | ⟨-, hother⟩ := hsound.released.resolve_left howes
    · rw [hpending] at hlast
      cases hlast
    · exact hother hmine

/-! ## Two runs -/

def sampleState : State where
  browser := {
    start := .idle
    stop := .idle
    screenStream := false
    trackEnded := false
    screenShareOwner := none
    screenShareEnabled := true
    audioOnly := false
    screenDisabled := false
  }
  enableScreenShare := true
  screenSharer := none
  handlers := ∅
  calls := ∅
  granted := false
  toServer := []
  toBrowser := []

theorem opened_sampleState : sampleState.Opened 0 := ⟨⟨rfl, rfl⟩, rfl, nofun, rfl, rfl⟩

/-- The share button, up to the request. -/
def share : List Label := [.toggle, .picked true, .prepared true]

/-- The hub serves one message of the browser. -/
def serve : List Label := [.read, .lock 0, .announce 0]

/-- Nothing is under way: `Quiet`, in a form that can be evaluated. -/
def quiet (s : State) : Bool :=
  s.toServer = [] ∧ s.toBrowser = [] ∧ s.handlers.entries = [] ∧ s.calls.entries = []

theorem Quiet.of_quiet (h : s.quiet = true) : s.Quiet := by
  obtain ⟨hserver, hbrowser, hhandlers, hcalls⟩ := of_decide_eq_true h
  exact ⟨hserver, hbrowser, AList.ext hhandlers, AList.ext hcalls⟩

/-- The request times out, and its release makes room for the next. -/
theorem agrees_of_answered_retried :
    ∃ s : State, s.browser.screenStream = true ∧ s.Agrees 0 := by
  obtain ⟨s, hs, hobs⟩ := Lts.exists_reachable_of_execWhen
    (fun s l => s.answered id 0 l) (step id 0) sampleState
    (share ++ [.timeout, .failed, .restored] ++ serve ++ serve ++ [.read, .lock 0] ++
      [.deliver, .deliver] ++ share ++ serve ++ [.deliver, .setUp true])
    (fun s => (s.browser, s.quiet))
    ({ sampleState.browser with screenStream := true, screenShareOwner := some 0 }, true)
    (by decide)
  simp only [Prod.mk.injEq] at hobs
  obtain ⟨hbrowser, hquiet⟩ := hobs
  refine ⟨s, by rw [hbrowser], agrees_of_answered opened_sampleState hs ?_ (.of_quiet hquiet)⟩
  rw [hbrowser]
  exact ⟨rfl, rfl⟩

/-- The late grant of the first request settles the second, which the hub
refuses: another client shares, and the browser shares too. -/
theorem not_agrees_of_lateGrant :
    ¬ ∀ (participant : ClientId → ParticipantID) (me : ClientId) (start s : State),
      start.Opened me → (lts participant me start).Reachable Lts.Any s → s.browser.Idle →
      s.Quiet → s.Agrees me := by
  intro h
  obtain ⟨s, hs, hobs⟩ := Lts.exists_reachable_of_exec Lts.Any (step id 0) sampleState
    (share ++ serve ++ [.timeout, .failed, .restored] ++ serve ++ [.read, .lock 0] ++
      [.request 1 true, .lock 1, .announce 1] ++ share ++ serve ++
      [.deliver, .setUp true, .deliver, .deliver, .deliver])
    (fun s => (s.browser, s.screenSharer, s.quiet))
    ({ sampleState.browser with
        screenStream := true, screenShareOwner := some 1, screenDisabled := true }, some 1, true)
    (fun _ _ _ => trivial) (by decide)
  simp only [Prod.mk.injEq] at hobs
  obtain ⟨hbrowser, hsharer, hquiet⟩ := hobs
  have hidle : s.browser.Idle := by
    rw [hbrowser]
    exact ⟨rfl, rfl⟩
  have hagrees := h id 0 sampleState s opened_sampleState hs hidle (.of_quiet hquiet)
  have hmine := hagrees.mp (by rw [hbrowser])
  rw [hsharer] at hmine
  cases hmine

end State

end SlowMeet.Client.ScreenShare
