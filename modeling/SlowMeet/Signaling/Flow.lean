import SlowMeet.Signaling.Room

/-!
# The control flow of a connection

Which section a connection runs after which, and where it has its
participant from.
-/

namespace SlowMeet.Signaling

open Lib Media

/-- The sections that may follow a section of `ServeHTTP`. -/
def Phase.Next : Phase → Phase → Prop
  | .absent, next => next = .upgrading ∨ next = .finished
  | .upgrading, next => next = .opening ∨ next = .finished
  | .opening, next => next = .reading ∨ next = .finished
  | .reading, next => next = .closing ∨ (∃ name token, next = .reclaiming name token) ∨
      (∃ name, next = .joining name) ∨ ∃ handler, next = .handling handler
  | .reclaiming name _, next => next = .joining name ∨ ∃ previous, next = .superseding previous
  | .joining _, next => (∃ p, next = .entering p) ∨ ∃ err, next = .refusing err
  | .refusing _, next => next = .reading
  | .entering _, next => next = .cancelling
  | .superseding previous, next => next = .waiting previous
  | .waiting _, next => next = .cancelling
  | .cancelling, next => next = .peering
  | .peering, next => next = .registering ∨ next = .closing
  | .registering, next => next = .admitting
  | .admitting, next => next = .releasing ∨ next = .closing
  | .releasing, next => next = .announcing
  | .announcing, next => next = .reading
  | .handling _, next => next = .reading ∨ ∃ handler, next = .handling handler
  | .closing, next => next = .disconnecting ∨ next = .finished
  | .disconnecting, next => ∃ departure at_, next = .parting departure at_
  | .parting departure _, next => (∃ at_, next = .parting departure at_) ∨ next = .finished ∨
      next = .forgetting ∨ next = .notifying departure.clients
  | .forgetting, next => next = .leaving
  | .leaving, next => next = .casting ∨ next = .finished
  | .casting, next => next = .scheduling
  | .scheduling, next => next = .arming ∨ next = .finished
  | .arming, next => next = .finished
  | .notifying clients, next =>
      (∃ d ∈ clients, next = .notifying (clients.erase d)) ∨ clients = ∅ ∧ next = .armingGrace
  | .armingGrace, next => next = .finished
  | .finished, _ => False

/-- What follows a section of the grace timer's callback. -/
def Reaper.Next : Reaper → Reaper → Prop
  | .unregistering, next => next = .closingPeer
  | .closingPeer, next => next = .leaving
  | .leaving, next => next = .forgetting
  | .forgetting, next => next = .scheduling
  | .scheduling, next => next = .arming ∨ next = .done
  | .arming, next => next = .done
  | .idle, _ | .done, _ => False

/-- What no other goroutine writes but the client's own. -/
def Client.own (me : Client) : Option Participant × Reaper := (me.participant, me.reaper)

namespace Hub

variable {h h' : Hub} {c d : ClientId}

@[simp] theorem phase_goto (c : ClientId) (phase : Phase) :
    ((h.goto c phase).client c).phase = phase := by
  simp [goto, client_update, Client.goto]

theorem phase_of_beside (hb : Beside d h h') : (h'.client d).phase = (h.client d).phase := by
  obtain ⟨_, _, _, _, he⟩ := hb
  rw [he]

theorem phase_update (c : ClientId) (f : Client → Client) :
    ((h.update c f).client c).phase = (f (h.client c)).phase := by
  rw [client_update, if_pos rfl]

theorem next_receive {input : Option Request} (hphase : (h.client c).phase = .reading)
    (hreceive : h.Receives c input h') :
    (h'.client c).phase = .reading ∨ Phase.Next .reading (h'.client c).phase := by
  have hcount : (((h.countJoin c).client c).phase) = .reading := by
    rw [countJoin, phase_update, hphase]
  cases hreceive with
  | ignored _ _ | videoSubscriptions _ _ _ _ => exact Or.inl hphase
  | refused _ text _ => exact Or.inl (by rw [refuse, write, phase_update, Client.write, hphase])
  | refusedJoin _ text _ => exact Or.inl (by rw [refuse, write, phase_update, Client.write, hcount])
  | leave p hp => exact Or.inr (by simp [phase_update, Phase.Next])
  | _ => exact Or.inr (by simp [Phase.Next])

theorem next_runHandler {p : Participant} (handler handler' : Handler) :
    Phase.Next (.handling handler') ((h.runHandler c p handler).client c).phase := by
  cases handler with
  | raising changed => cases changed <;> simp [runHandler, Phase.Next]
  | sharing active streamID trackID =>
    simp only [runHandler, requestScreenShare]
    split <;> simp [Phase.Next]
  | shared active change => cases change <;> simp [runHandler, Phase.Next]
  | relaying _ | reacting _ _ _ | raisedCast _ _ | sharedCast _ | chatting _ _ =>
    simp [runHandler, Phase.Next]

theorem next_run {ok : Bool} (hrun : h.Runs c ok h') :
    (h'.client c).phase = (h.client c).phase ∨
      Phase.Next (h.client c).phase (h'.client c).phase := by
  cases hrun with
  | finished hphase hreserved =>
    left
    simp [releasePending, hreserved, phase_update]
  | handling p handler hp hphase =>
    rw [hphase]
    exact Or.inr (next_runHandler handler handler)
  | reclaiming name token hphase =>
    rw [hphase]
    simp only [reclaim]
    repeat' split
    all_goals exact Or.inr (by simp [phase_update, Phase.Next])
  | joining name hphase =>
    rw [hphase]
    simp only [join]
    split <;> exact Or.inr (by simp [Phase.Next])
  | peering hphase =>
    rw [hphase]
    simp only [newPeer]
    split <;> exact Or.inr (by simp [phase_update, Phase.Next])
  | admitting p hp hphase =>
    rw [hphase]
    simp only [admitClient]
    repeat' split
    all_goals exact Or.inr (by simp [phase_update, Phase.Next])
  | parting p departure at_ hp hphase =>
    rw [hphase]
    right
    cases at_ with
    | releaseScreen =>
      simp only [runTeardown, releaseScreenShare]
      split <;> simp [phase_update, Phase.Next]
    | settle =>
      simp only [runTeardown, settle]
      repeat' split
      all_goals simp [Phase.Next]
    | unregister | closePeer | unpublish | screenCast => simp [runTeardown, Phase.Next]
  | armingGrace p hp hphase =>
    rw [hphase]
    simp only [armGrace]
    repeat' split
    all_goals exact Or.inr (by simp [Phase.Next])
  | upgrading hphase =>
    rw [hphase]
    cases ok <;> exact Or.inr (by simp [Phase.Next])
  | opening hphase | scheduling hphase =>
    rw [hphase, phase_goto]
    split <;> exact Or.inr (by simp [Phase.Next])
  | closing hphase =>
    rw [hphase, cleanup, phase_goto]
    split <;> exact Or.inr (by simp [Phase.Next])
  | leaving p hp hphase =>
    rw [hphase]
    simp only [leave]
    split <;> exact Or.inr (by simp [Phase.Next])
  | entering p hphase | announcing p hp hphase =>
    rw [hphase]
    exact Or.inr (by simp [enter, announce, phase_update, Phase.Next])
  | superseding _ hphase | waiting _ hphase _ | refusing _ hphase | cancelling hphase
    | registering _ _ hphase | releasing hphase | disconnecting _ _ hphase | forgetting _ _ hphase
    | casting _ _ hphase | arming hphase | notifying hphase =>
    rw [hphase]
    exact Or.inr (by simp [supersede, refuseJoin, disconnect, Phase.Next])

/-- The connection whose handler a step belongs to. -/
def Label.handler : Label → Option ClientId
  | .connect c | .receive c _ _ | .run c _ | .notify c _ => some c
  | _ => none

/-- **A connection stays at its section, or its handler goes on to a next
one.** -/
theorem next_step {l : Label} (hstep : h.Steps l h') (c : ClientId) :
    (h'.client c).phase = (h.client c).phase ∨
      l.handler = some c ∧ Phase.Next (h.client c).phase (h'.client c).phase := by
  by_cases hactor : l.actor = some c
  · cases hstep with
    | receive e allowed input _ hphase hreceive =>
      obtain rfl : e = c := by simpa [Label.actor] using hactor
      have hnext := next_receive hphase hreceive
      rw [← hphase] at hnext
      exact hnext.imp_right fun hnext => ⟨hactor, hnext⟩
    | run e ok _ hrun =>
      obtain rfl : e = c := by simpa [Label.actor] using hactor
      exact (next_run hrun).imp_right fun hnext => ⟨hactor, hnext⟩
    | connect e hphase =>
      obtain rfl : e = c := by simpa [Label.actor] using hactor
      right
      rw [hphase]
      simp only [reserve]
      split <;> exact ⟨rfl, by simp [phase_update, Phase.Next]⟩
    | notify e e' p clients hphase hp he =>
      obtain rfl : e = c := by simpa [Label.actor] using hactor
      right
      rw [hphase, phase_goto]
      exact ⟨rfl, Or.inl ⟨e', he, rfl⟩⟩
    | expireAdmission e hphase =>
      obtain rfl : e = c := by simpa [Label.actor] using hactor
      left
      simp only [expireAdmission]
      split <;> simp [phase_update]
    | reapArm e p hp hreaper =>
      obtain rfl : e = c := by simpa [Label.actor] using hactor
      left
      rw [setReaper, phase_update, client_scheduleChatHistoryExpiry]
    | closeSuperseded e htimer =>
      obtain rfl : e = c := by simpa [Label.actor] using hactor
      left
      rw [closeSuperseded, closePeer, phase_update, phase_update]
    | reapClosePeer e _ _ _ =>
      obtain rfl : e = c := by simpa [Label.actor] using hactor
      left
      rw [setReaper, closePeer, phase_update, phase_update]
    | reapForget e _ _ _ =>
      obtain rfl : e = c := by simpa [Label.actor] using hactor
      left
      rw [setReaper, phase_update, forgetMediaState]
    | graceFire e _ _ _ _ _ _ | reapUnregister e _ _ _ | reapLeave e _ _ _ | reapSchedule e _ _ _ =>
      obtain rfl : e = c := by simpa [Label.actor] using hactor
      left
      rw [setReaper, phase_update]
    | _ => simp [Label.actor] at hactor
  · exact Or.inl (phase_of_beside (beside_step hstep hactor))

/-- Past its admission only the handler of a connection moves it, but for its
inputs and the clients it notifies. -/
theorem stays_step {l : Label} (hstep : h.Steps l h') (habsent : (h.client c).phase ≠ .absent)
    (hread : (h.client c).phase ≠ .reading)
    (hnotify : ∀ clients, (h.client c).phase ≠ .notifying clients) :
    (h'.client c).phase = (h.client c).phase ∨ ∃ ok, l = .run c ok := by
  rcases next_step hstep c with hsame | ⟨hhandler, -⟩
  · exact Or.inl hsame
  · cases hstep with
    | run e ok _ _ =>
      obtain rfl : e = c := by simpa [Label.handler] using hhandler
      exact Or.inr ⟨ok, rfl⟩
    | receive e allowed input _ hphase _ =>
      obtain rfl : e = c := by simpa [Label.handler] using hhandler
      exact absurd hphase hread
    | connect e hphase =>
      obtain rfl : e = c := by simpa [Label.handler] using hhandler
      exact absurd hphase habsent
    | notify e e' p clients hphase hp he =>
      obtain rfl : e = c := by simpa [Label.handler] using hhandler
      exact absurd hphase (hnotify clients)
    | _ => simp [Label.handler] at hhandler

/-! ## Identity -/

/-- Where the participant of `c` and the place of its grace timer come from. -/
inductive Identity (h : Hub) (c : ClientId) : Label → Option Participant × Reaper → Prop
  | same (l : Label) : Identity h c l (h.client c).own
  | resumed (ok : Bool) (name : Name) (token : Token) (reconnect : PendingReconnect)
      (hphase : (h.client c).phase = .reclaiming name token)
      (hentry : h.pending.lookup token = some reconnect) :
      Identity h c (.run c ok) (some reconnect.participant, (h.client c).reaper)
  | tookOver (ok : Bool) (name : Name) (token : Token) (previous : ClientId)
      (hphase : (h.client c).phase = .reclaiming name token)
      (hentry : h.pending.lookup token = none)
      (hactive : h.activeTokens.lookup token = some previous) :
      Identity h c (.run c ok) ((h.client previous).participant, (h.client c).reaper)
  | entered (ok : Bool) (p : Participant) (hphase : (h.client c).phase = .entering p) :
      Identity h c (.run c ok) (some p, (h.client c).reaper)
  | refreshed (ok : Bool) (p q : Participant) (changed : List Participant)
      (hphase : (h.client c).phase = .handling (.raising (q :: changed)))
      (hp : (h.client c).participant = some p) (hq : q.id = p.id) :
      Identity h c (.run c ok) (some q, (h.client c).reaper)
  | fired (p : Participant) (hp : (h.client c).participant = some p)
      (hentry : ∃ reconnect, h.pending.lookup (reconnectToken p) = some reconnect ∧
        reconnect.client = c) :
      Identity h c (.graceFire c) (some p, .unregistering)
  | reaps (next : Reaper) (hnext : (h.client c).reaper.Next next) :
      Identity h c (.reap c) ((h.client c).participant, next)

/-- A change of `c` that touches neither. -/
theorem identity_update {g : Hub} {f : Client → Client} {l : Label}
    (hg : h.Identity c l (g.client c).own)
    (hf : (f (g.client c)).own = (g.client c).own) :
    h.Identity c l ((g.update c f).client c).own := by
  rwa [client_update, if_pos rfl, hf]

theorem identity_goto {g : Hub} {phase : Phase} {l : Label}
    (hg : h.Identity c l (g.client c).own) :
    h.Identity c l ((g.goto c phase).client c).own :=
  identity_update hg rfl

theorem identity_refuse {g : Hub} {l : Label} (text : String)
    (hg : h.Identity c l (g.client c).own) :
    h.Identity c l ((g.refuse c text).client c).own := by
  rw [refuse, write]
  exact identity_update hg rfl

theorem identity_closePeer {g : Hub} {l : Label} (hg : h.Identity c l (g.client c).own) :
    h.Identity c l ((g.closePeer c).client c).own :=
  identity_update hg rfl

theorem own_of_beside (hb : Beside d h h') : (h'.client d).own = (h.client d).own := by
  obtain ⟨_, _, _, _, he⟩ := hb
  rw [he]
  rfl

theorem identity_of_beside {l : Label} (hb : Beside c h h') :
    h.Identity c l (h'.client c).own := by
  rw [own_of_beside hb]
  exact .same l

theorem identity_runHandler {p : Participant} {handler : Handler} (ok : Bool)
    (hphase : (h.client c).phase = .handling handler) (hp : (h.client c).participant = some p) :
    h.Identity c (.run c ok) ((h.runHandler c p handler).client c).own := by
  cases handler with
  | raising changed =>
    cases changed with
    | nil => exact identity_goto (.same _)
    | cons q changed =>
      refine identity_goto ?_
      split
      · next hq =>
        rw [client_update, if_pos rfl]
        exact .refreshed ok p q changed hphase hp hq
      · exact .same _
  | sharing active streamID trackID =>
    simp only [runHandler, requestScreenShare]
    split
    · exact identity_goto (identity_refuse _ (.same _))
    · refine identity_goto ?_
      split
      · exact identity_update (.same _) rfl
      · split
        · exact identity_update (.same _) rfl
        · exact .same _
  | relaying state => exact identity_goto (identity_of_beside (beside_broadcastExcept _))
  | reacting id name emoji => exact identity_goto (identity_of_beside (beside_broadcastToRoom _))
  | raisedCast q changed => exact identity_goto (identity_of_beside (beside_broadcastToRoom _))
  | shared active change => exact identity_goto (.same _)
  | sharedCast owner => exact identity_goto (identity_of_beside (beside_broadcastToRoom _))
  | chatting msg entry =>
    exact identity_goto (identity_of_beside (beside_recordAndBroadcastChat msg entry))

theorem identity_run {ok : Bool} (hrun : h.Runs c ok h') :
    h.Identity c (.run c ok) (h'.client c).own := by
  cases hrun with
  | reclaiming name token hphase =>
    simp only [reclaim]
    split
    · next reconnect hentry =>
      rw [client_update, if_pos rfl]
      exact .resumed ok name token reconnect hphase hentry
    · next hentry =>
      split
      · next previous hactive =>
        rw [client_update, if_pos rfl]
        exact .tookOver ok name token previous hphase hentry hactive
      · exact identity_goto (.same _)
  | entering p hphase =>
    rw [enter, client_update, if_pos rfl]
    exact .entered ok p hphase
  | handling p handler hp hphase => exact identity_runHandler ok hphase hp
  | superseding previous hphase =>
    refine identity_goto ?_
    split
    · by_cases hc : c = previous
      · subst hc
        exact identity_update (.same _) rfl
      · rw [client_update, if_neg hc]
        exact .same _
    · exact .same _
  | joining name hphase =>
    simp only [join]
    split <;> exact identity_goto (.same _)
  | refusing err hphase =>
    refine identity_goto (identity_refuse _ ?_)
    cases err with
    | meetingFull => exact identity_of_beside (beside_broadcastToRoom _)
    | invalidName => exact .same _
  | cancelling hphase =>
    refine identity_goto ?_
    rw [client_cancelChatHistoryExpiry]
    exact .same _
  | peering hphase =>
    simp only [newPeer]
    split
    · exact identity_update (.same _) rfl
    · exact identity_goto (identity_refuse _ (.same _))
  | admitting p hp hphase =>
    simp only [admitClient]
    repeat' split
    · exact identity_goto (.same _)
    · exact identity_update (.same _) rfl
    · exact identity_goto (.same _)
  | releasing hphase =>
    refine identity_goto ?_
    simp only [releasePending]
    split
    · exact identity_update (.same _) rfl
    · exact .same _
  | announcing p hp hphase =>
    refine identity_update ?_ rfl
    split
    · exact .same _
    · exact identity_of_beside (beside_broadcastExcept _)
  | parting p departure at_ hp hphase =>
    cases at_ with
    | closePeer => exact identity_goto (identity_closePeer (.same _))
    | releaseScreen =>
      simp only [runTeardown, releaseScreenShare]
      split
      · exact identity_update (.same _) rfl
      · exact identity_goto (.same _)
    | screenCast => exact identity_goto (identity_of_beside (beside_broadcastToRoom _))
    | settle =>
      simp only [runTeardown, settle]
      repeat' split
      all_goals exact identity_goto (.same _)
    | unregister | unpublish => exact identity_goto (.same _)
  | casting p hp hphase => exact identity_goto (identity_of_beside (beside_broadcastToRoom _))
  | arming hphase =>
    refine identity_goto ?_
    rw [client_scheduleChatHistoryExpiry]
    exact .same _
  | armingGrace p hp hphase =>
    simp only [armGrace]
    repeat' split
    all_goals exact identity_goto (.same _)
  | finished hphase hreserved =>
    simp only [releasePending, hreserved, if_true]
    exact identity_update (.same _) rfl
  | upgrading _ | opening _ | waiting _ _ _ | registering _ _ _ | closing _ | disconnecting _ _ _
    | forgetting _ _ _ | leaving _ _ _ | scheduling _ | notifying _ => exact identity_goto (.same _)

/-- **A connection has the participant it joined as or reclaimed**, with the
record it last refreshed, and only its grace timer moves its expiry. -/
theorem identity_step {l : Label} (hstep : h.Steps l h') (c : ClientId) :
    h.Identity c l (h'.client c).own := by
  by_cases hactor : l.actor = some c
  · cases hstep with
    | run e ok _ hrun =>
      obtain rfl : e = c := by simpa [Label.actor] using hactor
      exact identity_run hrun
    | receive e allowed input _ hphase hreceive =>
      obtain rfl : e = c := by simpa [Label.actor] using hactor
      have hcount : h.Identity e (.receive e allowed input) ((h.countJoin e).client e).own :=
        identity_update (.same _) rfl
      cases hreceive with
      | ignored _ _ | videoSubscriptions _ _ _ _ => exact .same _
      | refused _ _ _ => exact identity_refuse _ (.same _)
      | refusedJoin _ _ _ => exact identity_refuse _ hcount
      | expelled _ _ _ => exact identity_goto (identity_refuse _ hcount)
      | reclaiming _ _ _ _ | joining _ _ _ => exact identity_goto hcount
      | leave _ _ => exact identity_update (.same _) rfl
      | lost | mediaState _ _ _ _ _ | handState _ _ _ _ _ _ | screenShare _ _ _ _ _ _
        | retainedChat _ _ _ _ | chat _ _ _ _ | reaction _ _ _ => exact identity_goto (.same _)
    | connect e hphase =>
      obtain rfl : e = c := by simpa [Label.actor] using hactor
      simp only [reserve]
      split
      · exact identity_goto (.same _)
      · exact identity_update (.same _) rfl
    | notify e e' p clients hphase hp he =>
      obtain rfl : e = c := by simpa [Label.actor] using hactor
      refine identity_goto ?_
      rw [write, client_update]
      split
      · next he =>
        subst he
        exact .same _
      · exact .same _
    | expireAdmission e hphase =>
      obtain rfl : e = c := by simpa [Label.actor] using hactor
      simp only [expireAdmission]
      split
      · exact .same _
      · exact identity_update (.same _) rfl
    | closeSuperseded e htimer =>
      obtain rfl : e = c := by simpa [Label.actor] using hactor
      exact identity_closePeer (identity_update (.same _) rfl)
    | graceFire e p reconnect hp hentry hclient harmed =>
      obtain rfl : e = c := by simpa [Label.actor] using hactor
      rw [setReaper, client_update, if_pos rfl]
      have hfired : h.Identity e (.graceFire e) (some p, .unregistering) :=
        .fired p hp ⟨reconnect, hentry, hclient⟩
      rw [← hp] at hfired
      exact hfired
    | reapArm e p hp hreaper =>
      obtain rfl : e = c := by simpa [Label.actor] using hactor
      rw [setReaper, client_update, if_pos rfl, client_scheduleChatHistoryExpiry]
      exact .reaps .done (by rw [hreaper]; rfl)
    | reapSchedule e p hp hreaper =>
      obtain rfl : e = c := by simpa [Label.actor] using hactor
      rw [setReaper, client_update, if_pos rfl]
      refine .reaps _ ?_
      rw [hreaper]
      split
      · exact Or.inl rfl
      · exact Or.inr rfl
    | reapClosePeer e p hp hreaper =>
      obtain rfl : e = c := by simpa [Label.actor] using hactor
      rw [setReaper, client_update, if_pos rfl, closePeer, client_update, if_pos rfl]
      exact .reaps .leaving (by rw [hreaper]; rfl)
    | reapUnregister e p hp hreaper | reapLeave e p hp hreaper | reapForget e p hp hreaper =>
      obtain rfl : e = c := by simpa [Label.actor] using hactor
      rw [setReaper, client_update, if_pos rfl]
      exact .reaps _ (by rw [hreaper]; rfl)
    | _ => simp [Label.actor] at hactor
  · exact identity_of_beside (beside_step hstep hactor)

theorem reaper_step {l : Label} (hstep : h.Steps l h') (c : ClientId) :
    (h'.client c).reaper = (h.client c).reaper ∨
      l = .graceFire c ∧ (h'.client c).reaper = .unregistering ∨
      l = .reap c ∧ (h.client c).reaper.Next (h'.client c).reaper := by
  have hidentity := identity_step hstep c
  generalize hown : (h'.client c).own = own at hidentity
  have hreaper : (h'.client c).reaper = own.2 := by rw [← hown]; rfl
  rw [hreaper]
  cases hidentity with
  | fired p hp hentry => exact Or.inr (Or.inl ⟨rfl, rfl⟩)
  | reaps next hnext => exact Or.inr (Or.inr ⟨rfl, hnext⟩)
  | same | resumed _ _ _ _ _ _ | tookOver _ _ _ _ _ _ _ | entered _ _ _
    | refreshed _ _ _ _ _ _ _ => exact Or.inl rfl

end Hub

end SlowMeet.Signaling
