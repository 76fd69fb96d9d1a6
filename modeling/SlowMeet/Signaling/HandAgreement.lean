import SlowMeet.Signaling.Hands
import SlowMeet.Signaling.RosterAgreement

/-!
# Every member sees the raised hands

No participant goes untold: while a member has not been told of one, no
connection holds its slot, or one of its connections has still to be
announced or is giving the slot up.
-/

namespace SlowMeet.Signaling

open Lib Media

/-- The life of a connection that gives up the slot of `p`, or has still to
be announced as `p`. -/
def Life.Owes (l : Life) (p : ParticipantID) : Prop :=
  l.pid = some p ∧ l.kind = .yielding ∨
    (l.kind = .entering p ∨ l.pid = some p ∧ (l.kind = .present ∨ ∃ b, l.kind = .waiting b)) ∧
      l.announced = false ∧ l.takeover = false

theorem Life.Owes.congr {l l' : Life} {p : ParticipantID} (h : l.Owes p) (hpid : l'.pid = l.pid)
    (hkind : l'.kind = l.kind) (hannounced : l'.announced = l.announced)
    (htakeover : l'.takeover = l.takeover) : l'.Owes p := by
  unfold Life.Owes at h ⊢
  rw [hpid, hkind, hannounced, htakeover]
  exact h

/-- A connection that stays present, or becomes so, owes what it owed. -/
theorem Life.Owes.present {l l' : Life} {p : ParticipantID} (h : l.Owes p)
    (hyielding : l.kind ≠ .yielding) (hpid : l'.pid = some p) (hkind : l'.kind = .present)
    (hannounced : l'.announced = l.announced) (htakeover : l'.takeover = l.takeover) :
    l'.Owes p := by
  rcases h with ⟨-, hk⟩ | ⟨-, ha, ht⟩
  · exact absurd hk hyielding
  · exact Or.inr ⟨Or.inr ⟨hpid, Or.inl hkind⟩, hannounced.trans ha, htakeover.trans ht⟩

theorem Life.Owes.pid {l : Life} {p : ParticipantID} (h : l.Owes p)
    (hentering : ∀ q, l.kind ≠ .entering q) : l.pid = some p := by
  rcases h with ⟨hp, -⟩ | ⟨hk | ⟨hp, -⟩, -⟩
  · exact hp
  · exact absurd hk (hentering p)
  · exact hp

/-- What is owed at each kind of stage. -/
theorem Life.Owes.kind {l : Life} {p : ParticipantID} (h : l.Owes p) :
    l.kind = .yielding ∨ l.kind = .entering p ∨ l.kind = .present ∨ ∃ b, l.kind = .waiting b := by
  rcases h with ⟨-, hk⟩ | ⟨hk | ⟨-, hk⟩, -⟩
  · exact Or.inl hk
  · exact Or.inr (Or.inl hk)
  · exact Or.inr (Or.inr hk)

namespace Session

variable {s t : Session} {e : Event} {c : ClientId} {p : ParticipantID}

/-- Why a member may not have been told of `p`. -/
def Owing (s : Session) (p : ParticipantID) : Prop :=
  (∀ c, s.slot p ≠ .held c) ∨ ∃ c, (s.life c).Owes p

/-- A connection that was superseded had been announced, or had itself taken
over. -/
def announcedFirst (s : Session) : Event → Prop
  | .part c => ∀ p, (s.life c).pid = some p → s.active p = some c ∨
      (s.life c).announced = true ∨ (s.life c).takeover = true
  | _ => True

/-- What `c` owes it goes on to owe, until it announces `p` or has given its
slot up. -/
theorem owes_step (hfirst : s.announcedFirst e) (hstep : s.Step e t) (h : (s.life c).Owes p) :
    (t.life c).Owes p ∨ (∀ d, t.slot p ≠ .held d) ∨
      e = .announce c ∧ (s.life c).pid = some p ∧ (s.life c).takeover = false := by
  have hkind := h.kind
  -- the events of other connections
  have hother : ∀ {a l}, c ≠ a → ((s.setLife a l).life c).Owes p := fun {a l} hne => by
    rw [setLife_life, if_neg hne]
    exact h
  -- the events of `c` between its arrival and the end of its membership
  have hstays : ∀ l : Life, ((s.life c).kind = .present ∨ ∃ b, (s.life c).kind = .waiting b) →
      l.pid = (s.life c).pid → l.kind = .present → l.announced = (s.life c).announced →
      l.takeover = (s.life c).takeover → l.Owes p := by
    intro l hk hpid hkind' hannounced htakeover
    refine h.present ?_ (hpid.trans (h.pid fun q hq => ?_)) hkind' hannounced htakeover
    · rcases hk with hk | ⟨b, hk⟩ <;> simp [hk]
    · rcases hk with hk | ⟨b, hk⟩ <;> simp [hk] at hq
  cases hstep with
  | draw => exact Or.inl h
  | join a hstage =>
    by_cases hc : c = a
    · subst hc
      simp [Life.kind, hstage, Stage.kind] at hkind
    · exact Or.inl (hother hc)
  | enter a q hstage =>
    by_cases hc : c = a
    · subst hc
      have hk : (s.life c).kind = .entering q := by rw [Life.kind, hstage]; rfl
      obtain rfl : q = p := by simpa [hk] using hkind
      left
      show ((s.setLife c _).life c).Owes q
      rw [setLife_life, if_pos rfl]
      exact h.present (by simp [hk]) rfl rfl rfl rfl
    · exact Or.inl (hother hc)
  | resume a q previous armed hstage hp =>
    by_cases hc : c = a
    · subst hc
      simp [Life.kind, hstage, Stage.kind] at hkind
    · exact Or.inl (hother hc)
  | takeover a q previous hstage hp hactive =>
    by_cases hc : c = a
    · subst hc
      simp [Life.kind, hstage, Stage.kind] at hkind
    · exact Or.inl (hother hc)
  | proceed a previous hstage hover =>
    left
    by_cases hc : c = a
    · subst hc
      rw [setStage_life, if_pos rfl]
      exact hstays _ (Or.inr ⟨previous, by rw [Life.kind, hstage]; rfl⟩) rfl rfl rfl rfl
    · exact hother hc
  | admission a q hstage hpid hclosed =>
    left
    by_cases hc : c = a
    · subst hc
      show ((s.setLife c _).life c).Owes p
      rw [setLife_life, if_pos rfl]
      exact hstays _ (Or.inl (by rw [Life.kind, hstage]; rfl)) rfl rfl rfl rfl
    · exact hother hc
  | admissionFail a hstage =>
    left
    by_cases hc : c = a
    · subst hc
      show ((s.setStage c _).life c).Owes p
      rw [setStage_life, if_pos rfl]
      exact hstays _ (Or.inl (by rw [Life.kind, hstage]; rfl)) rfl rfl rfl rfl
    · exact hother hc
  | announce a q hstage hpid =>
    by_cases hc : c = a
    · subst hc
      right; right
      rcases h with ⟨-, hk⟩ | ⟨hk | ⟨hp, -⟩, -, htakeover⟩
      · simp [Life.kind, hstage, Stage.kind] at hk
      · simp [Life.kind, hstage, Stage.kind] at hk
      · exact ⟨rfl, hp, htakeover⟩
    · left
      rw [setLife_life, if_neg hc]
      show (s.tell (s.Hears a) q true c).Owes p
      unfold tell
      split
      · exact h.congr rfl rfl rfl rfl
      · exact h
  | fail a intentional hstage =>
    left
    by_cases hc : c = a
    · subst hc
      rw [setLife_life, if_pos rfl]
      refine hstays _ (Or.inl ?_) rfl rfl rfl rfl
      rcases hstage with ⟨hstage, -⟩ | hstage <;> (rw [Life.kind, hstage]; rfl)
    · exact hother hc
  | depart a hstage =>
    left
    by_cases hc : c = a
    · subst hc
      show ((s.setStage c _).life c).Owes p
      rw [setStage_life, if_pos rfl]
      exact hstays _ (Or.inl (by rw [Life.kind, hstage]; rfl)) rfl rfl rfl rfl
    · exact hother hc
  | part a q hstage hpid =>
    left
    by_cases hc : c = a
    · subst hc
      rcases h with ⟨-, hk⟩ | ⟨hk | ⟨hp, -⟩, hannounced, htakeover⟩
      · simp [Life.kind, hstage, Stage.kind] at hk
      · simp [Life.kind, hstage, Stage.kind] at hk
      · -- it was neither announced nor a takeover, so its token leads to it
        obtain rfl : p = q := by simpa [hp] using hpid
        have hactive : s.active p = some c := by
          rcases hfirst p hp with hactive | ha | ht
          · exact hactive
          · simp [hannounced] at ha
          · simp [htakeover] at ht
        refine Or.inl ⟨?_, ?_⟩
        · show ((s.setStage c _).life c).pid = some p
          rw [setStage_life, if_pos rfl]
          exact hp
        · show ((s.setStage c _).life c).kind = .yielding
          rw [setStage_life, if_pos rfl]
          simp [Life.kind, Stage.kind, departure, hactive]
    · exact hother hc
  | settleSuperseded a d hstage hd =>
    by_cases hc : c = a
    · subst hc
      simp [Life.kind, hstage, Stage.kind, hd] at hkind
    · exact Or.inl (hother hc)
  | settleRemove a d hstage hd hgive =>
    left
    by_cases hc : c = a
    · subst hc
      rw [setStage_life, if_pos rfl]
      refine Or.inl ⟨h.pid fun q hq => ?_, rfl⟩
      simp [Life.kind, hstage, Stage.kind, hd] at hq
    · exact hother hc
  | settleGrace a q d hstage hpid hd hgive =>
    by_cases hc : c = a
    · subst hc
      have hp := h.pid fun q hq => by simp [Life.kind, hstage, Stage.kind, hd] at hq
      obtain rfl : p = q := by simpa [hp] using hpid
      right; left
      intro d'
      simp
    · exact Or.inl (hother hc)
  | leave a q hstage hpid =>
    by_cases hc : c = a
    · subst hc
      have hp := h.pid fun q hq => by simp [Life.kind, hstage, Stage.kind] at hq
      obtain rfl : p = q := by simpa [hp] using hpid
      right; left
      intro d
      simp
    · exact Or.inl (hother hc)
  | castLeft a q hstage hpid =>
    by_cases hc : c = a
    · subst hc
      simp [Life.kind, hstage, Stage.kind] at hkind
    · left
      rw [setStage_life, if_neg hc]
      show (s.tell (· ∈ s.members) q false c).Owes p
      unfold tell
      split
      · exact h.congr rfl rfl rfl rfl
      · exact h
  | notify a d q clients hstage hpid hd =>
    by_cases hc : c = a
    · subst hc
      simp [Life.kind, hstage, Stage.kind] at hkind
    · left
      rw [setStage_life, if_neg hc, setLife_life]
      split
      · next hcd =>
        subst hcd
        exact h.congr rfl rfl rfl rfl
      · exact h
  | arm a q hstage hpid =>
    by_cases hc : c = a
    · subst hc
      simp [Life.kind, hstage, Stage.kind] at hkind
    · exact Or.inl (hother hc)
  | quit a hstage =>
    by_cases hc : c = a
    · subst hc
      simp [Life.kind, hstage, Stage.kind] at hkind
    · exact Or.inl (hother hc)
  | expire a q hpid hp =>
    left
    by_cases hc : c = a
    · subst hc
      show ((s.setLife c _).life c).Owes p
      rw [setLife_life, if_pos rfl]
      exact h.congr rfl rfl rfl rfl
    · exact hother hc
  | reapLeave a q hreaping hpid =>
    left
    by_cases hc : c = a
    · subst hc
      show ((s.setLife c _).life c).Owes p
      rw [setLife_life, if_pos rfl]
      exact h.congr rfl rfl rfl rfl
    · exact hother hc
  | close closing hclosing => exact Or.inl h
  | closeLeave q hq => exact Or.inl h

/-- A connection that comes to hold a slot nobody held has still to be
announced. -/
theorem owing_of_unheld (ho : s.Owned) (hf : s.Flagged) (hstep : s.Step e t)
    (hslot : ∀ c, s.slot p ≠ .held c) : t.Owing p := by
  by_cases hunheld : ∀ c, t.slot p ≠ .held c
  · exact Or.inl hunheld
  · obtain ⟨d, hheld⟩ := not_forall_not.mp hunheld
    cases hstep with
    | join a hstage =>
      by_cases hp : p = s.next
      · subst hp
        refine Or.inr ⟨a, ?_⟩
        show ((s.setStage a _).life a).Owes s.next
        rw [setStage_life, if_pos rfl]
        exact Or.inr ⟨Or.inl rfl, hf.unannounced a (Or.inl (by rw [hstage]; rfl)),
          hf.untaken a (Or.inl hstage)⟩
      · simp only [Function.update_apply, if_neg hp] at hheld
        exact absurd hheld (hslot d)
    | resume a q previous armed hstage hq =>
      by_cases hp : p = q
      · subst hp
        refine Or.inr ⟨a, ?_⟩
        show ((s.setLife a _).life a).Owes p
        rw [setLife_life, if_pos rfl]
        exact Or.inr ⟨Or.inr ⟨rfl, Or.inr ⟨previous, rfl⟩⟩,
          hf.unannounced a (Or.inl (by rw [hstage]; rfl)), rfl⟩
      · simp only [Function.update_apply, if_neg hp] at hheld
        exact absurd hheld (hslot d)
    | takeover a q previous hstage hq hactive =>
      by_cases hp : p = q
      · subst hp
        exact absurd ((ho.slotted p).active previous hactive) (hslot previous)
      · simp only [Function.update_apply, if_neg hp] at hheld
        exact absurd hheld (hslot d)
    | settleGrace a q d' hstage hpid hd hgive =>
      by_cases hp : p = q
      · simp [hp] at hheld
      · simp only [Function.update_apply, if_neg hp] at hheld
        exact absurd hheld (hslot d)
    | leave a q hstage hpid =>
      by_cases hp : p = q
      · simp [hp] at hheld
      · simp only [Function.update_apply, if_neg hp] at hheld
        exact absurd hheld (hslot d)
    | expire a q hpid hq =>
      by_cases hp : p = q
      · simp [hp] at hheld
      · simp only [Function.update_apply, if_neg hp] at hheld
        exact absurd hheld (hslot d)
    | reapLeave a q hreaping hpid =>
      by_cases hp : p = q
      · simp [hp] at hheld
      · simp only [Function.update_apply, if_neg hp] at hheld
        exact absurd hheld (hslot d)
    | close closing hclosing =>
      simp only at hheld
      split at hheld
      · cases hheld
      · exact absurd hheld (hslot d)
    | closeLeave q hq =>
      by_cases hp : p = q
      · simp [hp] at hheld
      · simp only [Function.update_apply, if_neg hp] at hheld
        exact absurd hheld (hslot d)
    | _ => exact absurd hheld (hslot d)

theorem Owing.step (ho : s.Owned) (hf : s.Flagged) (hfirst : s.announcedFirst e)
    (hstep : s.Step e t) (h : s.Owing p) :
    t.Owing p ∨ ∃ c, e = .announce c ∧ (s.life c).pid = some p ∧ (s.life c).takeover = false := by
  rcases h with hslot | ⟨c, hc⟩
  · exact Or.inl (owing_of_unheld ho hf hstep hslot)
  · rcases owes_step hfirst hstep hc with hc' | hslot | hannounced
    · exact Or.inl (Or.inr ⟨c, hc'⟩)
    · exact Or.inl (Or.inl hslot)
    · exact Or.inr ⟨c, hannounced⟩

end Session

namespace Hub

variable {h h' : Hub} {c d : ClientId} {p : ParticipantID} {l : Label}
  {rank : ClientId → Nat} {slot : ParticipantID → Slot}

theorem runEvent_announces (c : ClientId) (ok : Bool) :
    (∀ d, h.runEvent c ok = .announce d → c = d ∧ (h.client c).phase = .announcing) ∧
      ∀ d, h.runEvent c ok = .part d → c = d ∧ (h.client c).phase = .disconnecting := by
  cases hphase : (h.client c).phase with
  | announcing | disconnecting => simp [runEvent, hphase]
  | reclaiming name token =>
    simp only [runEvent, hphase]
    split
    · simp
    · split <;> simp
  | parting departure at_ => cases at_ <;> simp [runEvent, hphase]
  | upgrading | opening | joining name | peering | closing | admitting =>
    simp only [runEvent, hphase]
    split <;> simp
  | _ => simp [runEvent, hphase]

/-- Nothing but a section of a handler announces or departs. -/
theorem event_announces (he : (∃ c, h.event l = .announce c) ∨ ∃ c, h.event l = .part c) :
    ∃ c ok, l = .run c ok := by
  cases l with
  | run c ok => exact ⟨c, ok, rfl⟩
  | receive c allowed input =>
    unfold event receiveEvent at he
    dsimp only at he
    split at he <;> try split at he
    all_goals simp at he
  | connect c | reap c =>
    unfold event at he
    dsimp only at he
    split at he <;> simp at he
  | _ => simp [event] at he

theorem announcedFirst_event (htells : h.TellsHands l) :
    (h.session rank slot).announcedFirst (h.event l) := by
  cases hevent : h.event l with
  | part c =>
    obtain ⟨c', ok, rfl⟩ := event_announces (Or.inr ⟨c, hevent⟩)
    obtain ⟨rfl, hphase⟩ := (runEvent_announces c' ok).2 c hevent
    simp only [TellsHands, hphase] at htells
    intro p hp
    have hp : (h.client c').participantID = some p := hp
    rcases htells with ⟨q, hq, hactive⟩ | hannounced | htakeover
    · rw [hp, Option.some.injEq] at hq
      subst hq
      exact Or.inl hactive
    · exact Or.inr (Or.inl hannounced)
    · exact Or.inr (Or.inr htakeover)
  | _ => trivial

/-- Every member has been told of itself, and of every participant nobody
owes it. -/
structure HandsTold (h : Hub) : Prop where
  own : ∀ d p, h.InRoom d → (h.client d).participantID = some p → h.toldHand d p ≠ none
  others : ∃ rank slot, (h.session rank slot).Owned ∧ (h.session rank slot).Membered ∧
    (h.session rank slot).Flagged ∧
    ∀ d p, h.InRoom d → h.toldHand d p = none → (h.session rank slot).Owing p

/-- What was told stays told. -/
theorem told_of_step (hk : h.Keyed) (hstep : h.Steps l h') (huntold : h'.toldHand d p = none) :
    h.toldHand d p = none ∧ h.sentHand d p l = none := by
  rw [toldHand_step hk hstep] at huntold
  cases hsent : h.sentHand d p l with
  | none =>
    rw [hsent, Option.none_or] at huntold
    exact ⟨huntold, rfl⟩
  | some v =>
    rw [hsent, Option.some_or] at huntold
    cases huntold

/-- An admission replays all but those who have left or are in their grace. -/
theorem owing_of_unreplayed {q : Participant} {rank' : ClientId → Nat}
    {slot' : ParticipantID → Slot} (ho' : (h'.session rank' slot').Owned)
    (hmeeting : h'.meeting = h.meeting) (hpending : h'.pending = h.pending)
    (huntold : h.replayedHand q p = none) : (h'.session rank' slot').Owing p := by
  left
  intro c hheld
  have hs := ho'.slotted p
  have hheld : (h'.session rank' slot').slot p = .held c := hheld
  unfold replayedHand at huntold
  split at huntold
  · cases huntold
  · split at huntold
    · next hentry =>
      obtain ⟨reconnect, hentry⟩ := Option.isSome_iff_exists.mp hentry
      rw [← hpending] at hentry
      have hgraced := hs.pending reconnect.client reconnect.armed
        (by simp [session, pendingOf, hentry])
      simp [hheld] at hgraced
    · have hids : h'.meeting.has p = true := hs.ids.mpr (by simp [hheld])
      rw [hmeeting, Meeting.has, Option.map_eq_none_iff.mp huntold] at hids
      cases hids

theorem handsTold_new (cfg : Config) : (Hub.new cfg).HandsTold where
  own d _ hroom := absurd hroom.1 (Finset.notMem_empty d)
  others := ⟨fun _ => 0, fun _ => .free, .start cfg.reconnectTimeout, .start cfg.reconnectTimeout,
    .start cfg.reconnectTimeout, fun d _ hroom => absurd hroom.1 (Finset.notMem_empty d)⟩

theorem HandsTold.own_step (hs : h.HandsTold) (hk : h.Keyed) (hpresent : h.Present)
    (hstep : h.Steps l h') (hroom' : h'.InRoom d) (hp : (h'.client d).participantID = some p) :
    h'.toldHand d p ≠ none := by
  intro huntold
  obtain ⟨huntold, hunsent⟩ := told_of_step hk hstep huntold
  rcases admitted_of_step hstep hroom' with hroom | ⟨q, hphase, hq, haccepted, rfl, rfl⟩
  · obtain ⟨⟨p', hp', -⟩, -⟩ := hpresent.member d hroom.1
    have hsame := participantID_step hpresent hstep hp'
    rw [hp, Option.some.injEq] at hsame
    subst hsame
    exact hs.own d p hroom hp' huntold
  · have hown : q.id = p := by
      have hsame := participantID_step hpresent hstep (participantID_of_some hq)
      rw [hp, Option.some.injEq] at hsame
      exact hsame.symm
    simp [sentHand, hphase, hq, haccepted, replayedHand, hown] at hunsent

theorem HandsTold.step (hs : h.HandsTold) (hk : h.Keyed) (hpresent : h.Present)
    (htells : h.TellsHands l) (hstep : h.Steps l h') : h'.HandsTold := by
  refine ⟨fun d p hroom' hp => hs.own_step hk hpresent hstep hroom' hp, ?_⟩
  obtain ⟨rank, slot, ho, hm, hf, howing⟩ := hs.others
  obtain ⟨rank', slot', hevent⟩ := step_event hk ho hm hstep
  refine ⟨rank', slot', ho.step hevent, hm.step hevent, hf.step hevent, ?_⟩
  intro d p hroom' huntold
  obtain ⟨huntold, hunsent⟩ := told_of_step hk hstep huntold
  rcases admitted_of_step hstep hroom' with hroom | ⟨q, hphase, hq, haccepted, rfl, rfl⟩
  · rcases (howing d p hroom huntold).step ho hf (announcedFirst_event htells) hevent with
      howing' | ⟨c, hannounce, hp, htakeover⟩
    · exact howing'
    · -- the announcement has reached `d`
      obtain ⟨c', ok, rfl⟩ := event_announces (Or.inl ⟨c, hannounce⟩)
      obtain ⟨rfl, hphase⟩ := (runEvent_announces c' ok).1 c hannounce
      have hp : (h.client c').participantID = some p := hp
      have htakeover : (h.client c').activeTakeover = false := htakeover
      obtain ⟨q, hq, hid⟩ := Option.map_eq_some_iff.mp hp
      by_cases hd : d = c'
      · exact absurd huntold (hs.own d p hroom (hd ▸ hp))
      · simp [sentHand, hphase, hq, htakeover, hroom.1, hd, hid] at hunsent
  · refine @owing_of_unreplayed h _ p q rank' slot' (ho.step hevent) ?_ ?_ ?_
    · rw [admitClient, haccepted]
      rfl
    · rw [admitClient, haccepted]
      rfl
    · simpa [sentHand, hphase, hq, haccepted] using hunsent

theorem handsTold_of_reachable {cfg : Config} (hr : (lts cfg).Reachable TellsHands h) :
    h.HandsTold := by
  refine hr.invariant_of (J := fun h => h.Keyed ∧ h.Present)
    (fun _ hs => ⟨(owned_of_reachable hs).1, present_of_reachable hs⟩) ?_ ?_
  · rintro h₀ rfl
    exact handsTold_new cfg
  · intro h l h' hJ _ hs htells htr
    exact hs.step hJ.1 hJ.2 htells (steps_of_step htr)

/-- With nothing under way everybody owed is told. -/
theorem not_owing (hs : (h.session rank slot).Slotted p) (hf : (h.session rank slot).Flagged)
    (hquiet : h.Quiescent) (hhas : h.meeting.has p = true)
    (hpending : h.pending.lookup ⟨p⟩ = none) : ¬ (h.session rank slot).Owing p := by
  have hq : (h.session rank slot).Quiet := hquiet.quiet
  intro howing
  rcases howing with hunheld | ⟨c, howes⟩
  · cases hslot : (h.session rank slot).slot p with
    | free => exact hs.ids.mp hhas hslot
    | held c => exact hunheld c hslot
    | graced c =>
      obtain ⟨-, -, ⟨hentry, -⟩ | ⟨hentry, -⟩⟩ := hs.graced c hslot <;>
        simp [session, pendingOf, hpending] at hentry
    | reaping c =>
      have hreaping := (hs.reaping c hslot).2.2.2
      rw [hq.reaping c] at hreaping
      cases hreaping
    | closing =>
      have hclosing := (hs.closing hslot).2.1
      rw [hq.closing] at hclosing
      exact Finset.notMem_empty p hclosing
  · rcases hq.stage c with hstage | hstage | hstage
    · rcases howes.kind with hk | hk | hk | ⟨b, hk⟩ <;> simp [Life.kind, hstage, Stage.kind] at hk
    · have hannounced := hf.settled c hstage
      rcases howes with ⟨-, hk⟩ | ⟨-, hunannounced, -⟩
      · simp [Life.kind, hstage, Stage.kind] at hk
      · rw [hannounced] at hunannounced
        cases hunannounced
    · rcases howes.kind with hk | hk | hk | ⟨b, hk⟩ <;> simp [Life.kind, hstage, Stage.kind] at hk

/-- What every member makes of its roster replay and the hand states it was
sent is, for a participant that is not in its grace, its record; and for one
that is, nothing or its record. -/
def HandsAgree (h : Hub) : Prop :=
  ∀ d ∈ h.roomMembers, ∀ p r, h.meeting.participants.lookup p = some r →
    lastOf (Message.handOf p) (h.client d).outbound = some (r.raisedHand, r.handOrder) ∨
      lastOf (Message.handOf p) (h.client d).outbound = none ∧ h.pending.lookup ⟨p⟩ ≠ none

/-- **Raised-hand view agreement** in every run in which the room can be told
right, whenever no handler has a hand to broadcast. -/
theorem hands_agree {cfg : Config} (hr : (lts cfg).Reachable TellsHands h) (hquiet : h.Quiescent)
    (hdone : ∀ c, (h.client c).phase.owed = []) : h.HandsAgree := by
  intro d hd p r hrecord
  have hknown := handsKnown_of_reachable hr
  obtain ⟨rank, slot, ho, hm, hf, howing⟩ := (handsTold_of_reachable hr).others
  have hroom : h.InRoom d := by
    refine ⟨hd, fun hclosing => ?_⟩
    rcases hquiet.handlers d with hp | hp | hp | hp | ⟨handler, hp⟩ | hp <;> simp [hp] at hclosing
  cases hknown.knows d p hroom with
  | agrees hagrees =>
    rcases hagrees r hrecord with huntold | htold
    · refine Or.inr ⟨huntold, fun hpending => ?_⟩
      have hhas : h.meeting.has p = true := by
        rw [Meeting.has, hrecord]
        rfl
      exact not_owing (ho.slotted p) hf hquiet hhas hpending (howing d p hroom huntold)
    · exact Or.inl htold
  | owed c howed =>
    rw [hdone c] at howed
    cases howed

/-- `TellsHands` at a hub where every record sent is the meeting's and nobody
leaves, checked. -/
def handsCheck (h : Hub) : Label → Bool
  | .run c _ =>
    match (h.client c).phase with
    | .handling (.raisedCast q _) => h.meeting.participants.lookup q.id == some q
    | .admitting | .announcing =>
      (h.client c).participant.all fun q => h.meeting.participants.lookup q.id == some q
    | .leaving | .disconnecting => false
    | _ => true
  | .reap _ | .closeLeave _ => false
  | _ => true

theorem tellsHands_of_check (hl : h.handsCheck l = true) : h.TellsHands l := by
  have hinforms : ∀ c q, h.meeting.participants.lookup q.id = some q → h.Informs c q := by
    intro c q hq
    refine Or.inl fun r hr => ?_
    rw [hq, Option.some.injEq] at hr
    exact hr
  cases l with
  | run c ok =>
    cases hphase : (h.client c).phase with
    | handling handler =>
      cases handler with
      | raisedCast q changed =>
        simp only [handsCheck, hphase, beq_iff_eq] at hl
        simp only [TellsHands, hphase]
        exact hinforms c q hl
      | _ => simp [TellsHands, hphase]
    | admitting =>
      simp only [handsCheck, hphase] at hl
      simp only [TellsHands, hphase]
      intro _ q hq
      simp only [hq, Option.all_some, beq_iff_eq] at hl
      exact hinforms c q hl
    | announcing =>
      simp only [handsCheck, hphase] at hl
      simp only [TellsHands, hphase]
      intro _ q hq
      simp only [hq, Option.all_some, beq_iff_eq] at hl
      exact hinforms c q hl
    | leaving | disconnecting => simp [handsCheck, hphase] at hl
    | _ => simp [TellsHands, hphase]
  | reap _ | closeLeave _ => cases hl
  | _ => trivial

/-- With the first `n` connections in their read loops and no others nothing
is under way. -/
theorem quiescent_of_reading {n : Nat} (hunborn : h.Unborn n) (hclosing : h.closingIDs = ∅)
    (hread : ∀ c ∈ List.range n, (h.client c).phase = .reading ∧ (h.client c).reaper = .idle) :
    h.Quiescent ∧ ∀ c, (h.client c).phase.owed = [] := by
  have hsplit : ∀ c, ((h.client c).phase = .absent ∨ (h.client c).phase = .reading) ∧
      (h.client c).reaper = .idle := by
    intro c
    by_cases hc : c < n
    · obtain ⟨hphase, hreaper⟩ := hread c (List.mem_range.mpr hc)
      exact ⟨Or.inr hphase, hreaper⟩
    · obtain ⟨hphase, -, hreaper⟩ := hunborn c (Nat.le_of_not_lt hc)
      exact ⟨Or.inl hphase, hreaper⟩
  refine ⟨⟨fun c => ?_, fun c => Or.inl (hsplit c).2, hclosing⟩, fun c => ?_⟩
  · rcases (hsplit c).1 with hphase | hphase <;> simp [hphase]
  · rcases (hsplit c).1 with hphase | hphase <;> (rw [hphase]; rfl)

/-- The first of two raised hands goes down, one handler after the other. -/
theorem hands_agree_lowered : ∃ h : Hub, h.HandsAgree ∧ 0 ∈ h.roomMembers ∧ 1 ∈ h.roomMembers ∧
    ((h.meeting.participants.lookup 1).map fun r => (r.raisedHand, r.handOrder)) =
      some (true, 1) := by
  obtain ⟨h, hr, hunborn, ho⟩ := exists_checked_within sampleConfig 2 handsCheck
    (joins 0 ++ joins 1 ++ moves 0 0 true 1 ++ moves 1 1 true 1 ++ moves 0 0 false 2)
    (fun h => decide ((∀ c ∈ List.range 2, (h.client c).phase = .reading ∧
        (h.client c).reaper = .idle) ∧ h.closingIDs = ∅ ∧ 0 ∈ h.roomMembers ∧ 1 ∈ h.roomMembers ∧
      ((h.meeting.participants.lookup 1).map fun r => (r.raisedHand, r.handOrder)) =
        some (true, 1))) true (by decide)
  obtain ⟨hread, hclosing, hm₀, hm₁, hrecord⟩ := of_decide_eq_true ho
  obtain ⟨hquiet, hdone⟩ := quiescent_of_reading hunborn hclosing hread
  have hr := hr.mono fun h l hl => tellsHands_of_check hl
  exact ⟨h, hands_agree hr hquiet hdone, hm₀, hm₁, hrecord⟩

/-! ## Two changes at once

The hands of 0 and 1 are up. The handler of 0 lowers the first and has yet to
broadcast the new place of 1 when 1 lowers its own hand and tells the room;
the outdated place comes last. -/

/-- A step of an admission or of a hand state. -/
def handsOnly : Label → Bool
  | .connect _ | .run _ true => true
  | .receive _ _ (some (.join _ _ _)) | .receive _ _ (some (.handState _ _)) => true
  | _ => false

theorem not_hands_agree : ∃ h : Hub,
    (lts sampleConfig).Reachable (fun _ l => handsOnly l = true) h ∧ h.Quiescent ∧
      (∀ c, (h.client c).phase.owed = []) ∧ ¬ h.HandsAgree := by
  obtain ⟨h, hr, hunborn, ho⟩ := exists_checked_within sampleConfig 2 (fun _ l => handsOnly l)
    (joins 0 ++ joins 1 ++ moves 0 0 true 1 ++ moves 1 1 true 1 ++
      [.receive 0 true (some (.handState 0 false))] ++ moves 1 1 false 1 ++ runs 0 5)
    (fun h => decide ((∀ c ∈ List.range 2, (h.client c).phase = .reading ∧
        (h.client c).reaper = .idle) ∧ h.closingIDs = ∅ ∧ 0 ∈ h.roomMembers ∧
      lastOf (Message.handOf 1) (h.client 0).outbound = some (true, 1) ∧
      ((h.meeting.participants.lookup 1).map fun r => (r.raisedHand, r.handOrder)) =
        some (false, 0))) true (by decide)
  obtain ⟨hread, hclosing, hm₀, htold, hrecord⟩ := of_decide_eq_true ho
  obtain ⟨hquiet, hdone⟩ := quiescent_of_reading hunborn hclosing hread
  refine ⟨h, hr, hquiet, hdone, fun hagree => ?_⟩
  obtain ⟨r, hr, hhand⟩ := Option.map_eq_some_iff.mp hrecord
  obtain ⟨hraised, horder⟩ := Prod.mk.inj hhand
  rcases hagree 0 hm₀ 1 r hr with hright | ⟨hnone, -⟩
  · rw [htold, hraised] at hright
    simp at hright
  · rw [htold] at hnone
    cases hnone

end Hub

end SlowMeet.Signaling
