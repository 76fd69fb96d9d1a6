import SlowMeet.Signaling.Flow
import SlowMeet.Signaling.Refinement

/-!
# Who is present

What the ownership of the slots means for the hub's own connections: at most
one of a participant's is being served, and as long as one is, its slot is
taken. The identity of a connection never changes once it has one.
-/

namespace SlowMeet.Signaling

open Lib Media

/-- From the end of the wait for its predecessor to the decision about the
slot. -/
def Phase.serving : Phase → Bool
  | .cancelling | .peering | .registering | .admitting | .releasing | .announcing | .reading
  | .handling _ | .closing | .disconnecting | .parting _ _ | .forgetting | .leaving => true
  | _ => false

/-- Before the connection has a participant, its read loop apart. -/
def Phase.unknown : Phase → Bool
  | .absent | .upgrading | .opening | .reclaiming _ _ | .joining _ | .refusing _ | .entering _ =>
    true
  | _ => false

/-- Open to a connection without a participant, and past its end. -/
def Phase.anonymous : Phase → Bool
  | .reading | .handling _ | .closing | .scheduling | .arming | .finished => true
  | _ => false

/-- From the reclaim or the join to the admission. -/
def Phase.arriving : Phase → Bool
  | .superseding _ | .waiting _ | .cancelling | .peering | .registering | .admitting => true
  | _ => false

/-- Between admission and the end of membership. -/
def Phase.inRoom : Phase → Bool
  | .releasing | .announcing | .reading | .handling _ | .closing => true
  | _ => false

/-- A participant is known where an admission is under way. -/
theorem Phase.Next.arriving {phase next : Phase} (hnext : phase.Next next)
    (harriving : next.arriving = true) : phase.arriving = true ∨ phase.unknown = true := by
  cases phase with
  | superseding _ | waiting _ | cancelling | peering | registering | admitting => exact Or.inl rfl
  | absent | upgrading | opening | reclaiming _ _ | joining _ | refusing _ | entering _ =>
    exact Or.inr rfl
  | reading =>
    rcases hnext with rfl | ⟨_, _, rfl⟩ | ⟨_, rfl⟩ | ⟨_, rfl⟩ <;> simp [Phase.arriving] at harriving
  | handling _ => rcases hnext with rfl | ⟨_, rfl⟩ <;> simp [Phase.arriving] at harriving
  | parting _ _ =>
    rcases hnext with ⟨_, rfl⟩ | rfl | rfl | rfl <;> simp [Phase.arriving] at harriving
  | notifying _ => rcases hnext with ⟨_, _, rfl⟩ | ⟨_, rfl⟩ <;> simp [Phase.arriving] at harriving
  | disconnecting =>
    obtain ⟨_, _, rfl⟩ := hnext
    simp [Phase.arriving] at harriving
  | closing | leaving | scheduling =>
    rcases hnext with rfl | rfl <;> simp [Phase.arriving] at harriving
  | releasing | announcing | forgetting | casting | arming | armingGrace =>
    obtain rfl := hnext
    simp [Phase.arriving] at harriving
  | finished => exact hnext.elim

namespace Hub

/-- `c` is being served under the participant `p`. -/
def Serves (h : Hub) (c : ClientId) (p : ParticipantID) : Prop :=
  (h.client c).participantID = some p ∧ (h.client c).phase.serving = true

/-- Before its admission, or never to be admitted. -/
def Early (h : Hub) (d : ClientId) : Prop :=
  (h.client d).participant = none ∨ (h.client d).phase.arriving = true

/-- Who is present at a reachable hub. -/
structure Present (h : Hub) : Prop where
  unique : ∀ c c' p, h.Serves c p → h.Serves c' p → c' = c
  has : ∀ c p, h.Serves c p → h.meeting.has p = true
  closing : ∀ c p, h.Serves c p → p ∉ h.closingIDs
  reaping : ∀ c c' p, h.Serves c p → (h.client c').participantID = some p →
    (h.client c').reaper.reaping = false
  closed : ∀ p ∈ h.closingIDs, h.closed = true
  seen : ∀ c p, (h.client c).participantID = some p → p < h.nextID
  slots : ∀ p, h.meeting.has p = true → p < h.nextID
  unknown : ∀ c, (h.client c).phase.unknown = true → (h.client c).participant = none
  known : ∀ c, (h.client c).participant = none →
    (h.client c).phase.unknown = true ∨ (h.client c).phase.anonymous = true
  entry : ∀ p reconnect, h.pending.lookup ⟨p⟩ = some reconnect → h.meeting.has p = true
  member : ∀ c ∈ h.roomMembers, (∃ p, h.Serves c p) ∧ (h.client c).phase.inRoom = true

variable {h h' : Hub} {c c' d : ClientId} {p : ParticipantID} {rank : ClientId → Nat}
  {slot : ParticipantID → Slot}

theorem kind_of_serves (rank : ClientId → Nat) (slot : ParticipantID → Slot)
    (hserves : h.Serves c p) :
    ((h.session rank slot).life c).kind = .present ∨
      ((h.session rank slot).life c).kind = .superseded ∨
      ((h.session rank slot).life c).kind = .yielding := by
  obtain ⟨hp, hphase⟩ := hserves
  have hknown : (h.client c).participant.isSome = true := by
    rw [Client.participantID] at hp
    cases hparticipant : (h.client c).participant with
    | none => simp [hparticipant] at hp
    | some q => rfl
  refine Stage.kind_of_current ?_
  show ((h.client c).phase.stage (h.client c).participant.isSome).current = true
  rw [hknown]
  cases hc : (h.client c).phase <;> simp_all [Phase.serving, Phase.stage, Stage.current]

/-- Who serves `p` is neither waiting nor over. -/
theorem eq_of_serves (hs : (h.session rank slot).Slotted p) (hc : h.Serves c p)
    (hc' : h.Serves c' p) : c' = c := by
  have hkind := kind_of_serves rank slot hc
  have hkind' := kind_of_serves rank slot hc'
  have hnot : ∀ {e}, (((h.session rank slot).life e).kind = .present ∨
      ((h.session rank slot).life e).kind = .superseded ∨
      ((h.session rank slot).life e).kind = .yielding) →
      ¬ (∃ b, ((h.session rank slot).life e).kind = .waiting b) ∧
        ((h.session rank slot).life e).kind ≠ .over := by
    rintro e (hk | hk | hk) <;> simp [hk]
  rcases Nat.lt_trichotomy ((h.session rank slot).rank c') ((h.session rank slot).rank c) with
    hlt | heq | hlt
  · exact absurd (hs.lower c c' hc.1 hc'.1 hlt) (not_or.mpr ⟨(hnot hkind).1, (hnot hkind').2⟩)
  · exact hs.rank c c' hc.1 hc'.1 heq
  · exact absurd (hs.lower c' c hc'.1 hc.1 hlt) (not_or.mpr ⟨(hnot hkind').1, (hnot hkind).2⟩)

theorem present_of_owned (ho : (h.session rank slot).Owned)
    (hm : (h.session rank slot).Membered) : h.Present := by
  have hdone : ∀ c p, h.Serves c p → slot p ≠ .free ∧ slot p ≠ .closing := by
    intro c p hserves
    have hkind := kind_of_serves rank slot hserves
    have hs := (ho.slotted p).done c hserves.1
    constructor <;> intro hslot
    · rcases hs (Or.inl hslot) with hk | hk | hk <;> simp [hk] at hkind
    · rcases hs (Or.inr hslot) with hk | hk | hk <;> simp [hk] at hkind
  constructor
  case unique => exact fun c c' p hc hc' => eq_of_serves (ho.slotted p) hc hc'
  case has => exact fun c p hc => (ho.slotted p).ids.mpr (hdone c p hc).1
  case closing => exact fun c p hc hp => (hdone c p hc).2 ((ho.slotted p).closer hp)
  case reaping =>
    intro c c' p hc hp
    rw [Bool.eq_false_iff]
    intro hreaping
    have hs := ho.slotted p
    have hslot := hs.reaper c' hp hreaping
    obtain ⟨-, -, hover, -⟩ := hs.reaping c' hslot
    have htop := hs.top c' c (Or.inr (Or.inr hslot)) hp hc.1
    have hkind := kind_of_serves rank slot hc
    rcases Nat.lt_or_eq_of_le htop with hlt | heq
    · rcases hs.lower c' c hp hc.1 hlt with ⟨b, hb⟩ | hk
      · simp [hb] at hover
      · simp [hk] at hkind
    · obtain rfl := hs.rank c' c hp hc.1 heq
      simp [hover] at hkind
  case closed => exact fun p hp => ((ho.slotted p).closing ((ho.slotted p).closer hp)).2.2
  case seen => exact fun c p hp => (ho.slotted p).seen c hp
  case slots => exact fun p hp => (ho.slotted p).next ((ho.slotted p).ids.mp hp)
  case unknown =>
    intro c hphase
    have hkind : ((h.session rank slot).life c).kind = .outside ∨
        ∃ p, ((h.session rank slot).life c).kind = .entering p := by
      rw [Life.kind]
      show ((h.client c).phase.stage (h.client c).participant.isSome).kind = .outside ∨
        ∃ p, ((h.client c).phase.stage (h.client c).participant.isSome).kind = .entering p
      cases hc : (h.client c).phase <;> simp_all [Phase.unknown, Phase.stage, Stage.kind]
    have hpid : (h.client c).participantID = none := ho.fresh c hkind
    simpa [Client.participantID] using hpid
  case known =>
    intro c hnone
    have hknown := ho.known c (by simp [session, Client.life, Client.participantID, hnone])
    have hkind : ((h.session rank slot).life c).kind = ((h.client c).phase.stage false).kind := by
      rw [Life.kind]
      show ((h.client c).phase.stage (h.client c).participant.isSome).kind = _
      rw [hnone]
      rfl
    rw [hkind] at hknown
    cases hc : (h.client c).phase <;>
      simp_all [Phase.unknown, Phase.anonymous, Phase.stage, Stage.kind]
    case parting departure at_ => cases hsup : departure.superseded <;> simp [hsup] at hknown
  case entry =>
    intro p reconnect hentry
    have hslot := (ho.slotted p).pending reconnect.client reconnect.armed
      (by simp [session, pendingOf, hentry])
    exact (ho.slotted p).ids.mpr (by simp [hslot])
  case member =>
    intro c hc
    have hroom : ((h.client c).phase.stage (h.client c).participant.isSome).inRoom = true :=
      hm.member c hc
    have hphase : (h.client c).phase.inRoom = true := by
      cases hc : (h.client c).phase <;> simp [hc, Phase.stage, Stage.inRoom, Phase.inRoom] at hroom ⊢
    have hkind : ((h.session rank slot).life c).kind = .present := by
      show ((h.client c).phase.stage (h.client c).participant.isSome).kind = .present
      cases hstage : (h.client c).phase.stage (h.client c).participant.isSome <;>
        simp [hstage, Stage.inRoom, Stage.kind] at hroom ⊢
    have hpid : (h.client c).participantID ≠ none := by
      intro hnone
      rcases ho.known c hnone with hk | ⟨_, hk⟩ | hk <;> simp [hk] at hkind
    obtain ⟨p, hp⟩ := Option.ne_none_iff_exists'.mp hpid
    refine ⟨⟨p, hp, ?_⟩, hphase⟩
    cases hc : (h.client c).phase <;> simp [hc, Phase.inRoom, Phase.serving] at hphase ⊢

theorem present_of_reachable {cfg : Config} {ok : Hub → Label → Prop}
    (hr : (lts cfg).Reachable ok h) : h.Present := by
  obtain ⟨-, rank, slot, ho, hm⟩ := owned_of_reachable hr
  exact present_of_owned ho hm

/-- **A connection keeps its identity.** -/
theorem participantID_step {l : Label} (hpresent : h.Present) (hstep : h.Steps l h')
    (hp : (h.client c).participantID = some p) : (h'.client c).participantID = some p := by
  have hunknown : (h.client c).phase.unknown = true → False := fun hphase => by
    simp [Client.participantID, hpresent.unknown c hphase] at hp
  rw [Client.participantID] at hp ⊢
  have hidentity := identity_step hstep c
  generalize hown : (h'.client c).own = own at hidentity
  have hparticipant : (h'.client c).participant = own.1 := by rw [← hown]; rfl
  rw [hparticipant]
  cases hidentity with
  | same | reaps _ _ => exact hp
  | resumed ok name token reconnect hphase hentry =>
    exact (hunknown (by rw [hphase]; rfl)).elim
  | tookOver ok name token previous hphase hentry hactive =>
    exact (hunknown (by rw [hphase]; rfl)).elim
  | entered ok q hphase => exact (hunknown (by rw [hphase]; rfl)).elim
  | refreshed ok q q' changed hphase hq hid => simpa [hq, hid] using hp
  | fired q hq _ => rwa [hq] at hp

/-- An identity is taken on by a connection that had none. -/
theorem participantID_of_step {l : Label} (hstep : h.Steps l h')
    (hp : (h'.client c).participantID = some p) :
    (h.client c).participantID = some p ∨ (h.client c).phase.unknown = true := by
  rw [Client.participantID] at hp ⊢
  have hidentity := identity_step hstep c
  generalize hown : (h'.client c).own = own at hidentity
  have hparticipant : (h'.client c).participant = own.1 := by rw [← hown]; rfl
  rw [hparticipant] at hp
  cases hidentity with
  | same | reaps _ _ => exact Or.inl hp
  | resumed ok name token reconnect hphase hentry => exact Or.inr (by rw [hphase]; rfl)
  | tookOver ok name token previous hphase hentry hactive => exact Or.inr (by rw [hphase]; rfl)
  | entered ok q hphase => exact Or.inr (by rw [hphase]; rfl)
  | refreshed ok q q' changed hphase hq hid => exact Or.inl (by simpa [hq, hid] using hp)
  | fired q hq _ => exact Or.inl (by rwa [hq])

/-- No connection goes back to before its admission. -/
theorem early_of_step {l : Label} (hpresent : h.Present) (hstep : h.Steps l h')
    (hearly : h'.Early d) : h.Early d := by
  rcases hearly with hnone | harriving
  · left
    by_contra hsome
    obtain ⟨q, hq⟩ := Option.ne_none_iff_exists'.mp hsome
    have hp : (h.client d).participantID = some q.id := by simp [Client.participantID, hq]
    have hp' := participantID_step hpresent hstep hp
    simp [Client.participantID, hnone] at hp'
  · rcases next_step hstep d with hsame | ⟨-, hnext⟩
    · exact Or.inr (hsame ▸ harriving)
    · rcases hnext.arriving harriving with harriving | hunknown
      · exact Or.inr harriving
      · exact Or.inl (hpresent.unknown d hunknown)

theorem not_member_of_early (hpresent : h.Present) (hearly : h.Early d) : d ∉ h.roomMembers := by
  intro hd
  obtain ⟨⟨p, hp, -⟩, hroom⟩ := hpresent.member d hd
  rcases hearly with hnone | harriving
  · simp [Client.participantID, hnone] at hp
  · cases hphase : (h.client d).phase <;> simp [hphase, Phase.inRoom, Phase.arriving] at hroom harriving

end Hub

end SlowMeet.Signaling
