import SlowMeet.Media.Feedback
import SlowMeet.Media.Shedding

/-!
# No unwanted subscription and no orphan sender

Every sender pion holds for a registered receiver is stored in a registered
publication or waits in the pool to be installed or removed, so that once
the pool is empty the senders on a receiver's peer are those the router
stores for it. This needs every `Register` to bring a peer connection of its
own, as the hub does: it registers the connection it has just created. One
that is registered again still has the senders `Unregister` left on it.
-/

namespace SlowMeet.Media

open Lib

/-- The operation will settle what becomes of `sender`. -/
def PendingTrackOp.Holds (sender : RTPSender) : PendingTrackOp → Prop
  | .subscribe _ _ _ => False
  | .install _ _ _ s => s = sender
  | .remove _ s => s = sender

/-- At most one queued operation settles a sender that is to be installed. -/
def PendingTrackOp.Unshared (a b : PendingTrackOp) : Prop :=
  ∀ sender, a.Holds sender → b.Holds sender → a.installs = none ∧ b.installs = none

theorem PendingTrackOp.Unshared.symm {a b : PendingTrackOp} (h : a.Unshared b) : b.Unshared a :=
  fun sender hb ha => (h sender ha hb).symm

namespace Router

/-- The router with its queued operations and the senders pion holds. -/
structure Tidy (r : Router) (ops : List PendingTrackOp) (attached : List RTPSender)
    (fresh : Nat) : Prop where
  keyed : r.Keyed
  live : ∀ key id sender, r.StoredAt key id sender → r.peers.lookup id = some sender.peer
  wanted : ∀ key id sender, r.StoredAt key id sender → r.shouldSubscribeLocked key id = true
  once : ∀ key id key' id' sender, r.StoredAt key id sender → r.StoredAt key' id' sender →
    key = key' ∧ id = id'
  known : ∀ sender, (r.senderSourceSSRC.lookup sender).isSome ↔ ∃ key id, r.StoredAt key id sender
  owners : ∀ id id' peer, r.peers.lookup id = some peer → r.peers.lookup id' = some peer → id = id'
  nodup : attached.Nodup
  held : ∀ key id sender, r.StoredAt key id sender → sender ∈ attached
  /-- Whatever is attached to a registered peer is stored or about to be settled. -/
  accounted : ∀ sender ∈ attached, ∀ id, r.peers.lookup id = some sender.peer →
    (∃ key, r.StoredAt key id sender) ∨ ∃ op ∈ ops, op.Holds sender
  loose : ∀ op ∈ ops, ∀ key id sender, op.Holds sender → ¬ r.StoredAt key id sender
  installs : ∀ info id peer sender, .install info id peer sender ∈ ops →
    sender.peer = peer ∧ sender ∈ attached
  apart : ops.Pairwise PendingTrackOp.Unshared
  minted : ∀ sender, (sender ∈ attached ∨ ∃ op ∈ ops, op.Holds sender) → sender.ref < fresh

namespace Tidy

variable {r : Router} {ops : List PendingTrackOp} {attached : List RTPSender} {fresh : Nat}
  {d : Decision}

/-- **A section that sheds keeps the accounts.** -/
theorem commit (h : Tidy r ops attached fresh) (hd : r.Sheds d) :
    Tidy d.router (ops ++ d.ops) attached fresh where
  keyed := hd.keyed h.keyed
  live key id sender hs := by
    rw [hd.live key id sender hs]
    exact h.live key id sender (hd.stored key id sender hs)
  wanted key id sender hs :=
    hd.wanted h.keyed key id sender hs (h.wanted key id sender (hd.stored key id sender hs))
  once key id key' id' sender hs hs' :=
    h.once key id key' id' sender (hd.stored _ _ _ hs) (hd.stored _ _ _ hs')
  known sender := by
    rcases hd.known sender with ⟨hnone, key, id, hs, hgone⟩ | ⟨heq, hkept⟩
    · -- a sender is stored in one place only, and it has left it
      rw [hnone]
      refine ⟨fun hsome => by simp at hsome, fun ⟨key', id', hs'⟩ => ?_⟩
      obtain ⟨rfl, rfl⟩ := h.once _ _ _ _ _ hs (hd.stored _ _ _ hs')
      exact absurd hs' hgone
    · rw [heq, h.known]
      constructor
      · rintro ⟨key, id, hs⟩
        exact ⟨key, id, hkept key id hs⟩
      · rintro ⟨key, id, hs⟩
        exact ⟨key, id, hd.stored _ _ _ hs⟩
  owners id id' peer hpeer hpeer' :=
    h.owners id id' peer (hd.peers _ _ hpeer) (hd.peers _ _ hpeer')
  nodup := h.nodup
  held key id sender hs := h.held key id sender (hd.stored _ _ _ hs)
  accounted sender hmem id hpeer := by
    rcases h.accounted sender hmem id (hd.peers _ _ hpeer) with ⟨key, hs⟩ | ⟨op, hop, hholds⟩
    · by_cases hkept : d.router.StoredAt key id sender
      · exact Or.inl ⟨key, hkept⟩
      · rcases hd.released key id sender hs hkept with hnone | ⟨peer, hop⟩
        · rw [hpeer] at hnone
          cases hnone
        · exact Or.inr ⟨_, List.mem_append_right _ hop, rfl⟩
    · exact Or.inr ⟨op, List.mem_append_left _ hop, hholds⟩
  loose op hop key id sender hholds hs := by
    rcases List.mem_append.mp hop with hold | hnew
    · exact h.loose op hold key id sender hholds (hd.stored _ _ _ hs)
    · rcases hd.ops op hnew with ⟨info, id', peer, rfl⟩ | ⟨peer, s, rfl, key', id', hs', hgone⟩
      · exact hholds
      · obtain rfl : s = sender := hholds
        obtain ⟨rfl, rfl⟩ := h.once _ _ _ _ _ hs' (hd.stored _ _ _ hs)
        exact hgone hs
  installs info id peer sender hmem := by
    rcases List.mem_append.mp hmem with hold | hnew
    · exact h.installs info id peer sender hold
    · rcases hd.ops _ hnew with ⟨_, _, _, heq⟩ | ⟨_, _, heq, -⟩ <;> cases heq
  apart := by
    refine List.pairwise_append.mpr ⟨h.apart, ?_, fun a ha b hb => ?_⟩
    · -- the operations of one section install nothing
      refine List.pairwise_of_forall_mem_list fun a ha b hb sender _ _ => ⟨?_, ?_⟩
      · rcases hd.ops a ha with ⟨_, _, _, rfl⟩ | ⟨_, _, rfl, -⟩ <;> rfl
      · rcases hd.ops b hb with ⟨_, _, _, rfl⟩ | ⟨_, _, rfl, -⟩ <;> rfl
    · intro sender hholds hholds'
      rcases hd.ops b hb with ⟨_, _, _, rfl⟩ | ⟨peer, s, rfl, key, id, hs, -⟩
      · exact hholds'.elim
      · obtain rfl : s = sender := hholds'
        exact absurd hs (h.loose a ha key id s hholds)
  minted sender hmem := by
    rcases hmem with hmem | ⟨op, hop, hholds⟩
    · exact h.minted sender (Or.inl hmem)
    · rcases List.mem_append.mp hop with hold | hnew
      · exact h.minted sender (Or.inr ⟨op, hold, hholds⟩)
      · rcases hd.ops op hnew with ⟨_, _, _, rfl⟩ | ⟨peer, s, rfl, key, id, hs, -⟩
        · exact hholds.elim
        · obtain rfl : s = sender := hholds
          exact h.minted s (Or.inl (h.held key id s hs))

theorem grow (h : Tidy r ops attached fresh) : Tidy r ops attached (fresh + 1) :=
  { h with minted := fun sender hmem => Nat.lt_succ_of_lt (h.minted sender hmem) }

theorem perm (h : Tidy r ops attached fresh) {ops' : List PendingTrackOp} (hp : ops.Perm ops') :
    Tidy r ops' attached fresh :=
  { h with
    accounted := fun sender hmem id hpeer =>
      (h.accounted sender hmem id hpeer).imp_right fun ⟨op, hop, hholds⟩ =>
        ⟨op, hp.mem_iff.mp hop, hholds⟩
    loose := fun op hop => h.loose op (hp.mem_iff.mpr hop)
    installs := fun info id peer sender hmem => h.installs info id peer sender (hp.mem_iff.mpr hmem)
    apart := (hp.pairwise_iff PendingTrackOp.Unshared.symm).mp h.apart
    minted := fun sender hmem => h.minted sender
      (hmem.imp_right fun ⟨op, hop, hholds⟩ => ⟨op, hp.mem_iff.mpr hop, hholds⟩) }

/-- A receiver that joins on a peer connection of its own. -/
theorem register (h : Tidy r ops attached fresh) {id : ParticipantID} {peer : PeerId}
    (habsent : r.peers.lookup id = none) (hpeer : ∀ other, r.peers.lookup other ≠ some peer)
    (hclean : ∀ sender ∈ attached, sender.peer ≠ peer) (offerer : Option Offerer) :
    Tidy (r.register id peer offerer).router (ops ++ (r.register id peer offerer).ops) attached
      fresh := by
  have hpeers : ∀ other, (r.register id peer offerer).router.peers.lookup other =
      if other = id then some peer else r.peers.lookup other := fun _ => GoMap.lookup_insert ..
  have hops : ∀ op ∈ (r.register id peer offerer).ops,
      ∃ info id peer, op = .subscribe info id peer := by
    intro op hop
    obtain ⟨pub, -, hqueue⟩ := List.mem_filterMap.mp hop
    obtain ⟨-, q, -, rfl⟩ := queueSubscriptionLocked_eq_some.mp hqueue
    exact ⟨pub.info, id, q, rfl⟩
  have hholds : ∀ op ∈ (r.register id peer offerer).ops, ∀ sender, ¬ op.Holds sender := by
    intro op hop sender
    obtain ⟨_, _, _, rfl⟩ := hops op hop
    exact fun hfalse => hfalse
  refine { h with live := ?_, owners := ?_, accounted := ?_, loose := ?_, installs := ?_, apart := ?_, minted := ?_ }
  · intro key target sender hs
    have hlive := h.live key target sender hs
    rw [hpeers, if_neg]
    · exact hlive
    · rintro rfl
      rw [habsent] at hlive
      cases hlive
  · intro a b p ha hb
    rw [hpeers] at ha hb
    split at ha <;> split at hb
    · simp_all
    · exact absurd (Option.some.inj ha ▸ hb) (hpeer b)
    · exact absurd (Option.some.inj hb ▸ ha) (hpeer a)
    · exact h.owners a b p ha hb
  · intro sender hmem target hp
    rw [hpeers] at hp
    split at hp
    · exact absurd (Option.some.inj hp).symm (hclean sender hmem)
    · exact (h.accounted sender hmem target hp).imp_right fun ⟨op, hop, hh⟩ =>
        ⟨op, List.mem_append_left _ hop, hh⟩
  · intro op hop key target sender hh
    rcases List.mem_append.mp hop with hold | hnew
    · exact h.loose op hold key target sender hh
    · exact absurd hh (hholds op hnew sender)
  · intro info target p sender hmem
    rcases List.mem_append.mp hmem with hold | hnew
    · exact h.installs info target p sender hold
    · obtain ⟨_, _, _, heq⟩ := hops _ hnew
      cases heq
  · refine List.pairwise_append.mpr ⟨h.apart, ?_, fun a _ b hb sender _ hh => ?_⟩
    · exact List.pairwise_of_forall_mem_list fun a ha _ _ sender hh _ => absurd hh (hholds a ha sender)
    · exact absurd hh (hholds b hb sender)
  · rintro sender (hmem | ⟨op, hop, hh⟩)
    · exact h.minted sender (Or.inl hmem)
    · rcases List.mem_append.mp hop with hold | hnew
      · exact h.minted sender (Or.inr ⟨op, hold, hh⟩)
      · exact absurd hh (hholds op hnew sender)

/-- `AddTrack` has returned a fresh sender: its installation takes the
place of the subscription. -/
theorem addTrack {info : PublicationInfo} {id : ParticipantID} {peer : PeerId}
    (h : Tidy r (.subscribe info id peer :: ops) attached fresh) :
    Tidy r (ops ++ [.install info id peer ⟨fresh, peer⟩]) (attached ++ [⟨fresh, peer⟩])
      (fresh + 1) := by
  have hnew : ∀ sender, (sender ∈ attached ∨ ∃ op ∈ ops, op.Holds sender) →
      sender ≠ ⟨fresh, peer⟩ := by
    rintro sender hmem rfl
    have hlt := h.minted _ (hmem.imp_right fun ⟨op, hop, hh⟩ => ⟨op, List.mem_cons_of_mem _ hop, hh⟩)
    exact Nat.lt_irrefl _ hlt
  refine { h with nodup := ?_, held := ?_, accounted := ?_, loose := ?_, installs := ?_, apart := ?_, minted := ?_ }
  · refine List.nodup_append.mpr ⟨h.nodup, List.nodup_singleton _, ?_⟩
    rintro a ha b hb rfl
    exact hnew a (Or.inl ha) (List.mem_singleton.mp hb)
  · intro key target sender hs
    exact List.mem_append_left _ (h.held key target sender hs)
  · intro sender hmem target hp
    rcases List.mem_append.mp hmem with hold | hnew
    · rcases h.accounted sender hold target hp with hs | ⟨op, hop, hh⟩
      · exact Or.inl hs
      · rcases List.mem_cons.mp hop with rfl | hop
        · exact hh.elim
        · exact Or.inr ⟨op, List.mem_append_left _ hop, hh⟩
    · exact Or.inr ⟨_, List.mem_append_right _ List.mem_cons_self, (List.mem_singleton.mp hnew).symm⟩
  · intro op hop key target sender hh hs
    rcases List.mem_append.mp hop with hold | hmem
    · exact h.loose op (List.mem_cons_of_mem _ hold) key target sender hh hs
    · obtain rfl := List.mem_singleton.mp hmem
      exact hnew sender (Or.inl (h.held key target sender hs)) hh.symm
  · intro i t p s hmem
    rcases List.mem_append.mp hmem with hold | hmem
    · obtain ⟨hp, hs⟩ := h.installs i t p s (List.mem_cons_of_mem _ hold)
      exact ⟨hp, List.mem_append_left _ hs⟩
    · cases List.mem_singleton.mp hmem
      exact ⟨rfl, List.mem_append_right _ List.mem_cons_self⟩
  · refine List.pairwise_append.mpr
      ⟨(List.pairwise_cons.mp h.apart).2, List.pairwise_singleton _ _, ?_⟩
    intro a ha b hb sender hh hh'
    obtain rfl := List.mem_singleton.mp hb
    exact absurd hh'.symm (hnew sender (Or.inr ⟨a, ha, hh⟩))
  · rintro sender (hmem | ⟨op, hop, hh⟩)
    · rcases List.mem_append.mp hmem with hold | hmem
      · exact Nat.lt_succ_of_lt (h.minted sender (Or.inl hold))
      · obtain rfl := List.mem_singleton.mp hmem
        exact Nat.lt_succ_self _
    · rcases List.mem_append.mp hop with hold | hmem
      · exact Nat.lt_succ_of_lt (h.minted sender (Or.inr ⟨op, List.mem_cons_of_mem _ hold, hh⟩))
      · obtain rfl := List.mem_singleton.mp hmem
        obtain rfl : _ = sender := hh
        exact Nat.lt_succ_self _

/-- A failed `AddTrack` leaves nothing behind. -/
theorem dropSubscribe {info : PublicationInfo} {id : ParticipantID} {peer : PeerId}
    (h : Tidy r (.subscribe info id peer :: ops) attached fresh) : Tidy r ops attached fresh :=
  { h with
    accounted := fun sender hmem target hp =>
      (h.accounted sender hmem target hp).imp_right fun ⟨op, hop, hh⟩ => by
        rcases List.mem_cons.mp hop with rfl | hop
        · exact hh.elim
        · exact ⟨op, hop, hh⟩
    loose := fun op hop => h.loose op (List.mem_cons_of_mem _ hop)
    installs := fun i t p s hmem => h.installs i t p s (List.mem_cons_of_mem _ hmem)
    apart := (List.pairwise_cons.mp h.apart).2
    minted := fun sender hmem => h.minted sender
      (hmem.imp_right fun ⟨op, hop, hh⟩ => ⟨op, List.mem_cons_of_mem _ hop, hh⟩) }

/-- A refused installation removes its sender again. -/
theorem refuse {info : PublicationInfo} {id : ParticipantID} {peer : PeerId}
    {sender : RTPSender} (h : Tidy r (.install info id peer sender :: ops) attached fresh) :
    Tidy r (ops ++ [.remove peer sender]) attached fresh := by
  have hmem : ∀ op ∈ ops ++ [.remove peer sender], ∀ s, op.Holds s →
      op ∈ ops ∨ s = sender := by
    intro op hop s hh
    rcases List.mem_append.mp hop with hold | hnew
    · exact Or.inl hold
    · obtain rfl := List.mem_singleton.mp hnew
      exact Or.inr hh.symm
  refine { h with accounted := ?_, loose := ?_, installs := ?_, apart := ?_, minted := ?_ }
  · intro s hs target hp
    refine (h.accounted s hs target hp).imp_right fun ⟨op, hop, hh⟩ => ?_
    rcases List.mem_cons.mp hop with rfl | hop
    · exact ⟨_, List.mem_append_right _ List.mem_cons_self, hh⟩
    · exact ⟨op, List.mem_append_left _ hop, hh⟩
  · intro op hop key target s hh
    rcases hmem op hop s hh with hold | rfl
    · exact h.loose op (List.mem_cons_of_mem _ hold) key target s hh
    · exact h.loose _ List.mem_cons_self key target s rfl
  · intro i t p s hop
    rcases List.mem_append.mp hop with hold | hnew
    · exact h.installs i t p s (List.mem_cons_of_mem _ hold)
    · cases List.mem_singleton.mp hnew
  · obtain ⟨hfirst, hrest⟩ := List.pairwise_cons.mp h.apart
    refine List.pairwise_append.mpr ⟨hrest, List.pairwise_singleton _ _, ?_⟩
    intro a ha b hb s hh hh'
    obtain rfl := List.mem_singleton.mp hb
    exact ⟨(hfirst a ha s hh' hh).2, rfl⟩
  · rintro s (hs | ⟨op, hop, hh⟩)
    · exact h.minted s (Or.inl hs)
    · rcases hmem op hop s hh with hold | rfl
      · exact h.minted s (Or.inr ⟨op, List.mem_cons_of_mem _ hold, hh⟩)
      · exact h.minted s (Or.inr ⟨_, List.mem_cons_self, rfl⟩)

/-- `RemoveTrack` has succeeded: the sender is gone and was stored nowhere. -/
theorem removeTrack {peer : PeerId} {sender : RTPSender}
    (h : Tidy r (.remove peer sender :: ops) attached fresh) :
    Tidy r ops (attached.erase sender) fresh := by
  have hne : ∀ key id s, r.StoredAt key id s → s ≠ sender := by
    rintro key id s hs rfl
    exact h.loose _ List.mem_cons_self key id s rfl hs
  obtain ⟨hfirst, hrest⟩ := List.pairwise_cons.mp h.apart
  refine { h with nodup := h.nodup.erase sender, held := ?_, accounted := ?_, loose := ?_, installs := ?_, apart := hrest, minted := ?_ }
  · intro key id s hs
    exact (List.mem_erase_of_ne (hne key id s hs)).mpr (h.held key id s hs)
  · intro s hs id hp
    obtain ⟨hsne, hs⟩ := h.nodup.mem_erase_iff.mp hs
    refine (h.accounted s hs id hp).imp_right fun ⟨op, hop, hh⟩ => ?_
    rcases List.mem_cons.mp hop with rfl | hop
    · exact absurd hh.symm hsne
    · exact ⟨op, hop, hh⟩
  · exact fun op hop => h.loose op (List.mem_cons_of_mem _ hop)
  · intro i t p s hmem
    obtain ⟨hp, hs⟩ := h.installs i t p s (List.mem_cons_of_mem _ hmem)
    refine ⟨hp, (List.mem_erase_of_ne ?_).mpr hs⟩
    rintro rfl
    cases (hfirst _ hmem s rfl rfl).2
  · rintro s (hs | ⟨op, hop, hh⟩)
    · exact h.minted s (Or.inl (List.mem_of_mem_erase hs))
    · exact h.minted s (Or.inr ⟨op, List.mem_cons_of_mem _ hop, hh⟩)

/-- A validated installation stores its sender, which no other operation
settles. -/
theorem install {info : PublicationInfo} {id : ParticipantID} {peer : PeerId}
    {sender : RTPSender} (h : Tidy r (.install info id peer sender :: ops) attached fresh)
    (hvalid : r.subscriptionValid info id peer = true) (holder : Holder) :
    Tidy (r.installSubscription info id sender holder) ops attached fresh := by
  rw [subscriptionValid] at hvalid
  cases hpub : r.pubs.lookup info.key with
  | none => simp [hpub] at hvalid
  | some pub =>
    simp only [hpub, Bool.and_eq_true, decide_eq_true_eq] at hvalid
    obtain ⟨⟨⟨-, hpeer⟩, htarget⟩, hwant⟩ := hvalid
    rw [h.keyed info.key pub hpub] at hwant
    have hunserved : pub.senders.lookup id = none := by
      rw [pub.tracks_isNone] at htarget
      exact Option.isNone_iff_eq_none.mp htarget
    obtain ⟨hsender, hattached⟩ := h.installs info id peer sender List.mem_cons_self
    have hloose : ∀ key target, ¬ r.StoredAt key target sender := fun key target =>
      h.loose _ List.mem_cons_self key target sender rfl
    obtain ⟨hfirst, hrest⟩ := List.pairwise_cons.mp h.apart
    have hrouter : r.installSubscription info id sender holder =
        { r with
          pubs := r.pubs.insert info.key (pub.addTarget id sender)
          senderSourceSSRC := r.senderSourceSSRC.insert sender holder
          holders := Function.update r.holders holder info.remote.ssrc } := by
      simp only [installSubscription, hpub]
    rw [hrouter]
    -- the new target joins what was stored before
    have hstored : ∀ key target s,
        Router.StoredAt { r with
          pubs := r.pubs.insert info.key (pub.addTarget id sender)
          senderSourceSSRC := r.senderSourceSSRC.insert sender holder
          holders := Function.update r.holders holder info.remote.ssrc } key target s ↔
        key = info.key ∧ target = id ∧ s = sender ∨ r.StoredAt key target s := by
      intro key target s
      simp only [StoredAt, GoMap.lookup_insert]
      by_cases hkey : key = info.key
      · subst hkey
        simp only [if_true, Option.some.injEq, exists_eq_left', Publication.addTarget_senders,
          hpub, true_and]
        by_cases htarget : target = id
        · subst htarget
          simp [hunserved, eq_comm]
        · simp [htarget]
      · simp [hkey]
    refine ⟨?_, ?_, ?_, ?_, ?_, h.owners, h.nodup, ?_, ?_, ?_, ?_, hrest, ?_⟩
    · intro key other hother
      rw [GoMap.lookup_insert] at hother
      split at hother
      · rename_i hkey
        obtain rfl := Option.some.inj hother
        exact hkey ▸ h.keyed info.key pub hpub
      · exact h.keyed key other hother
    · intro key target s hs
      rcases (hstored key target s).mp hs with ⟨-, rfl, rfl⟩ | hs
      · rw [hsender]
        exact hpeer
      · exact h.live key target s hs
    · intro key target s hs
      rcases (hstored key target s).mp hs with ⟨rfl, rfl, -⟩ | hs
      · exact hwant
      · exact h.wanted key target s hs
    · intro key target key' target' s hs hs'
      rcases (hstored _ _ _).mp hs with ⟨rfl, rfl, rfl⟩ | hold
      · rcases (hstored _ _ _).mp hs' with ⟨rfl, rfl, -⟩ | hold'
        · exact ⟨rfl, rfl⟩
        · exact absurd hold' (hloose key' target')
      · rcases (hstored _ _ _).mp hs' with ⟨rfl, rfl, rfl⟩ | hold'
        · exact absurd hold (hloose key target)
        · exact h.once key target key' target' s hold hold'
    · intro s
      simp only [GoMap.lookup_insert, hstored]
      by_cases hs : s = sender
      · simp only [hs, if_true, Option.isSome_some, true_iff]
        exact ⟨info.key, id, Or.inl ⟨rfl, rfl, trivial⟩⟩
      · simp only [hs, if_false, and_false, false_or]
        exact h.known s
    · intro key target s hs
      rcases (hstored _ _ _).mp hs with ⟨-, -, rfl⟩ | hs
      · exact hattached
      · exact h.held key target s hs
    · intro s hmem target hp
      rcases h.accounted s hmem target hp with ⟨key, hs⟩ | ⟨op, hop, hh⟩
      · exact Or.inl ⟨key, (hstored _ _ _).mpr (Or.inr hs)⟩
      · rcases List.mem_cons.mp hop with rfl | hop
        · obtain rfl : sender = s := hh
          have hown : target = id := h.owners target id peer (hsender ▸ hp) hpeer
          exact Or.inl ⟨info.key, (hstored _ _ _).mpr (Or.inl ⟨rfl, hown, rfl⟩)⟩
        · exact Or.inr ⟨op, hop, hh⟩
    · intro op hop key target s hh hs
      rcases (hstored _ _ _).mp hs with ⟨-, -, rfl⟩ | hs
      · cases (hfirst op hop s rfl hh).1
      · exact h.loose op (List.mem_cons_of_mem _ hop) key target s hh hs
    · intro i t p s hmem
      exact h.installs i t p s (List.mem_cons_of_mem _ hmem)
    · rintro s (hs | ⟨op, hop, hh⟩)
      · exact h.minted s (Or.inl hs)
      · exact h.minted s (Or.inr ⟨op, List.mem_cons_of_mem _ hop, hh⟩)

end Tidy

end Router

/-! ## Runs -/

namespace Plane

/-- pion's `RemoveTrack` succeeds. -/
def removeTrackSucceeds (m : Plane) : Label → Bool
  | .trackOp index ok =>
    match m.ops[index]? with
    | some (.remove _ _) => ok
    | _ => true
  | _ => true

/-- A `Register` is of an id that is not registered. -/
def registersAbsent (m : Plane) : Label → Bool
  | .register id _ _ => (m.router.peers.lookup id).isNone
  | _ => true

/-- A `Register` brings a peer connection that serves nobody and holds no
sender yet, as the one the hub has just created. -/
def registersNewPeer (m : Plane) : Label → Bool
  | .register _ peer _ =>
    m.router.peers.values.all (· ≠ peer) && m.attached.all fun sender => sender.peer ≠ peer
  | _ => true

/-- The senders stored for `id` in registered publications. -/
def storedFor (m : Plane) (id : ParticipantID) : List RTPSender :=
  m.router.pubs.values.filterMap fun pub => pub.senders.lookup id

/-- What is subscribed is wanted, and what pion holds for a registered
receiver is what the router stores for it. -/
structure NoOrphans (m : Plane) : Prop where
  /-- Targets and senders have the same keys, and the receivers among them
  are registered and should be subscribed. -/
  targets : ∀ key pub id, m.router.pubs.lookup key = some pub →
    ((pub.tracks.lookup id).isSome ↔ (pub.senders.lookup id).isSome) ∧
      ((pub.tracks.lookup id).isSome → (m.router.peers.lookup id).isSome ∧
        m.router.shouldSubscribeLocked pub.info.key id = true)
  /-- The senders on a registered peer are those stored for its receiver. -/
  senders : ∀ id peer, m.router.peers.lookup id = some peer →
    (m.attached.filter fun sender => sender.peer = peer).Perm (m.storedFor id) ∧
      (m.storedFor id).Nodup
  /-- Of the senders on a registered peer, the SSRC table knows these. -/
  ssrcs : ∀ id sender, m.router.peers.lookup id = some sender.peer →
    ((m.router.senderSourceSSRC.lookup sender).isSome ↔ sender ∈ m.storedFor id)

theorem mem_storedFor {m : Plane} {id : ParticipantID} {sender : RTPSender} :
    sender ∈ m.storedFor id ↔ ∃ key, m.router.StoredAt key id sender := by
  simp only [storedFor, List.mem_filterMap, GoMap.mem_values, Router.StoredAt]
  constructor
  · rintro ⟨pub, ⟨key, hpub⟩, hsender⟩
    exact ⟨key, pub, hpub, hsender⟩
  · rintro ⟨key, pub, hpub, hsender⟩
    exact ⟨pub, ⟨key, hpub⟩, hsender⟩

theorem tidy_new : new.router.Tidy new.ops new.attached new.fresh := by
  refine ⟨?_, ?_, ?_, ?_, ?_, ?_, ?_, ?_, ?_, ?_, ?_, ?_, ?_⟩
  all_goals simp [new, Router.new, Router.Keyed, Router.StoredAt]

/-- One section keeps the accounts, whichever operation it belongs to. -/
theorem tidy_step {m t : Plane} {l : Label} (h : m.router.Tidy m.ops m.attached m.fresh)
    (hremove : m.removeTrackSucceeds l = true) (habsent : m.registersAbsent l = true)
    (hpeer : m.registersNewPeer l = true) (hstep : m.step l = some t) :
    t.router.Tidy t.ops t.attached t.fresh := by
  cases l with
  | register id peer offerer =>
    obtain rfl := Option.some.inj hstep
    simp only [registersNewPeer, Bool.and_eq_true, List.all_eq_true, GoMap.mem_values,
      decide_eq_true_eq] at hpeer
    refine h.register (Option.isNone_iff_eq_none.mp habsent) (fun other hother => ?_) hpeer.2 offerer
    exact hpeer.1 peer ⟨other, hother⟩ rfl
  | unregister id =>
    obtain rfl := Option.some.inj hstep
    exact h.commit (Router.sheds_unregister id)
  | publish sourceID role source remote layer failed =>
    obtain rfl := Option.some.inj hstep
    simp only [publish]
    split
    · split
      · exact h
      · rename_i d hd
        exact (h.commit (Router.sheds_publish hd)).grow
    · exact h
  | setVideoSubscriptionsWithLayer receiverID ids layer =>
    obtain rfl := Option.some.inj hstep
    exact h.commit (Router.sheds_setVideoSubscriptionsWithLayer receiverID ids layer)
  | unpublish sourceID role =>
    obtain rfl := Option.some.inj hstep
    exact h.commit (Router.sheds_removePublicationsLocked _)
  | setPublicationActive sourceID role active =>
    obtain rfl := Option.some.inj hstep
    have hd := h.commit (Router.sheds_setPublicationActive sourceID role active)
    rwa [List.append_nil] at hd
  | trackOp index ok =>
    obtain ⟨op, rest, hop, hperm, rfl⟩ := trackOp_eq_some hstep
    have h' := h.perm hperm
    cases op with
    | subscribe pub id peer =>
      cases ok with
      | true => exact h'.addTrack
      | false => exact h'.dropSubscribe
    | install pub id peer sender =>
      simp only [applyTrackOp]
      split
      · rename_i hvalid
        exact (h'.install hvalid m.fresh).grow
      · exact h'.refuse
    | remove peer sender =>
      obtain rfl : ok = true := by simpa [removeTrackSucceeds, hop] using hremove
      exact h'.removeTrack
  | readStop index =>
    obtain ⟨info, -, rfl⟩ := Option.map_eq_some_iff.mp hstep
    exact h.commit (Router.sheds_removePublicationsLocked _)

/-- **No unwanted subscription and no orphan sender**: once every operation
has finished. Neither `AddTrack` nor `ReplaceTrack` has to succeed. -/
theorem noOrphans_of_reachable {m : Plane}
    (h : lts.Reachable (fun m l => m.removeTrackSucceeds l ∧ m.registersAbsent l ∧
      m.registersNewPeer l) m) (hops : m.ops = []) : m.NoOrphans := by
  have hinv : m.router.Tidy m.ops m.attached m.fresh :=
    Lts.Reachable.invariant_ofStep (I := fun m => m.router.Tidy m.ops m.attached m.fresh) tidy_new
      (fun _ _ _ hi hok hstep => tidy_step hi hok.1 hok.2.1 hok.2.2 hstep) h
  have hstored : ∀ id peer, m.router.peers.lookup id = some peer → ∀ sender,
      (sender ∈ m.attached ∧ sender.peer = peer ↔ sender ∈ m.storedFor id) := by
    intro id peer hpeer sender
    rw [mem_storedFor]
    constructor
    · rintro ⟨hmem, rfl⟩
      refine (hinv.accounted sender hmem id hpeer).resolve_right ?_
      rintro ⟨op, hop, -⟩
      simp [hops] at hop
    · rintro ⟨key, hs⟩
      exact ⟨hinv.held key id sender hs,
        (Option.some.inj (hpeer.symm.trans (hinv.live key id sender hs))).symm⟩
  refine ⟨fun key pub id hpub => ⟨by rw [pub.paired], fun htarget => ?_⟩,
    fun id peer hpeer => ?_, fun id sender hpeer => ?_⟩
  · rw [pub.paired] at htarget
    obtain ⟨sender, hsender⟩ := Option.isSome_iff_exists.mp htarget
    have hs : m.router.StoredAt key id sender := ⟨pub, hpub, hsender⟩
    rw [hinv.live key id sender hs, hinv.keyed key pub hpub]
    exact ⟨rfl, hinv.wanted key id sender hs⟩
  · have hnodup : (m.storedFor id).Nodup := by
      refine List.pairwise_filterMap.mpr (GoMap.pairwise_values ?_)
      intro key pub key' pub' hpub hpub' hne sender hs sender' hs' heq
      subst heq
      exact hne (hinv.once key id key' id sender ⟨pub, hpub, hs⟩ ⟨pub', hpub', hs'⟩).1
    refine ⟨(List.perm_ext_iff_of_nodup (hinv.nodup.filter _) hnodup).mpr fun sender => ?_, hnodup⟩
    rw [List.mem_filter, decide_eq_true_eq]
    exact hstored id peer hpeer sender
  · rw [hinv.known, mem_storedFor]
    constructor
    · rintro ⟨key, target, hs⟩
      exact ⟨key, hinv.owners target id _ (hinv.live key target sender hs) hpeer ▸ hs⟩
    · rintro ⟨key, hs⟩
      exact ⟨key, id, hs⟩

/-- The session leaves the first participant's peer with the one sender the
second participant's publication stores for it. -/
theorem noOrphans_twoParticipants :
    ∃ m : Plane, (m.router.peers.lookup 1, m.attached.length) = (some 10, 1) ∧ m.NoOrphans := by
  obtain ⟨m, hm, hobs⟩ := Lts.exists_reachable_of_execWhen
    (fun m l => m.removeTrackSucceeds l && (m.registersAbsent l && m.registersNewPeer l)) step new
    twoParticipants (fun m => (m.ops, m.router.peers.lookup 1, m.attached.length))
    ([], some 10, 1) (by decide)
  simp only [Prod.mk.injEq] at hobs
  refine ⟨m, by simp [hobs.2], noOrphans_of_reachable ?_ hobs.1⟩
  exact hm.mono fun _ _ h => by simpa using h

/-- The first participant leaves and comes back on the same peer connection:
`Unregister` leaves its sender there, and `Register` adds another one. -/
theorem not_noOrphans_samePeer :
    ¬ ∀ m : Plane, lts.Reachable (fun m l => m.addTrackSucceeds l ∧ m.removeTrackSucceeds l ∧
      m.replaceTrackSucceeds l ∧ m.registersAbsent l) m → m.ops = [] → m.NoOrphans := by
  intro hall
  obtain ⟨m, hm, hobs⟩ := Lts.exists_reachable_of_execWhen
    (fun m l => m.addTrackSucceeds l && (m.removeTrackSucceeds l &&
      (m.replaceTrackSucceeds l && m.registersAbsent l))) step new
    (twoParticipants ++ [.unregister 1, .register 1 10 (some 1), .trackOp 0 true, .trackOp 0 true])
    (fun m => (m.ops, m.router.peers.lookup 1,
      (m.attached.filter fun sender => sender.peer = 10).length, (m.storedFor 1).length))
    ([], some 10, 2, 1) (by decide)
  simp only [Prod.mk.injEq] at hobs
  obtain ⟨hops, hpeer, hattached, hstored⟩ := hobs
  have hno := hall m (hm.mono fun _ _ h => by simpa using h) hops
  have hlength := (hno.senders 1 10 hpeer).1.length_eq
  rw [hattached, hstored] at hlength
  cases hlength

end Plane

end SlowMeet.Media
