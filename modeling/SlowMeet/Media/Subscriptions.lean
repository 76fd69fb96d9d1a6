import SlowMeet.Media.Machine

/-!
# Subscriptions follow the live connection

Once the queued pion operations are applied, every receiver that should be
subscribed to a publication has a target on the peer it is registered with.
`Register` is the one operation that can break this: it replaces the peer of
an id and leaves the targets of that id on the old one.
-/

namespace SlowMeet.Media

open Lib

/-- A queued operation that will serve `info` to `id` on `peer`. -/
def PendingTrackOp.Serves (info : PublicationInfo) (id : ParticipantID) (peer : PeerId) :
    PendingTrackOp → Prop
  | .subscribe pub targetID p => pub = info ∧ targetID = id ∧ p = peer
  | .install pub targetID p _ => pub = info ∧ targetID = id ∧ p = peer
  | .remove _ _ => False

namespace Router

/-- The router with its queued operations: targets lie on current peers, and
whoever should be subscribed is, or is about to be. -/
structure Subscribed (r : Router) (ops : List PendingTrackOp) : Prop where
  keyed : ∀ key pub, r.pubs.lookup key = some pub → pub.info.key = key
  live : ∀ key pub id sender, r.pubs.lookup key = some pub →
    pub.senders.lookup id = some sender → r.peers.lookup id = some sender.peer
  served : ∀ key pub id peer, r.pubs.lookup key = some pub → r.peers.lookup id = some peer →
    r.shouldSubscribeLocked pub.info.key id = true →
    (pub.senders.lookup id).isSome ∨ ∃ op ∈ ops, op.Serves pub.info id peer
  installs : ∀ info id peer sender, .install info id peer sender ∈ ops → sender.peer = peer

namespace Subscribed

variable {r : Router} {ops : List PendingTrackOp} {d : Decision}

/-- The invariant across a locked section, from what the section does to
each publication. -/
theorem commit (h : Subscribed r ops)
    (hkeyed : ∀ key pub, d.router.pubs.lookup key = some pub → pub.info.key = key)
    (hlive : ∀ key pub id sender, d.router.pubs.lookup key = some pub →
      pub.senders.lookup id = some sender → d.router.peers.lookup id = some sender.peer)
    (hserved : ∀ key pub id peer, d.router.pubs.lookup key = some pub →
      d.router.peers.lookup id = some peer → d.router.shouldSubscribeLocked pub.info.key id = true →
      pub.senders.lookup id = none → PendingTrackOp.subscribe pub.info id peer ∈ d.ops ∨
        ∃ op ∈ ops, op.Serves pub.info id peer)
    (hops : ∀ op ∈ d.ops, ∀ info id peer sender, op ≠ .install info id peer sender) :
    Subscribed d.router (ops ++ d.ops) where
  keyed := hkeyed
  live := hlive
  served key pub id peer hpub hpeer hwant := by
    by_cases hsome : (pub.senders.lookup id).isSome
    · exact Or.inl hsome
    rcases hserved key pub id peer hpub hpeer hwant (by simpa using hsome) with hnew | ⟨op, hop, hs⟩
    · exact Or.inr ⟨_, List.mem_append_right _ hnew, rfl, rfl, rfl⟩
    · exact Or.inr ⟨op, List.mem_append_left _ hop, hs⟩
  installs info id peer sender hmem := by
    rcases List.mem_append.mp hmem with hold | hnew
    · exact h.installs info id peer sender hold
    · exact absurd rfl (hops _ hnew info id peer sender)

/-- An unserved pair the section did not touch is still about to be served. -/
theorem pending (h : Subscribed r ops) {key : PublicationKey} {pub : Publication}
    {id : ParticipantID} {peer : PeerId} (hpub : r.pubs.lookup key = some pub)
    (hpeer : r.peers.lookup id = some peer)
    (hwant : r.shouldSubscribeLocked pub.info.key id = true)
    (hnone : pub.senders.lookup id = none) : ∃ op ∈ ops, op.Serves pub.info id peer :=
  (h.served key pub id peer hpub hpeer hwant).resolve_left (by simp [hnone])

theorem register (h : Subscribed r ops) {id : ParticipantID} {peer : PeerId}
    (hclean : ∀ key pub sender, r.pubs.lookup key = some pub →
      pub.senders.lookup id = some sender → sender.peer = peer) (offerer : Option Offerer) :
    Subscribed (r.register id peer offerer).router (ops ++ (r.register id peer offerer).ops) := by
  have hpeers : ∀ other, (r.register id peer offerer).router.peers.lookup other =
      if other = id then some peer else r.peers.lookup other := fun _ => GoMap.lookup_insert ..
  refine h.commit h.keyed ?_ ?_ ?_
  · intro key pub other sender hpub hsender
    rw [hpeers]
    split
    · rename_i hother
      rw [hclean key pub sender hpub (hother ▸ hsender)]
    · exact h.live key pub other sender hpub hsender
  · intro key pub other p hpub hpeer hwant hnone
    by_cases hother : other = id
    · subst hother
      refine Or.inl (List.mem_filterMap.mpr ⟨pub, GoMap.mem_values.mpr ⟨key, hpub⟩, ?_⟩)
      exact queueSubscriptionLocked_eq_some.mpr ⟨hnone, p, hpeer, rfl⟩
    · rw [hpeers, if_neg hother] at hpeer
      exact Or.inr (h.pending hpub hpeer hwant hnone)
  · intro op hop info target p sender heq
    obtain ⟨pub, -, hqueue⟩ := List.mem_filterMap.mp hop
    obtain ⟨-, q, -, rfl⟩ := queueSubscriptionLocked_eq_some.mp hqueue
    cases heq

theorem removePublications (h : Subscribed r ops) (gone : Publication → Bool) :
    Subscribed (r.removePublicationsLocked gone).router
      (ops ++ (r.removePublicationsLocked gone).ops) := by
  have hsub : ∀ key pub, (r.removePublicationsLocked gone).router.pubs.lookup key = some pub →
      r.pubs.lookup key = some pub := by
    intro key pub hpub
    rw [removePublicationsLocked_pubs, Option.filter_eq_some_iff] at hpub
    exact hpub.1
  refine h.commit (fun key pub hpub => h.keyed key pub (hsub key pub hpub)) ?_ ?_ ?_
  · intro key pub id sender hpub hsender
    exact h.live key pub id sender (hsub key pub hpub) hsender
  · intro key pub id peer hpub hpeer hwant hnone
    exact Or.inr (h.pending (hsub key pub hpub) hpeer hwant hnone)
  · intro op hop info id peer sender heq
    obtain ⟨p, s, rfl⟩ := mem_removePublicationsLocked_ops hop
    cases heq

theorem unregister (h : Subscribed r ops) (id : ParticipantID) :
    Subscribed (r.unregister id).router (ops ++ (r.unregister id).ops) := by
  have hcases : ∀ key pub, (r.unregister id).router.pubs.lookup key = some pub →
      ∃ old, r.pubs.lookup key = some old ∧ old.sourceID ≠ id ∧ pub = old.removeTarget id := by
    intro key pub hpub
    rw [unregister_pubs, Option.map_eq_some_iff] at hpub
    obtain ⟨old, hold, rfl⟩ := hpub
    rw [Option.filter_eq_some_iff] at hold
    exact ⟨old, hold.1, by simpa using hold.2, rfl⟩
  refine h.commit ?_ ?_ ?_ ?_
  · intro key pub hpub
    obtain ⟨old, hold, -, rfl⟩ := hcases key pub hpub
    exact h.keyed key old hold
  · intro key pub target sender hpub hsender
    obtain ⟨old, hold, -, rfl⟩ := hcases key pub hpub
    rw [Publication.removeTarget_senders] at hsender
    split at hsender
    · simp at hsender
    · rename_i htarget
      rw [unregister_peers, if_neg htarget]
      exact h.live key old target sender hold hsender
  · intro key pub target peer hpub hpeer hwant hnone
    obtain ⟨old, hold, hsource, rfl⟩ := hcases key pub hpub
    rw [unregister_peers] at hpeer
    split at hpeer
    · simp at hpeer
    · rename_i htarget
      rw [Publication.removeTarget_info] at hwant ⊢
      rw [unregister_shouldSubscribeLocked hsource htarget] at hwant
      rw [Publication.removeTarget_senders, if_neg htarget] at hnone
      exact Or.inr (h.pending hold hpeer hwant hnone)
  · intro op hop info target peer sender heq
    obtain ⟨p, s, rfl⟩ := mem_removePublicationsLocked_ops hop
    cases heq

theorem publish (h : Subscribed r ops) {info : PublicationInfo}
    {replaceOk : ParticipantID → Bool} (hd : r.publish info replaceOk = some d) :
    Subscribed d.router (ops ++ d.ops) := by
  obtain ⟨pub, hp⟩ := publish_published hd
  have hcases : ∀ key other, d.router.pubs.lookup key = some other →
      key = info.key ∧ other = pub ∨ key ≠ info.key ∧ r.pubs.lookup key = some other := by
    intro key other hother
    rw [hp.pubs, GoMap.lookup_insert] at hother
    split at hother
    · rename_i hkey
      exact Or.inl ⟨hkey, (Option.some.inj hother).symm⟩
    · rename_i hkey
      exact Or.inr ⟨hkey, hother⟩
  refine h.commit ?_ ?_ ?_ ?_
  · intro key other hother
    rcases hcases key other hother with ⟨rfl, rfl⟩ | ⟨-, hold⟩
    · rw [hp.info_eq]
    · exact h.keyed key other hold
  · intro key other id sender hother hsender
    rw [hp.peers]
    rcases hcases key other hother with ⟨rfl, rfl⟩ | ⟨-, hold⟩
    · obtain ⟨existing, hexisting, -, -, -, hs, -⟩ := hp.moved id sender hsender
      exact h.live info.key existing id sender hexisting hs
    · exact h.live key other id sender hold hsender
  · intro key other id peer hother hpeer hwant hnone
    rw [hp.peers] at hpeer
    rcases hcases key other hother with ⟨rfl, rfl⟩ | ⟨-, hold⟩
    · rw [hp.info_eq]
      exact Or.inl (hp.queued id peer hpeer hnone)
    · rw [hp.wanted] at hwant
      exact Or.inr (h.pending hold hpeer hwant hnone)
  · intro op hop target id peer sender heq
    rcases hp.ops op hop with ⟨i, p, rfl⟩ | ⟨p, s, rfl⟩ <;> cases heq

theorem setVideoSubscriptionsWithLayer (h : Subscribed r ops) (receiverID : ParticipantID)
    (ids : List ParticipantID) (layer : Option CameraLayer) :
    Subscribed (r.setVideoSubscriptionsWithLayer receiverID ids layer).router
      (ops ++ (r.setVideoSubscriptionsWithLayer receiverID ids layer).ops) := by
  have hcases : ∀ key pub,
      (r.setVideoSubscriptionsWithLayer receiverID ids layer).router.pubs.lookup key = some pub →
      ∃ old, r.pubs.lookup key = some old ∧ (pub = old ∨ pub = old.removeTarget receiverID ∧
        (r.setVideoSubscriptionsWithLayer receiverID ids layer).router.shouldSubscribeLocked
          old.info.key receiverID = false) := by
    intro key pub hpub
    rw [setVideoSubscriptionsWithLayer_pubs, Option.map_eq_some_iff] at hpub
    obtain ⟨old, hold, rfl⟩ := hpub
    refine ⟨old, hold, ?_⟩
    split
    · rename_i hunwanted
      exact Or.inr ⟨rfl, hunwanted.2.2⟩
    · exact Or.inl rfl
  refine h.commit ?_ ?_ ?_ ?_
  · intro key pub hpub
    obtain ⟨old, hold, rfl | ⟨rfl, -⟩⟩ := hcases key pub hpub
    · exact h.keyed key _ hold
    · exact h.keyed key old hold
  · intro key pub id sender hpub hsender
    obtain ⟨old, hold, rfl | ⟨rfl, -⟩⟩ := hcases key pub hpub
    · exact h.live key pub id sender hold hsender
    · rw [Publication.removeTarget_senders] at hsender
      split at hsender
      · simp at hsender
      · exact h.live key old id sender hold hsender
  · intro key pub id peer hpub hpeer hwant hnone
    obtain ⟨old, hold, hpub'⟩ := hcases key pub hpub
    by_cases hid : id = receiverID
    · -- the receiver itself: what it wants now and lacks is queued
      subst hid
      rcases hpub' with rfl | ⟨rfl, hunwanted⟩
      · exact Or.inl (mem_setVideoSubscriptionsWithLayer_ops hold hpeer hwant hnone)
      · simp [hunwanted] at hwant
    · rw [setVideoSubscriptionsWithLayer_shouldSubscribeLocked hid] at hwant
      rcases hpub' with rfl | ⟨rfl, -⟩
      · exact Or.inr (h.pending hold hpeer hwant hnone)
      · rw [Publication.removeTarget_senders, if_neg hid] at hnone
        rw [Publication.removeTarget_info] at hwant ⊢
        exact Or.inr (h.pending hold hpeer hwant hnone)
  · intro op hop info id peer sender heq
    rcases setVideoSubscriptionsWithLayer_ops_cases hop with ⟨k, p, q, -, rfl⟩ | ⟨q, s, rfl⟩ <;>
      cases heq

theorem setPublicationActive (h : Subscribed r ops) (sourceID : ParticipantID)
    (role : SourceRole) (active : Bool) :
    Subscribed (r.setPublicationActive sourceID role active) ops := by
  have hcases : ∀ key pub,
      (r.setPublicationActive sourceID role active).pubs.lookup key = some pub →
      ∃ old, r.pubs.lookup key = some old ∧ pub.info = old.info ∧ pub.senders = old.senders := by
    intro key pub hpub
    rw [Router.setPublicationActive, GoMap.lookup_mapValues, Option.map_eq_some_iff] at hpub
    obtain ⟨old, hold, rfl⟩ := hpub
    refine ⟨old, hold, ?_, ?_⟩
    all_goals split <;> rfl
  refine ⟨fun key pub hpub => ?_, fun key pub id sender hpub hsender => ?_,
    fun key pub id peer hpub hpeer hwant => ?_, h.installs⟩
  all_goals obtain ⟨old, hold, hinfo, hsenders⟩ := hcases key pub hpub
  · rw [hinfo]
    exact h.keyed key old hold
  · exact h.live key old id sender hold (hsenders ▸ hsender)
  · rw [hinfo, hsenders]
    exact h.served key old id peer hold hpeer (hinfo ▸ hwant)

/-- A validated subscription gains its target on the registered peer. -/
theorem install {info : PublicationInfo} {id : ParticipantID} {peer : PeerId}
    {sender : RTPSender} (h : Subscribed r (.install info id peer sender :: ops))
    (hvalid : r.subscriptionValid info id peer = true) (holder : Holder) :
    Subscribed (r.installSubscription info id sender holder) ops := by
  rw [subscriptionValid] at hvalid
  cases hpub : r.pubs.lookup info.key with
  | none => simp [hpub] at hvalid
  | some pub =>
    simp only [hpub, Bool.and_eq_true, decide_eq_true_eq] at hvalid
    obtain ⟨⟨⟨-, hpeer⟩, -⟩, -⟩ := hvalid
    have hsender : sender.peer = peer := h.installs info id peer sender List.mem_cons_self
    have hpubs : ∀ key, (r.installSubscription info id sender holder).pubs.lookup key =
        if key = info.key then some (pub.addTarget id sender) else r.pubs.lookup key := by
      intro key
      simp only [installSubscription, hpub, GoMap.lookup_insert]
    have hpeers : (r.installSubscription info id sender holder).peers = r.peers := by
      simp only [installSubscription, hpub]
    have hwanted : (r.installSubscription info id sender holder).shouldSubscribeLocked =
        r.shouldSubscribeLocked := by
      simp only [installSubscription, hpub]
      rfl
    refine ⟨fun key other hother => ?_, fun key other target s hother hs => ?_,
      fun key other target p hother hp hwant => ?_, fun i t p s hmem => ?_⟩
    · rw [hpubs] at hother
      split at hother
      · rename_i hkey
        obtain rfl := Option.some.inj hother
        exact h.keyed key pub (hkey ▸ hpub)
      · exact h.keyed key other hother
    · rw [hpeers]
      rw [hpubs] at hother
      split at hother
      · obtain rfl := Option.some.inj hother
        rw [Publication.addTarget_senders] at hs
        split at hs
        · rename_i htarget
          obtain rfl := Option.some.inj hs
          rw [htarget, hsender, hpeer]
        · exact h.live info.key pub target s hpub hs
      · exact h.live key other target s hother hs
    · rw [hpeers] at hp
      rw [hwanted] at hwant
      rw [hpubs] at hother
      split at hother
      · obtain rfl := Option.some.inj hother
        rw [Publication.addTarget_senders]
        split
        · exact Or.inl rfl
        · rename_i htarget
          rcases h.served info.key pub target p hpub hp hwant with hs | ⟨op, hop, hserve⟩
          · exact Or.inl hs
          · rcases List.mem_cons.mp hop with rfl | hop
            · exact absurd hserve.2.1.symm htarget
            · exact Or.inr ⟨op, hop, hserve⟩
      · rename_i hkey
        rcases h.served key other target p hother hp hwant with hs | ⟨op, hop, hserve⟩
        · exact Or.inl hs
        · rcases List.mem_cons.mp hop with rfl | hop
          · -- the installed operation was for the publication under `info.key`
            exact absurd ((h.keyed key other hother).symm.trans
              (congrArg PublicationInfo.key hserve.1).symm) hkey
          · exact Or.inr ⟨op, hop, hserve⟩
    · exact h.installs i t p s (List.mem_cons_of_mem _ hmem)

/-- Removing a sender again serves nobody, so a refused installation and a
finished removal lose nothing. -/
theorem drop (h : Subscribed r (op :: ops)) (hdrop : ∀ key pub id peer,
      r.pubs.lookup key = some pub → r.peers.lookup id = some peer →
      r.shouldSubscribeLocked pub.info.key id = true → op.Serves pub.info id peer →
      (pub.senders.lookup id).isSome) : Subscribed r ops where
  keyed := h.keyed
  live := h.live
  served key pub id peer hpub hpeer hwant := by
    rcases h.served key pub id peer hpub hpeer hwant with hs | ⟨other, hmem, hserve⟩
    · exact Or.inl hs
    · rcases List.mem_cons.mp hmem with rfl | hmem
      · exact Or.inl (hdrop key pub id peer hpub hpeer hwant hserve)
      · exact Or.inr ⟨other, hmem, hserve⟩
  installs info id peer sender hmem := h.installs info id peer sender (List.mem_cons_of_mem _ hmem)

/-- A new operation may join the pool if it installs on its own peer. -/
theorem push (h : Subscribed r ops) {op : PendingTrackOp}
    (hop : ∀ info id peer sender, op = .install info id peer sender → sender.peer = peer) :
    Subscribed r (ops ++ [op]) where
  keyed := h.keyed
  live := h.live
  served key pub id peer hpub hpeer hwant := by
    rcases h.served key pub id peer hpub hpeer hwant with hs | ⟨other, hmem, hserve⟩
    · exact Or.inl hs
    · exact Or.inr ⟨other, List.mem_append_left _ hmem, hserve⟩
  installs info id peer sender hmem := by
    rcases List.mem_append.mp hmem with hold | hnew
    · exact h.installs info id peer sender hold
    · exact hop info id peer sender (List.mem_singleton.mp hnew).symm

theorem perm (h : Subscribed r ops) {ops' : List PendingTrackOp} (hp : ops.Perm ops') :
    Subscribed r ops' where
  keyed := h.keyed
  live := h.live
  served key pub id peer hpub hpeer hwant := by
    rcases h.served key pub id peer hpub hpeer hwant with hs | ⟨op, hop, hserve⟩
    · exact Or.inl hs
    · exact Or.inr ⟨op, hp.mem_iff.mp hop, hserve⟩
  installs info id peer sender hmem := h.installs info id peer sender (hp.mem_iff.mpr hmem)

end Subscribed

end Router

/-! ## Runs -/

namespace Plane

/-- Every receiver that should be subscribed has its target, and the sender
of that target was created on the peer the receiver is registered with. -/
def SubscriptionsLive (m : Plane) : Prop :=
  ∀ key pub id peer, m.router.pubs.lookup key = some pub →
    m.router.peers.lookup id = some peer →
    m.router.shouldSubscribeLocked pub.info.key id = true →
    (pub.tracks.lookup id).isSome ∧
      ∃ sender, pub.senders.lookup id = some sender ∧ sender.peer = peer

/-- A `Register` finds no target of its id on another peer. -/
def registersUntargeted (m : Plane) : Label → Bool
  | .register id peer _ =>
    m.router.pubs.values.all fun pub =>
      (pub.senders.lookup id).all fun sender => sender.peer = peer
  | _ => true

/-- One section keeps the subscription invariant, whichever operation it
belongs to. -/
theorem subscribed_step {m t : Plane} {l : Label} (h : m.router.Subscribed m.ops)
    (hadd : m.addTrackSucceeds l = true) (hreg : m.registersUntargeted l = true) (hstep : m.step l = some t) :
    t.router.Subscribed t.ops := by
  cases l with
  | register id peer offerer =>
    obtain rfl := Option.some.inj hstep
    refine h.register (fun key pub sender hpub hsender => ?_) offerer
    have hpub := List.all_eq_true.mp hreg pub (GoMap.mem_values.mpr ⟨key, hpub⟩)
    simpa [hsender] using hpub
  | unregister id =>
    obtain rfl := Option.some.inj hstep
    exact h.unregister id
  | publish sourceID role source remote layer failed =>
    obtain rfl := Option.some.inj hstep
    simp only [publish]
    split
    · split
      · exact h
      · rename_i d hd
        exact h.publish hd
    · exact h
  | setVideoSubscriptionsWithLayer receiverID ids layer =>
    obtain rfl := Option.some.inj hstep
    exact h.setVideoSubscriptionsWithLayer receiverID ids layer
  | unpublish sourceID role =>
    obtain rfl := Option.some.inj hstep
    exact h.removePublications _
  | setPublicationActive sourceID role active =>
    obtain rfl := Option.some.inj hstep
    exact h.setPublicationActive sourceID role active
  | trackOp index ok =>
    obtain ⟨op, rest, hop, hperm, rfl⟩ := trackOp_eq_some hstep
    have h' := h.perm hperm
    cases op with
    | subscribe pub id peer =>
      -- `AddTrack` has returned: its installation takes the operation's place
      obtain rfl : ok = true := by simpa [addTrackSucceeds, hop] using hadd
      refine ⟨h'.keyed, h'.live, fun key other target p hother hp hwant => ?_,
        fun info target p sender hmem => ?_⟩
      · rcases h'.served key other target p hother hp hwant with hs | ⟨op, hmem, hserve⟩
        · exact Or.inl hs
        · rcases List.mem_cons.mp hmem with rfl | hmem
          · exact Or.inr ⟨_, List.mem_append_right _ List.mem_cons_self, hserve⟩
          · exact Or.inr ⟨op, List.mem_append_left _ hmem, hserve⟩
      · rcases List.mem_append.mp hmem with hold | hnew
        · exact h'.installs info target p sender (List.mem_cons_of_mem _ hold)
        · cases List.mem_singleton.mp hnew
          rfl
    | install pub id peer sender =>
      simp only [applyTrackOp]
      split
      · rename_i hvalid
        exact h'.install hvalid m.fresh
      · rename_i hinvalid
        refine (h'.drop fun key other target p hother hp hwant hserve => ?_).push
          fun _ _ _ _ heq => by cases heq
        -- only a target that is already there makes a wanted subscription invalid
        obtain ⟨rfl, rfl, rfl⟩ := hserve
        have hkey := h.keyed key other hother
        subst hkey
        rw [← other.paired]
        simpa [Router.subscriptionValid, hother, hp, hwant, Option.isSome_iff_ne_none]
          using hinvalid
    | remove peer sender =>
      have hrest : Router.Subscribed m.router rest :=
        h'.drop fun _ _ _ _ _ _ _ hserve => hserve.elim
      simp only [applyTrackOp]
      split <;> exact hrest
  | readStop index =>
    obtain ⟨info, -, rfl⟩ := Option.map_eq_some_iff.mp hstep
    exact h.removePublications _

theorem subscribed_new : new.router.Subscribed new.ops := by
  refine ⟨?_, ?_, ?_, ?_⟩ <;> intros <;> simp_all [new, Router.new]

/-- The invariant in every state of a run that never re-registers an id with
targets on another peer. -/
theorem subscribed_of_reachable {m : Plane}
    (h : lts.Reachable (fun m l => m.addTrackSucceeds l ∧ m.registersUntargeted l) m) :
    m.router.Subscribed m.ops :=
  Lts.Reachable.invariant_ofStep (I := fun m => m.router.Subscribed m.ops) subscribed_new
    (fun _ _ _ hi hok hstep => subscribed_step hi hok.1 hok.2 hstep) h

/-- **Subscriptions follow the live connection**: once the queued operations
are applied, provided every `Register` of the run found no target of its id
on another peer. -/
theorem subscriptionsLive_of_registersUntargeted {m : Plane}
    (h : lts.Reachable (fun m l => m.addTrackSucceeds l ∧ m.registersUntargeted l) m)
    (hops : m.ops = []) : m.SubscriptionsLive := by
  have hinv := subscribed_of_reachable h
  intro key pub id peer hpub hpeer hwant
  rcases hinv.served key pub id peer hpub hpeer hwant with hsome | ⟨op, hop, -⟩
  · obtain ⟨sender, hsender⟩ := Option.isSome_iff_exists.mp hsome
    refine ⟨by rw [pub.paired]; exact hsome, sender, hsender, ?_⟩
    have hlive := hinv.live key pub id sender hpub hsender
    exact Option.some.inj (hlive.symm.trans hpeer)
  · simp [hops] at hop

/-- The session meets the condition, and the second participant's
publication then reaches the first on its peer. -/
theorem subscriptionsLive_twoParticipants :
    ∃ m : Plane, (m.router.peers.lookup 1, m.router.pubs.size) = (some 10, 1) ∧
      m.SubscriptionsLive := by
  obtain ⟨m, hm, hobs⟩ := Lts.exists_reachable_of_execWhen
    (fun m l => m.addTrackSucceeds l && m.registersUntargeted l) step new twoParticipants
    (fun m => (m.ops, m.router.peers.lookup 1, m.router.pubs.size)) ([], some 10, 1) (by decide)
  simp only [Prod.mk.injEq] at hobs
  refine ⟨m, by simp [hobs.2], subscriptionsLive_of_registersUntargeted ?_ hobs.1⟩
  exact hm.mono fun _ _ h => by simpa using h

/-- A resume registers the first participant with peer 11 while its target
is still on peer 10: nothing is queued and the target stays there. -/
theorem not_subscriptionsLive_of_reregister :
    ¬ ∀ m, lts.Reachable (fun m l => m.addTrackSucceeds l) m → m.ops = [] →
      m.SubscriptionsLive := by
  intro h
  obtain ⟨m, hm, hobs⟩ := Lts.exists_reachable_of_execWhen addTrackSucceeds step new
    (twoParticipants ++ [.register 1 11 (some 3)])
    (fun m => (m.ops, m.router.peers.lookup 1,
      (m.router.pubs.lookup ⟨2, .audio, none⟩).map fun pub =>
        (m.router.shouldSubscribeLocked pub.info.key 1, pub.senders.lookup 1)))
    ([], some 11, some (true, some ⟨2, 10⟩)) (by decide)
  simp only [Prod.mk.injEq, Option.map_eq_some_iff] at hobs
  obtain ⟨hops, hpeer, pub, hpub, hwant, hsender⟩ := hobs
  obtain ⟨-, sender, hsender', hlive⟩ := h m hm hops _ pub 1 11 hpub hpeer hwant
  rw [hsender] at hsender'
  simp [← Option.some.inj hsender'] at hlive

end Plane

end SlowMeet.Media
