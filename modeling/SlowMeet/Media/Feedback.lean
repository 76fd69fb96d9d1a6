import SlowMeet.Media.Machine

/-!
# Feedback reaches the live publisher

A sender keeps one RTCP relay for its whole life. A publication swap moves
the sender to the replacement and rewrites the relay's SSRC holder; the peer
the relay writes to stays the one captured when the relay started.
-/

namespace SlowMeet.Media

open Lib

namespace PendingTrackOp

/-- The sender an operation is about to install. -/
def installs : PendingTrackOp → Option RTPSender
  | install _ _ _ sender => some sender
  | _ => none

/-- The publication an operation is for. -/
def info : PendingTrackOp → Option PublicationInfo
  | subscribe pub _ _ => some pub
  | install pub _ _ _ => some pub
  | remove _ _ => none

/-- Two operations that do not install the same sender. -/
def Apart (a b : PendingTrackOp) : Prop :=
  ∀ sender, a.installs = some sender → b.installs ≠ some sender

theorem Apart.symm {a b : PendingTrackOp} (h : a.Apart b) : b.Apart a :=
  fun sender hb ha => h sender ha hb

end PendingTrackOp

/-- Every registered sender is in the hands of one relay, which writes to
its publication's source and reads that publication's SSRC. The rest says
that addresses are not reused: of publications, senders and holders. -/
structure Relayed (m : Plane) : Prop where
  keyed : ∀ key pub, m.router.pubs.lookup key = some pub → pub.info.key = key
  served : ∀ key pub id sender, m.router.pubs.lookup key = some pub →
    pub.senders.lookup id = some sender → ∃ holder,
      m.relays.lookup sender = some ⟨pub.info.source, holder⟩ ∧
        m.router.senderSourceSSRC.lookup sender = some holder ∧
        m.router.holders holder = pub.info.remote.ssrc
  unique : ∀ key pub id key' pub' id' sender, m.router.pubs.lookup key = some pub →
    pub.senders.lookup id = some sender → m.router.pubs.lookup key' = some pub' →
    pub'.senders.lookup id' = some sender → key = key' ∧ id = id'
  injective : ∀ sender sender' holder, m.router.senderSourceSSRC.lookup sender = some holder →
    m.router.senderSourceSSRC.lookup sender' = some holder → sender = sender'
  freshHolder : ∀ sender holder, m.router.senderSourceSSRC.lookup sender = some holder →
    holder < m.fresh
  freshSender : ∀ key pub id sender, m.router.pubs.lookup key = some pub →
    pub.senders.lookup id = some sender → sender.ref < m.fresh
  freshInstall : ∀ op ∈ m.ops, ∀ sender, op.installs = some sender → sender.ref < m.fresh
  apart : m.ops.Pairwise PendingTrackOp.Apart
  uninstalled : ∀ op ∈ m.ops, ∀ sender, op.installs = some sender →
    ∀ key pub id, m.router.pubs.lookup key = some pub → pub.senders.lookup id ≠ some sender
  freshOp : ∀ op ∈ m.ops, ∀ info, op.info = some info → info.ref < m.fresh
  current : ∀ op ∈ m.ops, ∀ info, op.info = some info →
    ∀ pub, m.router.pubs.lookup info.key = some pub → pub.info.ref = info.ref → pub.info = info
  freshPub : ∀ key pub, m.router.pubs.lookup key = some pub → pub.info.ref < m.fresh

namespace Router

/-- A section that only releases targets: publications keep their data, lose
senders at most, and the senders forgotten are ones no longer registered. -/
structure Releases (r r' : Router) : Prop where
  pubs : ∀ key pub', r'.pubs.lookup key = some pub' → ∃ pub, r.pubs.lookup key = some pub ∧
    pub'.info = pub.info ∧
    ∀ id sender, pub'.senders.lookup id = some sender → pub.senders.lookup id = some sender
  holders : r'.holders = r.holders
  forgotten : ∀ sender,
    r'.senderSourceSSRC.lookup sender = r.senderSourceSSRC.lookup sender ∨
      r'.senderSourceSSRC.lookup sender = none ∧
        ∃ key pub id, r.pubs.lookup key = some pub ∧ pub.senders.lookup id = some sender ∧
          ∀ pub', r'.pubs.lookup key = some pub' → pub'.senders.lookup id ≠ some sender

variable {r : Router}

theorem releases_register (id : ParticipantID) (peer : PeerId) (offerer : Option Offerer) :
    Releases r (r.register id peer offerer).router where
  pubs _ pub hpub := ⟨pub, hpub, rfl, fun _ _ h => h⟩
  holders := rfl
  forgotten _ := Or.inl rfl

theorem releases_removePublications (gone : Publication → Bool) :
    Releases r (r.removePublicationsLocked gone).router where
  pubs key pub hpub := by
    rw [removePublicationsLocked_pubs, Option.filter_eq_some_iff] at hpub
    exact ⟨pub, hpub.1, rfl, fun _ _ h => h⟩
  holders := rfl
  forgotten sender := by
    rcases removePublicationsLocked_senderSourceSSRC (r := r) gone sender with
      hkeep | ⟨hnone, key, pub, id, hpub, hgone, hsender⟩
    · exact Or.inl hkeep
    · refine Or.inr ⟨hnone, key, pub, id, hpub, hsender, fun pub' hpub' => ?_⟩
      rw [removePublicationsLocked_pubs, hpub, Option.filter_eq_some_iff] at hpub'
      obtain ⟨heq, hkept⟩ := hpub'
      simp [← Option.some.inj heq, hgone] at hkept

theorem releases_unregister (id : ParticipantID) : Releases r (r.unregister id).router where
  pubs key pub' hpub' := by
    rw [unregister_pubs, Option.map_eq_some_iff] at hpub'
    obtain ⟨pub, hpub, rfl⟩ := hpub'
    rw [Option.filter_eq_some_iff] at hpub
    refine ⟨pub, hpub.1, rfl, fun target sender hsender => ?_⟩
    rw [Publication.removeTarget_senders] at hsender
    split at hsender
    · simp at hsender
    · exact hsender
  holders := rfl
  forgotten sender := by
    rcases unregister_senderSourceSSRC (r := r) id sender with
      hkeep | ⟨hnone, key, pub, target, hpub, hgone, hsender⟩
    · exact Or.inl hkeep
    · refine Or.inr ⟨hnone, key, pub, target, hpub, hsender, fun pub' hpub' => ?_⟩
      rw [unregister_pubs, hpub, Option.map_eq_some_iff] at hpub'
      obtain ⟨old, hold, rfl⟩ := hpub'
      rw [Option.filter_eq_some_iff] at hold
      obtain ⟨heq, hkept⟩ := hold
      obtain rfl := Option.some.inj heq
      rcases hgone with hsource | rfl
      · simp [hsource] at hkept
      · simp [Publication.removeTarget_senders]

theorem releases_setVideoSubscriptionsWithLayer (receiverID : ParticipantID)
    (ids : List ParticipantID) (layer : Option CameraLayer) :
    Releases r (r.setVideoSubscriptionsWithLayer receiverID ids layer).router where
  pubs key pub' hpub' := by
    rw [setVideoSubscriptionsWithLayer_pubs, Option.map_eq_some_iff] at hpub'
    obtain ⟨pub, hpub, rfl⟩ := hpub'
    refine ⟨pub, hpub, by split <;> rfl, fun id sender hsender => ?_⟩
    split at hsender
    · rw [Publication.removeTarget_senders] at hsender
      split at hsender
      · simp at hsender
      · exact hsender
    · exact hsender
  holders := rfl
  forgotten sender := by
    rcases r.setVideoSubscriptionsWithLayer_senderSourceSSRC receiverID ids layer sender with
      hkeep | ⟨hnone, key, pub, hpub, hsender, hafter⟩
    · exact Or.inl hkeep
    · refine Or.inr ⟨hnone, key, pub, receiverID, hpub, hsender, fun pub' hpub' => ?_⟩
      obtain rfl := Option.some.inj (hafter.symm.trans hpub')
      simp [Publication.removeTarget_senders]

theorem releases_setPublicationActive (sourceID : ParticipantID) (role : SourceRole)
    (active : Bool) : Releases r (r.setPublicationActive sourceID role active) where
  pubs key pub' hpub' := by
    rw [Router.setPublicationActive, GoMap.lookup_mapValues, Option.map_eq_some_iff] at hpub'
    obtain ⟨pub, hpub, rfl⟩ := hpub'
    refine ⟨pub, hpub, by split <;> rfl, fun id sender hsender => ?_⟩
    split at hsender <;> exact hsender
  holders := rfl
  forgotten _ := Or.inl rfl

end Router

namespace Relayed

variable {m : Plane} {d : Decision}

/-- Releasing targets keeps the invariant, if the operations queued are
removals and subscriptions to registered publications. -/
theorem commit (h : Relayed m) (hr : Router.Releases m.router d.router)
    (hops : ∀ op ∈ d.ops, (∃ key pub id peer, m.router.pubs.lookup key = some pub ∧
      op = .subscribe pub.info id peer) ∨ ∃ peer sender, op = .remove peer sender) :
    Relayed (m.commit d) := by
  have hinstalls : ∀ op ∈ d.ops, op.installs = none := by
    intro op hop
    rcases hops op hop with ⟨_, _, _, _, -, rfl⟩ | ⟨_, _, rfl⟩ <;> rfl
  have hinfo : ∀ op ∈ d.ops, ∀ info, op.info = some info →
      ∃ pub, m.router.pubs.lookup info.key = some pub ∧ pub.info = info := by
    intro op hop info hi
    rcases hops op hop with ⟨key, pub, _, _, hpub, rfl⟩ | ⟨_, _, rfl⟩
    · obtain rfl : pub.info = info := Option.some.inj hi
      exact ⟨pub, by rw [h.keyed key pub hpub]; exact hpub, rfl⟩
    · simp [PendingTrackOp.info] at hi
  refine ⟨?_, ?_, ?_, ?_, ?_, ?_, ?_, ?_, ?_, ?_, ?_, ?_⟩
  · intro key pub' hpub'
    obtain ⟨pub, hpub, hinfo, -⟩ := hr.pubs key pub' hpub'
    rw [hinfo]
    exact h.keyed key pub hpub
  · intro key pub' id sender hpub' hsender'
    obtain ⟨pub, hpub, hinfo, hsub⟩ := hr.pubs key pub' hpub'
    obtain ⟨holder, hrelay, hssrc, hvalue⟩ :=
      h.served key pub id sender hpub (hsub id sender hsender')
    refine ⟨holder, by rw [hinfo]; exact hrelay, ?_, by rw [hinfo, ← hvalue]; exact congrFun hr.holders holder⟩
    -- a sender still registered is not among the forgotten ones
    rcases hr.forgotten sender with hkeep | ⟨-, k, p, i, hp, hs, hgone⟩
    · exact hkeep.trans hssrc
    · obtain ⟨rfl, rfl⟩ := h.unique k p i key pub id sender hp hs hpub (hsub id sender hsender')
      exact absurd hsender' (hgone pub' hpub')
  · intro key pub id key' pub' id' sender hpub hs hpub' hs'
    obtain ⟨old, hold, -, hsub⟩ := hr.pubs key pub hpub
    obtain ⟨old', hold', -, hsub'⟩ := hr.pubs key' pub' hpub'
    exact h.unique key old id key' old' id' sender hold (hsub id sender hs) hold'
      (hsub' id' sender hs')
  · have hkept : ∀ sender holder, d.router.senderSourceSSRC.lookup sender = some holder →
        m.router.senderSourceSSRC.lookup sender = some holder := by
      intro sender holder hs
      rcases hr.forgotten sender with hkeep | ⟨hnone, -⟩
      · exact hkeep ▸ hs
      · simp [hnone] at hs
    intro sender sender' holder hs hs'
    exact h.injective sender sender' holder (hkept _ _ hs) (hkept _ _ hs')
  · intro sender holder hs
    rcases hr.forgotten sender with hkeep | ⟨hnone, -⟩
    · exact h.freshHolder sender holder (hkeep ▸ hs)
    · exact absurd hs (by simp [Plane.commit, hnone])
  · intro key pub id sender hpub hs
    obtain ⟨old, hold, -, hsub⟩ := hr.pubs key pub hpub
    exact h.freshSender key old id sender hold (hsub id sender hs)
  · intro op hop sender hs
    rcases List.mem_append.mp hop with hold | hnew
    · exact h.freshInstall op hold sender hs
    · simp [hinstalls op hnew] at hs
  · refine List.pairwise_append.mpr ⟨h.apart, ?_, fun a _ b hb sender _ hs => ?_⟩
    · refine List.pairwise_of_forall_mem_list fun a ha b _ sender hs => ?_
      simp [hinstalls a ha] at hs
    · simp [hinstalls b hb] at hs
  · intro op hop sender hs key pub id hpub
    rcases List.mem_append.mp hop with hold | hnew
    · obtain ⟨old, hpold, -, hsub⟩ := hr.pubs key pub hpub
      exact fun heq => h.uninstalled op hold sender hs key old id hpold (hsub id sender heq)
    · simp [hinstalls op hnew] at hs
  · intro op hop info hi
    rcases List.mem_append.mp hop with hold | hnew
    · exact h.freshOp op hold info hi
    · obtain ⟨pub, hpub, rfl⟩ := hinfo op hnew info hi
      exact h.freshPub _ pub hpub
  · intro op hop info hi pub' hpub' href
    obtain ⟨pub, hpub, heq, -⟩ := hr.pubs info.key pub' hpub'
    rcases List.mem_append.mp hop with hold | hnew
    · rw [heq] at href ⊢
      exact h.current op hold info hi pub hpub href
    · obtain ⟨old, hold, hinfo'⟩ := hinfo op hnew info hi
      rw [heq, Option.some.inj (hpub.symm.trans hold), hinfo']
  · intro key pub' hpub'
    obtain ⟨pub, hpub, heq, -⟩ := hr.pubs key pub' hpub'
    rw [heq]
    exact h.freshPub key pub hpub

/-- A swap keeps the invariant when every sender it moves stays with the
source peer its relay writes to. -/
theorem publish (h : Relayed m) {info : PublicationInfo} {replaceOk : ParticipantID → Bool}
    (hd : m.router.publish info replaceOk = some d) (href : info.ref = m.fresh)
    (hsource : ∀ existing id sender, m.router.pubs.lookup info.key = some existing →
      existing.info.remote.ref ≠ info.remote.ref →
      Router.sameCodecCapability existing.info.codec info.codec = true → replaceOk id = true →
      existing.senders.lookup id = some sender → existing.info.source = info.source)
    (forwards : List PublicationInfo) :
    Relayed { m.commit d with forwards := forwards, fresh := m.fresh + 1 } := by
  obtain ⟨pub, hp⟩ := Router.publish_published hd
  -- a publication after the swap is the new one or an old one under another key
  have hcases : ∀ key other, d.router.pubs.lookup key = some other →
      key = info.key ∧ other = pub ∨ key ≠ info.key ∧ m.router.pubs.lookup key = some other := by
    intro key other hother
    rw [hp.pubs, GoMap.lookup_insert] at hother
    split at hother
    · rename_i hkey
      exact Or.inl ⟨hkey, (Option.some.inj hother).symm⟩
    · rename_i hkey
      exact Or.inr ⟨hkey, hother⟩
  -- every registered sender was registered before, under the same key and target
  have hold : ∀ key other id sender, d.router.pubs.lookup key = some other →
      other.senders.lookup id = some sender →
      ∃ old, m.router.pubs.lookup key = some old ∧ old.senders.lookup id = some sender := by
    intro key other id sender hother hsender
    rcases hcases key other hother with ⟨rfl, rfl⟩ | ⟨-, hother⟩
    · obtain ⟨existing, hexisting, -, -, -, hs, -⟩ := hp.moved id sender hsender
      exact ⟨existing, hexisting, hs⟩
    · exact ⟨other, hother, hsender⟩
  have hkept : ∀ sender holder, d.router.senderSourceSSRC.lookup sender = some holder →
      m.router.senderSourceSSRC.lookup sender = some holder := by
    intro sender holder hs
    rcases hp.forgotten sender with hkeep | ⟨hnone, -⟩
    · exact hkeep ▸ hs
    · simp [hnone] at hs
  have hstill : ∀ key other id sender, d.router.pubs.lookup key = some other →
      other.senders.lookup id = some sender →
      d.router.senderSourceSSRC.lookup sender = m.router.senderSourceSSRC.lookup sender := by
    intro key other id sender hother hsender
    rcases hp.forgotten sender with hkeep | ⟨-, existing, i, hexisting, hs, hgone⟩
    · exact hkeep
    · obtain ⟨old, holdpub, hs'⟩ := hold key other id sender hother hsender
      obtain ⟨rfl, rfl⟩ := h.unique _ existing i key old id sender hexisting hs holdpub hs'
      rcases hcases info.key other hother with ⟨-, rfl⟩ | ⟨hne, -⟩
      · simp [hgone] at hsender
      · exact absurd rfl hne
  have hinstalls : ∀ op ∈ d.ops, op.installs = none := by
    intro op hop
    rcases hp.ops op hop with ⟨_, _, rfl⟩ | ⟨_, _, rfl⟩ <;> rfl
  refine ⟨?_, ?_, ?_, ?_, ?_, ?_, ?_, ?_, ?_, ?_, ?_, ?_⟩
  · intro key other hother
    rcases hcases key other hother with ⟨rfl, rfl⟩ | ⟨-, hother⟩
    · rw [hp.info_eq]
    · exact h.keyed key other hother
  · intro key other id sender hother hsender
    rcases hcases key other hother with ⟨rfl, rfl⟩ | ⟨hne, hother'⟩
    · obtain ⟨existing, hexisting, hremote, hcodec, hok, hs, hretarget⟩ := hp.moved id sender hsender
      obtain ⟨holder, hrelay, hssrc, -⟩ := h.served info.key existing id sender hexisting hs
      have hsame := hsource existing id sender hexisting hremote hcodec hok hs
      refine ⟨holder, ?_, (hstill _ _ _ _ hother hsender).trans hssrc, ?_⟩
      · rw [hp.info_eq, ← hsame]
        exact hrelay
      · rw [hp.info_eq]
        exact hretarget holder hssrc
    · obtain ⟨holder, hrelay, hssrc, hvalue⟩ := h.served key other id sender hother' hsender
      refine ⟨holder, hrelay, (hstill _ _ _ _ hother hsender).trans hssrc, ?_⟩
      rcases hp.holders holder with hkeep | ⟨i, s, hs, hholder⟩
      · exact hkeep.trans hvalue
      · -- the rewritten holder belongs to a sender of the new publication
        obtain rfl := h.injective s sender holder hholder hssrc
        obtain ⟨existing, hexisting, -, -, -, hs', -⟩ := hp.moved i s hs
        exact absurd (h.unique key other id info.key existing i s hother' hsender hexisting hs').1 hne
  · intro key other id key' other' id' sender hother hs hother' hs'
    obtain ⟨old, hpub, hold₁⟩ := hold key other id sender hother hs
    obtain ⟨old', hpub', hold₂⟩ := hold key' other' id' sender hother' hs'
    exact h.unique key old id key' old' id' sender hpub hold₁ hpub' hold₂
  · intro sender sender' holder hs hs'
    exact h.injective sender sender' holder (hkept _ _ hs) (hkept _ _ hs')
  · intro sender holder hs
    exact Nat.lt_succ_of_lt (h.freshHolder sender holder (hkept _ _ hs))
  · intro key other id sender hother hs
    obtain ⟨old, hpub, hold₁⟩ := hold key other id sender hother hs
    exact Nat.lt_succ_of_lt (h.freshSender key old id sender hpub hold₁)
  · intro op hop sender hs
    rcases List.mem_append.mp hop with hprev | hnew
    · exact Nat.lt_succ_of_lt (h.freshInstall op hprev sender hs)
    · simp [hinstalls op hnew] at hs
  · refine List.pairwise_append.mpr ⟨h.apart, ?_, fun a _ b hb sender _ hs => ?_⟩
    · refine List.pairwise_of_forall_mem_list fun a ha b _ sender hs => ?_
      simp [hinstalls a ha] at hs
    · simp [hinstalls b hb] at hs
  · intro op hop sender hs key other id hother hreg
    rcases List.mem_append.mp hop with hprev | hnew
    · obtain ⟨old, hpub, hold₁⟩ := hold key other id sender hother hreg
      exact h.uninstalled op hprev sender hs key old id hpub hold₁
    · simp [hinstalls op hnew] at hs
  · intro op hop i hi
    rcases List.mem_append.mp hop with hprev | hnew
    · exact Nat.lt_succ_of_lt (h.freshOp op hprev i hi)
    · rcases hp.ops op hnew with ⟨_, _, rfl⟩ | ⟨_, _, rfl⟩
      · obtain rfl : info = i := Option.some.inj hi
        exact href ▸ Nat.lt_succ_self _
      · simp [PendingTrackOp.info] at hi
  · intro op hop i hi other hother hsame
    rcases List.mem_append.mp hop with hprev | hnew
    · rcases hcases i.key other hother with ⟨hkey, rfl⟩ | ⟨-, hother⟩
      · -- an older operation cannot name the publication just allocated
        have hlt := h.freshOp op hprev i hi
        rw [hp.info_eq, href] at hsame
        omega
      · exact h.current op hprev i hi other hother hsame
    · rcases hp.ops op hnew with ⟨_, _, rfl⟩ | ⟨_, _, rfl⟩
      · obtain rfl : info = i := Option.some.inj hi
        rcases hcases info.key other hother with ⟨-, rfl⟩ | ⟨hne, -⟩
        · exact hp.info_eq
        · exact absurd rfl hne
      · simp [PendingTrackOp.info] at hi
  · intro key other hother
    rcases hcases key other hother with ⟨-, rfl⟩ | ⟨-, hother⟩
    · rw [hp.info_eq, href]
      exact Nat.lt_succ_self _
    · exact Nat.lt_succ_of_lt (h.freshPub key other hother)

/-- The invariant reads the pool only through what its operations install
and name, so a smaller pool keeps it. -/
theorem withOps (h : Relayed m) {ops : List PendingTrackOp} (hsub : ∀ op ∈ ops, op ∈ m.ops)
    (hapart : ops.Pairwise PendingTrackOp.Apart) : Relayed { m with ops := ops } where
  keyed := h.keyed
  served := h.served
  unique := h.unique
  injective := h.injective
  freshHolder := h.freshHolder
  freshSender := h.freshSender
  freshInstall op hop := h.freshInstall op (hsub op hop)
  apart := hapart
  uninstalled op hop := h.uninstalled op (hsub op hop)
  freshOp op hop := h.freshOp op (hsub op hop)
  current op hop := h.current op (hsub op hop)
  freshPub := h.freshPub

theorem perm (h : Relayed m) {ops : List PendingTrackOp} (hp : m.ops.Perm ops) :
    Relayed { m with ops := ops } :=
  h.withOps (fun _ hop => hp.mem_iff.mpr hop)
    ((hp.pairwise_iff fun hab => hab.symm).mp h.apart)

/-- An `AddTrack` that succeeded: its sender is new, its installation joins
the pool. -/
theorem addTrack (h : Relayed m) {op : PendingTrackOp} {pub : PublicationInfo}
    {id : ParticipantID} {peer : PeerId} (hop : op ∈ m.ops) (hpub : op.info = some pub)
    {ops : List PendingTrackOp} (hsub : ∀ op ∈ ops, op ∈ m.ops)
    (hapart : ops.Pairwise PendingTrackOp.Apart) (attached : List RTPSender) :
    Relayed { m with
      ops := ops ++ [.install pub id peer ⟨m.fresh, peer⟩]
      attached := attached
      fresh := m.fresh + 1 } where
  keyed := h.keyed
  served := h.served
  unique := h.unique
  injective := h.injective
  freshHolder sender holder hs := Nat.lt_succ_of_lt (h.freshHolder sender holder hs)
  freshSender key other i sender hother hs :=
    Nat.lt_succ_of_lt (h.freshSender key other i sender hother hs)
  freshInstall other hother sender hs := by
    rcases List.mem_append.mp hother with hold | hnew
    · exact Nat.lt_succ_of_lt (h.freshInstall other (hsub other hold) sender hs)
    · obtain rfl := List.mem_singleton.mp hnew
      simp [← Option.some.inj hs]
  apart := by
    refine List.pairwise_append.mpr ⟨hapart, List.pairwise_singleton _ _, fun a ha b hb => ?_⟩
    obtain rfl := List.mem_singleton.mp hb
    intro sender hs heq
    have hlt := h.freshInstall a (hsub a ha) sender hs
    simp [← Option.some.inj heq] at hlt
  uninstalled other hother sender hs key p i hp hreg := by
    rcases List.mem_append.mp hother with hold | hnew
    · exact h.uninstalled other (hsub other hold) sender hs key p i hp hreg
    · obtain rfl := List.mem_singleton.mp hnew
      have hlt := h.freshSender key p i sender hp hreg
      simp [← Option.some.inj hs] at hlt
  freshOp other hother i hi := by
    rcases List.mem_append.mp hother with hold | hnew
    · exact Nat.lt_succ_of_lt (h.freshOp other (hsub other hold) i hi)
    · obtain rfl := List.mem_singleton.mp hnew
      exact Nat.lt_succ_of_lt (h.freshOp op hop i (hpub.trans hi))
  current other hother i hi := by
    rcases List.mem_append.mp hother with hold | hnew
    · exact h.current other (hsub other hold) i hi
    · obtain rfl := List.mem_singleton.mp hnew
      exact h.current op hop i (hpub.trans hi)
  freshPub key p hp := Nat.lt_succ_of_lt (h.freshPub key p hp)

/-- A validated sender is registered together with its relay, which starts
with the publication's source and SSRC. -/
theorem install (h : Relayed m) {info : PublicationInfo} {id : ParticipantID} {peer : PeerId}
    {sender : RTPSender} (hop : .install info id peer sender ∈ m.ops)
    (hvalid : m.router.subscriptionValid info id peer = true)
    {ops : List PendingTrackOp} (hsub : ∀ op ∈ ops, op ∈ m.ops)
    (hapart : ops.Pairwise PendingTrackOp.Apart)
    (hrest : ∀ op ∈ ops, op.installs ≠ some sender) :
    Relayed { m with
      ops := ops
      router := m.router.installSubscription info id sender m.fresh
      relays := m.relays.insert sender ⟨info.source, m.fresh⟩
      fresh := m.fresh + 1 } := by
  rw [Router.subscriptionValid] at hvalid
  cases hpub : m.router.pubs.lookup info.key with
  | none => simp [hpub] at hvalid
  | some pub =>
    simp only [hpub, Bool.and_eq_true, decide_eq_true_eq, Option.isNone_iff_eq_none] at hvalid
    obtain ⟨⟨⟨href, -⟩, hnone⟩, -⟩ := hvalid
    have hinfo : pub.info = info := h.current _ hop info rfl pub hpub href
    have huninstalled := h.uninstalled _ hop sender rfl
    have hpubs : ∀ key, (m.router.installSubscription info id sender m.fresh).pubs.lookup key =
        if key = info.key then some (pub.addTarget id sender) else m.router.pubs.lookup key := by
      intro key
      simp only [Router.installSubscription, hpub, GoMap.lookup_insert]
    have hssrc : ∀ s, (m.router.installSubscription info id sender m.fresh).senderSourceSSRC.lookup s =
        if s = sender then some m.fresh else m.router.senderSourceSSRC.lookup s := by
      intro s
      simp only [Router.installSubscription, hpub, GoMap.lookup_insert]
    have hholders : (m.router.installSubscription info id sender m.fresh).holders =
        Function.update m.router.holders m.fresh info.remote.ssrc := by
      simp only [Router.installSubscription, hpub]
    have hcases : ∀ key other i s,
        (m.router.installSubscription info id sender m.fresh).pubs.lookup key = some other →
        other.senders.lookup i = some s →
        (key = info.key ∧ other.info = info ∧ i = id ∧ s = sender) ∨
          ∃ old, m.router.pubs.lookup key = some old ∧ other.info = old.info ∧
            old.senders.lookup i = some s := by
      intro key other i s hother hs
      rw [hpubs] at hother
      split at hother
      · rename_i hkey
        obtain rfl := Option.some.inj hother
        rw [Publication.addTarget_senders] at hs
        split at hs
        · rename_i hi
          exact Or.inl ⟨hkey, hinfo, hi, (Option.some.inj hs).symm⟩
        · exact Or.inr ⟨pub, hkey ▸ hpub, rfl, hs⟩
      · exact Or.inr ⟨other, hother, rfl, hs⟩
    have hback : ∀ key other,
        (m.router.installSubscription info id sender m.fresh).pubs.lookup key = some other →
        ∃ old, m.router.pubs.lookup key = some old ∧ other.info = old.info := by
      intro key other hother
      rw [hpubs] at hother
      split at hother
      · rename_i hkey
        obtain rfl := Option.some.inj hother
        exact ⟨pub, hkey ▸ hpub, rfl⟩
      · exact ⟨other, hother, rfl⟩
    refine ⟨?_, ?_, ?_, ?_, ?_, ?_, ?_, hapart, ?_, ?_, ?_, ?_⟩
    · intro key other hother
      obtain ⟨old, hold, heq⟩ := hback key other hother
      rw [heq]
      exact h.keyed key old hold
    · intro key other i s hother hs
      rcases hcases key other i s hother hs with ⟨rfl, heq, rfl, rfl⟩ | ⟨old, hold, heq, hs'⟩
      · exact ⟨m.fresh, by simp [heq], by simp [hssrc], by simp [hholders, heq]⟩
      · obtain ⟨holder, hrelay, hlook, hvalue⟩ := h.served key old i s hold hs'
        have hne : s ≠ sender := fun heq' => huninstalled key old i hold (heq' ▸ hs')
        have hlt := h.freshHolder s holder hlook
        refine ⟨holder, ?_, ?_, ?_⟩
        · rw [heq, GoMap.lookup_insert, if_neg hne]
          exact hrelay
        · rw [hssrc, if_neg hne]
          exact hlook
        · rw [hholders, heq, Function.update_of_ne (Nat.ne_of_lt hlt)]
          exact hvalue
    · intro key other i key' other' i' s hother hs hother' hs'
      rcases hcases key other i s hother hs with ⟨rfl, -, rfl, rfl⟩ | ⟨old, hold, -, hs₁⟩ <;>
        rcases hcases key' other' i' s hother' hs' with ⟨hk, -, hi, hseq⟩ | ⟨old', hold', -, hs₂⟩
      · exact ⟨hk.symm, hi.symm⟩
      · exact absurd hs₂ (huninstalled key' old' i' hold')
      · exact absurd (hseq ▸ hs₁) (huninstalled key old i hold)
      · exact h.unique key old i key' old' i' s hold hs₁ hold' hs₂
    · intro s s' holder hs hs'
      rw [hssrc] at hs hs'
      split at hs <;> split at hs'
      · simp_all
      · have hlt := h.freshHolder s' holder hs'
        simp [← Option.some.inj hs] at hlt
      · have hlt := h.freshHolder s holder hs
        simp [← Option.some.inj hs'] at hlt
      · exact h.injective s s' holder hs hs'
    · intro s holder hs
      rw [hssrc] at hs
      split at hs
      · obtain rfl := Option.some.inj hs
        exact Nat.lt_succ_self _
      · exact Nat.lt_succ_of_lt (h.freshHolder s holder hs)
    · intro key other i s hother hs
      rcases hcases key other i s hother hs with ⟨-, -, -, rfl⟩ | ⟨old, hold, -, hs'⟩
      · exact Nat.lt_succ_of_lt (h.freshInstall _ hop s rfl)
      · exact Nat.lt_succ_of_lt (h.freshSender key old i s hold hs')
    · exact fun op hmem s hs => Nat.lt_succ_of_lt (h.freshInstall op (hsub op hmem) s hs)
    · intro op hmem s hs key other i hother hreg
      rcases hcases key other i s hother hreg with ⟨-, -, -, rfl⟩ | ⟨old, hold, -, hs'⟩
      · exact hrest op hmem hs
      · exact h.uninstalled op (hsub op hmem) s hs key old i hold hs'
    · exact fun op hmem i hi => Nat.lt_succ_of_lt (h.freshOp op (hsub op hmem) i hi)
    · intro op hmem i hi other hother hsame
      obtain ⟨old, hold, heq⟩ := hback i.key other hother
      rw [heq] at hsame ⊢
      exact h.current op (hsub op hmem) i hi old hold hsame
    · intro key other hother
      obtain ⟨old, hold, heq⟩ := hback key other hother
      rw [heq]
      exact Nat.lt_succ_of_lt (h.freshPub key old hold)

end Relayed

/-! ## Runs -/

namespace Plane

/-- The relay of every registered sender writes each batch of feedback to
the publication's source, about the publication's track. -/
def FeedbackLive (m : Plane) : Prop :=
  ∀ key pub id sender, m.router.pubs.lookup key = some pub →
    pub.senders.lookup id = some sender → ∀ packets, ∃ routed,
      m.relayRTCP sender packets = some (pub.info.source, routed) ∧
        ∀ packet ∈ routed, ∀ ssrc, packet.mediaSSRC? = some ssrc → ssrc = pub.info.remote.ssrc

/-- A `Publish` that moves a target to a new track comes from the peer that
published the track it replaces. -/
def swapsOnOnePeer (m : Plane) : Label → Bool
  | .publish sourceID role (some source) (some remote) layer failed =>
    match m.router.pubs.lookup (Router.publicationKey sourceID role layer) with
    | none => true
    | some existing =>
      existing.info.source = source || existing.info.remote.ref = remote.ref ||
        !Router.sameCodecCapability existing.info.codec remote.codec ||
        existing.senders.pairs.all fun e => e.1 ∈ failed
  | _ => true

theorem relayed_step {m t : Plane} {l : Label} (h : Relayed m) (hswap : m.swapsOnOnePeer l = true)
    (hstep : m.step l = some t) : Relayed t := by
  cases l with
  | register id peer offerer =>
    obtain rfl := Option.some.inj hstep
    refine h.commit (Router.releases_register id peer offerer) fun op hop => ?_
    obtain ⟨pub, hmem, hqueue⟩ := List.mem_filterMap.mp hop
    obtain ⟨key, hkey⟩ := GoMap.mem_values.mp hmem
    obtain ⟨-, p, -, rfl⟩ := Router.queueSubscriptionLocked_eq_some.mp hqueue
    exact Or.inl ⟨key, pub, id, p, hkey, rfl⟩
  | unregister id =>
    obtain rfl := Option.some.inj hstep
    exact h.commit (Router.releases_unregister id) fun op hop =>
      Or.inr (Router.mem_removePublicationsLocked_ops hop)
  | publish sourceID role source remote layer failed =>
    obtain rfl := Option.some.inj hstep
    simp only [publish]
    split
    · rename_i source remote
      split
      · exact h
      · rename_i d hd
        refine h.publish hd rfl (fun existing id sender hexisting hremote hcodec hok hs => ?_) _
        simp only [swapsOnOnePeer, hexisting, Bool.or_eq_true, decide_eq_true_eq,
          Bool.not_eq_true', List.all_eq_true] at hswap
        rcases hswap with ((hsame | href) | hother) | hall
        · exact hsame
        · exact absurd href hremote
        · simp [hcodec] at hother
        · simp [hall (id, sender) (GoMap.mem_pairs.mpr hs)] at hok
    · exact h
  | setVideoSubscriptionsWithLayer receiverID ids layer =>
    obtain rfl := Option.some.inj hstep
    refine h.commit (Router.releases_setVideoSubscriptionsWithLayer receiverID ids layer)
      fun op hop => ?_
    rcases Router.setVideoSubscriptionsWithLayer_ops_cases hop with
      ⟨key, pub, peer, hpub, rfl⟩ | hremove
    · exact Or.inl ⟨key, pub, receiverID, peer, hpub, rfl⟩
    · exact Or.inr hremove
  | unpublish sourceID role =>
    obtain rfl := Option.some.inj hstep
    exact h.commit (Router.releases_removePublications _) fun op hop =>
      Or.inr (Router.mem_removePublicationsLocked_ops hop)
  | setPublicationActive sourceID role active =>
    obtain rfl := Option.some.inj hstep
    have := h.commit (d := ⟨m.router.setPublicationActive sourceID role active, [], []⟩)
      (Router.releases_setPublicationActive sourceID role active) (by simp)
    simpa [Plane.commit, Plane.setPublicationActive] using this
  | trackOp index ok =>
    obtain ⟨op, rest, -, hperm, rfl⟩ := trackOp_eq_some hstep
    have h' := h.perm hperm
    have hpair := List.pairwise_cons.mp h'.apart
    have hsub : ∀ other ∈ rest, other ∈ op :: rest := fun _ hmem => List.mem_cons_of_mem _ hmem
    have hrest : Relayed { m with ops := rest } := h'.withOps hsub hpair.2
    cases op with
    | subscribe pub id peer =>
      simp only [applyTrackOp]
      split
      · exact h'.addTrack List.mem_cons_self rfl hsub hpair.2 _
      · exact hrest
    | install pub id peer sender =>
      simp only [applyTrackOp]
      split
      · rename_i hvalid
        exact h'.install List.mem_cons_self hvalid hsub hpair.2 fun other hmem =>
          hpair.1 other hmem sender rfl
      · have := hrest.commit (d := ⟨m.router, [.remove peer sender], []⟩)
          ⟨fun _ pub hpub => ⟨pub, hpub, rfl, fun _ _ hs => hs⟩, rfl, fun _ => Or.inl rfl⟩
          (by simp)
        exact this
    | remove peer sender =>
      simp only [applyTrackOp]
      split
      · exact ⟨hrest.keyed, hrest.served, hrest.unique, hrest.injective, hrest.freshHolder,
          hrest.freshSender, hrest.freshInstall, hrest.apart, hrest.uninstalled, hrest.freshOp,
          hrest.current, hrest.freshPub⟩
      · exact hrest
  | readStop index =>
    obtain ⟨info, -, rfl⟩ := Option.map_eq_some_iff.mp hstep
    have := h.commit (d := m.router.removePublication info)
      (Router.releases_removePublications _) fun op hop =>
        Or.inr (Router.mem_removePublicationsLocked_ops hop)
    exact ⟨this.keyed, this.served, this.unique, this.injective, this.freshHolder,
      this.freshSender, this.freshInstall, this.apart, this.uninstalled, this.freshOp,
      this.current, this.freshPub⟩

theorem relayed_new : Relayed new := by
  refine ⟨?_, ?_, ?_, ?_, ?_, ?_, ?_, ?_, ?_, ?_, ?_, ?_⟩ <;> intros <;>
    simp_all [new, Router.new]

theorem relayed_of_reachable {m : Plane} (h : lts.Reachable (fun m l => m.swapsOnOnePeer l) m) :
    Relayed m :=
  Lts.Reachable.invariant_ofStep relayed_new (fun _ _ _ hi hok hstep => relayed_step hi hok hstep) h

/-- **Feedback reaches the live publisher**, in every run whose swaps move
targets only between tracks of one source peer. -/
theorem feedbackLive_of_swapsOnOnePeer {m : Plane}
    (h : lts.Reachable (fun m l => m.swapsOnOnePeer l) m) : m.FeedbackLive := by
  intro key pub id sender hpub hsender packets
  obtain ⟨holder, hrelay, -, hvalue⟩ := (relayed_of_reachable h).served key pub id sender hpub hsender
  refine ⟨_, by rw [relayRTCP, hrelay]; rfl, fun packet hmem ssrc hssrc => ?_⟩
  rw [← hvalue]
  exact mediaSSRC?_of_mem_route hmem hssrc

/-- A device change on one peer meets the condition: feedback goes to that
peer, about the new track. -/
theorem feedbackLive_deviceChange : ∃ m : Plane, m.FeedbackLive ∧
    m.relayRTCP ⟨2, 10⟩ [.pictureLossIndication 3 7] = some (20, [.pictureLossIndication 3 9]) := by
  obtain ⟨m, hm, hobs⟩ := Lts.exists_reachable_of_execWhen swapsOnOnePeer step new
    (twoParticipants ++ [.publish 2 .audio (some 20) (some (opusTrack 1 9)) none ∅])
    (fun m => m.relayRTCP ⟨2, 10⟩ [.pictureLossIndication 3 7])
    (some (20, [.pictureLossIndication 3 9])) (by decide)
  exact ⟨m, feedbackLive_of_swapsOnOnePeer hm, hobs⟩

/-- A resumed client re-publishes from peer 21: the sender moves to its
publication and the relay keeps writing to peer 20. -/
theorem not_feedbackLive_of_republish :
    ¬ ∀ m, lts.Reachable (fun m l => m.replaceTrackSucceeds l) m → m.FeedbackLive := by
  intro h
  obtain ⟨m, hm, hobs⟩ := Lts.exists_reachable_of_execWhen replaceTrackSucceeds step new
    (twoParticipants ++ [.publish 2 .audio (some 21) (some (opusTrack 1 9)) none ∅])
    (fun m => ((m.router.pubs.lookup ⟨2, .audio, none⟩).map fun pub =>
      (pub.senders.lookup 1, pub.info.source), m.relayRTCP ⟨2, 10⟩ []))
    (some (some ⟨2, 10⟩, 21), some (20, [])) (by decide)
  simp only [Prod.mk.injEq, Option.map_eq_some_iff] at hobs
  obtain ⟨⟨pub, hpub, hsender, hsource⟩, hrelay⟩ := hobs
  obtain ⟨routed, hlive, -⟩ := h m hm _ pub 1 _ hpub hsender []
  rw [hrelay, hsource] at hlive
  simp at hlive

end Plane

end SlowMeet.Media
