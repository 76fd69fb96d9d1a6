import Mathlib.Data.List.Range
import SlowMeet.Lib.Jsep
import SlowMeet.Lib.Lts

/-!
# Offer collisions between an impolite and a polite party

Two parties exchange offers and answers over a FIFO channel in each
direction, and each may make an offer at any time. The impolite party drops an
offer that arrives while its own is unanswered; the polite one rolls its own
offer back and answers. `up` leads to the impolite party and `down` to the
polite one; an answer carries the number of the offer it is for.

`Stage` says which configurations the two can be in together. It is inductive,
and with it answers meet the offer they were made for, and the offers dropped
by one party are those rolled back by the other.
-/

namespace SlowMeet.Lib

/-- A description on a channel. -/
inductive Sdp
  | offer (n : Nat)
  | answer (n : Nat)
  deriving DecidableEq, Repr

/-- Where the polite party's running operation stands. -/
inductive Task
  | idle
  /-- Making an offer. -/
  | creating
  | setting (n : Nat)
  | sending (n : Nat)
  /-- Handling an offer. -/
  | rolling (n : Nat)
  | rolled (n : Nat)
  | applying (n : Nat)
  | answering (n : Nat)
  | settingAnswer (n : Nat)
  | replying (n : Nat)
  /-- Handling an answer. -/
  | settling (n : Nat)
  | settled
  deriving DecidableEq, Repr

/-- The state of the two parties and of the channels between them. -/
@[ext] structure Glare where
  /-- The impolite party's offer that awaits its answer. -/
  flight : Option Nat
  /-- The offer the impolite party is about to answer. -/
  reply : Option Nat
  dropped : List Nat
  /-- Each answer applied: the own offer, and the one it was made for. -/
  impoliteApplied : List (Nat × Nat)
  up : List Sdp
  down : List Sdp
  peer : Signaling Nat
  task : Task
  /-- The polite party's offers so far. -/
  offers : Nat
  rolledBack : List Nat
  politeApplied : List (Nat × Nat)

namespace Glare

def new : Glare := ⟨none, none, [], [], [], [], .stable, .idle, 0, [], []⟩

/-- What a party, or the channel that feeds it, does next. -/
inductive Step (g : Glare) : Glare → Prop
  | offer (k : Nat) (hfree : g.flight = none) (hreply : g.reply = none) :
      Step g { g with flight := some k, down := g.down ++ [.offer k] }
  | drop {k n : Nat} {rest : List Sdp} (hup : g.up = .offer n :: rest)
      (hflight : g.flight = some k) :
      Step g { g with up := rest, dropped := g.dropped ++ [n] }
  | accept {n : Nat} {rest : List Sdp} (hup : g.up = .offer n :: rest) (hfree : g.flight = none)
      (hreply : g.reply = none) : Step g { g with up := rest, reply := some n }
  | answer {n : Nat} (hreply : g.reply = some n) :
      Step g { g with reply := none, down := g.down ++ [.answer n] }
  | settle {k n : Nat} {rest : List Sdp} (hup : g.up = .answer n :: rest)
      (hflight : g.flight = some k) : Step g { g with
        up := rest, flight := none, impoliteApplied := g.impoliteApplied ++ [(k, n)] }
  | stray {n : Nat} {rest : List Sdp} (hup : g.up = .answer n :: rest) (hfree : g.flight = none) :
      Step g { g with up := rest }
  | begin (htask : g.task = .idle) (hpeer : g.peer = .stable) : Step g { g with task := .creating }
  | create (htask : g.task = .creating) :
      Step g { g with task := .setting g.offers, offers := g.offers + 1 }
  | set {n : Nat} {peer : Signaling Nat} (htask : g.task = .setting n)
      (hpeer : g.peer.setLocalOffer n = some peer) : Step g { g with task := .sending n, peer }
  | send {n : Nat} (htask : g.task = .sending n) :
      Step g { g with task := .idle, up := g.up ++ [.offer n] }
  | collide {k n : Nat} {rest : List Sdp} (htask : g.task = .idle)
      (hdown : g.down = .offer k :: rest) (hpeer : g.peer = .haveLocalOffer n) :
      Step g { g with task := .rolling k, down := rest }
  | receive {k : Nat} {rest : List Sdp} (htask : g.task = .idle)
      (hdown : g.down = .offer k :: rest) (hpeer : g.peer.offered = false) :
      Step g { g with task := .applying k, down := rest }
  | rollback {k n : Nat} (htask : g.task = .rolling k) (hpeer : g.peer = .haveLocalOffer n) :
      Step g { g with task := .rolled k, peer := .stable, rolledBack := g.rolledBack ++ [n] }
  | proceed {k : Nat} (htask : g.task = .rolled k) : Step g { g with task := .applying k }
  | apply {k : Nat} {peer : Signaling Nat} (htask : g.task = .applying k)
      (hpeer : g.peer.setRemoteOffer k = some peer) : Step g { g with task := .answering k, peer }
  | createAnswer {k : Nat} (htask : g.task = .answering k) :
      Step g { g with task := .settingAnswer k }
  | setAnswer {k : Nat} {peer : Signaling Nat} (htask : g.task = .settingAnswer k)
      (hpeer : g.peer.setLocalAnswer = some peer) : Step g { g with task := .replying k, peer }
  | reply {k : Nat} (htask : g.task = .replying k) :
      Step g { g with task := .idle, up := g.up ++ [.answer k] }
  | take {n : Nat} {rest : List Sdp} (htask : g.task = .idle)
      (hdown : g.down = .answer n :: rest) (hpeer : g.peer.offered = true) :
      Step g { g with task := .settling n, down := rest }
  | ignore {n : Nat} {rest : List Sdp} (htask : g.task = .idle)
      (hdown : g.down = .answer n :: rest) (hpeer : g.peer.offered = false) :
      Step g { g with down := rest }
  | close {m n : Nat} (htask : g.task = .settling n) (hpeer : g.peer = .haveLocalOffer m) :
      Step g { g with
        task := .settled, peer := .stable, politeApplied := g.politeApplied ++ [(m, n)] }
  | finish (htask : g.task = .settled) : Step g { g with task := .idle }

/-! ## The joint configurations -/

/-- The offer on its way to the polite party, if it has not been read. -/
def awaited (g : Glare) : List Sdp := (g.flight.map Sdp.offer).toList

/-- The polite party's state while it handles the offer `k`, its own being
rolled back. -/
def Handles (k : Nat) : Task → Signaling Nat → Prop
  | .rolled n | .applying n => fun peer => n = k ∧ peer = .stable
  | .answering n | .settingAnswer n => fun peer => n = k ∧ peer = .haveRemoteOffer k
  | .replying n => fun peer => n = k ∧ peer = .stable
  | _ => fun _ => False

/-- The polite party's state while no offer of it is under way but the one in
`tail`, just sent. -/
inductive Own : Task → Signaling Nat → List Sdp → Prop
  | idle : Own .idle .stable []
  | creating : Own .creating .stable []
  | setting (n : Nat) : Own (.setting n) .stable []
  | sending (n : Nat) : Own (.sending n) (.haveLocalOffer n) []
  | sent (n : Nat) : Own .idle (.haveLocalOffer n) [.offer n]

/-- Which configurations the parties can be in together. -/
inductive Stage (g : Glare) : Prop
  /-- No offer of the polite party is with the impolite one. -/
  | own (hown : Own g.task g.peer g.up) (hdown : g.down = g.awaited) (hreply : g.reply = none)
      (hdropped : g.dropped = g.rolledBack)
  | accepted {n : Nat} (htask : g.task = .idle) (hpeer : g.peer = .haveLocalOffer n)
      (hup : g.up = []) (hdown : g.down = []) (hreply : g.reply = some n) (hflight : g.flight = none)
      (hdropped : g.dropped = g.rolledBack)
  | answered {n : Nat} (htask : g.task = .idle) (hpeer : g.peer = .haveLocalOffer n)
      (hup : g.up = []) (hdown : g.down = .answer n :: g.awaited) (hreply : g.reply = none)
      (hdropped : g.dropped = g.rolledBack)
  | settling {n : Nat} (htask : g.task = .settling n) (hpeer : g.peer = .haveLocalOffer n)
      (hup : g.up = []) (hdown : g.down = g.awaited) (hreply : g.reply = none)
      (hdropped : g.dropped = g.rolledBack)
  | settled (htask : g.task = .settled) (hpeer : g.peer = .stable)
      (hup : g.up = []) (hdown : g.down = g.awaited) (hreply : g.reply = none)
      (hdropped : g.dropped = g.rolledBack)
  /-- The impolite party dropped the offer the polite one still awaits. -/
  | refused {k n : Nat} (htask : g.task = .idle) (hpeer : g.peer = .haveLocalOffer n)
      (hup : g.up = []) (hdown : g.down = [.offer k]) (hreply : g.reply = none)
      (hflight : g.flight = some k) (hdropped : g.dropped = g.rolledBack ++ [n])
  | rolling {k n : Nat} {late : List Nat} (htask : g.task = .rolling k)
      (hpeer : g.peer = .haveLocalOffer n) (hup : g.up = late.map .offer) (hdown : g.down = [])
      (hreply : g.reply = none) (hflight : g.flight = some k)
      (hdropped : g.dropped ++ late = g.rolledBack ++ [n])
  | handling {k : Nat} {late : List Nat} (hhandles : Handles k g.task g.peer)
      (hup : g.up = late.map .offer) (hdown : g.down = []) (hreply : g.reply = none)
      (hflight : g.flight = some k) (hdropped : g.dropped ++ late = g.rolledBack)
  /-- The answer is on its way, behind offers to be dropped. -/
  | replied {k : Nat} {late : List Nat} {tail : List Sdp} (hown : Own g.task g.peer tail)
      (hup : g.up = late.map .offer ++ .answer k :: tail) (hdown : g.down = [])
      (hreply : g.reply = none) (hflight : g.flight = some k)
      (hdropped : g.dropped ++ late = g.rolledBack)

variable {g g' : Glare} {k n : Nat}

theorem awaited_of_free (hfree : g.flight = none) : g.awaited = [] := by
  simp [awaited, hfree]

theorem awaited_of_flight (hflight : g.flight = some k) : g.awaited = [.offer k] := by
  simp [awaited, hflight]

theorem awaited_ne_answer {rest : List Sdp} : g.awaited ≠ .answer n :: rest := by
  cases hflight : g.flight <;> simp [awaited, hflight]

theorem awaited_eq_offer {rest : List Sdp} (h : g.awaited = .offer k :: rest) :
    g.flight = some k ∧ rest = [] := by
  cases hflight : g.flight <;> simp_all [awaited]

theorem map_offer_eq_cons {late : List Nat} {rest : List Sdp}
    (h : late.map Sdp.offer = .offer n :: rest) :
    ∃ late', late = n :: late' ∧ rest = late'.map .offer := by
  cases late with
  | nil => cases h
  | cons m late' =>
    simp only [List.map_cons, List.cons.injEq, Sdp.offer.injEq] at h
    obtain ⟨rfl, rfl⟩ := h
    exact ⟨late', rfl, rfl⟩

theorem map_offer_ne_answer {late : List Nat} {rest : List Sdp} :
    late.map Sdp.offer ≠ .answer n :: rest := by
  cases late <;> simp

/-! ## The impolite party -/

theorem Stage.offer (hs : g.Stage) (k : Nat) (hfree : g.flight = none) (hreply : g.reply = none) :
    { g with flight := some k, down := g.down ++ [Sdp.offer k] }.Stage := by
  cases hs with
  | own hown hdown _ hdropped => exact .own hown (by simp [hdown, hfree, awaited]) hreply hdropped
  | answered htask hpeer hup hdown _ hdropped =>
    exact .answered htask hpeer hup (by simp [hdown, hfree, awaited]) hreply hdropped
  | settling htask hpeer hup hdown _ hdropped =>
    exact .settling htask hpeer hup (by simp [hdown, hfree, awaited]) hreply hdropped
  | settled htask hpeer hup hdown _ hdropped =>
    exact .settled htask hpeer hup (by simp [hdown, hfree, awaited]) hreply hdropped
  | accepted _ _ _ _ hreply' => simp [hreply] at hreply'
  | refused _ _ _ _ _ hflight | rolling _ _ _ _ _ hflight | handling _ _ _ _ hflight
  | replied _ _ _ _ hflight => simp [hfree] at hflight

theorem Stage.drop (hs : g.Stage) {rest : List Sdp} (hup : g.up = .offer n :: rest)
    (hflight : g.flight = some k) : { g with up := rest, dropped := g.dropped ++ [n] }.Stage := by
  cases hs with
  | own hown hdown hreply hdropped =>
    rw [hup] at hown
    generalize g.task = task at hown ⊢
    generalize g.peer = peer at hown ⊢
    cases hown
    exact .refused rfl rfl rfl (hdown.trans (awaited_of_flight hflight)) hreply hflight
      (by simp [hdropped])
  | rolling htask hpeer hup' hdown hreply hflight' hdropped =>
    obtain ⟨late, rfl, rfl⟩ := map_offer_eq_cons (hup'.symm.trans hup)
    exact .rolling htask hpeer rfl hdown hreply hflight' (by simpa using hdropped)
  | handling hhandles hup' hdown hreply hflight' hdropped =>
    obtain ⟨late, rfl, rfl⟩ := map_offer_eq_cons (hup'.symm.trans hup)
    exact .handling hhandles rfl hdown hreply hflight' (by simpa using hdropped)
  | @replied k' late tail hown hup' hdown hreply hflight' hdropped =>
    rw [hup] at hup'
    cases late with
    | nil => simp at hup'
    | cons m late =>
      simp only [List.map_cons, List.cons_append, List.cons.injEq, Sdp.offer.injEq] at hup'
      obtain ⟨rfl, rfl⟩ := hup'
      exact .replied hown rfl hdown hreply hflight' (by simpa using hdropped)
  | accepted _ _ hnil | answered _ _ hnil | settling _ _ hnil | settled _ _ hnil
  | refused _ _ hnil => simp [hup] at hnil

theorem Stage.accept (hs : g.Stage) {rest : List Sdp} (hup : g.up = .offer n :: rest)
    (hfree : g.flight = none) : { g with up := rest, reply := some n }.Stage := by
  cases hs with
  | own hown hdown hreply hdropped =>
    rw [hup] at hown
    generalize g.task = task at hown ⊢
    generalize g.peer = peer at hown ⊢
    cases hown
    exact .accepted rfl rfl rfl (hdown.trans (awaited_of_free hfree)) rfl hfree hdropped
  | accepted _ _ hnil | answered _ _ hnil | settling _ _ hnil | settled _ _ hnil =>
    simp [hup] at hnil
  | refused _ _ _ _ _ hflight | rolling _ _ _ _ _ hflight | handling _ _ _ _ hflight
  | replied _ _ _ _ hflight => simp [hfree] at hflight

theorem Stage.answer (hs : g.Stage) (hreply : g.reply = some n) :
    { g with reply := none, down := g.down ++ [Sdp.answer n] }.Stage := by
  cases hs with
  | accepted htask hpeer hup hdown hreply' hfree hdropped =>
    obtain rfl := Option.some.inj (hreply'.symm.trans hreply)
    exact .answered htask hpeer hup (by simp [hdown, awaited, hfree]) rfl hdropped
  | own _ _ hnone | answered _ _ _ _ hnone | settling _ _ _ _ hnone | settled _ _ _ _ hnone
  | refused _ _ _ _ hnone | rolling _ _ _ _ hnone | handling _ _ _ hnone
  | replied _ _ _ hnone => simp [hreply] at hnone

/-- The answer that reaches the impolite party is the one to its offer. -/
theorem Stage.settle (hs : g.Stage) {rest : List Sdp} (hup : g.up = .answer n :: rest) :
    g.flight = some n ∧ { g with
      up := rest, flight := none
      impoliteApplied := g.impoliteApplied ++ [(n, n)] }.Stage := by
  cases hs with
  | own hown _ _ _ =>
    rw [hup] at hown
    generalize g.task = task at hown
    generalize g.peer = peer at hown
    cases hown
  | @replied k' late tail hown hup' hdown hreply hflight hdropped =>
    rw [hup] at hup'
    cases late with
    | nil =>
      simp only [List.map_nil, List.nil_append, List.cons.injEq, Sdp.answer.injEq] at hup'
      obtain ⟨rfl, rfl⟩ := hup'
      exact ⟨hflight, .own hown (by simp [hdown, awaited]) hreply (by simpa using hdropped)⟩
    | cons m late => simp at hup'
  | rolling _ _ hup' | handling _ hup' => exact absurd (hup'.symm.trans hup) map_offer_ne_answer
  | accepted _ _ hnil | answered _ _ hnil | settling _ _ hnil | settled _ _ hnil
  | refused _ _ hnil => simp [hup] at hnil

/-! ## The polite party -/

/-- It is making an offer, or about to begin one. -/
def making : Task → Signaling Nat → Bool
  | .creating, _ | .setting _, _ | .sending _, _ => true
  | .idle, .stable => true
  | _, _ => false

theorem Handles.not_making {t : Task} {p : Signaling Nat} (h : Handles k t p) :
    making t p = false := by
  cases t <;> first | rfl | exact h.elim

/-- While it makes an offer, it knows nothing of the impolite party. -/
theorem Stage.make (hs : g.Stage) (task : Task) (peer : Signaling Nat) (new : List Sdp)
    (hmaking : making g.task g.peer = true)
    (hstep : ∀ tail, Own g.task g.peer tail → Own task peer (tail ++ new)) :
    { g with task, peer, up := g.up ++ new }.Stage := by
  cases hs with
  | own hown hdown hreply hdropped => exact .own (hstep _ hown) hdown hreply hdropped
  | @replied k' late tail hown hup hdown hreply hflight hdropped =>
    have hup' : g.up ++ new = late.map Sdp.offer ++ .answer k' :: (tail ++ new) := by simp [hup]
    exact .replied (hstep _ hown) hup' hdown hreply hflight hdropped
  | handling hhandles _ _ _ _ _ => simp [hhandles.not_making] at hmaking
  | accepted htask hpeer | answered htask hpeer | refused htask hpeer | settling htask hpeer
  | rolling htask hpeer | settled htask hpeer => simp [htask, hpeer, making] at hmaking

/-- The signalling state an offer in the making rests on. -/
theorem Stage.own_of_making (hs : g.Stage) (hmaking : making g.task g.peer = true) :
    ∃ tail, Own g.task g.peer tail := by
  cases hs with
  | own hown | replied hown => exact ⟨_, hown⟩
  | handling hhandles _ _ _ _ _ => simp [hhandles.not_making] at hmaking
  | accepted htask hpeer | answered htask hpeer | refused htask hpeer | settling htask hpeer
  | rolling htask hpeer | settled htask hpeer => simp [htask, hpeer, making] at hmaking

theorem Own.stable_of_creating {p : Signaling Nat} {tail : List Sdp} (h : Own .creating p tail) :
    p = .stable := by
  cases h
  rfl

theorem Stage.begin (hs : g.Stage) (htask : g.task = .idle) (hpeer : g.peer = .stable) :
    { g with task := .creating }.Stage := by
  have hmake := hs.make .creating .stable [] (by rw [htask, hpeer]; rfl) fun tail hown => by
    rw [htask, hpeer] at hown
    cases hown
    exact .creating
  simpa [← hpeer] using hmake

theorem Stage.stable_of_creating (hs : g.Stage) (htask : g.task = .creating) :
    g.peer = .stable := by
  obtain ⟨tail, hown⟩ := hs.own_of_making (by rw [htask]; rfl)
  rw [htask] at hown
  exact hown.stable_of_creating

theorem Stage.create (hs : g.Stage) (htask : g.task = .creating) (n : Nat) :
    { g with task := .setting n }.Stage := by
  have hpeer := hs.stable_of_creating htask
  have hmake := hs.make (.setting n) .stable [] (by rw [htask]; rfl) fun tail hown => by
    rw [htask, hpeer] at hown
    cases hown
    exact .setting n
  simpa [← hpeer] using hmake

theorem Stage.stable_of_setting (hs : g.Stage) (htask : g.task = .setting n) :
    g.peer = .stable := by
  obtain ⟨tail, hown⟩ := hs.own_of_making (by rw [htask]; rfl)
  rw [htask] at hown
  generalize g.peer = peer at hown
  cases hown
  rfl

theorem Stage.set (hs : g.Stage) (htask : g.task = .setting n) :
    { g with task := .sending n, peer := .haveLocalOffer n }.Stage := by
  have hpeer := hs.stable_of_setting htask
  have hmake := hs.make (.sending n) (.haveLocalOffer n) [] (by rw [htask]; rfl) fun tail hown => by
    rw [htask, hpeer] at hown
    cases hown
    exact .sending n
  simpa using hmake

theorem Stage.send (hs : g.Stage) (htask : g.task = .sending n) :
    g.peer = .haveLocalOffer n ∧ { g with task := .idle, up := g.up ++ [Sdp.offer n] }.Stage := by
  have hmaking : making g.task g.peer = true := by rw [htask]; rfl
  have hpeer : g.peer = .haveLocalOffer n := by
    obtain ⟨tail, hown⟩ := hs.own_of_making hmaking
    rw [htask] at hown
    generalize g.peer = peer at hown
    cases hown
    rfl
  have hmake := hs.make .idle (.haveLocalOffer n) [.offer n] hmaking fun tail hown => by
    rw [htask, hpeer] at hown
    cases hown
    exact .sent n
  exact ⟨hpeer, by simpa [← hpeer] using hmake⟩

/-- A colliding offer arrives: the own one is with the impolite party, or was
dropped there. -/
theorem Stage.collide (hs : g.Stage) {rest : List Sdp} (htask : g.task = .idle)
    (hdown : g.down = .offer k :: rest) (hpeer : g.peer = .haveLocalOffer n) :
    { g with task := .rolling k, down := rest }.Stage := by
  cases hs with
  | own hown hdown' hreply hdropped =>
    obtain ⟨hflight, rfl⟩ := awaited_eq_offer (hdown'.symm.trans hdown)
    have hup : g.up = [n].map Sdp.offer := by
      rw [htask, hpeer] at hown
      generalize g.up = up at hown
      cases hown
      rfl
    exact .rolling rfl hpeer hup rfl hreply hflight (by simp [hdropped])
  | refused _ hpeer' hup hdown' hreply hflight hdropped =>
    have hrest := hdown'.symm.trans hdown
    simp only [List.cons.injEq, Sdp.offer.injEq] at hrest
    obtain ⟨rfl, rfl⟩ := hrest
    have hup' : g.up = [].map Sdp.offer := hup
    exact .rolling rfl hpeer' hup' rfl hreply hflight (by simp [hdropped])
  | answered _ _ _ hdown' => simp [hdown'] at hdown
  | accepted _ _ _ hnil | rolling _ _ _ hnil | handling _ _ hnil | replied _ _ hnil =>
    simp [hnil] at hdown
  | settling htask' | settled htask' => simp [htask] at htask'

theorem Stage.receive (hs : g.Stage) {rest : List Sdp} (htask : g.task = .idle)
    (hdown : g.down = .offer k :: rest) (hpeer : g.peer.offered = false) :
    g.peer = .stable ∧ { g with task := .applying k, down := rest }.Stage := by
  cases hs with
  | own hown hdown' hreply hdropped =>
    obtain ⟨hflight, rfl⟩ := awaited_eq_offer (hdown'.symm.trans hdown)
    have hidle : g.peer = .stable ∧ g.up = [].map Sdp.offer := by
      rw [htask] at hown
      generalize g.peer = peer at hown hpeer
      generalize g.up = up at hown
      cases hown with
      | idle => exact ⟨rfl, rfl⟩
      | sent n => cases hpeer
    exact ⟨hidle.1, .handling ⟨rfl, hidle.1⟩ hidle.2 rfl hreply hflight (by simp [hdropped])⟩
  | answered _ hpeer' | accepted _ hpeer' | refused _ hpeer' | rolling _ hpeer'
  | settling _ hpeer' => simp [hpeer', Signaling.offered] at hpeer
  | handling _ _ hnil | replied _ _ hnil => simp [hnil] at hdown
  | settled htask' => simp [htask] at htask'

theorem Stage.rollback (hs : g.Stage) (htask : g.task = .rolling k) :
    ∃ n, g.peer = .haveLocalOffer n ∧
      { g with task := .rolled k, peer := .stable, rolledBack := g.rolledBack ++ [n] }.Stage := by
  cases hs with
  | @rolling k' n late htask' hpeer hup hdown hreply hflight hdropped =>
    obtain rfl := Task.rolling.inj (htask'.symm.trans htask)
    exact ⟨n, hpeer, .handling ⟨rfl, rfl⟩ hup hdown hreply hflight hdropped⟩
  | own hown | replied hown =>
    rw [htask] at hown
    cases hown
  | handling hhandles =>
    rw [htask] at hhandles
    exact hhandles.elim
  | answered htask' | accepted htask' | refused htask' | settling htask' | settled htask' =>
    simp [htask] at htask'

/-- It is handling an offer, its own rolled back. -/
def busy : Task → Bool
  | .rolled _ | .applying _ | .answering _ | .settingAnswer _ | .replying _ => true
  | _ => false

theorem Own.not_busy {t : Task} {p : Signaling Nat} {tail : List Sdp} (h : Own t p tail) :
    busy t = false := by
  cases h <;> rfl

/-- What is known while it handles an offer. -/
theorem Stage.of_busy (hs : g.Stage) (h : busy g.task = true) :
    ∃ k late, Handles k g.task g.peer ∧ g.up = late.map Sdp.offer ∧ g.down = [] ∧
      g.reply = none ∧ g.flight = some k ∧ g.dropped ++ late = g.rolledBack := by
  cases hs with
  | @handling k late hhandles hup hdown hreply hflight hdropped =>
    exact ⟨k, late, hhandles, hup, hdown, hreply, hflight, hdropped⟩
  | own hown | replied hown => simp [hown.not_busy] at h
  | answered htask | accepted htask | refused htask | settling htask | settled htask
  | rolling htask => simp [htask, busy] at h

theorem Stage.busy_of_remote (hs : g.Stage) (hpeer : g.peer = .haveRemoteOffer k) :
    busy g.task = true := by
  cases hs with
  | own hown | replied hown =>
    rw [hpeer] at hown
    generalize g.task = task at hown
    cases hown
  | handling hhandles =>
    rw [hpeer] at hhandles
    cases htask : g.task <;> simp_all [Handles, busy]
  | accepted _ hpeer' | answered _ hpeer' | settling _ hpeer' | settled _ hpeer'
  | refused _ hpeer' | rolling _ hpeer' => simp [hpeer] at hpeer'

theorem Stage.proceed (hs : g.Stage) (htask : g.task = .rolled k) :
    g.peer = .stable ∧ { g with task := .applying k }.Stage := by
  obtain ⟨k', late, hhandles, hup, hdown, hreply, hflight, hdropped⟩ :=
    hs.of_busy (by rw [htask]; rfl)
  rw [htask] at hhandles
  obtain ⟨rfl, hpeer⟩ := hhandles
  exact ⟨hpeer, .handling ⟨rfl, hpeer⟩ hup hdown hreply hflight hdropped⟩

theorem Stage.apply (hs : g.Stage) (htask : g.task = .applying k) :
    g.peer = .stable ∧ { g with task := .answering k, peer := .haveRemoteOffer k }.Stage := by
  obtain ⟨k', late, hhandles, hup, hdown, hreply, hflight, hdropped⟩ :=
    hs.of_busy (by rw [htask]; rfl)
  rw [htask] at hhandles
  obtain ⟨rfl, hpeer⟩ := hhandles
  exact ⟨hpeer, .handling ⟨rfl, rfl⟩ hup hdown hreply hflight hdropped⟩

theorem Stage.createAnswer (hs : g.Stage) (htask : g.task = .answering k) :
    { g with task := .settingAnswer k }.Stage := by
  obtain ⟨k', late, hhandles, hup, hdown, hreply, hflight, hdropped⟩ :=
    hs.of_busy (by rw [htask]; rfl)
  rw [htask] at hhandles
  obtain ⟨rfl, hpeer⟩ := hhandles
  exact .handling ⟨rfl, hpeer⟩ hup hdown hreply hflight hdropped

theorem Stage.setAnswer (hs : g.Stage) (htask : g.task = .settingAnswer k) :
    g.peer = .haveRemoteOffer k ∧ { g with task := .replying k, peer := .stable }.Stage := by
  obtain ⟨k', late, hhandles, hup, hdown, hreply, hflight, hdropped⟩ :=
    hs.of_busy (by rw [htask]; rfl)
  rw [htask] at hhandles
  obtain ⟨rfl, hpeer⟩ := hhandles
  exact ⟨hpeer, .handling ⟨rfl, rfl⟩ hup hdown hreply hflight hdropped⟩

theorem Stage.reply (hs : g.Stage) (htask : g.task = .replying k) :
    g.peer = .stable ∧ { g with task := .idle, up := g.up ++ [Sdp.answer k] }.Stage := by
  obtain ⟨k', late, hhandles, hup, hdown, hreply, hflight, hdropped⟩ :=
    hs.of_busy (by rw [htask]; rfl)
  rw [htask] at hhandles
  obtain ⟨rfl, hpeer⟩ := hhandles
  have hown : Own .idle g.peer [] := by
    rw [hpeer]
    exact .idle
  exact ⟨hpeer, .replied hown (by rw [hup]) hdown hreply hflight hdropped⟩

/-- The answer that reaches the polite party is the one to its offer. -/
theorem Stage.take (hs : g.Stage) {rest : List Sdp} (htask : g.task = .idle)
    (hdown : g.down = .answer n :: rest) :
    g.peer = .haveLocalOffer n ∧ { g with task := .settling n, down := rest }.Stage := by
  cases hs with
  | answered _ hpeer hup hdown' hreply hdropped =>
    have hrest := hdown'.symm.trans hdown
    simp only [List.cons.injEq, Sdp.answer.injEq] at hrest
    obtain ⟨rfl, rfl⟩ := hrest
    exact ⟨hpeer, .settling rfl hpeer hup rfl hreply hdropped⟩
  | own _ hdown' => exact absurd (hdown'.symm.trans hdown) awaited_ne_answer
  | refused _ _ _ hdown' => simp [hdown'] at hdown
  | accepted _ _ _ hnil | rolling _ _ _ hnil | handling _ _ hnil | replied _ _ hnil =>
    simp [hnil] at hdown
  | settling htask' | settled htask' => simp [htask] at htask'

theorem Stage.close (hs : g.Stage) (htask : g.task = .settling n) :
    g.peer = .haveLocalOffer n ∧ { g with task := .settled, peer := .stable }.Stage := by
  cases hs with
  | settling htask' hpeer hup hdown hreply hdropped =>
    obtain rfl := Task.settling.inj (htask'.symm.trans htask)
    exact ⟨hpeer, .settled rfl rfl hup hdown hreply hdropped⟩
  | own hown | replied hown =>
    rw [htask] at hown
    cases hown
  | handling hhandles =>
    rw [htask] at hhandles
    exact hhandles.elim
  | answered htask' | accepted htask' | refused htask' | rolling htask' | settled htask' =>
    simp [htask] at htask'

theorem Stage.finish (hs : g.Stage) (htask : g.task = .settled) :
    g.peer = .stable ∧ { g with task := .idle }.Stage := by
  cases hs with
  | settled _ hpeer hup hdown hreply hdropped =>
    have hown : Own .idle g.peer g.up := by
      rw [hpeer, hup]
      exact .idle
    exact ⟨hpeer, .own hown hdown hreply hdropped⟩
  | own hown | replied hown =>
    rw [htask] at hown
    cases hown
  | handling hhandles =>
    rw [htask] at hhandles
    exact hhandles.elim
  | answered htask' | accepted htask' | refused htask' | rolling htask' | settling htask' =>
    simp [htask] at htask'

/-! ## Every run -/

/-- The offer the polite party is making or awaits an answer to. -/
def current : Task → Signaling Nat → Option Nat
  | .setting n, _ => some n
  | _, peer => peer.localOffer

/-- Answers meet their offers, and each offer of the polite party is answered,
rolled back, or the current one: one of these, once. -/
structure Paired (g : Glare) : Prop where
  impolite : ∀ e ∈ g.impoliteApplied, e.1 = e.2
  polite : ∀ e ∈ g.politeApplied, e.1 = e.2
  fate : (g.politeApplied.map Prod.fst ++ g.rolledBack ++
    (current g.task g.peer).toList).Perm (List.range g.offers)

/-- An offer that was answered is none that was rolled back. -/
theorem Paired.not_rolledBack (hp : g.Paired) {e : Nat × Nat} (he : e ∈ g.politeApplied) :
    e.1 ∉ g.rolledBack := by
  have hnodup : (g.politeApplied.map Prod.fst ++ g.rolledBack ++
      (current g.task g.peer).toList).Nodup := hp.fate.nodup_iff.mpr List.nodup_range
  have hapart := (List.nodup_append.mp (List.nodup_append.mp hnodup).1).2.2
  exact fun hback => hapart e.1 (List.mem_map_of_mem he) e.1 hback rfl

/-- Which answers were applied and which offers made is not part of the stage. -/
theorem Stage.ledger (hs : g.Stage) (offers : Nat) (politeApplied : List (Nat × Nat)) :
    { g with offers, politeApplied }.Stage := by
  cases hs with
  | own h1 h2 h3 h4 => exact .own h1 h2 h3 h4
  | accepted h1 h2 h3 h4 h5 h6 h7 => exact .accepted h1 h2 h3 h4 h5 h6 h7
  | answered h1 h2 h3 h4 h5 h6 => exact .answered h1 h2 h3 h4 h5 h6
  | settling h1 h2 h3 h4 h5 h6 => exact .settling h1 h2 h3 h4 h5 h6
  | settled h1 h2 h3 h4 h5 h6 => exact .settled h1 h2 h3 h4 h5 h6
  | refused h1 h2 h3 h4 h5 h6 h7 => exact .refused h1 h2 h3 h4 h5 h6 h7
  | rolling h1 h2 h3 h4 h5 h6 h7 => exact .rolling h1 h2 h3 h4 h5 h6 h7
  | handling h1 h2 h3 h4 h5 h6 => exact .handling h1 h2 h3 h4 h5 h6
  | replied h1 h2 h3 h4 h5 h6 => exact .replied h1 h2 h3 h4 h5 h6

theorem Step.stage (h : Step g g') (hs : g.Stage) : g'.Stage := by
  cases h with
  | offer k hfree hreply => exact hs.offer k hfree hreply
  | drop hup hflight => exact hs.drop hup hflight
  | accept hup hfree _ => exact hs.accept hup hfree
  | answer hreply => exact hs.answer hreply
  | settle hup hflight =>
    obtain ⟨hflight', hs'⟩ := hs.settle hup
    obtain rfl := Option.some.inj (hflight.symm.trans hflight')
    exact hs'
  | stray hup hfree =>
    have hflight := (hs.settle hup).1
    rw [hfree] at hflight
    cases hflight
  | begin htask hpeer => exact hs.begin htask hpeer
  | create htask => exact (hs.create htask g.offers).ledger _ g.politeApplied
  | set htask hpeer =>
    obtain rfl := Signaling.setLocalOffer_eq_some hpeer
    exact hs.set htask
  | send htask => exact (hs.send htask).2
  | collide htask hdown hpeer => exact hs.collide htask hdown hpeer
  | receive htask hdown hpeer => exact (hs.receive htask hdown hpeer).2
  | rollback htask hpeer =>
    obtain ⟨n, hpeer', hs'⟩ := hs.rollback htask
    obtain rfl := Signaling.haveLocalOffer.inj (hpeer.symm.trans hpeer')
    exact hs'
  | proceed htask => exact (hs.proceed htask).2
  | apply htask hpeer =>
    obtain rfl := Signaling.setRemoteOffer_eq_some hpeer
    exact (hs.apply htask).2
  | createAnswer htask => exact hs.createAnswer htask
  | setAnswer htask hpeer =>
    obtain rfl := Signaling.setLocalAnswer_eq_some hpeer
    exact (hs.setAnswer htask).2
  | reply htask => exact (hs.reply htask).2
  | take htask hdown _ => exact (hs.take htask hdown).2
  | ignore htask hdown hpeer => simp [(hs.take htask hdown).1, Signaling.offered] at hpeer
  | close htask hpeer => exact (hs.close htask).2.ledger g.offers _
  | finish htask => exact (hs.finish htask).2

theorem Step.paired (h : Step g g') (hs : g.Stage) (hp : g.Paired) : g'.Paired := by
  obtain ⟨himpolite, hpolite, hfate⟩ := hp
  cases h with
  | offer | drop | accept | answer | stray | ignore => exact ⟨himpolite, hpolite, hfate⟩
  | settle hup hflight =>
    obtain ⟨hflight', -⟩ := hs.settle hup
    obtain rfl := Option.some.inj (hflight.symm.trans hflight')
    refine ⟨fun e he => ?_, hpolite, hfate⟩
    simp only [List.mem_append, List.mem_singleton] at he
    rcases he with he | rfl
    · exact himpolite e he
    · rfl
  | begin htask _ | send htask | collide htask _ _ | receive htask _ _ | proceed htask
  | createAnswer htask | reply htask | take htask _ _ | finish htask =>
    -- the offer under way stays under way
    refine ⟨himpolite, hpolite, ?_⟩
    rw [htask] at hfate
    exact hfate
  | create htask =>
    have hpeer := hs.stable_of_creating htask
    refine ⟨himpolite, hpolite, ?_⟩
    rw [htask, hpeer] at hfate
    show (g.politeApplied.map Prod.fst ++ g.rolledBack ++ [g.offers]).Perm (List.range (g.offers + 1))
    rw [List.range_succ]
    simpa [current, Signaling.localOffer] using hfate.append_right [g.offers]
  | set htask hpeer =>
    obtain rfl := Signaling.setLocalOffer_eq_some hpeer
    refine ⟨himpolite, hpolite, ?_⟩
    rw [htask] at hfate
    exact hfate
  | rollback htask hpeer =>
    refine ⟨himpolite, hpolite, ?_⟩
    rw [htask, hpeer] at hfate
    simpa [current, Signaling.localOffer] using hfate
  | apply htask hpeer =>
    obtain rfl := Signaling.setRemoteOffer_eq_some hpeer
    refine ⟨himpolite, hpolite, ?_⟩
    rw [htask, (hs.apply htask).1] at hfate
    exact hfate
  | setAnswer htask hpeer =>
    obtain rfl := Signaling.setLocalAnswer_eq_some hpeer
    refine ⟨himpolite, hpolite, ?_⟩
    rw [htask, (hs.setAnswer htask).1] at hfate
    exact hfate
  | @close m n htask hpeer =>
    obtain rfl := Signaling.haveLocalOffer.inj (hpeer.symm.trans (hs.close htask).1)
    refine ⟨himpolite, fun e he => ?_, ?_⟩
    · simp only [List.mem_append, List.mem_singleton] at he
      rcases he with he | rfl
      · exact hpolite e he
      · rfl
    · rw [htask, hpeer] at hfate
      show ((g.politeApplied ++ [(m, m)]).map Prod.fst ++ g.rolledBack ++ []).Perm _
      rw [List.map_append, List.append_nil, List.append_assoc]
      rw [List.append_assoc] at hfate
      exact (List.perm_append_comm.append_left _).trans hfate

/-- The two parties and their channels, with nothing under way at first. -/
def lts : Lts Glare Unit where
  init g := g = new
  tr g _ g' := Step g g'

theorem stage_and_paired_of_reachable (hr : lts.Reachable Lts.Any g) : g.Stage ∧ g.Paired := by
  refine hr.invariant (I := fun g => g.Stage ∧ g.Paired) (fun g hg => ?_)
    fun g _ g' ⟨hs, hp⟩ _ h => ⟨h.stage hs, h.paired hs hp⟩
  obtain rfl : g = new := hg
  exact ⟨.own .idle rfl rfl rfl, fun e he => (by cases he), fun e he => (by cases he), .refl _⟩

/-- **Of two colliding offers the polite party's is discarded**: what one
party drops and what the other rolls back differ by offers that are still on
their way up, and by the current one. -/
theorem Stage.discarded (hs : g.Stage) : ∃ late own : List Nat,
    g.dropped ++ late = g.rolledBack ++ own ∧ (∀ n ∈ late, .offer n ∈ g.up) ∧
      ∀ n ∈ own, g.peer.localOffer = some n := by
  have hmem : ∀ (late : List Nat) (rest : List Sdp), ∀ n ∈ late,
      Sdp.offer n ∈ late.map Sdp.offer ++ rest := by
    intro late rest n hn
    exact List.mem_append_left _ (List.mem_map_of_mem hn)
  cases hs with
  | own _ _ _ hdropped | accepted _ _ _ _ _ _ hdropped | answered _ _ _ _ _ hdropped
  | settling _ _ _ _ _ hdropped | settled _ _ _ _ _ hdropped =>
    exact ⟨[], [], by rw [hdropped], by simp, by simp⟩
  | @refused k n _ hpeer _ _ _ _ hdropped =>
    exact ⟨[], [n], by rw [hdropped, List.append_nil], by simp, by simp [hpeer, Signaling.localOffer]⟩
  | @rolling k n late _ hpeer hup _ _ _ hdropped =>
    refine ⟨late, [n], hdropped, fun m hm => ?_, by simp [hpeer, Signaling.localOffer]⟩
    simpa [hup] using hmem late [] m hm
  | @handling k late _ hup _ _ _ hdropped =>
    refine ⟨late, [], by rw [hdropped, List.append_nil], fun m hm => ?_, by simp⟩
    simpa [hup] using hmem late [] m hm
  | @replied k late tail _ hup _ _ _ hdropped =>
    refine ⟨late, [], by rw [hdropped, List.append_nil], fun m hm => ?_, by simp⟩
    rw [hup]
    exact hmem late _ m hm

/-- **At rest** both parties are stable, and agree on what was discarded. -/
theorem Stage.atRest (hs : g.Stage) (hup : g.up = []) (hdown : g.down = []) (hreply : g.reply = none)
    (htask : g.task = .idle) :
    g.flight = none ∧ g.peer = .stable ∧ g.dropped = g.rolledBack := by
  cases hs with
  | own hown hdown' _ hdropped =>
    have hflight : g.flight = none := by
      cases hflight : g.flight with
      | none => rfl
      | some k =>
        rw [awaited_of_flight hflight, hdown] at hdown'
        cases hdown'
    have hpeer : g.peer = .stable := by
      rw [htask, hup] at hown
      generalize g.peer = peer at hown
      cases hown
      rfl
    exact ⟨hflight, hpeer, hdropped⟩
  | accepted _ _ _ _ hsome => simp [hreply] at hsome
  | answered _ _ _ hdown' | refused _ _ _ hdown' => simp [hdown] at hdown'
  | settling htask' | settled htask' | rolling htask' => simp [htask] at htask'
  | handling hhandles =>
    rw [htask] at hhandles
    exact hhandles.elim
  | replied _ hup' => simp [hup] at hup'

end Glare

end SlowMeet.Lib
