import Mathlib.Logic.Basic

/-!
# Signalling states of a peer connection

The offer/answer state machine that both ends of a peer connection run: what
`setLocalDescription` and `setRemoteDescription` do to the signalling state,
and in which states they are legal. A call that is not legal is rejected and
changes nothing.

`α` is what identifies an offer. An answer is not checked against the offer
that awaits it, so that pairing the two is up to the application.
-/

namespace SlowMeet.Lib

universe u

/-- A signalling state, with the offer that awaits its answer. -/
inductive Signaling (α : Type u)
  | stable
  | haveLocalOffer (offer : α)
  | haveRemoteOffer (offer : α)
  deriving DecidableEq, Repr

namespace Signaling

variable {α : Type u} {s t : Signaling α} {offer : α}

def setLocalOffer (s : Signaling α) (offer : α) : Option (Signaling α) :=
  match s with
  | stable | haveLocalOffer _ => some (haveLocalOffer offer)
  | haveRemoteOffer _ => none

def setRemoteOffer (s : Signaling α) (offer : α) : Option (Signaling α) :=
  match s with
  | stable | haveRemoteOffer _ => some (haveRemoteOffer offer)
  | haveLocalOffer _ => none

def setLocalAnswer : Signaling α → Option (Signaling α)
  | haveRemoteOffer _ => some stable
  | stable | haveLocalOffer _ => none

def setRemoteAnswer : Signaling α → Option (Signaling α)
  | haveLocalOffer _ => some stable
  | stable | haveRemoteOffer _ => none

/-- Discard the offer that awaits its answer. -/
def rollback : Signaling α → Option (Signaling α)
  | haveLocalOffer _ | haveRemoteOffer _ => some stable
  | stable => none

/-- An own offer awaits its answer. -/
def offered : Signaling α → Bool
  | haveLocalOffer _ => true
  | stable | haveRemoteOffer _ => false

/-- The own offer that awaits its answer. -/
def localOffer : Signaling α → Option α
  | haveLocalOffer offer => some offer
  | stable | haveRemoteOffer _ => none

@[simp] theorem setLocalOffer_stable : (stable : Signaling α).setLocalOffer offer =
    some (haveLocalOffer offer) := rfl

@[simp] theorem setRemoteOffer_stable : (stable : Signaling α).setRemoteOffer offer =
    some (haveRemoteOffer offer) := rfl

@[simp] theorem setLocalAnswer_haveRemoteOffer :
    (haveRemoteOffer offer).setLocalAnswer = some stable := rfl

@[simp] theorem setRemoteAnswer_haveLocalOffer :
    (haveLocalOffer offer).setRemoteAnswer = some stable := rfl

@[simp] theorem rollback_haveLocalOffer : (haveLocalOffer offer).rollback = some stable := rfl

theorem offered_eq_true : s.offered = true ↔ ∃ offer, s = haveLocalOffer offer := by
  cases s <;> simp [offered]

theorem localOffer_eq_some : s.localOffer = some offer ↔ s = haveLocalOffer offer := by
  cases s <;> simp [localOffer]

theorem setLocalOffer_eq_some (h : s.setLocalOffer offer = some t) : t = haveLocalOffer offer := by
  cases s <;> simp_all [setLocalOffer]

theorem setRemoteOffer_eq_some (h : s.setRemoteOffer offer = some t) :
    t = haveRemoteOffer offer := by
  cases s <;> simp_all [setRemoteOffer]

theorem setLocalAnswer_eq_some (h : s.setLocalAnswer = some t) : t = stable := by
  cases s <;> simp_all [setLocalAnswer]

theorem setRemoteAnswer_eq_some (h : s.setRemoteAnswer = some t) : t = stable := by
  cases s <;> simp_all [setRemoteAnswer]

end Signaling

end SlowMeet.Lib
