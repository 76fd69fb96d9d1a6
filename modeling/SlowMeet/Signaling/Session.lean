import SlowMeet.Lib.Lts
import SlowMeet.Signaling.State

/-!
# Sessions

What the hub does to participants, without the rest of it: who holds a
meeting slot, whose reconnect token is live, who waits for whom, and whom
each client's roster shows. A slot passes between connections, pending
entries, expiries and `Close`; `slot` says where it is, and `rank` counts
the reclaims that lead to a connection. Neither is in the hub, which is
proved to simulate this protocol.
-/

namespace SlowMeet.Signaling

/-- How far a connection has come with its participant. -/
inductive Stage
  /-- It has none. -/
  | outside
  /-- `Meeting.Join` has returned. -/
  | entering (p : ParticipantID)
  /-- It has reclaimed a participant and waits for `previous` to finish. -/
  | waiting (previous : ClientId)
  | joining
  /-- Admitted, and not yet announced. -/
  | announcing
  | settled
  | closing
  /-- No longer a room member. -/
  | ending
  /-- Between the two decisions of `disconnect`. -/
  | parting (d : Departure)
  /-- About to leave the meeting. -/
  | removing
  /-- The room has not been told yet. -/
  | casting
  /-- Its pending entry stands; `clients` are still to be told. -/
  | notifying (clients : Finset ClientId)
  | over

/-- Who is responsible for a meeting slot. -/
inductive Slot
  | free
  | held (c : ClientId)
  | graced (c : ClientId)
  | reaping (c : ClientId)
  | closing

@[ext]
structure Life where
  stage : Stage
  pid : Option ParticipantID
  resumed : Bool
  joined : Bool
  announced : Bool
  intentional : Bool
  takeover : Bool
  /-- Its grace timer has taken the pending entry and not yet left. -/
  reaping : Bool
  /-- Its roster. -/
  shown : ParticipantID → Bool

@[ext]
structure Session where
  life : ClientId → Life
  /-- Who holds a slot of the meeting. -/
  ids : ParticipantID → Bool
  active : ParticipantID → Option ClientId
  /-- The client of the pending entry, and whether its timer is armed. -/
  pending : ParticipantID → Option (ClientId × Bool)
  closingIDs : Finset ParticipantID
  members : Finset ClientId
  closed : Bool
  timeout : Nat
  next : Nat
  admissions : Nat
  joinedAt : ClientId → Nat
  admittedAt : ClientId → Nat
  rank : ClientId → Nat
  slot : ParticipantID → Slot

namespace Session

/-- The events of the protocol. -/
inductive Event
  /-- Nothing but draws of identifiers. -/
  | draw
  | join (c : ClientId)
  | enter (c : ClientId)
  | resume (c : ClientId) (p : ParticipantID)
  | takeover (c : ClientId) (p : ParticipantID)
  | proceed (c : ClientId)
  | admission (c : ClientId) (ok : Bool)
  | announce (c : ClientId)
  | fail (c : ClientId) (intentional : Bool)
  | depart (c : ClientId)
  | part (c : ClientId)
  | settle (c : ClientId)
  | leave (c : ClientId)
  | castLeft (c : ClientId)
  | notify (c d : ClientId)
  | arm (c : ClientId)
  | quit (c : ClientId)
  | expire (c : ClientId)
  | reapLeave (c : ClientId)
  | close
  | closeLeave (p : ParticipantID)

def setLife (s : Session) (c : ClientId) (l : Life) : Session :=
  { s with life := Function.update s.life c l }

def setStage (s : Session) (c : ClientId) (stage : Stage) : Session :=
  s.setLife c { s.life c with stage := stage }

/-- The lives once each client in `told` sees `p` as `shown` says. -/
def tell (s : Session) (told : ClientId → Prop) [DecidablePred told] (p : ParticipantID)
    (shown : Bool) (d : ClientId) : Life :=
  if told d then { s.life d with shown := Function.update (s.life d).shown p shown } else s.life d

/-- Who hears the broadcast that ends the join of `c`. -/
def Hears (s : Session) (c d : ClientId) : Prop :=
  d ∈ s.members ∧ d ≠ c ∧ (s.life c).takeover = false

instance (s : Session) (c : ClientId) : DecidablePred (s.Hears c) :=
  fun d => inferInstanceAs (Decidable (d ∈ s.members ∧ d ≠ c ∧ (s.life c).takeover = false))

/-- The first decision of `disconnect`, for the participant `p`. -/
def departure (s : Session) (c : ClientId) (p : ParticipantID) : Departure where
  superseded := s.active p ≠ some c
  graceEligible := s.active p = some c && !(s.life c).intentional && !s.closed &&
    ((s.life c).joined || (s.life c).resumed) && 0 < s.timeout
  timeout := s.timeout
  clients := s.members.filter fun d => ∃ q ∈ (s.life d).pid, q ≠ p

/-- Whether the second decision of `disconnect` gives up the slot at once. -/
def givesUp (s : Session) (c : ClientId) (d : Departure) : Bool :=
  (s.life c).intentional || s.closed || (!(s.life c).joined && !(s.life c).resumed) ||
    d.timeout = 0

/-- The steps of the protocol. -/
inductive Step (s : Session) : Event → Session → Prop
  | draw (next : Nat) (h : s.next ≤ next) : Step s .draw { s with next := next }
  | join (c : ClientId) (h : (s.life c).stage = .outside) :
      Step s (.join c)
        { s.setStage c (.entering s.next) with
          ids := Function.update s.ids s.next true
          next := s.next + 1
          joinedAt := Function.update s.joinedAt c s.admissions
          slot := Function.update s.slot s.next (.held c) }
  | enter (c : ClientId) (p : ParticipantID) (h : (s.life c).stage = .entering p) :
      Step s (.enter c)
        { s.setLife c { s.life c with stage := .joining, pid := some p } with
          active := Function.update s.active p (some c) }
  | resume (c : ClientId) (p : ParticipantID) (previous : ClientId) (armed : Bool)
      (h : (s.life c).stage = .outside) (hp : s.pending p = some (previous, armed)) :
      Step s (.resume c p)
        { s.setLife c { s.life c with
            stage := .waiting previous, pid := some p, resumed := true, takeover := false } with
          pending := Function.update s.pending p none
          active := Function.update s.active p (some c)
          joinedAt := Function.update s.joinedAt c s.admissions
          rank := Function.update s.rank c (s.rank previous + 1)
          slot := Function.update s.slot p (.held c) }
  | takeover (c : ClientId) (p : ParticipantID) (previous : ClientId)
      (h : (s.life c).stage = .outside) (hp : s.pending p = none)
      (hactive : s.active p = some previous) :
      Step s (.takeover c p)
        { s.setLife c { s.life c with
            stage := .waiting previous, pid := some p, resumed := true, takeover := true } with
          active := Function.update s.active p (some c)
          rank := Function.update s.rank c (s.rank previous + 1)
          slot := Function.update s.slot p (.held c) }
  | proceed (c previous : ClientId) (h : (s.life c).stage = .waiting previous)
      (hover : (s.life previous).stage = .over) : Step s (.proceed c) (s.setStage c .joining)
  | admission (c : ClientId) (p : ParticipantID) (h : (s.life c).stage = .joining)
      (hpid : (s.life c).pid = some p) (hclosed : s.closed = false) :
      Step s (.admission c true)
        { s.setLife c { s.life c with
            stage := .announcing
            shown := fun q => (s.life c).shown q ||
              (q ≠ p && s.ids q && (s.pending q).isNone) } with
          members := insert c s.members
          admissions := s.admissions + 1
          admittedAt := Function.update s.admittedAt c (s.admissions + 1) }
  | admissionFail (c : ClientId) (h : (s.life c).stage = .joining) :
      Step s (.admission c false) { s.setStage c .closing with members := insert c s.members }
  | announce (c : ClientId) (p : ParticipantID) (h : (s.life c).stage = .announcing)
      (hpid : (s.life c).pid = some p) :
      Step s (.announce c)
        (setLife { s with life := s.tell (s.Hears c) p true } c
          { s.life c with stage := .settled, joined := true, announced := true })
  | fail (c : ClientId) (intentional : Bool)
      (h : (s.life c).stage = .joining ∧ intentional = false ∨ (s.life c).stage = .settled) :
      Step s (.fail c intentional)
        (s.setLife c { s.life c with
          stage := .closing, intentional := (s.life c).intentional || intentional })
  | depart (c : ClientId) (h : (s.life c).stage = .closing) :
      Step s (.depart c) { s.setStage c .ending with members := s.members.erase c }
  | part (c : ClientId) (p : ParticipantID) (h : (s.life c).stage = .ending)
      (hpid : (s.life c).pid = some p) :
      Step s (.part c)
        { s.setStage c (.parting (s.departure c p)) with
          active := if s.active p = some c then Function.update s.active p none else s.active }
  | settleSuperseded (c : ClientId) (d : Departure) (h : (s.life c).stage = .parting d)
      (hd : d.superseded = true) : Step s (.settle c) (s.setStage c .over)
  | settleRemove (c : ClientId) (d : Departure) (h : (s.life c).stage = .parting d)
      (hd : d.superseded = false) (hgive : s.givesUp c d = true) :
      Step s (.settle c) (s.setStage c .removing)
  | settleGrace (c : ClientId) (p : ParticipantID) (d : Departure)
      (h : (s.life c).stage = .parting d) (hpid : (s.life c).pid = some p)
      (hd : d.superseded = false) (hgive : s.givesUp c d = false) :
      Step s (.settle c)
        { s.setStage c (.notifying d.clients) with
          pending := Function.update s.pending p (some (c, false))
          slot := Function.update s.slot p (.graced c) }
  | leave (c : ClientId) (p : ParticipantID) (h : (s.life c).stage = .removing)
      (hpid : (s.life c).pid = some p) :
      Step s (.leave c)
        { s.setStage c (if (s.life c).announced && s.ids p then .casting else .over) with
          ids := Function.update s.ids p false
          slot := Function.update s.slot p .free }
  | castLeft (c : ClientId) (p : ParticipantID) (h : (s.life c).stage = .casting)
      (hpid : (s.life c).pid = some p) :
      Step s (.castLeft c) (setStage { s with life := s.tell (· ∈ s.members) p false } c .over)
  | notify (c d : ClientId) (p : ParticipantID) (clients : Finset ClientId)
      (h : (s.life c).stage = .notifying clients) (hpid : (s.life c).pid = some p)
      (hd : d ∈ clients) :
      Step s (.notify c d)
        ((s.setLife d { s.life d with shown := Function.update (s.life d).shown p false }).setStage c
          (.notifying (clients.erase d)))
  | arm (c : ClientId) (p : ParticipantID) (h : (s.life c).stage = .notifying ∅)
      (hpid : (s.life c).pid = some p) :
      Step s (.arm c)
        { s.setStage c .over with
          pending := if (s.pending p).map Prod.fst = some c then
              Function.update s.pending p (some (c, true))
            else s.pending }
  | quit (c : ClientId) (h : (s.life c).stage = .outside) : Step s (.quit c) (s.setStage c .over)
  | expire (c : ClientId) (p : ParticipantID) (hpid : (s.life c).pid = some p)
      (hp : s.pending p = some (c, true)) :
      Step s (.expire c)
        { s.setLife c { s.life c with reaping := true } with
          pending := Function.update s.pending p none
          slot := Function.update s.slot p (.reaping c) }
  | reapLeave (c : ClientId) (p : ParticipantID) (h : (s.life c).reaping = true)
      (hpid : (s.life c).pid = some p) :
      Step s (.reapLeave c)
        { s.setLife c { s.life c with reaping := false } with
          ids := Function.update s.ids p false
          slot := Function.update s.slot p .free }
  | close (closing : Finset ParticipantID)
      (h : ∀ p, p ∈ closing ↔ p ∈ s.closingIDs ∨ (s.pending p).isSome) :
      Step s .close
        { s with
          closed := true
          pending := fun _ => none
          closingIDs := closing
          slot := fun p => if (s.pending p).isSome then .closing else s.slot p }
  | closeLeave (p : ParticipantID) (h : p ∈ s.closingIDs) :
      Step s (.closeLeave p)
        { s with
          closingIDs := s.closingIDs.erase p
          ids := Function.update s.ids p false
          slot := Function.update s.slot p .free }

/-! ## The system -/

/-- A connection that has not arrived. -/
def Life.new : Life where
  stage := .outside
  pid := none
  resumed := false
  joined := false
  announced := false
  intentional := false
  takeover := false
  reaping := false
  shown _ := false

/-- Nobody has joined. -/
def start (timeout : Nat) : Session where
  life _ := Life.new
  ids _ := false
  active _ := none
  pending _ := none
  closingIDs := ∅
  members := ∅
  closed := false
  timeout := timeout
  next := 0
  admissions := 0
  joinedAt _ := 0
  admittedAt _ := 0
  rank _ := 0
  slot _ := .free

def lts (timeout : Nat) : Lib.Lts Session Event where
  init s := s = start timeout
  tr s e t := s.Step e t

end Session

end SlowMeet.Signaling
