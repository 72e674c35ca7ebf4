import FairShare.Config.Basic
import FairShare.Lock.Share
import FairShare.Lock.Snapshot
import FairShare.Rota.Basic

/-!
# The counters of a lock

`LockState` holds what every decision of a lock is made from: the slots, the demand, and for each
priority a lane with its runners and its queue. A priority is in demand while requests wait in its
lane; grants go round the priorities in demand by a rota. Each operation here is one section, with
no call of a waker in it; what the caller has to do afterwards is left to the caller.
-/

namespace FairShare

/-- A request in a queue. -/
structure Waiter where
  /-- The number of the request among the queued ones, counted from zero. -/
  ticket : UInt64
  /-- The place of the channel on which the grant is sent. -/
  channel : Nat
deriving DecidableEq, Repr

/-- The requests and grants of one priority. -/
structure Lane where
  /-- The configured weight. -/
  weight : UInt32
  /-- The slots held at this priority. -/
  runners : Nat := 0
  /-- The requests that wait, first come first. -/
  queue : List Waiter := []
deriving DecidableEq, Repr

/-- The counters of a lock. -/
structure LockState where
  /-- The number of slots, zero after a halt. -/
  slots : Int
  /-- The free slots, below zero while locks are out after a halt. -/
  free : Int
  /-- The queued requests. -/
  waiting : Nat := 0
  /-- The sum of the weights of the priorities in the rota. -/
  demand : Nat := 0
  /-- Whether the lock was halted. -/
  halted : Bool := false
  /-- Whether the lock was killed. -/
  killed : Bool := false
  /-- The ticket of the next request that queues. -/
  nextTicket : UInt64 := 0
  /-- The priorities, each at the place of its id. -/
  lanes : List Lane
  /-- The priorities that grants go round. -/
  rota : Rota
deriving DecidableEq, Repr

namespace LockState

/-- The largest number of slots that a lock counts. -/
def slotLimit : Nat := 0x7FFFFFFFFFFFFFFF

/-- The lock of a configuration: all slots free, nothing queued. -/
def ofConfig (c : Config) : LockState :=
  let slots : Int := min c.concurrency.toNat slotLimit
  { slots
    free := slots
    lanes := c.weights.map fun weight => { weight }
    rota := .ofSize c.weights.length }

/-- The largest priority id. -/
def largestPriority (s : LockState) : Nat :=
  s.lanes.length - 1

/-- The lane of a priority; an id that has none reads as an idle lane without weight. -/
def laneAt (s : LockState) (p : Nat) : Lane :=
  s.lanes.getD p { weight := 0 }

/-- The lane of a priority, or the refusal of an id that is too large. -/
def laneAt? (s : LockState) (p : Nat) : Except Refusal Lane :=
  if p < s.lanes.length then .ok (s.laneAt p)
  else .error (.priorityOutOfRange p s.largestPriority)

/-- The weight of a priority. -/
def weightAt (s : LockState) (p : Nat) : Nat :=
  (s.laneAt p).weight.toNat

/-- The slots held at a priority. -/
def runnersAt (s : LockState) (p : Nat) : Nat :=
  (s.laneAt p).runners

/-- The queue of a priority. -/
def queueAt (s : LockState) (p : Nat) : List Waiter :=
  (s.laneAt p).queue

/-- The slots held. -/
def held (s : LockState) : Int :=
  s.slots - s.free

/-- The share of the slots for a weight that is counted in the demand. -/
def shareOf (s : LockState) (weight : Nat) : Nat :=
  share s.slots weight s.demand

/-- Whether the priority has a request waiting and holds fewer slots than its share. -/
def canGrant (s : LockState) (p : Nat) : Bool :=
  !(s.queueAt p).isEmpty && decide (s.runnersAt p < s.shareOf (s.weightAt p))

/-- Changes the lane of one priority. -/
def modifyLane (p : Nat) (f : Lane → Lane) (s : LockState) : LockState :=
  { s with lanes := s.lanes.modify p f }

/-- Takes a slot for the priority. -/
def takeSlot (p : Nat) (s : LockState) : LockState :=
  { s.modifyLane p fun lane => { lane with runners := lane.runners + 1 } with
    free := s.free - 1 }

/-- Returns a slot that was held at the priority. -/
def returnSlot (p : Nat) (s : LockState) : LockState :=
  { s.modifyLane p fun lane => { lane with runners := lane.runners - 1 } with
    free := s.free + 1 }

/-- Counts the weight of the priority in the demand. -/
def addDemand (p : Nat) (s : LockState) : LockState :=
  { s with demand := s.demand + s.weightAt p }

/-- Whether a request at the priority is granted without queueing: nothing waits there, a slot is
free, and the priority is below the share that it would have once it was in demand. -/
def admitsAtOnce (s : LockState) (p : Nat) : Bool :=
  (s.queueAt p).isEmpty && decide (0 < s.free) &&
    decide (s.runnersAt p < (s.addDemand p).shareOf (s.weightAt p))

/-- Puts the priority into demand if nothing waits there yet. -/
def raiseDemand (p : Nat) (s : LockState) : LockState :=
  if (s.queueAt p).isEmpty then { s.addDemand p with rota := s.rota.enrol p } else s

/-- Takes the priority out of demand if nothing waits there any more. -/
def endDemand (p : Nat) (s : LockState) : LockState :=
  if (s.queueAt p).isEmpty && s.rota.contains p then
    { s with
      rota := s.rota.strike p
      demand := s.demand - s.weightAt p }
  else s

/-- Queues a request whose grant goes to `channel`. -/
def enqueue (p channel : Nat) (s : LockState) : LockState :=
  let waiter : Waiter := { ticket := s.nextTicket, channel }
  let s := (s.raiseDemand p).modifyLane p fun lane => { lane with queue := lane.queue ++ [waiter] }
  { s with waiting := s.waiting + 1, nextTicket := s.nextTicket + 1 }

/-- Leaves the priority with this queue, which is its old one less one request. -/
def leaveQueue (p : Nat) (rest : List Waiter) (s : LockState) : LockState :=
  let s := s.modifyLane p fun lane => { lane with queue := rest }
  ({ s with waiting := s.waiting - 1 }).endDemand p

/-- Takes the request with this ticket out of the queue of the priority, if it is there. -/
def withdraw? (p : Nat) (ticket : UInt64) (s : LockState) : Option (Waiter × LockState) :=
  match (s.queueAt p).find? (·.ticket = ticket) with
  | none => none
  | some w => some (w, s.leaveQueue p ((s.queueAt p).eraseP (·.ticket = ticket)))

/-- Passes the turn at most `n` times, up to a priority that can take a grant. -/
def scan : Nat → LockState → Option Nat × LockState
  | 0, s => (none, s)
  | n + 1, s =>
    let s := { s with rota := s.rota.openRound }
    match s.rota.turn with
    | none => (none, s)
    | some p =>
      if s.canGrant p then (some p, s) else scan n { s with rota := s.rota.passTurn }

/-- The first priority in turn that can take a grant, with the turn passed to it. One look more
than there are members is enough to see all of them, wherever the turn is. -/
def nextInTurn? (s : LockState) : Option Nat × LockState :=
  s.scan (s.rota.size + 1)

/-- Takes the first request of the priority out of its queue and a slot for it. -/
def grantFirst? (p : Nat) (s : LockState) : Option (Waiter × LockState) :=
  match s.queueAt p with
  | [] => none
  | w :: rest => some (w, (s.leaveQueue p rest).takeSlot p)

/-- Stops all grants: no slots remain and nothing is in demand. Queued requests stay queued. A
second halt changes nothing. -/
def halt (s : LockState) : LockState :=
  if s.halted then s
  else
    { s with
      halted := true
      free := s.free - s.slots
      slots := 0
      rota := s.rota.clear
      demand := 0 }

/-- All queued requests, by priority and in each by arrival. -/
def waiters (s : LockState) : List Waiter :=
  s.lanes.flatMap Lane.queue

/-- Empties every queue. -/
def drain (s : LockState) : LockState :=
  { s with
    waiting := 0
    rota := s.rota.clear
    demand := 0
    lanes := s.lanes.map fun lane => { lane with queue := [] } }

/-- Stops all grants and empties every queue, for good. A second kill changes nothing. -/
def kill (s : LockState) : LockState :=
  if s.killed then s else ({ s with killed := true }).halt.drain

/-- The counters of one priority as a snapshot. -/
def laneSnapshot (s : LockState) (p : Nat) : LaneSnapshot where
  priority := p
  weight := s.weightAt p
  runners := s.runnersAt p
  waiters := (s.queueAt p).length
  capacity := if (s.queueAt p).isEmpty then 0 else s.shareOf (s.weightAt p)
  active := s.rota.contains p

/-- The counters as a snapshot. -/
def snapshot (s : LockState) : Snapshot where
  concurrency := s.slots
  available := s.free
  running := s.held
  waiting := s.waiting
  pendingWeights := s.demand
  halted := s.halted
  killed := s.killed
  priorities := (List.range s.lanes.length).map s.laneSnapshot

@[simp] theorem halted_halt (s : LockState) : s.halt.halted = true := by
  unfold halt
  split <;> simp_all

@[simp] theorem killed_kill (s : LockState) : s.kill.killed = true := by
  unfold kill
  split
  · assumption
  · unfold drain halt
    split <;> simp_all

end LockState

end FairShare
