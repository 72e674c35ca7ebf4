import FairShare.Text.Record

/-!
# Snapshots

A snapshot holds the counters of a lock at one moment, for each priority and in total. It has a
display form on one line, a named form and a JSON form.
-/

namespace FairShare

open Text

/-- The counters of one priority. -/
structure LaneSnapshot where
  /-- The id of the priority. -/
  priority : Nat
  /-- Its configured weight. -/
  weight : Nat
  /-- The slots held at it. -/
  runners : Nat
  /-- The requests queued at it. -/
  waiters : Nat
  /-- Its share of the slots, zero if nothing is queued at it. -/
  capacity : Nat
  /-- Whether it is in the set of priorities that grants go round. -/
  active : Bool
deriving DecidableEq, Repr

/-- The counters of a lock. -/
structure Snapshot where
  /-- The number of slots, zero after a halt. -/
  concurrency : Int
  /-- The free slots, below zero while locks are out after a halt. -/
  available : Int
  /-- The slots held. -/
  running : Int
  /-- The queued requests. -/
  waiting : Nat
  /-- The sum of the weights in demand. -/
  pendingWeights : Nat
  /-- Whether the lock was halted. -/
  halted : Bool
  /-- Whether the lock was killed. -/
  killed : Bool
  /-- The counters of each priority. -/
  priorities : List LaneSnapshot
deriving DecidableEq, Repr

namespace LaneSnapshot

/-- The display form of one priority. -/
def display (p : LaneSnapshot) : String :=
  "\x7b" ++ s!"priority={p.priority} weight={p.weight} run={p.runners} wait={p.waiters} " ++
    s!"cap={p.capacity}" ++ "\x7d"

/-- The fields with their names, each written as a text. -/
def fields (p : LaneSnapshot) : List (String × String) :=
  [("priority", toString p.priority), ("weight", toString p.weight),
   ("runners", toString p.runners), ("waiters", toString p.waiters),
   ("capacity", toString p.capacity), ("active", truthWord p.active)]

/-- The counters in named form. -/
def namedForm (p : LaneSnapshot) : String :=
  recordForm "PrioritySnapshot" p.fields

/-- The counters as a JSON text. -/
def jsonForm (p : LaneSnapshot) : String :=
  jsonObject p.fields

end LaneSnapshot

namespace Snapshot

/-- The slots held, added up over the priorities. -/
def totalRunners (s : Snapshot) : Nat :=
  (s.priorities.map LaneSnapshot.runners).foldl (· + ·) 0

/-- The queued requests, added up over the priorities. -/
def totalWaiters (s : Snapshot) : Nat :=
  (s.priorities.map LaneSnapshot.waiters).foldl (· + ·) 0

/-- The word that the display form has for a lock that was stopped. -/
def stopWord (s : Snapshot) : String :=
  if s.killed then "killed " else if s.halted then "halted " else ""

/-- The display form: the counters of the lock, then those of each priority, on one line. -/
def display (s : Snapshot) : String :=
  "\x7b " ++ s!"concurrency={s.concurrency} available={s.available} running={s.running} " ++
    s!"waiting={s.waiting} pending_weights={s.pendingWeights} " ++ s.stopWord ++
    String.join (s.priorities.map fun p => p.display ++ " ") ++ "\x7d"

/-- The fields before the priorities, with their names, each written as a text. -/
def fields (s : Snapshot) : List (String × String) :=
  [("concurrency", toString s.concurrency), ("available", toString s.available),
   ("running", toString s.running), ("waiting", toString s.waiting),
   ("pending_weights", toString s.pendingWeights), ("halted", truthWord s.halted),
   ("killed", truthWord s.killed)]

/-- The counters in named form. -/
def namedForm (s : Snapshot) : String :=
  recordForm "LockSnapshot"
    (s.fields ++ [("priorities", listForm (s.priorities.map LaneSnapshot.namedForm))])

/-- The counters as a JSON text. -/
def jsonForm (s : Snapshot) : String :=
  jsonObject
    (s.fields ++ [("priorities", jsonArray (s.priorities.map LaneSnapshot.jsonForm))])

end Snapshot

end FairShare
