import FairShare.Lock.Event
import FairShare.Lock.State
import FairShare.Wake.Event
import FairShare.Wake.Handoff

/-!
# Instances of a lock

An instance is a lock together with everything that refers to it: handles, requests, the channels
on which grants travel, the grants themselves and the grant loop. Requests, channels and grants
are kept for good, each under its place in the list where it was added, so that a place never
comes to mean another thing.

An instance lives as long as it has owners. Every handle and every unreleased grant is an owner,
and so is a call that works on the instance and has taken it for itself. Requests in a queue and
the grant loop between two polls are not.
-/

namespace FairShare

/-- A slot that was granted. All clones of the lock share it. -/
structure Grant where
  /-- The priority at which the slot counts. -/
  priority : Nat
  /-- The clones of the lock that are still there. -/
  clones : Nat := 1
  /-- Whether the slot was given back. -/
  released : Bool := false
deriving DecidableEq, Repr

/-- The outcome of a request. -/
inductive Verdict where
  /-- The request holds this grant. -/
  | granted (grant : Nat)
  /-- The lock was killed before the request was granted. -/
  | killed
deriving DecidableEq, Repr

/-- How far a request has come. -/
inductive Progress where
  /-- Decided when it was made; the verdict is there until a poll takes it. -/
  | settled (verdict : Option Verdict)
  /-- Queued when it was made; the verdict comes on the channel. -/
  | queued (ticket : UInt64) (channel : Nat)
  /-- A poll has taken the verdict of a queued request. -/
  | finished
  /-- The caller has let the request go. -/
  | dropped
deriving DecidableEq, Repr

/-- A request for a slot. -/
structure Request where
  /-- The priority that was asked for. -/
  priority : Nat
  /-- How far it has come. -/
  progress : Progress
deriving DecidableEq, Repr

/-- The grant loop, which hands free slots to queued requests while it is polled. -/
structure GrantLoop where
  /-- The passes begun. -/
  passes : Nat := 0
  /-- The requests granted. -/
  grants : Nat := 0
  /-- Whether a poll of it is in progress. -/
  polling : Bool := false
  /-- Whether its last poll found that it has nothing left to do, ever. -/
  ended : Bool := false
  /-- Whether it was dropped. -/
  dropped : Bool := false
deriving DecidableEq, Repr

/-- A lock with everything that refers to it. -/
structure Instance where
  /-- The counters. -/
  state : LockState
  /-- The event that the grant loop waits for. -/
  wake : WakeEvent := {}
  /-- The owners, zero once the instance is gone. -/
  owners : Nat := 1
  /-- The handles. -/
  handles : Nat := 1
  /-- The grants made so far. -/
  grants : List Grant := []
  /-- The channels made so far. -/
  channels : List (Handoff Nat) := []
  /-- The requests made so far. -/
  requests : List Request := []
  /-- The grant loop. -/
  loop : GrantLoop := {}
  /-- The events so far. -/
  log : List Event := []
deriving DecidableEq, Repr

namespace Instance

/-- A fresh instance with one handle, without a check of the configuration. -/
def ofConfig (c : Config) : Instance where
  state := .ofConfig c
  log := [.created c]

/-- A fresh instance of a configuration without faults. -/
def create (c : Config) : Except ConfigError Instance :=
  match c.check with
  | .error e => .error e
  | .ok c => .ok (ofConfig c)

/-- Whether the instance still has an owner. -/
def isAlive (x : Instance) : Bool :=
  decide (0 < x.owners)

/-- Adds an event. -/
def report (e : Event) (x : Instance) : Instance :=
  { x with log := x.log ++ [e] }

/-- Changes how far a request has come. -/
def setProgress (r : Nat) (progress : Progress) (x : Instance) : Instance :=
  { x with requests := x.requests.modify r fun q => { q with progress } }

/-- Adds a grant, which is an owner until its slot is released. -/
def addGrant (p : Nat) (x : Instance) : Instance :=
  let grant : Grant := { priority := p }
  { x with owners := x.owners + 1, grants := x.grants ++ [grant] }

/-- Adds a request. -/
def addRequest (p : Nat) (progress : Progress) (x : Instance) : Instance :=
  let request : Request := { priority := p, progress }
  { x with requests := x.requests ++ [request] }

/-- Changes the grant loop. -/
def modifyLoop (f : GrantLoop → GrantLoop) (x : Instance) : Instance :=
  { x with loop := f x.loop }

/-- Whether the slot of the grant is still held. -/
def isLocked (x : Instance) (g : Nat) : Bool :=
  match x.grants[g]? with
  | none => false
  | some grant => !grant.released

/-- Whether a poll of the request would take a verdict. -/
def isReady (x : Instance) (r : Nat) : Bool :=
  match x.requests[r]? with
  | none => false
  | some q =>
    match q.progress with
    | .settled verdict => verdict.isSome
    | .queued _ c =>
      match x.channels[c]? with
      | none => false
      | some channel => channel.isReady || channel.isClosed
    | .finished => false
    | .dropped => false

/-- Whether the request had to queue and no poll has taken its verdict. -/
def isQueued (x : Instance) (r : Nat) : Bool :=
  match x.requests[r]? with
  | none => false
  | some q =>
    match q.progress with
    | .queued _ _ => true
    | _ => false

@[simp] theorem log_report (e : Event) (x : Instance) : (x.report e).log = x.log ++ [e] := rfl

@[simp] theorem state_report (e : Event) (x : Instance) : (x.report e).state = x.state := rfl

@[simp] theorem owners_ofConfig (c : Config) : (ofConfig c).owners = 1 := rfl

end Instance

end FairShare
