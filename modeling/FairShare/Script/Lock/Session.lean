import FairShare.Lock.Call
import FairShare.Lock.NamedForm
import FairShare.Script.Directory

/-!
# Sessions on a lock

A session is an instance together with the names under which a script holds its handles, requests
and locks. What a call works on cannot be dropped from inside the call, so a session also keeps
the names that calls in progress use.
-/

namespace FairShare.LockScript

/-- What a call in progress works on. -/
inductive Held where
  | handle (name : String)
  | lock (name : String)
deriving DecidableEq, Repr

/-- An instance and the names of what a script holds of it. -/
structure Session where
  /-- The instance. -/
  inst : Instance
  /-- The handles. -/
  handles : Directory Unit := [("main", ())]
  /-- The requests, each with its place in the instance. -/
  requests : Directory Nat := []
  /-- The locks, each with the place of its grant. -/
  locks : Directory Nat := []
  /-- What calls in progress work on, innermost first. -/
  inUse : List Held := []
deriving DecidableEq, Repr

/-- What a look at the instance from outside shows. -/
structure Status where
  /-- The counters, as long as there is a handle to read them with. -/
  snapshot : Option Snapshot
  /-- The priorities in demand, ascending, as long as there is a handle. -/
  active : Option (List Nat)
deriving DecidableEq, Repr

/-- The answer of a poll of a request. -/
inductive Polled where
  | pending
  /-- The request was granted at this priority; the slot may have been given back since. -/
  | granted (priority : Nat) (locked : Bool)
  | killed
  | refused (cause : Refusal)
deriving DecidableEq, Repr

namespace Session

/-- A session on a fresh instance, with one handle. -/
def start (inst : Instance) : Session := { inst }

/-- What the session shows of the instance. -/
def status (s : Session) : Status :=
  if s.handles.isEmpty then { snapshot := none, active := none }
  else
    { snapshot := some s.inst.state.snapshot
      active := some s.inst.state.rota.ids }

/-- Notes that a call works on something. -/
def use (what : Held) (s : Session) : Session :=
  { s with inUse := what :: s.inUse }

/-- Notes that the innermost call is over. -/
def unuse (s : Session) : Session :=
  { s with inUse := s.inUse.tail }

/-- Whether a poll of the request may bring something new: it is queued or holds a verdict. -/
def mayResolve (s : Session) (r : Nat) : Bool :=
  s.inst.isQueued r || s.inst.isReady r

/-- Polls a request and keeps the lock that it yields under a name. -/
def poll (r : Nat) (w : Waker) (as : String) (s : Session) : Polled × Session :=
  let (answer, inst) := s.inst.poll r w
  let s := { s with inst }
  match answer with
  | .error cause => (.refused cause, s)
  | .ok none => (.pending, s)
  | .ok (some .killed) => (.killed, s)
  | .ok (some (.granted g)) =>
    (.granted (s.inst.grantPriority g) (s.inst.isLocked g),
      { s with locks := s.locks.insert as g })

/-- Polls each of these requests that may resolve and whose name no lock has. The requests that
resolved lose their names. -/
def pollAll (w : Waker) : List (String × Nat) → Session → List (String × Polled) × Session
  | [], s => ([], s)
  | (name, r) :: rest, s =>
    if s.mayResolve r && !s.locks.has name then
      match s.poll r w name with
      | (.pending, s) => pollAll w rest s
      | (answer, s) =>
        -- a request without a verdict to hand out leaves nothing to do when it is dropped
        let inst := (s.inst.dropRequest r).1
        let (answers, s) := pollAll w rest { s with inst, requests := s.requests.erase name }
        ((name, answer) :: answers, s)
    else pollAll w rest s

end Session

end FairShare.LockScript
