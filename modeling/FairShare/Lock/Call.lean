import FairShare.Lock.Task

/-!
# Calls on an instance

The calls that users make on handles, requests, locks and the grant loop. Each runs its first
section at once and leaves the rest on an agenda. A call on a thing that was never made does
nothing.
-/

namespace FairShare

namespace Instance

/-- Fails a request at once. -/
def requestRefused (p : Nat) (x : Instance) : Outcome :=
  ((x.report (.refused p)).addRequest p (.settled (some .killed)), [])

/-- Grants a request at once. -/
def requestAdmitted (p : Nat) (x : Instance) : Outcome :=
  let s := x.state.takeSlot p
  let x' := { x with state := s }.addGrant p
  let x' := x'.report (.admitted p s.free (s.runnersAt p))
  (x'.addRequest p (.settled (some (.granted x.grants.length))), [])

/-- Queues a request and fires the wake event if a slot is free. -/
def requestQueued (p : Nat) (x : Instance) : Outcome :=
  let channel := x.channels.length
  let ticket := x.state.nextTicket
  let s := x.state.enqueue p channel
  let x' := { x with state := s, channels := x.channels ++ [Handoff.empty] }
  let x' := x'.addRequest p (.queued ticket channel)
  (x'.report (.queued p ticket s.waiting s.demand), wakeLoopIf (0 < s.free))

/-- Requests a slot at a priority. The request gets the next free place. A priority that is too
large is refused, and nothing happens then. -/
def request (p : Nat) (x : Instance) : Outcome :=
  if x.state.lanes.length ≤ p then (x, [])
  else if x.state.killed then x.requestRefused p
  else if x.state.admitsAtOnce p then x.requestAdmitted p
  else x.requestQueued p

/-- Halts the lock. -/
def halt (x : Instance) : Outcome :=
  let y := { x with state := x.state.halt }
  (if x.state.halted then y else y.report .halted, [.task .wakeLoop])

/-- Kills the lock and fails its queued requests. A second kill does nothing. -/
def kill (x : Instance) : Outcome :=
  if x.state.killed then (x, [])
  else
    let waiters := x.state.waiters
    let x := { x with state := x.state.kill }
    (x.report (.killed waiters.length), .task .wakeLoop :: closeAll waiters)

/-- Adds a handle. -/
def cloneHandle (x : Instance) : Instance :=
  { x with handles := x.handles + 1, owners := x.owners + 1 }

/-- Lets a handle go. -/
def dropHandle (x : Instance) : Outcome :=
  ({ x with handles := x.handles - 1 }, [.task .disown])

/-- Polls a queued request at its channel. -/
def pollQueued (r p c : Nat) (w : Waker) (x : Instance) : Option Verdict × Instance :=
  match x.channels[c]? with
  | none => (none, x)
  | some channel =>
    match channel.poll w with
    | (.pending, channel) => (none, { x with channels := x.channels.set c channel })
    | (.value g, channel) =>
      -- the receiver goes together with the verdict
      let x := { x with channels := x.channels.set c channel.dropReceiver.2 }
      (some (.granted g), (x.report (.received p)).setProgress r .finished)
    | (.closed, channel) =>
      let x := { x with channels := x.channels.set c channel.dropReceiver.2 }
      (some .killed, (x.report (.failed p)).setProgress r .finished)

/-- Polls a request: its verdict, if there is one. A verdict is handed out once, and a poll after
that is refused. -/
def poll (r : Nat) (w : Waker) (x : Instance) : Except Refusal (Option Verdict) × Instance :=
  match x.requests[r]? with
  | none => (.ok none, x)
  | some q =>
    match q.progress with
    | .settled (some verdict) => (.ok (some verdict), x.setProgress r (.settled none))
    | .queued _ c =>
      let (verdict, x) := x.pollQueued r q.priority c w
      (.ok verdict, x)
    | _ => (.error .polledAfterCompletion, x)

/-- Gives up a request that is queued: takes it out of its queue if it is still there, and lets
its receiver go. -/
def withdraw (p : Nat) (ticket : UInt64) (c : Nat) (x : Instance) : Outcome :=
  match if x.isAlive then x.state.withdraw? p ticket else none with
  | none => (x, [.task (.dropReceiver c)])
  | some (waiter, s) =>
    let x := { x with state := s, owners := x.owners + 1 }
    (x.report (.withdrawn p ticket s.waiting),
      closeAll [waiter] ++
        wakeLoopIf (!s.halted && decide (0 < s.free) && decide (0 < s.waiting)) ++
        [.task .disown, .task (.dropReceiver c)])

/-- Lets a request go, with the lock that it holds if nobody took that. -/
def dropRequest (r : Nat) (x : Instance) : Outcome :=
  match x.requests[r]? with
  | none => (x, [])
  | some q =>
    let x := x.setProgress r .dropped
    match q.progress with
    | .settled (some (.granted g)) => (x, [.task (.dropLock g)])
    | .queued ticket c => x.withdraw q.priority ticket c
    | _ => (x, [])

/-- Adds a clone of a lock. -/
def cloneLock (g : Nat) (x : Instance) : Instance :=
  { x with grants := x.grants.modify g fun grant => { grant with clones := grant.clones + 1 } }

/-- Polls the grant loop. -/
def drive (w : Waker) (x : Instance) : Outcome :=
  (x.modifyLoop (fun l => { l with polling := true }), [.task (.resume w)])

/-- Lets the grant loop go. -/
def dropLoop (x : Instance) : Instance :=
  x.modifyLoop fun l => { l with dropped := true }

end Instance

/-- The calls that change an instance. -/
inductive Call where
  /-- Request a slot at a priority. -/
  | request (priority : Nat)
  | halt
  | kill
  | cloneHandle
  | dropHandle
  | poll (request : Nat) (w : Waker)
  | dropRequest (request : Nat)
  | release (grant : Nat)
  | cloneLock (grant : Nat)
  | dropLock (grant : Nat)
  /-- Poll the grant loop. -/
  | drive (w : Waker)
  | dropLoop
deriving DecidableEq, Repr

/-- Runs the first section of a call; the rest is on the agenda. -/
def Call.begin : Call → Instance → Outcome
  | request p, x => x.request p
  | halt, x => x.halt
  | kill, x => x.kill
  | cloneHandle, x => (x.cloneHandle, [])
  | dropHandle, x => x.dropHandle
  | poll r w, x => ((x.poll r w).2, [])
  | dropRequest r, x => x.dropRequest r
  | release g, x => x.giveBack g
  | cloneLock g, x => (x.cloneLock g, [])
  | dropLock g, x => x.dropLock g
  | drive w, x => x.drive w
  | dropLoop, x => (x.dropLoop, [])

end FairShare
