import FairShare.Lock.Instance

/-!
# Tasks of an instance

A task is the part of a call that remains after wakers may have run. `Task.perform` runs its one
section and puts what follows from it in front of the agenda. All that a task needs to know is in
it; everything else it reads when it runs, so that it sees what wakers did in the meantime.
-/

namespace FairShare

/-- The part of a call that remains after wakers may have run. -/
inductive Task where
  /-- Fire the wake event of the grant loop. -/
  | wakeLoop
  /-- Let the sender of a channel go. -/
  | closeSender (channel : Nat)
  /-- Let the receiver of a channel go. -/
  | dropReceiver (channel : Nat)
  /-- Let one clone of a lock go. -/
  | dropLock (grant : Nat)
  /-- Let a grant go that nobody was there to take. -/
  | takeBack (grant : Nat)
  /-- Take an owner away. -/
  | disown
  /-- Look whether the grant loop has to run a pass; `w` is the waker of the poll. -/
  | resume (w : Waker)
  /-- Grant one request, or end the pass. The pass is an owner. -/
  | pass (w : Waker)
  /-- See whether the instance was stopped during a delivery. The pass is an owner. -/
  | settle (w : Waker)
  /-- End the poll of the grant loop with this answer. -/
  | endPoll (ended : Bool)
deriving DecidableEq, Repr

/-- The instance after a section, and what follows from the section. -/
abbrev Outcome := Instance × Agenda Task

namespace Instance

/-- The tasks that let the senders of these requests go, in order. -/
def closeAll (waiters : List Waiter) : Agenda Task :=
  waiters.map fun w => .task (.closeSender w.channel)

/-- The task that fires the wake event, if it is to be fired. -/
def wakeLoopIf (b : Bool) : Agenda Task :=
  if b then [.task .wakeLoop] else []

/-- Fires the wake event of the grant loop. -/
def wakeLoop (x : Instance) : Outcome :=
  let (wake, w) := x.wake.fire
  ({ x with wake }, callWaker w)

/-- Lets the sender of a channel go. -/
def closeSender (c : Nat) (x : Instance) : Outcome :=
  match x.channels[c]? with
  | none => (x, [])
  | some channel =>
    let (channel, w) := channel.closeSender
    ({ x with channels := x.channels.set c channel }, callWaker w)

/-- Lets the receiver of a channel go, and with it a lock that it had not received. -/
def dropReceiver (c : Nat) (x : Instance) : Outcome :=
  match x.channels[c]? with
  | none => (x, [])
  | some channel =>
    let (value, channel) := channel.dropReceiver
    ({ x with channels := x.channels.set c channel },
      value.toList.map fun g => .task (.dropLock g))

/-- Gives the slot of a grant back, unless that was done before. -/
def giveBack (g : Nat) (x : Instance) : Outcome :=
  match x.grants[g]? with
  | none => (x, [])
  | some grant =>
    if grant.released then (x, [])
    else
      let s := x.state.returnSlot grant.priority
      let x := { x with grants := x.grants.set g { grant with released := true }, state := s }
      (x.report (.released grant.priority s.free s.waiting),
        wakeLoopIf (0 < s.waiting) ++ [.task .disown])

/-- Lets one clone of a lock go. With the last one its slot is given back. -/
def dropLock (g : Nat) (x : Instance) : Outcome :=
  match x.grants[g]? with
  | none => (x, [])
  | some grant =>
    let grant := { grant with clones := grant.clones - 1 }
    let x := { x with grants := x.grants.set g grant }
    if grant.clones = 0 then x.giveBack g else (x, [])

/-- Fails all queued requests of an instance that has lost its last owner, and calls the grant
loop to see it gone. -/
def destroy (x : Instance) : Outcome :=
  if x.state.killed then (x, [.task .wakeLoop])
  else
    let waiters := x.state.waiters
    let x := { x with state := x.state.kill }
    (x.report (.disowned waiters.length), closeAll waiters ++ [.task .wakeLoop])

/-- Takes an owner away. -/
def disown (x : Instance) : Outcome :=
  let x := { x with owners := x.owners - 1 }
  if x.owners = 0 then x.destroy else (x, [])

/-- Sends a grant on a channel. -/
def deliver (c g : Nat) (x : Instance) : Outcome :=
  match x.channels[c]? with
  | none => (x, [])
  | some channel =>
    if channel.receiverGone then (x, [.task (.closeSender c), .task (.takeBack g)])
    else
      let (channel, w) := channel.store g
      ({ x with channels := x.channels.set c channel },
        callWaker w ++ [.task (.closeSender c)])

/-- Looks at the instance for the grant loop: its end, a wait for the wake event, or a pass. -/
def resume (w : Waker) (x : Instance) : Outcome :=
  if x.owners = 0 then
    (x.report (.loopFoundDropped x.loop.grants), [.task (.endPoll true)])
  else if x.state.halted then
    (x.report (.loopFoundHalted x.loop.grants), [.task (.endPoll true)])
  else
    match x.wake.poll w with
    | (false, wake) => ({ x with wake }, [.task (.endPoll false)])
    | (true, wake) =>
      let x := { x with wake, owners := x.owners + 1 }
      (x.modifyLoop (fun l => { l with passes := l.passes + 1 }), [.task (.pass w)])

/-- Ends a pass after which there may be more to do later. -/
def endPass (w : Waker) (x : Instance) : Outcome :=
  (x, [.task .disown, .task (.resume w)])

/-- Ends a pass that found the instance stopped. -/
def endLoop (x : Instance) : Outcome :=
  (x.report (.loopEnded x.loop.grants x.loop.passes), [.task .disown, .task (.endPoll true)])

/-- Grants the first request of the priority and sends the grant. -/
def grantTo (w : Waker) (p : Nat) (x : Instance) : Outcome :=
  match x.state.grantFirst? p with
  | none => x.endPass w
  | some (waiter, s) =>
    let g := x.grants.length
    let x := { x with state := s }.addGrant p
    let x := x.report (.granting p waiter.ticket s.free s.waiting)
    let x := x.modifyLoop fun l => { l with grants := l.grants + 1 }
    let (x, sending) := x.deliver waiter.channel g
    (x, sending ++ [.task (.settle w)])

/-- Grants one request if a slot is free and one waits, and ends the pass otherwise. -/
def pass (w : Waker) (x : Instance) : Outcome :=
  if x.state.halted then x.endLoop
  else if x.state.free ≤ 0 ∨ x.state.waiting = 0 then x.endPass w
  else
    match x.state.nextInTurn? with
    | (none, s) =>
      let x := { x with state := s }
      (x.report (.stalled s.free s.waiting s.demand)).endPass w
    | (some p, s) =>
      let x := { x with state := s }
      x.grantTo w p

/-- Goes on with the pass after a delivery, unless the instance was stopped or only the pass
itself still owns it. -/
def settle (w : Waker) (x : Instance) : Outcome :=
  if x.state.halted ∨ x.owners = 1 then (x.report .tornDown).endLoop
  else (x, [.task (.pass w)])

end Instance

/-- Runs the section of a task. -/
def Task.perform : Task → Instance → Outcome
  | wakeLoop, x => x.wakeLoop
  | closeSender c, x => x.closeSender c
  | dropReceiver c, x => x.dropReceiver c
  | dropLock g, x => x.dropLock g
  | takeBack g, x => (x.report .recipientGone).dropLock g
  | disown, x => x.disown
  | resume w, x => x.resume w
  | pass w, x => x.pass w
  | settle w, x => x.settle w
  | endPoll ended, x => (x.modifyLoop (fun l => { l with polling := false, ended }), [])

end FairShare
