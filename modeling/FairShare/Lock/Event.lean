import FairShare.Config.Basic

/-!
# Events of a lock

A lock reports what happens to it as events, in order of occurrence. Each event has a line of text:
a level, a sentence and the values that go with it.
-/

namespace FairShare

open Text

/-- What a lock reports. -/
inductive Event where
  /-- The lock was made from a configuration. -/
  | created (config : Config)
  /-- A request came after the kill. -/
  | refused (priority : Nat)
  /-- A request was granted without queueing. -/
  | admitted (priority : Nat) (available : Int) (runners : Nat)
  /-- A request was queued. -/
  | queued (priority : Nat) (ticket : UInt64) (waiting demand : Nat)
  /-- A slot was returned. -/
  | released (priority : Nat) (available : Int) (waiting : Nat)
  /-- A queued request was given up by its caller. -/
  | withdrawn (priority : Nat) (ticket : UInt64) (waiting : Nat)
  /-- The lock was halted. -/
  | halted
  /-- The lock was killed with so many requests queued. -/
  | killed (abandoned : Nat)
  /-- The last owner of the lock went with so many requests queued. -/
  | disowned (abandoned : Nat)
  /-- A queued request is about to be granted. -/
  | granting (priority : Nat) (ticket : UInt64) (available : Int) (waiting : Nat)
  /-- The caller of a queued request took its grant. -/
  | received (priority : Nat)
  /-- The caller of a queued request found it failed. -/
  | failed (priority : Nat)
  /-- Nobody was there to take a grant. -/
  | recipientGone
  /-- The lock was stopped while a grant was delivered. -/
  | tornDown
  /-- No priority could take a grant although slots were free and requests queued. -/
  | stalled (available : Int) (waiting demand : Nat)
  /-- The grant loop ended in a pass. -/
  | loopEnded (grants passes : Nat)
  /-- The grant loop found the lock halted. -/
  | loopFoundHalted (grants : Nat)
  /-- The grant loop found the lock gone. -/
  | loopFoundDropped (grants : Nat)
deriving DecidableEq, Repr

/-- The line of text for an event. -/
def Event.line : Event → String
  | created c =>
    s!"DEBUG priority lock created concurrency={c.concurrency} weights=" ++
      listForm (c.weights.map fun w => toString w.toNat)
  | refused priority => s!"DEBUG lock request on killed priority lock priority={priority}"
  | admitted priority available runners =>
    s!"DEBUG lock granted without waiting priority={priority} available={available} " ++
      s!"runners={runners}"
  | queued priority ticket waiting demand =>
    s!"DEBUG lock request queued priority={priority} waiter={ticket} waiting={waiting} " ++
      s!"pending_weights={demand}"
  | released priority available waiting =>
    s!"TRACE lock released priority={priority} available={available} waiting={waiting}"
  | withdrawn priority ticket waiting =>
    s!"DEBUG queued lock request abandoned priority={priority} waiter={ticket} " ++
      s!"waiting={waiting}"
  | halted => "INFO priority lock halted"
  | killed abandoned => s!"INFO priority lock killed abandoned={abandoned}"
  | disowned abandoned => s!"DEBUG priority lock dropped by last owner abandoned={abandoned}"
  | granting priority ticket available waiting =>
    s!"TRACE granting queued lock request priority={priority} waiter={ticket} " ++
      s!"available={available} waiting={waiting}"
  | received priority => s!"TRACE queued lock request granted priority={priority}"
  | failed priority => s!"DEBUG queued lock request abandoned by kill priority={priority}"
  | recipientGone => "DEBUG grant recipient gone; releasing its slot"
  | tornDown => "DEBUG instance torn down during grant delivery"
  | stalled available waiting demand =>
    "WARN no grantable priority despite free slots and waiters " ++
      s!"available={available} waiting={waiting} pending_weights={demand}"
  | loopEnded grants passes => s!"DEBUG grant loop exiting grants={grants} passes={passes}"
  | loopFoundHalted grants => s!"DEBUG grant loop exiting: instance halted grants={grants}"
  | loopFoundDropped grants => s!"DEBUG grant loop exiting: instance dropped grants={grants}"

end FairShare
