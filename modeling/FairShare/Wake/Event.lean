import FairShare.Wake.Agenda

/-!
# Wake events

A wake event is fired by many parties and watched by one listener. Firing it stores a permit,
which the next poll takes, whether or not the listener was there; any number of firings between
two polls leave one permit. A poll that finds no permit registers its waker in place of any
earlier one.
-/

namespace FairShare

/-- A wake event: the stored permit and the registered waker. -/
structure WakeEvent where
  /-- Whether the event was fired since the last poll that saw it. -/
  permit : Bool := false
  /-- The waker to call at the next firing. -/
  waker : Option Waker := none
deriving DecidableEq, Repr

namespace WakeEvent

/-- Stores a permit and takes the registered waker out. The caller then calls that waker. -/
def fire (e : WakeEvent) : WakeEvent × Option Waker :=
  ({ e with permit := true, waker := none }, e.waker)

/-- Takes the permit, or registers the waker if there is none. The answer is whether there was a
permit. -/
def poll (w : Waker) (e : WakeEvent) : Bool × WakeEvent :=
  if e.permit then (true, { permit := false, waker := none })
  else (false, { e with waker := some w })

theorem poll_fst (w : Waker) (e : WakeEvent) : (e.poll w).1 = e.permit := by
  unfold poll
  cases e.permit <;> rfl

end WakeEvent

end FairShare
