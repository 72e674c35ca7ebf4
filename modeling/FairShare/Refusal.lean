/-!
# Refused calls

A call that breaks what its caller promised does nothing and is refused. The causes and their
wording stand here.
-/

namespace FairShare

/-- What the caller of a refused call did wrong. -/
inductive Refusal where
  /-- The id has no slot in an active list. -/
  | slotOutOfRange (id : Nat)
  /-- The priority is above the largest one. -/
  | priorityOutOfRange (priority largest : Nat)
  /-- The result of the request has been handed out already. -/
  | polledAfterCompletion
deriving DecidableEq, Repr

/-- The sentence that reports the cause. -/
def Refusal.message : Refusal → String
  | slotOutOfRange id => s!"slot {id} out of range"
  | priorityOutOfRange priority largest => s!"priority {priority} out of range (max {largest})"
  | polledAfterCompletion => "LockFuture polled after completion"

end FairShare
