import FairShare.Lock.Instance

/-!
# Named forms of what an instance hands out

How handles, locks, settled requests and the grant loop are written for a reader of logs.
-/

namespace FairShare

open Text

/-- The sentence that reports a killed request. -/
def killedMessage : String := "priority lock killed; request abandoned"

namespace Instance

/-- A handle in named form. -/
def handleForm (x : Instance) : String :=
  "PriorityMultiLock(" ++ x.state.snapshot.namedForm ++ ")"

/-- The priority at which a grant counts. -/
def grantPriority (x : Instance) (g : Nat) : Nat :=
  match x.grants[g]? with
  | none => 0
  | some grant => grant.priority

/-- A lock in named form. -/
def lockForm (x : Instance) (g : Nat) : String :=
  recordForm "Lock"
    [("priority", toString (x.grantPriority g)), ("locked", truthWord (x.isLocked g))]

/-- A verdict in named form. -/
def verdictForm (x : Instance) : Verdict → String
  | .granted g => "Ok(" ++ x.lockForm g ++ ")"
  | .killed => "Err(Killed)"

/-- A request in named form; a queued one has none. -/
def requestForm? (x : Instance) (r : Nat) : Option String :=
  match x.requests[r]? with
  | none => none
  | some q =>
    match q.progress with
    | .settled (some verdict) => some (wrap ("Done(Some(" ++ x.verdictForm verdict ++ "))"))
    | .settled none => some (wrap "Done(None)")
    | .finished => some (wrap "Finished")
    | .queued _ _ => none
    | .dropped => none
where
  wrap (state : String) : String := recordForm "LockFuture" [("state", state)]

/-- The grant loop in named form. -/
def loopForm (x : Instance) : String :=
  recordForm "GrantLoop"
    [("shared", "(Weak)"), ("passes", toString x.loop.passes), ("grants", toString x.loop.grants)]

end Instance

end FairShare
