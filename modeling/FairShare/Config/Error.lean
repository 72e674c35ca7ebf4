import FairShare.Text.Quoted
import FairShare.Text.Record

/-!
# Why a configuration is refused

Each cause carries what a report of it names. The wording of all of them stands here.
-/

namespace FairShare

open Text

/-- The causes for which a configuration is refused. -/
inductive ConfigError where
  /-- No holder would ever be admitted. -/
  | zeroConcurrency
  /-- There is no priority to request. -/
  | noPriorities
  /-- The weight of this priority is zero. -/
  | zeroWeight (priority : Nat)
  /-- The token at this position of a weight list is not a weight. -/
  | invalidWeight (position : Nat) (token : String)
deriving DecidableEq, Repr

namespace ConfigError

/-- The name of the cause. -/
def name : ConfigError → String
  | zeroConcurrency => "ZeroConcurrency"
  | noPriorities => "NoPriorities"
  | zeroWeight _ => "ZeroWeight"
  | invalidWeight _ _ => "InvalidWeight"

/-- The sentence that reports the cause. -/
def message : ConfigError → String
  | zeroConcurrency => "concurrency must be at least 1"
  | noPriorities => "weight list is empty; at least one priority is required"
  | zeroWeight priority => s!"priority {priority} has weight 0; weights must be positive"
  | invalidWeight position token =>
    "invalid weight " ++ quote token ++ s!" at position {position}"

/-- The cause in named form. -/
def namedForm : ConfigError → String
  | zeroWeight priority => recordForm "ZeroWeight" [("priority", toString priority)]
  | invalidWeight position token =>
    recordForm "InvalidWeight" [("position", toString position), ("token", quote token)]
  | e => e.name

end ConfigError

end FairShare
