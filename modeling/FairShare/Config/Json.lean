import FairShare.Config.Basic
import FairShare.Json.Value

/-!
# Configurations as JSON

A configuration is read from an object that has each of its two fields exactly once, or from an
array of the two values in order. Fields of other names are passed over. Faults of the
configuration are not looked for here.
-/

namespace FairShare.Config

open Json

/-- The configuration with these two values, if they are in range. -/
def ofJsonValues? (concurrency weights : Value) : Option Config :=
  match concurrency.natUpTo? 0xFFFFFFFFFFFFFFFF,
    weights.items?.bind fun items => items.mapM (Value.natUpTo? 0xFFFFFFFF) with
  | some c, some ws => some { concurrency := UInt64.ofNat c, weights := ws.map UInt32.ofNat }
  | _, _ => none

/-- The values of the fields with this name, in their order. -/
def valuesAt (name : String) (fields : List (Option String × Value)) : List Value :=
  (fields.filter fun f => f.1 == some name).map Prod.snd

/-- The configuration that a JSON value describes. -/
def ofJsonValue? : Value → Option Config
  | .array [concurrency, weights] => ofJsonValues? concurrency weights
  | .object fields =>
    -- a name with a lone surrogate is no name at all, even one to be passed over
    if fields.all fun f => f.1.isSome then
      match valuesAt "concurrency" fields, valuesAt "weights" fields with
      | [concurrency], [weights] => ofJsonValues? concurrency weights
      | _, _ => none
    else none
  | _ => none

/-- The configuration that a JSON text describes. -/
def ofJson? (text : String) : Option Config :=
  (Value.read? text).bind ofJsonValue?

end FairShare.Config
