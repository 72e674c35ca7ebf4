import FairShare.Config.Error

/-!
# Configurations

A configuration gives the number of slots and one weight per priority. It may be built from any
values; `Config.check` says whether a lock can be made from it, and names the first fault if not.
-/

namespace FairShare

open Text

/-- The number of slots and the weight of each priority, whose id is its place in the list. -/
structure Config where
  /-- The largest number of simultaneous holders. -/
  concurrency : UInt64
  /-- The weight of each priority. -/
  weights : List UInt32
deriving DecidableEq, Repr

namespace Config

/-- The first fault of the configuration: the concurrency, then emptiness, then the weights. -/
def fault? (c : Config) : Option ConfigError :=
  if c.concurrency = 0 then some .zeroConcurrency
  else if c.weights = [] then some .noPriorities
  else (c.weights.findIdx? (· = 0)).map .zeroWeight

/-- The configuration itself if it has no fault. -/
def check (c : Config) : Except ConfigError Config :=
  match c.fault? with
  | some e => .error e
  | none => .ok c

/-- A configuration has no fault when slots and weights exist and none of them is zero. -/
theorem fault?_eq_none_iff (c : Config) :
    c.fault? = none ↔ c.concurrency ≠ 0 ∧ c.weights ≠ [] ∧ ∀ w ∈ c.weights, w ≠ 0 := by
  unfold fault?
  split
  · simp_all
  · split <;> simp_all

/-- The configuration in named form. -/
def namedForm (c : Config) : String :=
  recordForm "PriorityLockConfig"
    [("concurrency", toString c.concurrency.toNat),
     ("weights", listForm (c.weights.map fun w => toString w.toNat))]

/-- The configuration as a JSON text. -/
def jsonForm (c : Config) : String :=
  jsonObject
    [("concurrency", toString c.concurrency.toNat),
     ("weights", jsonArray (c.weights.map fun w => toString w.toNat))]

end Config

end FairShare
