import FairShare.Rota.Basic

/-!
# Scripts on a rota
-/

namespace FairShare.RotaScript

/-- A step on a rota. -/
inductive Step where
  | enrol (id : Nat)
  | strike (id : Nat)
  | contains (id : Nat)
  | after (id : Nat)
  | openRound
  | passTurn
  | clear
deriving DecidableEq, Repr

/-- The reply of a step. -/
inductive Reply where
  | refused (cause : Refusal)
  | truth (b : Bool)
  /-- An id, or nobody. -/
  | id (id : Option Nat)
  | done
deriving DecidableEq, Repr

/-- Runs a step. Striking an id off tells which id came after it. -/
def Step.run (step : Step) (l : Rota) : Reply × Rota :=
  match step with
  | enrol id =>
    match l.enrol? id with
    | .error cause => (.refused cause, l)
    | .ok (added, l) => (.truth added, l)
  | strike id => (.id (if l.contains id then l.after? id else none), l.strike id)
  | contains id => (.truth (l.contains id), l)
  | after id => (.id (l.after? id), l)
  | openRound => (.id l.openRound.turn, l.openRound)
  | passTurn => (.done, l.passTurn)
  | clear => (.done, l.clear)

/-- What a rota shows of itself after a step. -/
structure Observation where
  /-- The reply of the step. -/
  reply : Reply
  /-- The number of linked ids. -/
  size : Nat
  /-- The linked ids, ascending. -/
  ids : List Nat
  /-- The id after each of them. -/
  followers : List (Option Nat)
  /-- Whose turn it would be if a round were opened. -/
  turn : Option Nat
  /-- Whose turn it would be if the turn were passed and then a round opened. -/
  turnAfter : Option Nat
deriving DecidableEq, Repr

/-- Looks at a rota after a step. -/
def observe (reply : Reply) (l : Rota) : Observation where
  reply
  size := l.size
  ids := l.ids
  followers := l.ids.map l.after?
  turn := l.openRound.turn
  turnAfter := l.passTurn.openRound.turn

/-- Runs the steps in order and looks at the rota after each. -/
def play (l : Rota) : List Step → List Observation
  | [] => []
  | step :: rest =>
    let (reply, l) := step.run l
    observe reply l :: play l rest

end FairShare.RotaScript
