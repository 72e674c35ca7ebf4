import FairShare.Refusal

/-!
# Rotas

A rota keeps some of the ids `0 … n - 1` in the order in which they were enrolled, and says whose
turn it is. The order lives in a table of links, one for each id, so that an id is found, enrolled
and struck off without a walk. The turn is with a linked id, or with nobody when a round is over.
-/

namespace FairShare

/-- The place of one id among the linked ids. -/
structure Link where
  /-- The linked id before this one. -/
  before : Option Nat := none
  /-- The linked id after this one. -/
  after : Option Nat := none
  /-- Whether this id is linked at all. -/
  linked : Bool := false
deriving DecidableEq, Repr

/-- A sequence of distinct ids in a table of links, with a turn. -/
structure Rota where
  /-- The link of each id, at the place of the id. -/
  links : List Link
  /-- The first linked id. -/
  first : Option Nat := none
  /-- The last linked id. -/
  last : Option Nat := none
  /-- The number of linked ids. -/
  size : Nat := 0
  /-- The id whose turn it is, or none when a round is over. -/
  turn : Option Nat := none
deriving DecidableEq, Repr

namespace Rota

/-- The empty rota with room for the ids below `n`. -/
def ofSize (n : Nat) : Rota where
  links := List.replicate n {}

/-- The link of an id; an id without room has an empty one. -/
def link (l : Rota) (id : Nat) : Link :=
  l.links.getD id {}

/-- Whether the id is linked. -/
def contains (l : Rota) (id : Nat) : Bool :=
  (l.link id).linked

/-- The linked id after this one. -/
def after? (l : Rota) (id : Nat) : Option Nat :=
  (l.link id).after

/-- The linked id before this one. -/
def before? (l : Rota) (id : Nat) : Option Nat :=
  (l.link id).before

/-- At most `n` ids, from `id` on, each leading to the next by `step`. -/
def walk (step : Nat → Option Nat) : Nat → Option Nat → List Nat
  | 0, _ => []
  | _ + 1, none => []
  | n + 1, some id => id :: walk step n (step id)

/-- The linked ids in their order. -/
def toList (l : Rota) : List Nat :=
  walk l.after? l.size l.first

/-- The linked ids from the last to the first. -/
def toListBackward (l : Rota) : List Nat :=
  walk l.before? l.size l.last

/-- The linked ids in ascending order. -/
def ids (l : Rota) : List Nat :=
  (l.links.zipIdx.filter fun entry => entry.1.linked).map Prod.snd

/-- Changes which id comes after `id`, if that is one. -/
def setAfter (id after : Option Nat) (links : List Link) : List Link :=
  match id with
  | none => links
  | some i => links.modify i fun link => { link with after }

/-- Changes which id comes before `id`, if that is one. -/
def setBefore (id before : Option Nat) (links : List Link) : List Link :=
  match id with
  | none => links
  | some i => links.modify i fun link => { link with before }

/-- Puts an id that has room and is not linked after the last one. -/
def append (l : Rota) (id : Nat) : Rota :=
  { l with
    links := setAfter l.last (some id) (l.links.set id { before := l.last, linked := true })
    first := if l.last.isNone then some id else l.first
    last := some id
    size := l.size + 1 }

/-- Puts the id at the end, unless it is linked already. The turn stays. -/
def enrol (l : Rota) (id : Nat) : Rota :=
  if l.contains id then l else l.append id

/-- Puts the id at the end and says whether it was not linked before; an id without room is
refused. -/
def enrol? (l : Rota) (id : Nat) : Except Refusal (Bool × Rota) :=
  if id < l.links.length then .ok (!l.contains id, l.enrol id)
  else .error (.slotOutOfRange id)

/-- Takes out a linked id. If it was its turn, the turn goes to the id after it. -/
def unlink (l : Rota) (id : Nat) : Rota :=
  let before := l.before? id
  let after := l.after? id
  { links := (setBefore after before (setAfter before after l.links)).set id {}
    first := if before.isNone then after else l.first
    last := if after.isNone then before else l.last
    size := l.size - 1
    turn := if l.turn = some id then after else l.turn }

/-- Takes the id out, if it is linked. -/
def strike (l : Rota) (id : Nat) : Rota :=
  if l.contains id then l.unlink id else l

/-- Takes every id out and ends the round. -/
def clear (l : Rota) : Rota :=
  ofSize l.links.length

/-- Gives the turn to the first id if a round is over; otherwise it stays. -/
def openRound (l : Rota) : Rota :=
  if l.turn.isNone then { l with turn := l.first } else l

/-- Gives the turn to the next id; after the last one the round is over. -/
def passTurn (l : Rota) : Rota :=
  { l with turn := l.turn.bind l.after? }

@[simp] theorem toList_ofSize (n : Nat) : (ofSize n).toList = [] := rfl

@[simp] theorem length_links_clear (l : Rota) : l.clear.links.length = l.links.length :=
  List.length_replicate

@[simp] theorem turn_passTurn (l : Rota) : l.passTurn.turn = l.turn.bind l.after? := rfl

theorem turn_openRound (l : Rota) : l.openRound.turn = l.turn.or l.first := by
  unfold openRound
  cases h : l.turn <;> simp [h]

end Rota

end FairShare
