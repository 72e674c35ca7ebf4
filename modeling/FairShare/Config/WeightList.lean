import FairShare.Config.Basic
import FairShare.Text.Blank
import FairShare.Text.Decimal

/-!
# Weight lists

The compact text of a list of weights: decimal numerals separated by commas, with white space
allowed around each. A text of white space alone is the empty list. The first token that is not a
weight is reported with its position, before any fault of the configuration as a whole.
-/

namespace FairShare

open Text

namespace WeightList

/-- Cuts the text at every comma. There is always one token more than there are commas. -/
def tokens : List Char → List (List Char)
  | [] => [[]]
  | c :: rest =>
    if c = ',' then [] :: tokens rest
    else match tokens rest with
      | [] => [[c]]
      | t :: ts => (c :: t) :: ts

/-- The weight that a token denotes, white space around it aside. -/
def weight? (token : List Char) : Option UInt32 :=
  (readNumeral? 0xFFFFFFFF (trim token)).map UInt32.ofNat

/-- Reads the tokens in order; `position` is the place of the first of them in the whole list. -/
def readFrom (position : Nat) : List (List Char) → Except ConfigError (List UInt32)
  | [] => .ok []
  | t :: ts =>
    match weight? t with
    | none => .error (.invalidWeight position (String.ofList (trim t)))
    | some w =>
      match readFrom (position + 1) ts with
      | .error e => .error e
      | .ok ws => .ok (w :: ws)

/-- The weights that a text lists. -/
def read (text : String) : Except ConfigError (List UInt32) :=
  if trim text.toList = [] then .ok [] else readFrom 0 (tokens text.toList)

theorem tokens_ne_nil (l : List Char) : tokens l ≠ [] := by
  cases l with
  | nil => simp [tokens]
  | cons c rest =>
    simp only [tokens]
    split
    · simp
    · split <;> simp

@[simp] theorem readFrom_nil (position : Nat) : readFrom position [] = .ok [] := rfl

end WeightList

namespace Config

/-- The configuration with the weights that a text lists, if it has no fault. -/
def ofWeightList (concurrency : UInt64) (text : String) : Except ConfigError Config :=
  match WeightList.read text with
  | .error e => .error e
  | .ok weights => check { concurrency, weights }

end Config

end FairShare
