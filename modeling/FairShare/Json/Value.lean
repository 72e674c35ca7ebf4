import FairShare.Json.Token

/-!
# JSON values

The tree that a list of tokens spells. Readers need whole numbers, texts, arrays and objects; of
all other values it is enough that they are well formed. Nesting may be arbitrarily deep, so the
open arrays and objects are kept in a list of frames and the tokens are taken one by one.
-/

namespace FairShare.Json

/-- A JSON value. -/
inductive Value where
  /-- One of the three words. -/
  | word
  /-- A number, with its value if it is written as a plain natural number. -/
  | number (whole : Option Nat)
  /-- A text, with its characters unless a surrogate stands alone in it. -/
  | text (content : Option String)
  /-- The items in their order. -/
  | array (items : List Value)
  /-- The fields in their order; names may repeat. -/
  | object (fields : List (Option String × Value))

/-- An array or object that is still open, with its finished parts, latest first. -/
inductive Frame where
  | items (done : List Value)
  | fields (done : List (Option String × Value)) (name : Option String)

mutual

/-- Reads one value and then what the frames still ask for, up to the last token. -/
def readValue (frames : List Frame) : List Token → Option Value
  | .word :: rest => finish frames .word rest
  | .number whole :: rest => finish frames (.number whole) rest
  | .text content :: rest => finish frames (.text content) rest
  | .openBracket :: .closeBracket :: rest => finish frames (.array []) rest
  | .openBracket :: rest => readValue (.items [] :: frames) rest
  | .openBrace :: .closeBrace :: rest => finish frames (.object []) rest
  | .openBrace :: .text name :: .colon :: rest => readValue (.fields [] name :: frames) rest
  | _ => none

/-- Puts a finished value into the innermost frame. -/
def finish (frames : List Frame) (v : Value) (tokens : List Token) : Option Value :=
  match frames, tokens with
  | [], [] => some v
  | .items done :: outer, .comma :: rest => readValue (.items (v :: done) :: outer) rest
  | .items done :: outer, .closeBracket :: rest =>
    finish outer (.array (v :: done).reverse) rest
  | .fields done name :: outer, .comma :: .text next :: .colon :: rest =>
    readValue (.fields ((name, v) :: done) next :: outer) rest
  | .fields done name :: outer, .closeBrace :: rest =>
    finish outer (.object ((name, v) :: done).reverse) rest
  | _, _ => none

end

/-- The value that a text spells, with nothing but white space around it. -/
def Value.read? (text : String) : Option Value :=
  (tokens text.toList).bind (readValue [])

namespace Value

/-- The number, if it is a plain natural number of at most `largest`. -/
def natUpTo? (largest : Nat) : Value → Option Nat
  | number (some n) => if n ≤ largest then some n else none
  | _ => none

/-- The items of an array. -/
def items? : Value → Option (List Value)
  | array items => some items
  | _ => none

end Value

end FairShare.Json
