/-!
# Decimal numerals

Numerals are nonempty runs of the ten ASCII digits; leading zeros are allowed. Readers of numbers
differ only in the sign and the largest value that they accept.
-/

namespace FairShare.Text

/-- Whether the text is a nonempty run of digits. -/
def isNumeral (l : List Char) : Bool :=
  !l.isEmpty && l.all Char.isDigit

/-- The number that a run of digits denotes. -/
def numeralValue (l : List Char) : Nat :=
  Nat.ofDigitChars 10 l 0

/-- The text without the plus sign that may stand before a numeral. -/
def dropPlus : List Char → List Char
  | '+' :: l => l
  | l => l

/-- Reads a numeral that may start with a plus sign and denotes at most `largest`. -/
def readNumeral? (largest : Nat) (l : List Char) : Option Nat :=
  let digits := dropPlus l
  if isNumeral digits && decide (numeralValue digits ≤ largest) then
    some (numeralValue digits)
  else none

theorem isNumeral_iff (l : List Char) :
    isNumeral l = true ↔ l ≠ [] ∧ ∀ c ∈ l, c.isDigit = true := by
  simp [isNumeral]

theorem readNumeral?_eq_some_iff (largest n : Nat) (l : List Char) :
    readNumeral? largest l = some n ↔
      isNumeral (dropPlus l) = true ∧ numeralValue (dropPlus l) = n ∧ n ≤ largest := by
  simp only [readNumeral?, Bool.and_eq_true, decide_eq_true_eq, Option.ite_none_right_eq_some,
    Option.some.injEq]
  grind

/-- The decimal numeral of a number has no character besides digits. -/
theorem notMem_toDigits {d : Char} (hd : d.isDigit = false) (n : Nat) :
    d ∉ Nat.toDigits 10 n := by
  intro mem
  simp [Nat.isDigit_of_mem_toDigits (by decide) (by decide) mem] at hd

end FairShare.Text
