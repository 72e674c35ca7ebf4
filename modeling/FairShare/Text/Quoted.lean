import FairShare.Text.Unprintable

/-!
# Quoted text

A text between double quotes in which every character is visible. A quote and a backslash get a
backslash, four controls have a letter of their own, and every other character without a visible
form is written by its number.
-/

namespace FairShare.Text

/-- The number of the character in lower-case hexadecimal, without leading zeros. -/
def numberForm (c : Char) : List Char :=
  ['\\', 'u', '\x7b'] ++ Nat.toDigits 16 c.toNat ++ ['\x7d']

/-- The form of one character inside a quoted text. -/
def quotedChar (c : Char) : List Char :=
  if c = '"' then ['\\', '"']
  else if c = '\\' then ['\\', '\\']
  else if c = '\x00' then ['\\', '0']
  else if c = '\t' then ['\\', 't']
  else if c = '\n' then ['\\', 'n']
  else if c = '\r' then ['\\', 'r']
  else if isUnprintable c then numberForm c
  else [c]

/-- The quoted form of a text. -/
def quote (s : String) : String :=
  String.ofList ('"' :: s.toList.flatMap quotedChar ++ ['"'])

theorem quote_empty : quote "" = "\"\"" := by decide

example : quotedChar '\\' = ['\\', '\\'] := rfl

end FairShare.Text
