import FairShare.Text.Decimal

/-!
# JSON tokens

A JSON text is cut into tokens before its structure is looked at. White space is the space, the
tab, the line feed and the carriage return. A numeral token keeps its value when it is written as
a plain natural number; a text token keeps its characters when its escapes denote characters.
-/

namespace FairShare.Json

/-- The tokens of a JSON text. -/
inductive Token where
  | openBrace
  | closeBrace
  | openBracket
  | closeBracket
  | comma
  | colon
  /-- One of the three words. -/
  | word
  /-- A numeral, with its value if it has no sign, fraction or exponent. -/
  | number (whole : Option Nat)
  /-- A quoted text, with its characters unless a surrogate stands alone in it. -/
  | text (content : Option String)
deriving DecidableEq, Repr

/-- Whether the character may stand between tokens. -/
def isSpace (c : Char) : Bool :=
  c == ' ' || c == '\t' || c == '\n' || c == '\r'

/-- The value of a hexadecimal digit. -/
def hexDigit? (c : Char) : Option Nat :=
  if c.isDigit then some (c.toNat - '0'.toNat)
  else if 'a' ≤ c ∧ c ≤ 'f' then some (c.toNat - 'a'.toNat + 10)
  else if 'A' ≤ c ∧ c ≤ 'F' then some (c.toNat - 'A'.toNat + 10)
  else none

/-- The number that hexadecimal digits denote. -/
def hexValue? (l : List Char) : Option Nat :=
  l.foldlM (fun n c => (hexDigit? c).map (16 * n + ·)) 0

/-- The code of the character that a letter after a backslash stands for. -/
def escaped? : Char → Option Nat
  | '"' => some 0x22
  | '\\' => some 0x5c
  | '/' => some 0x2f
  | 'b' => some 0x08
  | 'f' => some 0x0c
  | 'n' => some 0x0a
  | 'r' => some 0x0d
  | 't' => some 0x09
  | _ => none

/-- Reads a quoted text after its opening quote: the codes in it and what follows the closing
quote. Controls must be escaped. -/
def scanText : List Char → Option (List Nat × List Char)
  | [] => none
  | '"' :: rest => some ([], rest)
  | '\\' :: 'u' :: a :: b :: c :: d :: rest =>
    match hexValue? [a, b, c, d], scanText rest with
    | some code, some (codes, r) => some (code :: codes, r)
    | _, _ => none
  | '\\' :: e :: rest =>
    match escaped? e, scanText rest with
    | some code, some (codes, r) => some (code :: codes, r)
    | _, _ => none
  | c :: rest =>
    if c.toNat < 0x20 then none
    else match scanText rest with
      | some (codes, r) => some (c.toNat :: codes, r)
      | none => none

/-- Whether the code opens a surrogate pair. -/
def opensPair (code : Nat) : Bool :=
  0xd800 ≤ code && code ≤ 0xdbff

/-- Whether the code closes a surrogate pair. -/
def closesPair (code : Nat) : Bool :=
  0xdc00 ≤ code && code ≤ 0xdfff

/-- The characters that codes denote, two codes to each surrogate pair; none if a surrogate has no
partner. -/
def decode? : List Nat → Option (List Char)
  | [] => some []
  | [a] => if opensPair a || closesPair a then none else some [Char.ofNat a]
  | a :: b :: rest =>
    if opensPair a && closesPair b then
      (decode? rest).map (Char.ofNat (0x10000 + (a - 0xd800) * 0x400 + (b - 0xdc00)) :: ·)
    else if opensPair a || closesPair a then none
    else (decode? (b :: rest)).map (Char.ofNat a :: ·)

/-- Takes a run of digits off the front. -/
def scanDigits (l : List Char) : List Char × List Char :=
  (l.takeWhile Char.isDigit, l.dropWhile Char.isDigit)

/-- Takes off a fraction, if one stands in front, and says whether one did. A point must be
followed by a digit. -/
def scanFraction : List Char → Option (Bool × List Char)
  | '.' :: l =>
    let (digits, rest) := scanDigits l
    if digits = [] then none else some (true, rest)
  | l => some (false, l)

/-- The text without the sign that may stand before the digits of an exponent. -/
def dropSign : List Char → List Char
  | '+' :: l => l
  | '-' :: l => l
  | l => l

/-- Takes off an exponent, if one stands in front, and says whether one did. Its mark must be
followed by a digit, with or without a sign between. -/
def scanExponent : List Char → Option (Bool × List Char)
  | [] => some (false, [])
  | c :: l =>
    if c = 'e' ∨ c = 'E' then
      let (digits, rest) := scanDigits (dropSign l)
      if digits = [] then none else some (true, rest)
    else some (false, c :: l)

/-- Whether the digits may stand before a fraction: at least one, and no zero before another. -/
def isIntegerPart : List Char → Bool
  | [] => false
  | [_] => true
  | c :: _ => c != '0'

/-- Reads a numeral whose sign has been taken off. -/
def scanUnsigned (signed : Bool) (l : List Char) : Option (Token × List Char) :=
  let (digits, afterDigits) := scanDigits l
  if isIntegerPart digits then
    match scanFraction afterDigits with
    | none => none
    | some (hasFraction, afterFraction) =>
      match scanExponent afterFraction with
      | none => none
      | some (hasExponent, rest) =>
        let whole :=
          if signed || hasFraction || hasExponent then none else some (Text.numeralValue digits)
        some (.number whole, rest)
  else none

/-- Reads the token in front of the text, which must not start with white space. -/
def scanToken : List Char → Option (Token × List Char)
  | '\x7b' :: rest => some (.openBrace, rest)
  | '\x7d' :: rest => some (.closeBrace, rest)
  | '[' :: rest => some (.openBracket, rest)
  | ']' :: rest => some (.closeBracket, rest)
  | ',' :: rest => some (.comma, rest)
  | ':' :: rest => some (.colon, rest)
  | 't' :: 'r' :: 'u' :: 'e' :: rest => some (.word, rest)
  | 'f' :: 'a' :: 'l' :: 's' :: 'e' :: rest => some (.word, rest)
  | 'n' :: 'u' :: 'l' :: 'l' :: rest => some (.word, rest)
  | '"' :: rest =>
    (scanText rest).map fun (codes, r) => (.text ((decode? codes).map String.ofList), r)
  | '-' :: rest => scanUnsigned true rest
  | l => scanUnsigned false l

/-- The tokens of a text, of which there are at most `n`, or none if it cannot be cut into
tokens. -/
def tokensUpTo : Nat → List Char → Option (List Token)
  | 0, l => if l.dropWhile isSpace = [] then some [] else none
  | n + 1, l =>
    match l.dropWhile isSpace with
    | [] => some []
    | c :: rest =>
      match scanToken (c :: rest) with
      | none => none
      | some (t, r) => (tokensUpTo n r).map (t :: ·)

/-- The tokens of a text, or none if it cannot be cut into tokens. Each has at least one
character, so there are no more of them than characters. -/
def tokens (l : List Char) : Option (List Token) :=
  tokensUpTo l.length l

end FairShare.Json
