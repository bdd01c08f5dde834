import ThreadConfinement.Toml.Scanner
import ThreadConfinement.Toml.Value

/-!
Strings, numbers, truth values and moments, as TOML 1.0 writes them.
-/

namespace ThreadConfinement.Toml

open Scan

/-- The code point of the character lies between two others. -/
def between (first last : Nat) (c : Char) : Bool :=
  first ≤ c.toNat && c.toNat ≤ last

/-- Spaces and tabs. -/
def isSpace (c : Char) : Bool :=
  c == ' ' || c == '\t'

/-- Characters beyond ASCII, which texts and comments hold without
restriction. -/
def isBeyondAscii (c : Char) : Bool :=
  0x80 ≤ c.toNat

/-- Characters of a comment. -/
def isCommentChar (c : Char) : Bool :=
  c == '\t' || between 0x20 0x7E c || isBeyondAscii c

/-- Characters that stand for themselves between double quotes. -/
def isBasicChar (c : Char) : Bool :=
  isCommentChar c && c != '"' && c != '\\'

/-- Characters of a text between single quotes. -/
def isLiteralChar (c : Char) : Bool :=
  isCommentChar c && c != '\''

def isDecimal (c : Char) : Bool :=
  between 0x30 0x39 c

/-- The value of a hexadecimal digit. -/
def hexValue? (c : Char) : Option Nat :=
  if isDecimal c then some (c.toNat - 0x30)
  else if between 0x61 0x66 c then some (c.toNat - 0x61 + 10)
  else if between 0x41 0x46 c then some (c.toNat - 0x41 + 10)
  else none

/-- The number that digits write in a base. -/
def digitsValue (base : Nat) (digits : List Char) : Nat :=
  digits.foldl (fun n c => base * n + (hexValue? c).getD 0) 0

def newline : Scan Char :=
  char '\n' <|> (char '\r' *> char '\n')

/-- Spaces and tabs, if there are any. -/
def spaces : Scan PUnit := do
  let _ ← row isSpace

/-- Exactly `count` characters that pass the test. -/
def exactly (test : Char → Bool) : Nat → Scan (List Char)
  | 0 => pure []
  | count + 1 => do
    let first ← charIf test
    let rest ← exactly test count
    return first :: rest

/-- The character of an escape by code point; not every number is one. -/
def codePoint (count : Nat) : Scan Char := do
  let n := digitsValue 16 (← exactly (fun c => (hexValue? c).isSome) count)
  if n.isValidChar then return Char.ofNat n else failure

/-- What may follow a backslash. -/
def escaped : Scan Char := do
  let _ ← char '\\'
  match ← charIf (fun _ => true) with
  | 'b' => return '\x08'
  | 't' => return '\t'
  | 'n' => return '\n'
  | 'f' => return '\x0c'
  | 'r' => return '\r'
  | '"' => return '"'
  | '\\' => return '\\'
  | 'u' => codePoint 4
  | 'U' => codePoint 8
  | _ => failure

/-- A text on one line between double quotes. -/
def basicText : Scan (List Char) := do
  let _ ← char '"'
  let cs ← many (charIf isBasicChar <|> escaped)
  let _ ← char '"'
  return cs

/-- A text on one line between single quotes. -/
def literalText : Scan (List Char) := do
  let _ ← char '\''
  let cs ← row isLiteralChar
  let _ ← char '\''
  return cs

/-- One or two quotes inside a text that three quotes close. -/
def innerQuotes (quote : Char) : Scan (List Char) := do
  let quotes ← row1 (· == quote)
  check (quotes.length ≤ 2)
  return quotes

/-- The three closing quotes, and up to two quotes of the text before them. -/
def closingQuotes (quote : Char) : Scan (List Char) := do
  let quotes ← exactly (· == quote) 5 <|> exactly (· == quote) 4 <|> exactly
      (· == quote) 3
  return quotes.drop 3

/-- A backslash at the end of a line, and all the white space after it. -/
def continuation : Scan (List Char) := do
  let _ ← char '\\'
  spaces
  let _ ← newline
  let _ ← many (charIf isSpace <|> newline)
  return []

/-- A text over several lines: three quotes, the pieces, and three quotes.  A
line end directly after the opening quotes does not count, and all line ends are
line feeds. -/
def multiLineText (quote : Char) (piece : Scan (List Char)) :
    Scan (List Char) := do
  chars [quote, quote, quote]
  let _ ← option newline
  let pieces ← many (piece <|> ((fun c => [c]) <$> newline) <|>
      innerQuotes quote)
  let last ← closingQuotes quote
  return pieces.flatten ++ last

/-- Any text. -/
def anyText : Scan (List Char) :=
  multiLineText '"' (row1 isBasicChar <|> continuation <|>
    ((fun c => [c]) <$> escaped)) <|> basicText
    <|> multiLineText '\'' (row1 isLiteralChar)
    <|> literalText

/-- Digits with single underscores between them; the underscores are left
out. -/
def digitRow (test : Char → Bool) : Scan (List Char) := do
  let first ← charIf test
  let rest ← many (charIf test <|> (char '_' *> charIf test))
  return first :: rest

def sign : Scan (Option Char) :=
  option (char '+' <|> char '-')

/-- The digits of a decimal integer without its sign: no zero stands before
other digits. -/
def decimalDigits : Scan (List Char) := do
  match ← digitRow isDecimal with
  | '0' :: _ :: _ => failure
  | digits => return digits

/-- An integer of 64 bits. -/
def inRange (n : Int) : Bool :=
  Int64.minValue.toInt ≤ n && n ≤ Int64.maxValue.toInt

/-- An integer after a base mark. -/
def basedInteger (mark : Char) (base : Nat) : Scan Int := do
  chars ['0', mark]
  let digits ← digitRow (fun c => (hexValue? c).any (· < base))
  return digitsValue base digits

def decimalInteger : Scan Int := do
  let negative := (← sign) == some '-'
  let n : Int := digitsValue 10 (← decimalDigits)
  return if negative then -n else n

def integer : Scan Value := do
  let n ← basedInteger 'x' 16 <|> basedInteger 'o' 8 <|> basedInteger 'b' 2 <|>
      decimalInteger
  check (inRange n)
  return .integer n

/-- The number `digits · 10 ^ exponent` lies beyond the doubles: it would be
rounded to infinity. -/
def beyondDoubles (digits : List Char) (exponent : Int) : Bool :=
  let significant := digits.dropWhile (· == '0')
  let magnitude : Int := significant.length + exponent
  let bound := Nat.pow 2 1024 - Nat.pow 2 970
  if significant.isEmpty || magnitude < 309 then false
  else if 309 < magnitude then true
  else
    bound * Nat.pow 10 (-exponent).toNat ≤
      digitsValue 10 significant * Nat.pow 10 exponent.toNat

/-- The part of a float after the point. -/
def fraction : Scan (List Char) :=
  char '.' *> digitRow isDecimal

def exponent : Scan Int := do
  let _ ← char 'e' <|> char 'E'
  let negative := (← sign) == some '-'
  let n : Int := digitsValue 10 (← digitRow isDecimal)
  return if negative then -n else n

/-- A number with a fraction or an exponent; positive ones must not be too
large. -/
def decimalFloat : Scan PUnit := do
  let negative := (← sign) == some '-'
  let whole ← decimalDigits
  let (places, power) ←
    (do
      let places ← fraction
      let power ← option exponent
      return (places, power.getD 0)) <|> (do return ([], ← exponent))
  check (negative || !beyondDoubles (whole ++ places) (power - places.length))

/-- Infinities, and what is no number. -/
def specialFloat : Scan PUnit := do
  let _ ← sign
  chars ['i', 'n', 'f'] <|> chars ['n', 'a', 'n']

def float : Scan Value := do
  decimalFloat <|> specialFloat
  return .float

/-- A number of exactly `count` digits between two others. -/
def digitsWithin (count first last : Nat) : Scan Nat := do
  let n := digitsValue 10 (← exactly isDecimal count)
  check (first ≤ n && n ≤ last)
  return n

/-- The number of days of a month. -/
def daysOf (year month : Nat) : Nat :=
  if month == 2 then
    if (year % 4 == 0 && year % 100 != 0) || year % 400 == 0 then 29 else 28
  else if month == 4 || month == 6 || month == 9 || month == 11 then 30
  else 31

def date : Scan PUnit := do
  let year ← digitsWithin 4 0 9999
  let _ ← char '-'
  let month ← digitsWithin 2 1 12
  let _ ← char '-'
  let _ ← digitsWithin 2 1 (daysOf year month)

/-- A time of day; the last second of a day may be a leap second. -/
def time : Scan PUnit := do
  let _ ← digitsWithin 2 0 23
  let _ ← char ':'
  let _ ← digitsWithin 2 0 59
  let _ ← char ':'
  let _ ← digitsWithin 2 0 60
  let _ ← option (char '.' *> row1 isDecimal)

/-- The distance from universal time. -/
def offset : Scan PUnit :=
  (do let _ ← char 'Z' <|> char 'z') <|> do
    let _ ← char '+' <|> char '-'
    let _ ← digitsWithin 2 0 23
    let _ ← char ':'
    let _ ← digitsWithin 2 0 59

/-- A date with or without a time, or a time alone. -/
def moment : Scan Value := do
  let dated : Scan PUnit := do
    date
    let _ ← option (do
      let _ ← char 'T' <|> char 't' <|> char ' '
      time
      option offset)
  dated <|> time
  return .moment

def boolean : Scan Value :=
  (do chars ['t', 'r', 'u', 'e']; return .boolean true)
    <|> (do chars ['f', 'a', 'l', 's', 'e']; return .boolean false)

/-- A value that holds no others. -/
def scalar : Scan Value :=
  ((fun cs => .text (String.ofList cs)) <$> anyText) <|> boolean <|> moment <|>
    float <|> integer

end ThreadConfinement.Toml
