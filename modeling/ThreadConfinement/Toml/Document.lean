import ThreadConfinement.Toml.Assembly
import ThreadConfinement.Toml.Scalar

/-!
Whole TOML 1.0 documents: keys, arrays, inline tables, headers and comments.
-/

namespace ThreadConfinement.Toml

open Scan

/-- A dotted key has fewer parts than this, and arrays and inline tables nest
less deeply. -/
def nestingLimit : Nat :=
  80

/-- Letters, digits, hyphens and underscores. -/
def isBareKeyChar (c : Char) : Bool :=
  isDecimal c || between 0x41 0x5A c || between 0x61 0x7A c ||
    c == '-' || c == '_'

def comment : Scan PUnit := do
  let _ ← char '#'
  let _ ← row isCommentChar

/-- The end of a line, or of the document. -/
def lineEnd : Scan PUnit :=
  (do let _ ← newline) <|> atEnd

/-- What may follow on a line. -/
def lineRest : Scan PUnit := do
  spaces
  let _ ← option comment
  lineEnd

/-- White space, line ends and comments between the items of an array. -/
def gap : Scan PUnit := do
  let blank : Scan Char := charIf isSpace <|> newline <|> (comment *> newline)
  let _ ← many blank

/-- One part of a key. -/
def keyPart : Scan String := do
  return String.ofList (← basicText <|> literalText <|> row1 isBareKeyChar)

/-- A dotted key, as the parts before the last one and the last one. -/
def dottedKey : Scan (List String × String) := do
  let part : Scan String := spaces *> keyPart <* spaces
  let first ← part
  let rest ← many (char '.' *> part)
  let parts := first :: rest
  check (parts.length < nestingLimit)
  return (parts.dropLast, rest.getLastD first)

/-- One item or more with commas between them. -/
def commaRow (item : Scan α) : Scan (List α) := do
  let first ← item
  let rest ← many (char ',' *> item)
  return first :: rest

/-- An array; a comma may follow the last item. -/
def array (item : Scan Value) : Scan Value := do
  let _ ← char '['
  let items ← (commaRow (gap *> item <* gap) <* option (char ',')) <|> pure []
  gap
  let _ ← char ']'
  return .array items

/-- A key and its value. -/
def keyValue (item : Scan Value) : Scan Pair := do
  let (path, key) ← dottedKey
  let _ ← char '='
  spaces
  return ⟨path, key, ← item⟩

/-- An inline table; it stands on one line. -/
def inlineTableOf (item : Scan Value) : Scan Value := do
  let _ ← char '\x7b'
  let pairs ← commaRow (keyValue item <* spaces) <|> pure []
  spaces
  let _ ← char '\x7d'
  found (inlineTable pairs)

/-- A value that nests at most `depth` arrays and inline tables. -/
def value : Nat → Scan Value
  | 0 => scalar
  | depth + 1 => scalar <|> array (value depth) <|> inlineTableOf (value depth)

def pairLine : Scan Line := do
  let pair ← keyValue (value (nestingLimit - 1))
  lineRest
  return .pair pair

def headerLine : Scan Line := do
  let (isArray, key) ←
    (do
      chars ['[', '[']
      let key ← dottedKey
      chars [']', ']']
      return (true, key)) <|> (do
      let _ ← char '['
      let key ← dottedKey
      let _ ← char ']'
      return (false, key))
  lineRest
  return .header ⟨isArray, key.1, key.2⟩

/-- A line that says nothing. -/
def emptyLine : Scan (Option Line) := do
  (do let _ ← newline) <|> (do comment; lineEnd)
  return none

def line : Scan (Option Line) := do
  spaces
  emptyLine <|> (some <$> headerLine) <|> (some <$> pairLine)

/-- The lines of a document; a byte order mark may stand before them. -/
def document : Scan (List Line) := do
  let _ ← option (char '\ufeff')
  let found ← many line
  spaces
  atEnd
  return found.filterMap id

/-- The table of a document, if the text is one. -/
def parse? (text : String) : Option Value :=
  match document text.toList with
  | none => none
  | some (found, _) => assemble found

end ThreadConfinement.Toml
