/-!
Glob patterns over qualified names.

`?` stands for one character, `*` for any sequence, `[...]` and `[!...]` for one
character in or outside a class, and `**` as a whole path component for any
number of components.  There are no escapes.  A pattern has to cover the whole
text.
-/

namespace ThreadConfinement

/-- One item of a character class. -/
inductive ClassItem where
  | single (c : Char)
  | range (first last : Char)
deriving DecidableEq

namespace ClassItem

def covers : ClassItem → Char → Bool
  | single a, c => a == c
  | range first last, c => first ≤ c && c ≤ last

/-- The items of the text between the brackets: three characters with a hyphen
in the middle are a range. -/
def ofChars : List Char → List ClassItem
  | a :: '-' :: b :: cs => range a b :: ofChars cs
  | a :: cs => single a :: ofChars cs
  | [] => []

end ClassItem

/-- What one part of a pattern stands for. -/
inductive GlobToken where
  | literal (c : Char)
  | anyChar
  | anySequence
  /-- Any number of whole path components. -/
  | anyComponents
  | oneOf (items : List ClassItem)
  | noneOf (items : List ClassItem)
deriving DecidableEq

/-- Why a text is not a pattern. -/
inductive GlobFault where
  /-- Three stars or more in a row. -/
  | wildcards
  /-- Two stars that are not a whole path component. -/
  | recursiveWildcards
  /-- A bracket that opens no class. -/
  | invalidRange
deriving DecidableEq

namespace GlobFault

def message : GlobFault → String
  | wildcards => "wildcards are either regular `*` or recursive `**`"
  | recursiveWildcards =>
    "recursive wildcards must form a single path component"
  | invalidRange => "invalid range pattern"

end GlobFault

/-- A parsed pattern. -/
structure Glob where
  tokens : List GlobToken
deriving DecidableEq

namespace Glob

/-- Where the reader of a pattern stands. -/
inductive Place where
  /-- Outside a class; `fresh` at the start of the pattern and after a
  separator. -/
  | outside (fresh : Bool)
  /-- Inside a class, with the characters read so far, last first. -/
  | inside (negated : Bool) (body : List Char)

/-- Reads the tokens of a pattern.  The first character of a class belongs to it
whatever it is, and the class ends at the next closing bracket. -/
def tokensFrom : Place → List Char → Except GlobFault (List GlobToken)
  | .inside negated body, ']' :: cs => do
    let items := ClassItem.ofChars body.reverse
    let rest ← tokensFrom (.outside false) cs
    return (if negated then .noneOf items else .oneOf items) :: rest
  | .inside negated body, c :: cs => tokensFrom (.inside negated (c :: body)) cs
  | .inside _ _, [] => .error .invalidRange
  | .outside _, '*' :: '*' :: '*' :: _ => .error .wildcards
  | .outside fresh, '*' :: '*' :: '/' :: cs =>
    if fresh then do return .anyComponents :: (← tokensFrom (.outside true) cs)
    else .error .recursiveWildcards
  | .outside fresh, ['*', '*'] =>
    if fresh then .ok [.anyComponents] else .error .recursiveWildcards
  | .outside _, '*' :: '*' :: _ => .error .recursiveWildcards
  | .outside _, '*' :: cs =>
    do return .anySequence :: (← tokensFrom (.outside false) cs)
  | .outside _, '?' :: cs =>
    do return .anyChar :: (← tokensFrom (.outside false) cs)
  | .outside _, '[' :: '!' :: c :: cs => tokensFrom (.inside true [c]) cs
  | .outside _, ['[', '!'] => .error .invalidRange
  | .outside _, '[' :: c :: cs => tokensFrom (.inside false [c]) cs
  | .outside _, ['['] => .error .invalidRange
  | .outside _, c :: cs =>
    do return .literal c :: (← tokensFrom (.outside (c == '/')) cs)
  | .outside _, [] => .ok []

def parse (s : String) : Except GlobFault Glob :=
  (tokensFrom (.outside true) s.toList).map Glob.mk

/-- From verdicts on all ends of a text to verdicts on its ends with a first
character that passes the test and is taken away. -/
def afterChar (test : Char → Bool) (cs : List Char)
    (row : List Bool) : List Bool :=
  List.zipWith (fun c verdict => test c && verdict) cs row.tail ++ [false]

/-- From verdicts on all ends of a text to whether an end, or a shorter one, has
a good verdict. -/
def someEnd (row : List Bool) : List Bool :=
  row.foldr (fun verdict later => (verdict || later.headD false) :: later) []

/-- For every end of a text, from the whole text to the empty one, whether the
tokens cover it.  Each token turns the verdicts of those after it into its own,
so no part of the text is tried twice. -/
def verdicts : List GlobToken → List Char → List Bool
  | [], cs => cs.map (fun _ => false) ++ [true]
  | token :: rest, cs =>
    let row := verdicts rest cs
    match token with
    | .literal a => afterChar (· == a) cs row
    | .anyChar => afterChar (fun _ => true) cs row
    | .oneOf items => afterChar (fun c => items.any (·.covers c)) cs row
    | .noneOf items => afterChar (fun c => !items.any (·.covers c)) cs row
    | .anySequence => someEnd row
    | .anyComponents =>
      if rest.isEmpty then row.map (fun _ => true)
      else List.zipWith (· || ·) row (someEnd (afterChar (· == '/') cs row))

/-- The pattern covers the whole text. -/
def isMatch (g : Glob) (s : String) : Bool :=
  (verdicts g.tokens s.toList).headD false

end Glob

end ThreadConfinement
