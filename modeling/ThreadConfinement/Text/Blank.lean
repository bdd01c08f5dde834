/-!
Blank and control characters, and the trimming that goes by them.

A character is blank when the Unicode standard gives it the property
`White_Space`.  Everything here works on lists of characters; the wrappers on
`String` stand at the end.
-/

namespace ThreadConfinement.Text

/-- The characters with the Unicode property `White_Space`. -/
def isBlank (c : Char) : Bool :=
  let n := c.toNat
  (9 ≤ n && n ≤ 13) || n == 0x20 || n == 0x85 || n == 0xA0 || n == 0x1680 ||
    (0x2000 ≤ n && n ≤ 0x200A) || n == 0x2028 || n == 0x2029 || n == 0x202F ||
    n == 0x205F || n == 0x3000

/-- The characters of the general category `Cc`: the two control blocks and
delete. -/
def isControl (c : Char) : Bool :=
  let n := c.toNat
  n ≤ 0x1F || (0x7F ≤ n && n ≤ 0x9F)

/-- Drops the blanks at the front. -/
def dropBlanks (cs : List Char) : List Char :=
  cs.dropWhile isBlank

/-- Drops the blanks at the end. -/
def dropBlanksRight (cs : List Char) : List Char :=
  (cs.reverse.dropWhile isBlank).reverse

/-- Drops the blanks at both ends. -/
def trimChars (cs : List Char) : List Char :=
  dropBlanksRight (dropBlanks cs)

/-- The text without the blanks at both ends. -/
def trim (s : String) : String :=
  String.ofList (trimChars s.toList)

/-- No character of the text is other than blank. -/
def allBlank (s : String) : Bool :=
  s.toList.all isBlank

/-- The last character of the text is blank. -/
def endsInBlank (s : String) : Bool :=
  s.toList.getLast?.any isBlank

/-- Some character of the text is a control character. -/
def hasControl (s : String) : Bool :=
  s.toList.any isControl

/-- `needle` stands somewhere in the list; the empty needle stands in every
list. -/
def occurs (needle : List Char) : List Char → Bool
  | [] => needle.isEmpty
  | c :: cs => needle.isPrefixOf (c :: cs) || occurs needle cs

/-- The text holds `needle`. -/
def holds (s needle : String) : Bool :=
  occurs needle.toList s.toList

/-- The text begins with `stem`. -/
def beginsWith (s stem : String) : Bool :=
  stem.toList.isPrefixOf s.toList

/-- What follows the last occurrence of `mark`, or everything when there is
none. -/
def afterLast (mark : Char) : List Char → List Char
  | [] => []
  | c :: cs =>
    if mark ∈ cs then afterLast mark cs else if c = mark then cs else c :: cs

end ThreadConfinement.Text
