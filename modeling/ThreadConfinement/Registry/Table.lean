import ThreadConfinement.Text.Blank
import ThreadConfinement.Text.Keyed
import ThreadConfinement.Text.Lines

/-!
The tag table: the exported form of a registry.

A table maps locations to tag names.  Each row is a line: the location, filled
up with spaces to eighty characters, a tab, and the tag name.  Rows stand in the
order of their locations.  Tag names are kept as texts, so that rows with names
of another version survive.
-/

namespace ThreadConfinement

/-- What can be wrong with a line of a table. -/
inductive LineFault where
  | missingTab
  | emptyPart
deriving DecidableEq

namespace LineFault

def message : LineFault → String
  | missingTab => "missing tab separator"
  | emptyPart => "empty location or tag"

end LineFault

/-- Why bytes are not a table; lines count from one, blank ones included. -/
inductive TableFault where
  | notUtf8
  | malformed (line : Nat) (fault : LineFault)
deriving DecidableEq

/-- Tag names by location. -/
structure Table where
  rows : TextMap String

namespace Table

def empty : Table :=
  ⟨∅⟩

/-- The width of the column of locations. -/
def locationWidth : Nat :=
  80

/-- The line of one row, with its line feed. -/
def rowLine (location tag : String) : List Char :=
  Text.padRight locationWidth location.toList ++ '\t' :: tag.toList ++ ['\n']

/-- The text of a table. -/
def render (t : Table) : String :=
  String.ofList
    (t.rows.toList.flatMap (fun (location, tag) => rowLine location tag))

/-- Reads one line that is not blank.  The last tab divides it; blanks after the
location and around the tag name do not count. -/
def parseLine (line : List Char) : Except LineFault (String × String) :=
  match Text.splitAtLast? '\t' line with
  | none => .error .missingTab
  | some (before, after) =>
    let location := Text.dropBlanksRight before
    let tag := Text.trimChars after
    if location.isEmpty || tag.isEmpty then .error .emptyPart
    else .ok (String.ofList location, String.ofList tag)

/-- Adds the rows of the lines to a table; `number` is the number of the first
line.  Blank lines hold no row, and of two rows for one location the later one
stays. -/
def addLines (rows : TextMap String) (number : Nat) :
    List (List Char) → Except TableFault (TextMap String)
  | [] => .ok rows
  | line :: rest =>
    if line.all Text.isBlank then addLines rows (number + 1) rest
    else
      match parseLine line with
      | .error fault => .error (.malformed number fault)
      | .ok (location, tag) =>
        addLines (rows.insert location tag) (number + 1) rest

/-- Reads a table from its text. -/
def ofText (text : String) : Except TableFault Table :=
  (addLines ∅ 1 (Text.lines text.toList)).map Table.mk

/-- Reads a table from the bytes of a file. -/
def parse (bytes : ByteArray) : Except TableFault Table :=
  match String.fromUTF8? bytes with
  | none => .error .notUtf8
  | some text => ofText text

/-- The table that an export starts from; a file that is not there holds no
rows. -/
def ofPrior : Option ByteArray → Except TableFault Table
  | none => .ok empty
  | some bytes => parse bytes

end Table

end ThreadConfinement
