/-!
Lines of a text, and the parts of a line.
-/

namespace ThreadConfinement.Text

/-- The lines of a text.  A line ends at a line feed, with one carriage return
directly before it; what follows the last line feed is a line when it is not
empty, and keeps its carriage returns. -/
def lines : List Char → List (List Char)
  | [] => []
  | '\n' :: cs => [] :: lines cs
  | '\r' :: '\n' :: cs => [] :: lines cs
  | c :: cs =>
    match lines cs with
    | [] => [[c]]
    | line :: rest => (c :: line) :: rest

/-- The parts before and after the last occurrence of `mark`. -/
def splitAtLast? (mark : Char) : List Char → Option (List Char × List Char)
  | [] => none
  | c :: cs =>
    match splitAtLast? mark cs with
    | some (before, after) => some (c :: before, after)
    | none => if c = mark then some ([], cs) else none

/-- The list with spaces at its end up to the given length; longer lists stay as
they are. -/
def padRight (width : Nat) (cs : List Char) : List Char :=
  cs ++ List.replicate (width - cs.length) ' '

end ThreadConfinement.Text
