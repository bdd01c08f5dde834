/-!
Scanning of characters: what reads a part of a text and leaves the rest.

A scan either fails and leaves the text as it was, or gives a value and the rest
of the text.
-/

namespace ThreadConfinement.Toml

/-- Reads from the front of a text. -/
abbrev Scan (α : Type) : Type :=
  StateT (List Char) Option α

namespace Scan

/-- A character that passes the test. -/
def charIf (test : Char → Bool) : Scan Char := fun cs =>
  match cs with
  | [] => none
  | c :: rest => if test c then some (c, rest) else none

/-- This one character. -/
def char (c : Char) : Scan Char :=
  charIf (· == c)

/-- These characters in a row. -/
def chars (expected : List Char) : Scan PUnit := fun cs =>
  if expected.isPrefixOf cs then some (⟨⟩, cs.drop expected.length) else none

/-- The longest row of characters that pass the test; it may be empty. -/
def row (test : Char → Bool) : Scan (List Char) := fun cs =>
  some (cs.span test)

/-- The longest row of characters that pass the test, and at least one. -/
def row1 (test : Char → Bool) : Scan (List Char) := fun cs =>
  match cs.span test with
  | ([], _) => none
  | (found, rest) => some (found, rest)

/-- Only the end of the text. -/
def atEnd : Scan PUnit := fun cs =>
  if cs.isEmpty then some (⟨⟩, cs) else none

/-- What `scan` reads, or nothing. -/
def option (scan : Scan α) : Scan (Option α) :=
  some <$> scan <|> pure none

/-- `scan` as often as it succeeds, and at most as often as `limit` has
elements. -/
def repeated (scan : Scan α) : List Char → Scan (List α)
  | [] => pure []
  | _ :: limit =>
    (do
      let first ← scan
      let rest ← repeated scan limit
      return first :: rest) <|> pure []

/-- `scan` as often as it succeeds.  A scan that reads something succeeds no
more often than the text has characters, so the text itself is the limit. -/
def many (scan : Scan α) : Scan (List α) := fun cs =>
  repeated scan cs cs

/-- Succeeds when the value is there. -/
def found : Option α → Scan α
  | none => failure
  | some a => pure a

/-- Succeeds when the condition holds. -/
def check (condition : Bool) : Scan PUnit :=
  if condition then pure ⟨⟩ else failure

end Scan

end ThreadConfinement.Toml
