import ThreadConfinement.Toml.Value

/-!
How the lines of a document come together in one tree of tables.

A table is stated by a header of its own, implied by a longer header, or made by
a dotted key.  Which of these it was decides what later lines may add to it: no
table is stated twice, headers do not state a table made by dotted keys, and
dotted keys do not add to a table stated by a header.
-/

namespace ThreadConfinement.Toml

/-- How a table came to be. -/
inductive Mark where
  | stated
  | implied
  | dotted
deriving DecidableEq

/-- A node of a document under assembly. -/
inductive Node where
  | leaf (value : Value)
  | table (mark : Mark) (entries : List (String × Node))
  /-- An array of tables; later lines go to its last element. -/
  | tables (elements : List (List (String × Node)))

/-- The nodes of one table by key. -/
abbrev Entries : Type :=
  List (String × Node)

namespace Entries

/-- Puts another node in the place of the one at a key. -/
def replace (es : Entries) (key : String) (node : Node) : Entries :=
  es.map (fun (k, n) => if k == key then (k, node) else (k, n))

/-- Changes the last of several tables. -/
def changeLast (change : Entries → Option Entries) :
    List Entries → Option (List Entries)
  | [] => none
  | [es] => (change es).map (fun changed => [changed])
  | es :: rest => (changeLast change rest).map (es :: ·)

/-- Adds a value under a dotted key, of which `path` is all but the last
part. -/
def addValue (key : String) (value : Value) :
    List String → Entries → Option Entries
  | [], es =>
    if (es.lookup key).isSome then none else some (es ++ [(key, .leaf value)])
  | part :: path, es =>
    match es.lookup part with
    | none =>
      (addValue key value path []).map
        (fun sub => es ++ [(part, .table .dotted sub)])
    | some (.table .dotted sub) =>
      (addValue key value path sub).map
        (fun sub => es.replace part (.table .dotted sub))
    | some (.table .implied sub) =>
      if path.isEmpty then none
      else (addValue key value path sub).map
        (fun sub => es.replace part (.table .implied sub))
    | some (.tables elements) =>
      if path.isEmpty then none
      else (changeLast (addValue key value path) elements).map
        (fun ts => es.replace part (.tables ts))
    | some (.table .stated _) => none
    | some (.leaf _) => none

/-- Changes the table that the parts of a header lead to, and implies tables on
the way. -/
def changeAt (change : Entries → Option Entries) :
    List String → Entries → Option Entries
  | [], es => change es
  | part :: path, es =>
    match es.lookup part with
    | none =>
      (changeAt change path []).map
        (fun sub => es ++ [(part, .table .implied sub)])
    | some (.table mark sub) =>
      (changeAt change path sub).map
        (fun sub => es.replace part (.table mark sub))
    | some (.tables elements) =>
      (changeLast (changeAt change path) elements).map
        (fun ts => es.replace part (.tables ts))
    | some (.leaf _) => none

end Entries

/-- A value and the dotted key before it. -/
structure Pair where
  path : List String
  key : String
  value : Value

/-- A header: the key of a table or of an array of tables. -/
structure Header where
  isArray : Bool
  path : List String
  key : String

/-- A line of a document, as far as it says anything. -/
inductive Line where
  | pair (pair : Pair)
  | header (header : Header)

/-- A header with the pairs below it. -/
structure Section where
  header : Header
  pairs : List Pair

/-- The pairs before the first header, and the sections after them. -/
def sections : List Line → List Pair × List Section
  | [] => ([], [])
  | .pair pair :: rest =>
    let (pairs, below) := sections rest
    (pair :: pairs, below)
  | .header header :: rest =>
    let (pairs, below) := sections rest
    ([], ⟨header, pairs⟩ :: below)

/-- Adds pairs to a table. -/
def addPairs (es : Entries) (pairs : List Pair) : Option Entries :=
  pairs.foldlM (fun es p => es.addValue p.key p.value p.path) es

/-- Adds a section to a document. -/
def addSection (root : Entries) (s : Section) : Option Entries :=
  let key := s.header.key
  let change (es : Entries) : Option Entries :=
    match s.header.isArray, es.lookup key with
    | false, none =>
      (addPairs [] s.pairs).map (fun body => es ++ [(key, .table .stated body)])
    | false, some (.table .implied sub) =>
      (addPairs sub s.pairs).map
        (fun body => es.replace key (.table .stated body))
    | false, some _ => none
    | true, none =>
      (addPairs [] s.pairs).map (fun body => es ++ [(key, .tables [body])])
    | true, some (.tables elements) =>
      (addPairs [] s.pairs).map
        (fun body => es.replace key (.tables (elements ++ [body])))
    | true, some _ => none
  Entries.changeAt change s.header.path root

mutual

/-- The value of a node. -/
def Node.toValue : Node → Value
  | .leaf value => value
  | .table _ entries => .table (entriesToValues entries)
  | .tables elements => .array (tablesToValues elements)

/-- The values of the nodes of a table. -/
def entriesToValues : List (String × Node) → List (String × Value)
  | [] => []
  | (key, node) :: rest => (key, node.toValue) :: entriesToValues rest

/-- The values of several tables. -/
def tablesToValues : List (List (String × Node)) → List Value
  | [] => []
  | entries :: rest => .table (entriesToValues entries) :: tablesToValues rest

end

/-- The table of an inline table. -/
def inlineTable (pairs : List Pair) : Option Value :=
  (addPairs [] pairs).map (fun es => .table (entriesToValues es))

/-- The table of a whole document. -/
def assemble (ls : List Line) : Option Value := do
  let (pairs, below) := sections ls
  let root ← addPairs [] pairs
  let root ← below.foldlM addSection root
  return .table (entriesToValues root)

end ThreadConfinement.Toml
