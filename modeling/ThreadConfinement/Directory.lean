import ThreadConfinement.Text.Blank
import ThreadConfinement.Text.Keyed
import Std.Data.ExtTreeSet

/-!
A directory with its files, as far as exporting needs one: files, directories
below, and advisory locks on files.
-/

namespace ThreadConfinement

/-- Why a file cannot be opened, read or written. -/
inductive FileFault where
  | notFound
  | notDirectory
  | isDirectory
  | nameTooLong
  /-- The name holds a character that ends names. -/
  | nulByte
deriving DecidableEq

namespace FileFault

def message : FileFault → String
  | notFound => "No such file or directory (os error 2)"
  | notDirectory => "Not a directory (os error 20)"
  | isDirectory => "Is a directory (os error 21)"
  | nameTooLong => "File name too long (os error 36)"
  | nulByte => "file name contained an unexpected NUL byte"

end FileFault

namespace Text

/-- The parts between the occurrences of `mark`; there is always one more part
than occurrences. -/
def splitAll (mark : Char) : List Char → List (List Char)
  | [] => [[]]
  | c :: cs =>
    if c = mark then [] :: splitAll mark cs
    else
      match splitAll mark cs with
      | [] => [[c]]
      | part :: rest => (c :: part) :: rest

end Text

/-- A name of a file, as it was given. -/
structure FileName where
  text : String
deriving DecidableEq

namespace FileName

/-- The components of the name; empty ones and single dots lead nowhere. -/
def components (name : FileName) : List String :=
  ((Text.splitAll '/' name.text.toList).map String.ofList).filter
    (fun s => s != "" && s != ".")

/-- Names inside the directory: not empty, not absolute, and with no step
upward. -/
def ofText? (text : String) : Option FileName :=
  if text == "" || Text.beginsWith text "/" ||
    ".." ∈ (FileName.mk text).components then none
  else some ⟨text⟩

/-- A name that ends in a slash or in a single dot can only be that of a
directory. -/
def namesDirectory (name : FileName) : Bool :=
  ((Text.splitAll '/' name.text.toList).getLastD []) ∈ [[], ['.']]

/-- The most bytes of a whole name. -/
def maxLength : Nat :=
  4095

/-- The most bytes of one component. -/
def maxComponentLength : Nat :=
  255

/-- What is wrong with a name wherever it leads. -/
def fault? (name : FileName) : Option FileFault :=
  if '\x00' ∈ name.text.toList then some .nulByte
  else if maxLength < name.text.utf8ByteSize then some .nameTooLong
  else none

/-- The name of the lock file beside a table. -/
def lock (name : FileName) : FileName :=
  ⟨name.text ++ ".lock"⟩

end FileName

/-- What stands at a path. -/
inductive Node where
  | file (content : ByteArray)
  | directory

/-- The components of a path, joined. -/
def pathKey (components : List String) : String :=
  "/".intercalate components

/-- Files and directories by path, and the paths of the files that some writer
holds locked. -/
structure Directory where
  nodes : TextMap Node
  locked : Std.ExtTreeSet String compare

namespace Directory

def empty : Directory :=
  ⟨∅, ∅⟩

/-- The node at a path; the empty path is the directory itself. -/
def node? (d : Directory) (components : List String) : Option Node :=
  if components.isEmpty then some .directory else d.nodes[pathKey components]?

/-- The ways from the top to a path: for each component, the path above it and
the component. -/
def ways (components : List String) : List (List String × String) :=
  components.mapIdx (fun i part => (components.take i, part))

/-- The first thing wrong on the way to a path: what stands above a component is
no directory, or the component is too long. -/
def wayFault? (d : Directory) (components : List String) : Option FileFault :=
  (ways components).findSome? (fun (above, part) =>
    match d.node? above with
    | none => some .notFound
    | some (.file _) => some .notDirectory
    | some .directory =>
      if FileName.maxComponentLength < part.utf8ByteSize then some .nameTooLong
      else none)

/-- The first thing wrong with a name or on the way to it. -/
def fault? (d : Directory) (name : FileName) : Option FileFault :=
  name.fault? <|> d.wayFault? name.components

/-- The content of a file. -/
def read (d : Directory) (name : FileName) : Except FileFault ByteArray :=
  match d.fault? name, d.node? name.components with
  | some fault, _ => .error fault
  | none, none => .error .notFound
  | none, some .directory => .error .isDirectory
  | none, some (.file content) =>
    if name.namesDirectory then .error .notDirectory else .ok content

/-- Opens a file for writing: `change` gives its new content from the one it
has, if there is one. -/
def update (d : Directory) (name : FileName)
    (change : Option ByteArray → ByteArray) : Except FileFault Directory :=
  let put (content : Option ByteArray) : Except FileFault Directory :=
    if name.namesDirectory then .error .isDirectory
    else
      .ok
        { d with
          nodes :=
            d.nodes.insert (pathKey name.components) (.file (change content)) }
  match d.fault? name, d.node? name.components with
  | some fault, _ => .error fault
  | none, some .directory => .error .isDirectory
  | none, some (.file content) => put (some content)
  | none, none => put none

/-- Replaces the content of a file, or makes the file. -/
def write (d : Directory) (name : FileName) (content : ByteArray) :
    Except FileFault Directory :=
  d.update name (fun _ => content)

/-- Makes an empty file unless there is one. -/
def touch (d : Directory) (name : FileName) : Except FileFault Directory :=
  d.update name (fun content => content.getD ByteArray.empty)

/-- Makes the directories that the components name, each inside the one before
and the first inside `above`, up to the first that cannot be made; those that
are there already stay. -/
def makeInside (d : Directory) (above : List String) : List String → Directory
  | [] => d
  | part :: rest =>
    if FileName.maxComponentLength < part.utf8ByteSize then d
    else
      let path := above ++ [part]
      match d.node? path with
      | some (.file _) => d
      | some .directory => d.makeInside path rest
      | none =>
        { d with nodes := d.nodes.insert (pathKey path) .directory }.makeInside
          path rest

/-- Makes a directory and those above it, as far as that is possible. -/
def makeDirectory (d : Directory) (name : FileName) : Directory :=
  if name.fault?.isSome then d else d.makeInside [] name.components

/-- Some writer holds the file locked. -/
def isLocked (d : Directory) (name : FileName) : Bool :=
  pathKey name.components ∈ d.locked

/-- Takes the lock on a file. -/
def acquire (d : Directory) (name : FileName) : Directory :=
  { d with locked := d.locked.insert (pathKey name.components) }

/-- Gives the lock on a file back. -/
def release (d : Directory) (name : FileName) : Directory :=
  { d with locked := d.locked.erase (pathKey name.components) }

/-- The names directly in the directory, in order. -/
def names (d : Directory) : List String :=
  d.nodes.keys.filter (fun key => !Text.holds key "/")

end Directory

end ThreadConfinement
