import ThreadConfinement.Marker
import Std.Data.ExtTreeMap
import Std.Data.ExtTreeSet

/-!
Declarations of a program as its host describes them, and the edges between
them.
-/

namespace ThreadConfinement

/-- The number by which the host knows a declaration. -/
structure DeclId where
  raw : UInt32
deriving DecidableEq

namespace DeclId

/-- Numbers outside the 32 bits of an identifier name no declaration. -/
def ofNat? (n : Nat) : Option DeclId :=
  if n < UInt32.size then some ⟨UInt32.ofNat n⟩ else none

def toNat (id : DeclId) : Nat :=
  id.raw.toNat

def describe (id : DeclId) : String :=
  "#" ++ id.toNat.repr

instance : Ord DeclId where
  compare a b := compare a.raw b.raw

instance : Std.TransOrd DeclId where
  eq_swap {a b} := Std.OrientedOrd.eq_swap (a := a.raw) (b := b.raw)
  isLE_trans {a b c} :=
    Std.TransOrd.isLE_trans (a := a.raw) (b := b.raw) (c := c.raw)

instance : Std.LawfulEqOrd DeclId where
  compare_self {a} := Std.ReflOrd.compare_self (a := a.raw)
  eq_of_compare {a b} h := by
    cases a
    cases b
    exact congrArg DeclId.mk (Std.LawfulEqOrd.eq_of_compare h)

end DeclId

/-- A map from declarations, in the order of their numbers. -/
abbrev IdMap (α : Type) : Type :=
  Std.ExtTreeMap DeclId α compare

/-- A set of declarations, in the order of their numbers. -/
abbrev IdSet : Type :=
  Std.ExtTreeSet DeclId compare

/-- The kinds of declaration. -/
inductive Kind where
  | module
  | type
  | method
  | constructor
  /-- A static or instance initializer block. -/
  | initializer
  | field
deriving DecidableEq

namespace Kind

def all : List Kind :=
  [module, type, method, constructor, initializer, field]

def name : Kind → String
  | module => "module"
  | type => "type"
  | method => "method"
  | constructor => "constructor"
  | initializer => "initializer"
  | field => "field"

/-- The kind with exactly this name. -/
def ofName? (s : String) : Option Kind :=
  all.find? (fun k => k.name == s)

/-- Declarations that run code. -/
def isCallable : Kind → Bool
  | method | constructor | initializer => true
  | module | type | field => false

/-- Declarations that run while their object is still private to the thread that
makes it. -/
def isConstruction : Kind → Bool
  | constructor | initializer => true
  | module | type | method | field => false

/-- Whether a declaration of kind `inner` may stand directly inside one of kind
`outer`.  Types stand inside code too, as local and anonymous types do. -/
def mayEnclose (outer inner : Kind) : Bool :=
  match inner with
  | module => outer == module
  | type => outer == module || outer == type || outer.isCallable
  | method | constructor | initializer => outer == module || outer == type
  | field => outer == type

end Kind

/-- One declaration of the program. -/
structure Declaration where
  id : DeclId
  kind : Kind
  enclosing : Option DeclId := none
  /-- The markers written on the declaration itself. -/
  markers : List Marker := []
  /-- Where the declaration stands, for people to read; it is also its key in
  the registry. -/
  location : String
  qualifiedName : String
  /-- What an overriding method shares with the one it overrides. -/
  signature : Option String := none
  /-- The direct supertypes of a type. -/
  supertypes : List DeclId := []
  /-- Every run of the declaration holds the lock that guards it. -/
  lockGuarded : Bool := false
  /-- A field that may be read from every thread. -/
  threadSafe : Bool := false
  suppressions : List String := []
deriving DecidableEq

namespace Declaration

/-- A declaration of the given kind.  The signature of a method is at first its
simple name. -/
def make (kind : Kind) (id : DeclId) (enclosing : Option DeclId)
    (qualifiedName location : String) : Declaration where
  id := id
  kind := kind
  enclosing := enclosing
  location := location
  qualifiedName := qualifiedName
  signature :=
    if kind = .method then
      some (String.ofList (Text.afterLast '.' qualifiedName.toList))
    else none

def withMarker (d : Declaration) (marker : Marker) : Declaration :=
  { d with markers := d.markers ++ [marker] }

def withSignature (d : Declaration) (signature : String) : Declaration :=
  { d with signature := some signature }

def withSupertypes (d : Declaration) (supertypes : List DeclId) : Declaration :=
  { d with supertypes := d.supertypes ++ supertypes }

def suppressing (d : Declaration) (token : String) : Declaration :=
  { d with suppressions := d.suppressions ++ [token] }

/-- One of the suppressions holds the token. -/
def isSuppressedBy (d : Declaration) (token : String) : Bool :=
  d.suppressions.any (fun s => Text.holds s token)

/-- The tags that the markers name, each once, in order of first occurrence. -/
def distinctTags (d : Declaration) : List Tag :=
  (d.markers.map Marker.tag).eraseDups

end Declaration

/-- `child` overrides or implements `parent`. -/
structure OverrideEdge where
  child : DeclId
  parent : DeclId
deriving DecidableEq

/-- The code of `caller` calls `callee`. -/
structure CallEdge where
  caller : DeclId
  callee : DeclId
  /-- The call has no receiver of its own. -/
  sameInstance : Bool
deriving DecidableEq

/-- The code of `accessor` reads or writes `field`. -/
structure FieldAccess where
  accessor : DeclId
  field : DeclId
  /-- The access stands in a block that holds the lock of the object. -/
  lockHeld : Bool
deriving DecidableEq

end ThreadConfinement
