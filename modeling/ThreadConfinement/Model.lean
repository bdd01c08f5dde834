import ThreadConfinement.Hierarchy
import ThreadConfinement.Model.Fault

/-!
The semantic model: the declarations of a unit, checked and indexed.

`Model.build` accepts a list of declarations or names the first fault.  In an
accepted model the chain of enclosing declarations ends from every declaration,
so `Model.enclosers` lists it in full.
-/

namespace ThreadConfinement

/-- Declarations in the order of the host, and what is looked up about them. -/
structure Model where
  declarations : List Declaration
  index : IdMap Declaration
  members : IdMap (List DeclId)
  hierarchy : Hierarchy

namespace Declaration

/-- The declarations strictly around `d`, nearest first; `none` when the chain
goes on after `steps` steps.  A chain ends early where a declaration is not in
the index. -/
def ascend? (index : IdMap Declaration) :
    Nat → Declaration → Option (List Declaration)
  | steps, d =>
    match d.enclosing.bind (fun outer => index[outer]?), steps with
    | none, _ => some []
    | some _, 0 => none
    | some outer, steps + 1 => (ascend? index steps outer).map (outer :: ·)

/-- A location that is blank, or that the tag table cannot carry. -/
def locationFault? (d : Declaration) : Option ModelFault :=
  if Text.allBlank d.location then some (.emptyLocation d.id)
  else if !isExportable d.location then
    some (.unexportableLocation d.id d.location)
  else none

/-- A declaration that stands in nothing or in the wrong kind of declaration. -/
def enclosingFault? (index : IdMap Declaration) (d : Declaration) :
    Option ModelFault :=
  match d.enclosing with
  | none => if d.kind = .module then none else some (.missingModule d.id)
  | some outer =>
    match index[outer]? with
    | none => some (.unknownDeclaration (.declaration d.id) outer)
    | some o =>
      if o.kind.mayEnclose d.kind then none
      else some (.invalidEnclosing d.id o.kind)

/-- A chain of more steps than there are declarations never ends. -/
def chainFault? (index : IdMap Declaration) (count : Nat) (d : Declaration) :
    Option ModelFault :=
  match d.ascend? index count with
  | none => some (.enclosingCycle d.id)
  | some above =>
    if (above.getLastD d).kind =
      .module then none else some (.missingModule d.id)

/-- A supertype of a type that is not there or is no type. -/
def supertypeFault? (index : IdMap Declaration) (d : Declaration) :
    Option ModelFault :=
  if d.kind = .type then
    d.supertypes.findSome? (fun sup =>
      match index[sup]? with
      | none => some (.unknownDeclaration (.supertypes d.id) sup)
      | some s => if s.kind = .type then none else some (.notAType d.id sup))
  else none

end Declaration

namespace Model

/-- The first declaration whose number was seen before, or whose location has a
fault. -/
def entryFault? (seen : IdSet) : List Declaration → Option ModelFault
  | [] => none
  | d :: ds =>
    if d.id ∈ seen then some (.duplicateDeclaration d.id)
    else d.locationFault? <|> entryFault? (seen.insert d.id) ds

/-- Declarations by number. -/
def indexOf (ds : List Declaration) : IdMap Declaration :=
  Std.ExtTreeMap.ofList (ds.map (fun d => (d.id, d)))

/-- Adds a declaration to the members of the one around it. -/
def addMember (members : IdMap (List DeclId)) (d : Declaration) :
    IdMap (List DeclId) :=
  match d.enclosing with
  | none => members
  | some outer => members.insert outer (members.getD outer [] ++ [d.id])

/-- Adds a type and its supertypes to a hierarchy; other declarations change
nothing. -/
def addToHierarchy (h : Hierarchy) (d : Declaration) : Hierarchy :=
  if d.kind = .type then d.supertypes.foldl
    (fun h sup => h.addSupertype d.id sup) (h.addType d.id)
  else h

/-- The first fault of a list of declarations.  Numbers and locations come
before enclosing declarations, these before chains, and supertypes are last. -/
def fault? (ds : List Declaration) : Option ModelFault :=
  let index := indexOf ds
  entryFault? ∅ ds
    <|> ds.findSome? (·.enclosingFault? index)
    <|> ds.findSome? (·.chainFault? index ds.length)
    <|> ds.findSome? (·.supertypeFault? index)

/-- The indexed declarations. -/
def ofDeclarations (ds : List Declaration) : Model where
  declarations := ds
  index := indexOf ds
  members := ds.foldl addMember ∅
  hierarchy := ds.foldl addToHierarchy .empty

/-- Checks and indexes declarations. -/
def build (ds : List Declaration) : Except ModelFault Model :=
  match fault? ds with
  | some fault => .error fault
  | none => .ok (ofDeclarations ds)

def size (m : Model) : Nat :=
  m.declarations.length

def find? (m : Model) (id : DeclId) : Option Declaration :=
  m.index[id]?

/-- The declarations directly inside `id`, in the order of the host. -/
def membersOf (m : Model) (id : DeclId) : List DeclId :=
  m.members.getD id []

/-- The declarations strictly around `d`, nearest first. -/
def enclosers (m : Model) (d : Declaration) : List Declaration :=
  (d.ascend? m.index m.size).getD []

/-- The nearest declaration of a kind that is strictly around `id`. -/
def nearest? (m : Model) (id : DeclId) (kind : Kind) : Option Declaration :=
  (m.find? id).bind (fun d => (m.enclosers d).find? (fun e => e.kind == kind))

def enclosingType? (m : Model) (id : DeclId) : Option Declaration :=
  m.nearest? id .type

/-- The module that `id` stands in; a module stands in itself. -/
def moduleOf? (m : Model) (id : DeclId) : Option Declaration :=
  (m.find? id).bind
    (fun d => (d :: m.enclosers d).find? (fun e => e.kind == .module))

/-- The location of a declaration, or its number when it is not in the model. -/
def locationOf (m : Model) (id : DeclId) : String :=
  match m.find? id with
  | some d => d.location
  | none => id.describe

end Model

end ThreadConfinement
