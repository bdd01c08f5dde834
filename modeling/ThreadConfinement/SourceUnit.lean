import ThreadConfinement.Model

/-!
A unit: a model together with its override, call and field access edges.
-/

namespace ThreadConfinement

/-- What a host says about one unit. -/
structure UnitFacts where
  name : String
  declarations : List Declaration := []
  overrides : List OverrideEdge := []
  calls : List CallEdge := []
  fieldAccesses : List FieldAccess := []

/-- Everything that one pass works on. -/
structure SourceUnit where
  name : String
  model : Model
  overrides : List OverrideEdge
  calls : List CallEdge
  fieldAccesses : List FieldAccess

namespace Model

/-- An end of an edge that is not there or is of the wrong kind. -/
def endFault? (m : Model) (edge : EdgeKind) (expected : EndKind) (id : DeclId) :
    Option ModelFault :=
  match m.find? id with
  | none => some (.unknownDeclaration (.edge edge) id)
  | some d =>
    if expected.admits d.kind then none
    else some (.wrongEnd edge id d.kind expected)

def overrideFault? (m : Model) (e : OverrideEdge) : Option ModelFault :=
  m.endFault? .override .callable e.child <|>
    m.endFault? .override .callable e.parent

def callFault? (m : Model) (e : CallEdge) : Option ModelFault :=
  m.endFault? .call .callable e.caller <|> m.endFault? .call .callable e.callee

def fieldAccessFault? (m : Model) (e : FieldAccess) : Option ModelFault :=
  m.endFault? .fieldAccess .callable e.accessor <|>
    m.endFault? .fieldAccess .field e.field

end Model

namespace SourceUnit

/-- The first edge with a wrong end: overrides, then calls, then field
accesses. -/
def edgeFault? (m : Model) (facts : UnitFacts) : Option ModelFault :=
  facts.overrides.findSome? m.overrideFault?
    <|> facts.calls.findSome? m.callFault?
    <|> facts.fieldAccesses.findSome? m.fieldAccessFault?

/-- Checks the declarations, and then the edges between them. -/
def build (facts : UnitFacts) : Except ModelFault SourceUnit :=
  match Model.build facts.declarations with
  | .error fault => .error fault
  | .ok model =>
    match edgeFault? model facts with
    | some fault => .error fault
    | none =>
      .ok ⟨facts.name, model, facts.overrides, facts.calls, facts.fieldAccesses⟩

end SourceUnit

end ThreadConfinement
