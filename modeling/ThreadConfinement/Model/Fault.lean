import ThreadConfinement.Declaration
import ThreadConfinement.Text.Quoted

/-!
What can be wrong with the declarations and edges that a host hands in.
-/

namespace ThreadConfinement

/-- The edges between declarations. -/
inductive EdgeKind where
  | override
  | call
  | fieldAccess
deriving DecidableEq

namespace EdgeKind

def name : EdgeKind → String
  | override => "override"
  | call => "call"
  | fieldAccess => "field access"

end EdgeKind

/-- What refers to a declaration that is not there. -/
inductive Referrer where
  | declaration (id : DeclId)
  | supertypes (id : DeclId)
  | edge (kind : EdgeKind)
deriving DecidableEq

namespace Referrer

def describe : Referrer → String
  | declaration id => "declaration " ++ id.describe
  | supertypes id => "supertypes of " ++ id.describe
  | edge kind => kind.name ++ " edge"

end Referrer

/-- What the end of an edge has to be. -/
inductive EndKind where
  | callable
  | field
deriving DecidableEq

namespace EndKind

def describe : EndKind → String
  | callable => "method, constructor or initializer"
  | field => "field"

def admits : EndKind → Kind → Bool
  | callable, kind => kind.isCallable
  | field, kind => kind == .field

end EndKind

inductive ModelFault where
  | duplicateDeclaration (id : DeclId)
  | unknownDeclaration (referrer : Referrer) (missing : DeclId)
  | emptyLocation (id : DeclId)
  | unexportableLocation (id : DeclId) (location : String)
  | invalidEnclosing (id : DeclId) (enclosingKind : Kind)
  | missingModule (id : DeclId)
  | enclosingCycle (id : DeclId)
  | notAType (id supertype : DeclId)
  | wrongEnd (edge : EdgeKind) (id : DeclId) (kind : Kind) (expected : EndKind)
deriving DecidableEq

namespace ModelFault

def message : ModelFault → String
  | duplicateDeclaration id => "duplicate declaration id " ++ id.describe
  | unknownDeclaration referrer missing =>
    "declaration " ++ referrer.describe ++ " references unknown declaration " ++
      missing.describe
  | emptyLocation id =>
    "declaration " ++ id.describe ++ " has an empty location descriptor"
  | unexportableLocation id location =>
    "declaration " ++ id.describe ++ " location " ++ Text.quoted location
      ++ " has trailing whitespace or control characters"
  | invalidEnclosing id kind =>
    "declaration " ++ id.describe ++ " cannot be enclosed by a " ++ kind.name
  | missingModule id =>
    "declaration " ++ id.describe ++ " is not inside any module"
  | enclosingCycle id =>
    "enclosing chain of declaration " ++ id.describe ++ " contains a cycle"
  | notAType id supertype =>
    "supertype " ++ supertype.describe ++ " of " ++ id.describe ++
      " is not a type"
  | wrongEnd edge id kind expected =>
    edge.name ++ " edge endpoint " ++ id.describe ++ " is a " ++
      kind.name ++ ", expected " ++ expected.describe

def code (_ : ModelFault) : String :=
  "MODEL_ERROR"

end ModelFault

end ThreadConfinement
