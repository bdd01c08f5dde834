import ThreadConfinement.Declaration
import ThreadConfinement.Log
import ThreadConfinement.Settings
import ThreadConfinement.Text.Keyed

/-!
The library: tags from rules, by the level and the qualified name of
declarations.
-/

namespace ThreadConfinement

namespace RuleScope

/-- The scope of the rules for a kind of declaration.  Rules for methods are for
all code, and none are for fields. -/
def ofKind? : Kind → Option RuleScope
  | .module => some module
  | .type => some type
  | .method | .constructor | .initializer => some method
  | .field => none

end RuleScope

/-- The tag of each path at each level. -/
structure Library where
  modules : TextMap LocatedTag
  types : TextMap LocatedTag
  methods : TextMap LocatedTag

namespace Library

def empty : Library :=
  ⟨∅, ∅, ∅⟩

def level (l : Library) : RuleScope → TextMap LocatedTag
  | .module => l.modules
  | .type => l.types
  | .method => l.methods

/-- Adds a rule in place of an earlier one for the same level and path. -/
def insert (l : Library) (r : LibraryRule) : Library :=
  match r.scope with
  | .module => { l with modules := l.modules.insert r.path r.locatedTag }
  | .type => { l with types := l.types.insert r.path r.locatedTag }
  | .method => { l with methods := l.methods.insert r.path r.locatedTag }

def ofRules (rules : List LibraryRule) : Library :=
  rules.foldl insert empty

/-- The rules that take the place of an earlier one. -/
def replacements (l : Library) : List LibraryRule → List LibraryRule
  | [] => []
  | r :: rs =>
    if r.path ∈ l.level r.scope then r :: replacements (l.insert r) rs
    else replacements (l.insert r) rs

/-- The events of building the library from rules. -/
def events (rules : List LibraryRule) : List Event :=
  (empty.replacements rules).map (fun r =>
    { level := .debug
      message := "library rule replaces an earlier rule"
      fields := [("path", .text r.path)] })

/-- The tag for a declaration at its own level. -/
def lookup? (l : Library) (d : Declaration) : Option LocatedTag :=
  (RuleScope.ofKind? d.kind).bind
    (fun scope => (l.level scope)[d.qualifiedName]?)

def size (l : Library) : Nat :=
  l.modules.size + l.types.size + l.methods.size

end Library

end ThreadConfinement
