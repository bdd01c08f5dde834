import ThreadConfinement.Pass.Synchronization
import ThreadConfinement.Tag.Rules

/-!
Overrides: explicit ones, those that a tag for all subclasses implies, and
methods that inherit from parents with different tags.
-/

namespace ThreadConfinement

namespace CheckSettings

/-- The patterns for exempt parent types; texts that are no patterns do not
count. -/
def exemptPatterns (s : CheckSettings) : List Glob :=
  s.exemptParentTypes.filterMap (fun pattern => (Glob.parse pattern).toOption)

/-- The events for texts that are no patterns. -/
def exemptEvents (s : CheckSettings) : List Event :=
  s.exemptParentTypes.filterMap (fun pattern =>
    match Glob.parse pattern with
    | .ok _ => none
    | .error fault =>
      some
        { level := .warn
          message := "ignoring invalid exempt parent pattern"
          fields := [("pattern", .text pattern),
            ("error", .text fault.message)] })

end CheckSettings

namespace Model

/-- The type of an overridden method is exempt. -/
def isExempt (m : Model) (patterns : List Glob) (parent : DeclId) : Bool :=
  (m.enclosingType? parent).any
    (fun type => patterns.any (·.isMatch type.qualifiedName))

/-- The methods below the type of `parent` that share its signature and have no
override edge to it: subtypes in ascending order, and members in the order of
the host. -/
def impliedChildren (m : Model) (overrides : List OverrideEdge)
    (parent : Declaration) : List Declaration :=
  match m.enclosingType? parent.id with
  | none => []
  | some owner =>
    ((m.hierarchy.transitiveSubtypes owner.id).flatMap m.membersOf).filterMap
        (fun id =>
      (m.find? id).filter (fun member =>
        member.kind == .method && member.signature == parent.signature
          && (⟨member.id, parent.id⟩ : OverrideEdge) ∉ overrides))

end Model

namespace Context

/-- Why the acting side of an edge is left alone, if it is. -/
def skipReason? (ctx : Context) (d : Declaration) : Option SkipReason :=
  ctx.model.skipReason? ctx.settings d

/-- The declaration is there and is not left alone. -/
def checks (ctx : Context) (id : DeclId) : Bool :=
  (ctx.model.find? id).any (fun d => (ctx.skipReason? d).isNone)

end Context

/-- A table of parents by child, filled edge by edge: `keep` says which children
have an entry, and `join` how a parent goes to those before it. -/
def parentTable (keep : DeclId → Bool)
    (join : List DeclId → DeclId → List DeclId)
    (overrides : List OverrideEdge) : IdMap (List DeclId) :=
  overrides.foldl
    (fun parents e =>
      if keep e.child then
        parents.insert e.child (join (parents.getD e.child []) e.parent)
      else parents)
    ∅

/-- The distinct parents of each child that is checked, in the order of their
first edge. -/
def Context.parentsByChild (ctx : Context) (overrides : List OverrideEdge) :
    IdMap (List DeclId) :=
  parentTable ctx.checks
    (fun known parent =>
      if parent ∈ known then known else known ++ [parent])
    overrides

/-- A child that has a tag must fit its parent, unless it asks not to or the
parent is exempt. -/
def overrideConflicts (exempt : Bool)
    (childTag parentTag : Option LocatedTag) : Bool :=
  match childTag with
  | none => false
  | some tag =>
    !tag.ignoreParent && !exempt && !tag.tag.mayOverride (parentTag.map (·.tag))

/-- The tag that asks a child for its lock: its own, or that of its parent when
it has none. -/
def overrideDemand? (childTag parentTag : Option LocatedTag) :
    Option LocatedTag :=
  match childTag with
  | some tag => LocatedTag.lockDemand? (some tag)
  | none => LocatedTag.lockDemand? parentTag

/-- Some tag differs from the first one. -/
def tagsDiffer : List ParentTag → Bool
  | [] => false
  | first :: rest => rest.any (fun p => !first.tag.sameTag p.tag)

namespace Pass

/-- Checks a child against one parent. -/
def checkOverride (ctx : Context) (patterns : List Glob)
    (implicit : Bool) (p : Pass) (child : Declaration)
    (parent : DeclId) : Pass :=
  let (childTag, p) := p.resolve ctx child.id
  let (parentTag, p) := p.resolve ctx parent
  let p :=
    if overrideConflicts (ctx.model.isExempt patterns parent)
        childTag parentTag then
      p.report
        (.overrideConflict child.location (ctx.model.locationOf parent)
          childTag parentTag implicit)
    else p
  let p := p.markEvaluated child.id
  match overrideDemand? childTag parentTag with
  | some tag => p.require child tag
  | none => p

/-- Checks an explicit override. -/
def checkOverrideEdge (ctx : Context) (patterns : List Glob) (p : Pass)
    (e : OverrideEdge) : Pass :=
  match ctx.model.find? e.child with
  | none => p
  | some child =>
    match ctx.skipReason? child with
    | some reason => p.skipEdge "override edge skipped" "child" child reason
    | none =>
      let p := p.checkOverride ctx patterns false child e.parent
      { p with
        stats :=
          { p.stats with overridesChecked := p.stats.overridesChecked + 1 } }

/-- Checks an implied override. -/
def checkImplied (ctx : Context) (patterns : List Glob)
    (parent : Declaration) (p : Pass) (child : Declaration) : Pass :=
  match ctx.skipReason? child with
  | some reason => p.skipEdge "implicit override skipped" "child" child reason
  | none =>
    let p := p.checkOverride ctx patterns true child parent.id
    { p with
      stats :=
        { p.stats with
          implicitOverridesChecked := p.stats.implicitOverridesChecked + 1 } }

/-- Checks the overrides that a declaration implies: those of a method with a
signature whose tag covers subclasses. -/
def checkImpliedBy (ctx : Context) (patterns : List Glob)
    (overrides : List OverrideEdge) (p : Pass) (parent : Declaration) : Pass :=
  if parent.kind ≠ .method || parent.signature.isNone then p
  else
    let (tag, p) := p.resolve ctx parent.id
    if tag.any (·.coversSubclasses) then
      (ctx.model.impliedChildren overrides parent).foldl
        (checkImplied ctx patterns parent) p
    else p

/-- Reports an untagged child whose parents have different tags. -/
def checkInheritance (ctx : Context) (patterns : List Glob) (p : Pass)
    (family : DeclId × List DeclId) : Pass :=
  let (child, parents) := family
  if parents.length < 2 then p
  else
    match p.resolve ctx child with
    | (some _, p) => p
    | (none, p) =>
      let (tags, p) :=
        p.resolveTags ctx
          (parents.filter (fun id => !ctx.model.isExempt patterns id))
      let tagged := tags.map (fun (id, tag) => ⟨ctx.model.locationOf id, tag⟩)
      if tagsDiffer tagged then
        p.report (.inheritanceConflict (ctx.model.locationOf child) none tagged)
      else p

/-- Checks all overrides of a unit: the explicit ones, the implied ones when
they count, and then the children with several parents. -/
def checkOverrides (ctx : Context) (p : Pass)
    (overrides : List OverrideEdge) : Pass :=
  let patterns := ctx.settings.exemptPatterns
  let p := ctx.settings.exemptEvents.foldl note p
  let p := overrides.foldl (checkOverrideEdge ctx patterns) p
  let p :=
    if ctx.settings.subclassPropagation then
      ctx.model.declarations.foldl (checkImpliedBy ctx patterns overrides) p
    else p
  (ctx.parentsByChild overrides).toList.foldl (checkInheritance ctx patterns) p

end Pass

end ThreadConfinement
