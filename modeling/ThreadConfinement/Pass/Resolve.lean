import ThreadConfinement.Pass

/-!
Resolution of tags within a pass.

The first answer for a declaration is kept, and with it the tag goes into the
registry.  Markers that disagree are found the first time that a declaration is
asked about itself.
-/

namespace ThreadConfinement.Pass

/-- What a declaration says about itself. -/
def ownTag (ctx : Context) (p : Pass) (d : Declaration) : OwnTag × Pass :=
  match p.own[d.id]? with
  | some own => (own, p)
  | none =>
    let own := ctx.library.ownTag d
    let p := { p with own := p.own.insert d.id own }
    match own with
    | .conflicted tags =>
      let event : Event :=
        { level := .debug
          message := "conflicting thread tags"
          fields := [("declaration", .text d.location)] }
      (own, { p.note event with
        conflicts := p.conflicts ++ [d.conflictFinding tags] })
    | .absent | .tagged _ => (own, p)

/-- The first tag that one of the declarations has of its own. -/
def firstTagged (ctx : Context) (p : Pass) :
    List Declaration → Option LocatedTag × Pass
  | [] => (none, p)
  | d :: ds =>
    match p.ownTag ctx d with
    | (.tagged tag, p) => (some tag, p)
    | (.absent, p) | (.conflicted _, p) => firstTagged ctx p ds

/-- The tag of a declaration that has none of its own. -/
def inheritedTag (ctx : Context) (p : Pass) (d : Declaration) :
    Option LocatedTag × Pass :=
  if d.kind = .field ∧ d.threadSafe then (some d.threadSafeTag, p)
  else p.firstTagged ctx (ctx.model.tagSources d)

/-- The tag of a declaration that was not asked before. -/
def resolveFresh (ctx : Context) (p : Pass) (d : Declaration) :
    Option LocatedTag × Pass :=
  match p.ownTag ctx d with
  | (.tagged tag, p) => (some tag, p)
  | (.conflicted _, p) => (none, p)
  | (.absent, p) => p.inheritedTag ctx d

/-- The tag that holds for a declaration.  One that is not in the model has none
and is not kept. -/
def resolve (ctx : Context) (p : Pass) (id : DeclId) :
    Option LocatedTag × Pass :=
  match p.effective[id]? with
  | some tag => (tag, p)
  | none =>
    match ctx.model.find? id with
    | none => (none, p)
    | some d =>
      let (tag, p) := p.resolveFresh ctx d
      let p := match tag with
        | some tag => p.record tag
        | none => p
      (tag, { p with effective := p.effective.insert id tag })

/-- The tags that hold for several declarations, those without one left out. -/
def resolveTags (ctx : Context) (p : Pass) :
    List DeclId → List (DeclId × LocatedTag) × Pass
  | [] => ([], p)
  | id :: ids =>
    let (tag, p) := p.resolve ctx id
    let (tags, p) := resolveTags ctx p ids
    match tag with
    | some tag => ((id, tag) :: tags, p)
    | none => (tags, p)

/-- Takes the findings on markers that disagree. -/
def takeConflicts (p : Pass) : List Finding × Pass :=
  (p.conflicts, { p with conflicts := [] })

/-- Resolves a declaration and counts it. -/
def resolveDeclaration (ctx : Context) (p : Pass) (d : Declaration) : Pass :=
  let (tag, p) := p.resolve ctx d.id
  { p with
    stats :=
      { p.stats with
        declarations := p.stats.declarations + 1
        taggedDeclarations :=
          p.stats.taggedDeclarations + (if tag.isSome then 1 else 0) } }

/-- Resolves every declaration of the model, and reports the markers that
disagree. -/
def resolveAll (ctx : Context) (p : Pass) : Pass :=
  let p := ctx.model.declarations.foldl (resolveDeclaration ctx) p
  let (conflicts, p) := p.takeConflicts
  p.reportAll conflicts

end ThreadConfinement.Pass
