import ThreadConfinement.Pass.Override
import ThreadConfinement.Tag.Rules

/-!
Field accesses: every access against the rule for callers and callees, and
against the lock that the field asks for.
-/

namespace ThreadConfinement.Pass

/-- Checks one access.  While an object is constructed, no other thread can see
it. -/
def checkFieldAccess (ctx : Context) (p : Pass) (e : FieldAccess) : Pass :=
  match ctx.model.find? e.accessor, ctx.model.find? e.field with
  | some accessor, some field =>
    if accessor.kind.isConstruction then
      { p with
        stats := { p.stats with skippedEdges := p.stats.skippedEdges + 1 } }
    else
      match ctx.skipReason? accessor with
      | some reason =>
        p.skipEdge "field access skipped" "accessor" accessor reason
      | none =>
        let p :=
          { p with
            stats :=
              { p.stats with
                fieldAccessesChecked := p.stats.fieldAccessesChecked + 1 } }
        let (accessorTag, p) := p.resolve ctx accessor.id
        let (fieldTag, p) := p.resolve ctx field.id
        let p :=
          if callAllowed (accessorTag.map (·.tag)) (fieldTag.map (·.tag))
              true then
            p
          else
            p.report (.fieldAccessViolation accessor.location field.location
              accessorTag fieldTag)
        match LocatedTag.lockDemand? fieldTag with
        | some tag => p.requireAtAccess accessor e.lockHeld tag
        | none => p
  | _, _ => p

/-- Checks all field accesses of a unit. -/
def checkFieldAccesses (ctx : Context) (p : Pass)
    (accesses : List FieldAccess) : Pass :=
  accesses.foldl (checkFieldAccess ctx) p

end ThreadConfinement.Pass
