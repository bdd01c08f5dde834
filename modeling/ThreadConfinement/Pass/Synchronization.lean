import ThreadConfinement.Pass.Resolve

/-!
Locks: who has to hold one and does not.

A declaration is reported at most once for itself, and at most once for each tag
that asks for a lock at a field.
-/

namespace ThreadConfinement

namespace LocatedTag

/-- The tag, if it asks for a lock. -/
def lockDemand? (tag : Option LocatedTag) : Option LocatedTag :=
  tag.filter (·.requireSynchronized)

end LocatedTag

namespace Pass

/-- An override has decided whether the declaration needs a lock. -/
def markEvaluated (p : Pass) (id : DeclId) : Pass :=
  { p with evaluated := p.evaluated.insert id }

def isEvaluated (p : Pass) (id : DeclId) : Bool :=
  id ∈ p.evaluated

/-- Reports a missing lock, once for each declaration and place. -/
def reportLock (p : Pass) (d : Declaration) (place : Option String)
    (requiredBy : LocatedTag) : Pass :=
  if (d.id, place) ∈ p.reported then p
  else
    { p with reported := (d.id, place) :: p.reported }.report
      (.missingSynchronization d.location requiredBy)

/-- The declaration itself must hold its lock. -/
def require (p : Pass) (d : Declaration) (requiredBy : LocatedTag) : Pass :=
  if d.lockGuarded then p else p.reportLock d none requiredBy

/-- An access to a field must happen under the lock of its object. -/
def requireAtAccess (p : Pass) (accessor : Declaration) (lockHeld : Bool)
    (requiredBy : LocatedTag) : Pass :=
  if lockHeld || accessor.lockGuarded then p
  else p.reportLock accessor (some requiredBy.location) requiredBy

/-- Checks one method that no override has decided on.  Code that constructs an
object cannot hold its lock and is left out. -/
def checkGuard (ctx : Context) (p : Pass) (d : Declaration) : Pass :=
  if d.kind ≠ .method || p.isEvaluated d.id ||
    (ctx.model.skipReason? ctx.settings d).isSome then p
  else
    let (tag, p) := p.resolve ctx d.id
    match LocatedTag.lockDemand? tag with
    | some tag => p.require d tag
    | none => p

/-- Checks every method that no override has decided on. -/
def checkGuards (ctx : Context) (p : Pass) : Pass :=
  ctx.model.declarations.foldl (checkGuard ctx) p

end Pass

end ThreadConfinement
