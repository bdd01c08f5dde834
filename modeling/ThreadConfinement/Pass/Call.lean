import ThreadConfinement.Pass.Override
import ThreadConfinement.Tag.Rules

/-!
Calls: every call edge against the rule for callers and callees.
-/

namespace ThreadConfinement

/-- All parents of each child, in the order of the edges and with
repetitions. -/
def parentIndex (overrides : List OverrideEdge) : IdMap (List DeclId) :=
  parentTable (fun _ => true) (fun known parent => known ++ [parent]) overrides

/-- What the parents looked at so far say: the first tag, and the threads that
are meant, each once. -/
structure Agreement where
  found : Option LocatedTag := none
  threads : List Tag := []

namespace Agreement

def add (a : Agreement) (tag : LocatedTag) : Agreement where
  found := a.found.or (some tag)
  threads := if tag.tag ∈ a.threads then a.threads else a.threads ++ [tag.tag]

/-- The first tag, if all mean the same thread. -/
def tag? (a : Agreement) : Option LocatedTag :=
  if a.threads.length = 1 then a.found else none

end Agreement

namespace Pass

/-- Looks at one more parent. -/
def consult (ctx : Context) (state : Agreement × Pass) (parent : DeclId) :
    Agreement × Pass :=
  let (tag, p) := state.2.resolve ctx parent
  (tag.elim state.1 state.1.add, p)

/-- The tag that an untagged method takes from the methods it overrides, of
which there may be none. -/
def overriddenTag (ctx : Context) (parents : IdMap (List DeclId)) (p : Pass)
    (child : DeclId) : Option LocatedTag × Pass :=
  let (agreement, p) := (parents.getD child []).foldl (consult ctx) ({}, p)
  (agreement.tag?, p)

/-- The tag with which a declaration calls. -/
def callerTag (ctx : Context) (parents : IdMap (List DeclId)) (p : Pass)
    (caller : DeclId) : Option LocatedTag × Pass :=
  match p.resolve ctx caller with
  | (some tag, p) => (some tag, p)
  | (none, p) => p.overriddenTag ctx parents caller

/-- Checks one call. -/
def checkCall (ctx : Context) (parents : IdMap (List DeclId)) (p : Pass)
    (e : CallEdge) : Pass :=
  match ctx.model.find? e.caller with
  | none => p
  | some caller =>
    match ctx.skipReason? caller with
    | some reason => p.skipEdge "call edge skipped" "caller" caller reason
    | none =>
      let p :=
        { p with
          stats :=
            { p.stats with callsChecked := p.stats.callsChecked + 1 } }
      let (callerTag, p) := p.callerTag ctx parents e.caller
      let (calleeTag, p) := p.resolve ctx e.callee
      if callAllowed (callerTag.map (·.tag)) (calleeTag.map (·.tag))
          e.sameInstance then
        p
      else
        p.report
          (.callSiteViolation caller.location (ctx.model.locationOf e.callee)
            callerTag calleeTag e.sameInstance)

/-- Checks all calls of a unit.  Parents are looked up only where tags are taken
from them. -/
def checkCalls (ctx : Context) (p : Pass) (u : SourceUnit) : Pass :=
  let parents :=
    if ctx.settings.inheritFromOverridden then parentIndex u.overrides else ∅
  u.calls.foldl (checkCall ctx parents) p

end Pass

end ThreadConfinement
