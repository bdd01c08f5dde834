import ThreadConfinement.Pass.Call
import ThreadConfinement.Pass.FieldAccess

/-!
The check of a unit, and of several units in turn or each on its own.
-/

namespace ThreadConfinement

/-- What one check has found. -/
structure Report where
  unit : String
  findings : List Finding
  stats : Stats
deriving DecidableEq

namespace Report

def isClean (r : Report) : Bool :=
  r.findings.isEmpty

end Report

/-- The event at the end of a check. -/
def Stats.event (s : Stats) (unit : String) : Event where
  level := .info
  message := "unit checked"
  fields :=
    [("unit", .text unit), ("declarations", .number s.declarations),
      ("tagged", .number s.taggedDeclarations),
      ("overrides", .number s.overridesChecked),
      ("implicit_overrides", .number s.implicitOverridesChecked),
      ("calls", .number s.callsChecked),
      ("field_accesses", .number s.fieldAccessesChecked),
      ("skipped", .number s.skippedEdges), ("diagnostics", .number s.findings)]

/-- What the checks of all units share. -/
structure Checker where
  settings : CheckSettings
  library : Library

namespace Checker

def ofSettings (s : Settings) : Checker :=
  ⟨s.check, .ofRules s.library⟩

def context (c : Checker) (u : SourceUnit) : Context :=
  ⟨u.model, c.library, c.settings⟩

/-- The whole pass over a unit.  First every declaration is resolved, then come
overrides, calls, field accesses where they count, and methods that need a lock
of their own. -/
def run (c : Checker) (u : SourceUnit) (registry : Registry) : Pass :=
  let ctx := c.context u
  let p := (Pass.start registry).resolveAll ctx
  let p := p.checkOverrides ctx u.overrides
  let p := p.checkCalls ctx u
  let p :=
    if c.settings.checkFieldAccess then
      p.checkFieldAccesses ctx u.fieldAccesses
    else p
  let p := p.checkGuards ctx
  let stats := { p.stats with findings := p.findingCount }
  { p with stats := stats }.note (stats.event u.name)

end Checker

/-- The report of a finished pass. -/
def Pass.toReport (p : Pass) (u : SourceUnit) : Report :=
  ⟨u.name, p.journal.findings, p.stats⟩

namespace Checker

/-- Checks a unit and adds to the registry. -/
def check (c : Checker) (u : SourceUnit) (registry : Registry) :
    Report × Registry :=
  let p := c.run u registry
  (p.toReport u, p.registry)

/-- The passes over units in turn, with one registry. -/
def runInTurn (c : Checker) : List SourceUnit → Registry → List Pass
  | [], _ => []
  | u :: us, registry =>
    let p := c.run u registry
    p :: runInTurn c us p.registry

/-- Checks each unit with a registry of its own; the registries are merged in
the order of the units. -/
def checkApart (c : Checker) (us : List SourceUnit) : List Report × Registry :=
  let results := us.map (fun u => c.check u .empty)
  (results.map Prod.fst, (results.map Prod.snd).foldl Registry.merge .empty)

/-- The event at the end of checking units apart. -/
def apartEvent (reports : List Report) (registry : Registry) : Event where
  level := .info
  message := "parallel check complete"
  fields := [("units", .number reports.length), ("tags", .number registry.size)]

/-- What is told of checking units apart.  Several units are checked side by
side, where nobody listens to them; one unit alone is checked in place, so its
events are heard. -/
def apartEvents (c : Checker) (us : List SourceUnit) : List Event :=
  let (reports, registry) := c.checkApart us
  let heard := match us with
    | [u] => (c.run u .empty).journal.events false
    | _ => []
  heard ++ [apartEvent reports registry]

end Checker

end ThreadConfinement
