import ThreadConfinement.EffectiveTag
import ThreadConfinement.Registry
import ThreadConfinement.Scope
import ThreadConfinement.SourceUnit

/-!
The state of one pass over a unit: what it has resolved, recorded and reported
so far.
-/

namespace ThreadConfinement

/-- Counters of a pass. -/
structure Stats where
  declarations : Nat := 0
  taggedDeclarations : Nat := 0
  overridesChecked : Nat := 0
  implicitOverridesChecked : Nat := 0
  callsChecked : Nat := 0
  fieldAccessesChecked : Nat := 0
  /-- Edges whose acting side was left alone. -/
  skippedEdges : Nat := 0
  findings : Nat := 0
deriving DecidableEq

/-- One entry of a journal. -/
inductive Entry where
  | event (event : Event)
  | finding (finding : Finding)
deriving DecidableEq

namespace Entry

def finding? : Entry → Option Finding
  | finding f => some f
  | event _ => none

/-- The entry as an event; findings are events only where they are to be
followed in the log. -/
def event? (echo : Bool) : Entry → Option Event
  | event e => some e
  | finding f => if echo then some f.event else none

end Entry

/-- Events and findings in the order in which they came up. -/
structure Journal where
  entries : Array Entry
deriving DecidableEq

namespace Journal

def empty : Journal :=
  ⟨#[]⟩

def note (j : Journal) (e : Event) : Journal :=
  ⟨j.entries.push (.event e)⟩

def report (j : Journal) (f : Finding) : Journal :=
  ⟨j.entries.push (.finding f)⟩

def findings (j : Journal) : List Finding :=
  j.entries.toList.filterMap Entry.finding?

/-- The log; with `echo`, findings stand in it too. -/
def events (j : Journal) (echo : Bool) : List Event :=
  j.entries.toList.filterMap (Entry.event? echo)

end Journal

/-- What a pass goes by. -/
structure Context where
  model : Model
  library : Library
  settings : CheckSettings

structure Pass where
  /-- What declarations say about themselves, as far as it was asked. -/
  own : IdMap OwnTag
  /-- The tags that hold, as far as they were asked. -/
  effective : IdMap (Option LocatedTag)
  /-- Findings on markers that disagree, waiting to be taken. -/
  conflicts : List Finding
  registry : Registry
  /-- Declarations whose need for a lock was decided at an override. -/
  evaluated : IdSet
  /-- Declarations that were reported for a missing lock: their own, or that at
  an access, with the place of the tag that asks for it. -/
  reported : List (DeclId × Option String)
  stats : Stats
  /-- The number of findings so far. -/
  findingCount : Nat
  journal : Journal

namespace Pass

/-- A pass that has done nothing yet. -/
def start (registry : Registry) : Pass where
  own := ∅
  effective := ∅
  conflicts := []
  registry := registry
  evaluated := ∅
  reported := []
  stats := {}
  findingCount := 0
  journal := .empty

def note (p : Pass) (e : Event) : Pass :=
  { p with journal := p.journal.note e }

def report (p : Pass) (f : Finding) : Pass :=
  { p with findingCount := p.findingCount + 1, journal := p.journal.report f }

def reportAll (p : Pass) (fs : List Finding) : Pass :=
  fs.foldl report p

/-- Records a tag, and notes when its location cannot be recorded. -/
def record (p : Pass) (tag : LocatedTag) : Pass :=
  let p := { p with registry := p.registry.record tag }
  match Registry.refusal? tag with
  | none => p
  | some event => p.note event

/-- Counts and notes an edge whose acting side is left alone. -/
def skipEdge (p : Pass) (message role : String) (acting : Declaration)
    (reason : SkipReason) : Pass :=
  { p.note
      { level := .debug
        message := message
        fields := [(role, .text acting.location),
          ("reason", .text reason.name)] } with
    stats := { p.stats with skippedEdges := p.stats.skippedEdges + 1 } }

/-- The number of declarations resolved so far. -/
def resolvedCount (p : Pass) : Nat :=
  p.effective.size

end Pass

end ThreadConfinement
