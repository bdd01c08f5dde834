import ThreadConfinement.Log
import ThreadConfinement.Marker
import ThreadConfinement.Registry.Table
import ThreadConfinement.Text.Quoted

/-!
The registry: every located tag that a run has met, one for each location.
-/

namespace ThreadConfinement

/-- Located tags by location. -/
structure Registry where
  entries : TextMap LocatedTag

namespace Registry

def empty : Registry :=
  ⟨∅⟩

/-- Records a tag in place of an earlier one at its location.  A location that
the table cannot carry is left out. -/
def record (r : Registry) (tag : LocatedTag) : Registry :=
  if isExportable tag.location then ⟨r.entries.insert tag.location tag⟩ else r

/-- The event for a tag that `record` leaves out. -/
def refusal? (tag : LocatedTag) : Option Event :=
  if isExportable tag.location then none
  else some
    { level := .warn
      message := "skipping tag record with unexportable location"
      fields := [("tag", .text tag.tag.name),
        ("location", .text (Text.quoted tag.location))] }

def get? (r : Registry) (location : String) : Option LocatedTag :=
  r.entries[location]?

def size (r : Registry) : Nat :=
  r.entries.size

/-- The tags in the order of their locations. -/
def toList (r : Registry) : List LocatedTag :=
  r.entries.values

/-- Records tags one after another. -/
def recordAll (r : Registry) (tags : List LocatedTag) : Registry :=
  tags.foldl record r

/-- Both registries together; where both have a location, `other` decides. -/
def merge (r other : Registry) : Registry :=
  ⟨r.entries ∪ other.entries⟩

/-- The rows for the registry's own tags. -/
def tagNames (r : Registry) : TextMap String :=
  r.entries.map (fun _ tag => tag.tag.name)

/-- The table with the registry's rows in place of older ones at their
locations. -/
def overwrite (r : Registry) (t : Table) : Table :=
  ⟨t.rows ∪ r.tagNames⟩

/-- The text of the table of the registry over a prior one. -/
def exportText (r : Registry) (prior : Option ByteArray) :
    Except TableFault String :=
  (Table.ofPrior prior).map (fun t => (r.overwrite t).render)

end Registry

end ThreadConfinement
