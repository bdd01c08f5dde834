import ThreadConfinement.Tag

/-!
Markers on declarations, and tags together with the place they come from.
-/

namespace ThreadConfinement

/-- What one marker says: a tag and its flags. -/
structure Marker where
  tag : Tag
  /-- The method need not fit what it overrides. -/
  ignoreParent : Bool := false
  /-- The code must run under the lock of its object. -/
  requireSynchronized : Bool := false
  /-- The tag holds for every method with the same signature below; set by
  library rules only. -/
  coversSubclasses : Bool := false
deriving DecidableEq

/-- A marker with the place it comes from. -/
structure LocatedTag extends Marker where
  location : String
deriving DecidableEq

namespace Marker

/-- Joins a second marker for the same tag: a flag holds when either sets it. -/
def union (a b : Marker) : Marker where
  tag := a.tag
  ignoreParent := a.ignoreParent || b.ignoreParent
  requireSynchronized := a.requireSynchronized || b.requireSynchronized
  coversSubclasses := a.coversSubclasses || b.coversSubclasses

def located (m : Marker) (location : String) : LocatedTag :=
  { m with location }

end Marker

namespace LocatedTag

/-- Two located tags mean the same thread; where they come from and their flags
do not count. -/
def sameTag (a b : LocatedTag) : Bool :=
  a.tag == b.tag

def describe (t : LocatedTag) : String :=
  t.tag.name ++ (if t.ignoreParent then " (ignoreParent)" else "")
    ++ (if t.requireSynchronized then " (requireSynchronized)" else "")
    ++ " at " ++ t.location

/-- The text for a tag that may be missing. -/
def describe? : Option LocatedTag → String
  | some t => t.describe
  | none => "untagged"

end LocatedTag

/-- A location that a line of the tag table can carry: not empty, no blank at
its end, and no control character. -/
def isExportable (location : String) : Bool :=
  !location.isEmpty && !Text.endsInBlank location && !Text.hasControl location

theorem isExportable_iff {location : String} :
    isExportable location = true ↔
      location ≠ "" ∧ Text.endsInBlank location = false ∧
        Text.hasControl location = false := by
  simp [isExportable, and_assoc]

end ThreadConfinement
