import ThreadConfinement.Finding
import ThreadConfinement.Library
import ThreadConfinement.Model

/-!
Which tag holds for a declaration.

A declaration with a tag of its own has that tag: from its markers, or else from
the library.  One whose markers disagree has none.  One with neither takes the
tag of the nearest enclosing type or module that has one of its own; a field
that is safe on every thread does not look so far.
-/

namespace ThreadConfinement

/-- What a declaration says about itself. -/
inductive OwnTag where
  | absent
  | tagged (tag : LocatedTag)
  /-- The markers name several tags. -/
  | conflicted (tags : List Tag)
deriving DecidableEq

namespace OwnTag

def tag? : OwnTag → Option LocatedTag
  | tagged tag => some tag
  | absent | conflicted _ => none

end OwnTag

namespace Library

/-- The tag of a declaration by its own markers, or by the library where it has
none.  Markers for one tag contribute all their flags. -/
def ownTag (l : Library) (d : Declaration) : OwnTag :=
  match d.markers with
  | [] =>
    match l.lookup? d with
    | some tag => .tagged tag
    | none => .absent
  | first :: rest =>
    if d.distinctTags.length ≤
      1 then .tagged ((rest.foldl Marker.union first).located d.location)
    else .conflicted d.distinctTags

end Library

namespace Declaration

/-- The tag of a field that is safe on every thread. -/
def threadSafeTag (d : Declaration) : LocatedTag :=
  ({ tag := .any } : Marker).located
    ("<thread-safe field: " ++ d.qualifiedName ++ ">")

/-- The finding for a declaration whose markers name several tags. -/
def conflictFinding (d : Declaration) (tags : List Tag) : Finding :=
  .unresolvableTag d.location tags

end Declaration

namespace Model

/-- The declarations from which `d` takes its tag when it has none of its own,
nearest first. -/
def tagSources (m : Model) (d : Declaration) : List Declaration :=
  match d.kind with
  | .module => []
  | .type => (m.moduleOf? d.id).toList
  | .method | .constructor | .initializer | .field =>
    (m.enclosingType? d.id).toList ++ (m.moduleOf? d.id).toList

/-- The tag that holds for a declaration. -/
def effectiveTag? (m : Model) (l : Library) (id : DeclId) : Option LocatedTag :=
  (m.find? id).bind (fun d =>
    match l.ownTag d with
    | .tagged tag => some tag
    | .conflicted _ => none
    | .absent =>
      if d.kind = .field ∧ d.threadSafe then some d.threadSafeTag
      else (m.tagSources d).findSome? (fun source => (l.ownTag source).tag?))

end Model

end ThreadConfinement
