import ThreadConfinement.Tag

/-!
The two compatibility rules between tags: who may override whom, and who may
call whom.

The rules lean in opposite directions around the two tags of the user interface.
A method of the loader may override one of the event thread, and code of the
event thread may call into the loader; neither holds the other way round.
-/

namespace ThreadConfinement

namespace Tag

/-- Whether a method tagged `child` may override one tagged `parent`. -/
def mayOverride (child : Tag) (parent : Option Tag) : Bool :=
  match child, parent with
  | any, _ => true
  | _, none => false
  | uiLoaderOrEventThread, some uiEventThread => true
  | c, some p => c == p

/-- Whether code that runs as `caller` may call what is tagged `callee`.  No
rule depends on whether the call stays on the caller's own instance. -/
def mayCall (caller : Tag) (callee : Option Tag)
    (_sameInstance : Bool) : Bool :=
  match caller, callee with
  | _, none => true
  | _, some any => true
  | uiEventThread, some uiLoaderOrEventThread => true
  | c, some notVmEventHandler => c != vmEventHandler
  | c, some t => c == t

/-- Every tag against no tag and every tag. -/
def pairs : List (Tag × Option Tag) :=
  all.flatMap
    (fun first => (none :: all.map some).map (fun second => (first, second)))

/-- The verdict on every pair of a child and a parent. -/
def overrideMatrix : List (Tag × Option Tag × Bool) :=
  pairs.map (fun (child, parent) => (child, parent, mayOverride child parent))

/-- The verdict on every pair of a caller and a callee. -/
def callMatrix : List (Tag × Option Tag × Bool) :=
  pairs.map
    (fun (caller, callee) => (caller, callee, mayCall caller callee false))

end Tag

/-- Whether code may reach what is tagged `callee`.  Code without a tag may run
anywhere, so it reaches only what has no tag or is safe on every thread. -/
def callAllowed (caller callee : Option Tag) (sameInstance : Bool) : Bool :=
  match caller with
  | none => callee == none || callee == some .any
  | some tag => tag.mayCall callee sameInstance

end ThreadConfinement
