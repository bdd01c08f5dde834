import Std.Data.ExtTreeMap

/-!
Maps and sets whose keys are texts.  They list their keys in the order of code
points.
-/

namespace ThreadConfinement

/-- A map from texts. -/
abbrev TextMap (α : Type) : Type :=
  Std.ExtTreeMap String α compare

end ThreadConfinement
