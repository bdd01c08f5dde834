import ThreadConfinement.Model
import ThreadConfinement.Settings

/-!
Which declarations are left alone as the acting side of an edge.
-/

namespace ThreadConfinement

inductive SkipReason where
  /-- The declaration or one around it is suppressed. -/
  | suppressed
  /-- The module of the declaration is ignored. -/
  | ignoredModule
deriving DecidableEq

namespace SkipReason

def name : SkipReason → String
  | suppressed => "suppressed"
  | ignoredModule => "ignored_module"

end SkipReason

namespace Model

/-- Why a declaration is not checked, if it is not. -/
def skipReason? (m : Model) (s : CheckSettings) (d : Declaration) :
    Option SkipReason :=
  if (d :: m.enclosers d).any (·.isSuppressedBy s.suppressionToken) then
    some .suppressed
  else if (m.moduleOf? d.id).any (fun e => s.ignoresModule e.qualifiedName) then
    some .ignoredModule
  else none

end Model

end ThreadConfinement
