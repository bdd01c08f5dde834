/-!
Log events: what an operation tells besides its result.
-/

namespace ThreadConfinement

inductive Level where
  | debug
  | info
  | warn
deriving DecidableEq

namespace Level

def name : Level → String
  | debug => "DEBUG"
  | info => "INFO"
  | warn => "WARN"

end Level

/-- The value of one field of an event. -/
inductive FieldValue where
  | text (value : String)
  | number (value : Nat)
deriving DecidableEq

/-- One event: a message and named fields. -/
structure Event where
  level : Level
  message : String
  fields : List (String × FieldValue) := []
deriving DecidableEq

end ThreadConfinement
