/-!
Values of a TOML document.
-/

namespace ThreadConfinement.Toml

/-- A value.  No setting is a number with a fraction or a moment in time, so
these have no content. -/
inductive Value where
  | text (value : String)
  | integer (value : Int)
  | float
  | boolean (value : Bool)
  | moment
  | array (items : List Value)
  | table (entries : List (String × Value))

end ThreadConfinement.Toml
