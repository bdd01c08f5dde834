import ThreadConfinement.Glob
import ThreadConfinement.Marker

/-!
Settings of a check, with the values that hold where nothing is set.
-/

namespace ThreadConfinement

/-- The level of declarations that a library rule is for. -/
inductive RuleScope where
  | module
  | type
  | method
deriving DecidableEq

namespace RuleScope

def name : RuleScope → String
  | module => "module"
  | type => "type"
  | method => "method"

/-- The scope with exactly this name. -/
def ofName? (s : String) : Option RuleScope :=
  [module, type, method].find? (fun scope => scope.name == s)

end RuleScope

/-- A tag for declarations that the host cannot mark, known by their qualified
name. -/
structure LibraryRule extends Marker where
  scope : RuleScope
  path : String
deriving DecidableEq

namespace LibraryRule

/-- The location of tags that come from the rule. -/
def location (r : LibraryRule) : String :=
  "<library: " ++ r.path ++ ">"

def locatedTag (r : LibraryRule) : LocatedTag :=
  r.toMarker.located r.location

end LibraryRule

/-- Settings of the checks themselves; a value that is `none` was not set. -/
structure CheckSettings where
  /-- The beginnings of the names of modules whose declarations are not
  checked. -/
  ignoredModules : List String := []
  suppressionToken? : Option String := none
  subclassPropagation? : Option Bool := none
  inheritFromOverridden? : Option Bool := none
  checkFieldAccess? : Option Bool := none
  /-- Patterns for types whose methods may be overridden with any tag. -/
  exemptParentTypes : List String := []
deriving DecidableEq

namespace CheckSettings

/-- A declaration with a suppression that holds this token is not checked. -/
def suppressionToken (s : CheckSettings) : String :=
  s.suppressionToken?.getD "threadchecker"

/-- Library tags that cover subclasses stand in for override edges. -/
def subclassPropagation (s : CheckSettings) : Bool :=
  s.subclassPropagation?.getD true

/-- An untagged method calls with the tag of what it overrides. -/
def inheritFromOverridden (s : CheckSettings) : Bool :=
  s.inheritFromOverridden?.getD false

def checkFieldAccess (s : CheckSettings) : Bool :=
  s.checkFieldAccess?.getD true

/-- The name of the module begins with an ignored beginning. -/
def ignoresModule (s : CheckSettings) (moduleName : String) : Bool :=
  s.ignoredModules.any (fun stem => Text.beginsWith moduleName stem)

end CheckSettings

structure Settings where
  check : CheckSettings := {}
  /-- Where the tag table is written after a run. -/
  tagTablePath : Option String := none
  library : List LibraryRule := []
  logLevel? : Option String := none
deriving DecidableEq

inductive SettingsFault where
  | fileNotFound
  | fileNotUtf8
  /-- The text is no TOML document, or its values do not fit. -/
  | malformed
  | invalidPattern (pattern : String) (fault : GlobFault)
  | emptyLibraryPath
deriving DecidableEq

namespace SettingsFault

def message : SettingsFault → String
  | fileNotFound =>
    "IO error reading config: No such file or directory (os error 2)"
  | fileNotUtf8 => "IO error reading config: stream did not contain valid UTF-8"
  | malformed => "TOML parse error"
  | invalidPattern pattern fault =>
    "Invalid glob pattern '" ++ pattern ++ "': " ++ fault.message
  | emptyLibraryPath => "Library rule has an empty path"

def code (_ : SettingsFault) : String :=
  "CONFIG_ERROR"

end SettingsFault

namespace Settings

def logLevel (s : Settings) : String :=
  s.logLevel?.getD "info"

/-- A text that is no pattern. -/
def patternFault? (pattern : String) : Option SettingsFault :=
  match Glob.parse pattern with
  | .error fault => some (.invalidPattern pattern fault)
  | .ok _ => none

/-- The first pattern or rule that would silently never match. -/
def fault? (s : Settings) : Option SettingsFault :=
  s.check.exemptParentTypes.findSome? patternFault?
    <|> if s.library.any (fun r => Text.allBlank r.path) then
        some .emptyLibraryPath
      else none

end Settings

end ThreadConfinement
