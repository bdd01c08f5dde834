import ThreadConfinement.Settings
import ThreadConfinement.Toml.Document

/-!
Settings from a TOML document.

Keys that mean nothing here are ignored.  A record is a table, or an array with
its fields in order.
-/

namespace ThreadConfinement

namespace Toml.Value

/-- The values of the named fields of a record.  A moment is a record without
any of them. -/
def fields? (names : List String) : Value → Option (String → Option Value)
  | table entries => some (fun name => entries.lookup name)
  | array items =>
    some (fun name => (names.idxOf? name).bind (fun i => items[i]?))
  | moment => some (fun _ => none)
  | _ => none

def text? : Value → Option String
  | text s => some s
  | _ => none

def boolean? : Value → Option Bool
  | boolean b => some b
  | _ => none

def array? : Value → Option (List Value)
  | array items => some items
  | _ => none

def texts? (v : Value) : Option (List String) :=
  v.array?.bind (fun items => items.mapM text?)

/-- The name of a choice: a text, or a table with it as the only key and nothing
below. -/
def choice? : Value → Option String
  | text s => some s
  | table [(name, table [])] => some name
  | table [(name, array [])] => some name
  | _ => none

/-- A field that need not be there: `none` when it is there and does not fit. -/
def orDefault (read : Value → Option α) (default : α) : Option Value → Option α
  | none => some default
  | some v => read v

end Toml.Value

open Toml (Value)

namespace LibraryRule

/-- A rule from its record. -/
def ofValue? (v : Value) : Option LibraryRule := do
  let field ← v.fields?
    ["scope", "path", "tag", "ignore_parent", "require_synchronized",
      "applies_to_subclasses"]
  let flag (name : String) : Option Bool :=
    Value.orDefault Value.boolean? false (field name)
  let scope ← RuleScope.ofName? (← (← field "scope").choice?)
  let path ← (← field "path").text?
  let tag ← Tag.ofName? (← (← field "tag").choice?)
  return {
    tag := tag
    ignoreParent := ← flag "ignore_parent"
    requireSynchronized := ← flag "require_synchronized"
    coversSubclasses := ← flag "applies_to_subclasses"
    scope := scope
    path := path }

end LibraryRule

namespace CheckSettings

/-- Check settings from their record. -/
def ofValue? (v : Value) : Option CheckSettings := do
  let field ← v.fields?
    ["ignore_modules", "suppression_token", "subclass_propagation",
      "inherit_from_overridden", "check_field_access", "exempt_parent_types"]
  let texts (name : String) : Option (List String) :=
    Value.orDefault Value.texts? [] (field name)
  let flag (name : String) : Option (Option Bool) :=
    Value.orDefault (fun v => v.boolean?.map some) none (field name)
  return {
    ignoredModules := ← texts "ignore_modules"
    suppressionToken? :=
      ← Value.orDefault (fun v => v.text?.map some) none
        (field "suppression_token")
    subclassPropagation? := ← flag "subclass_propagation"
    inheritFromOverridden? := ← flag "inherit_from_overridden"
    checkFieldAccess? := ← flag "check_field_access"
    exemptParentTypes := ← texts "exempt_parent_types" }

end CheckSettings

namespace Settings

/-- The path of the tag table from the record about exports. -/
def exportPath? (v : Value) : Option (Option String) := do
  let field ← v.fields? ["tag_table_path"]
  Value.orDefault (fun v => v.text?.map some) none (field "tag_table_path")

/-- Settings from the table of a document. -/
def ofValue? (v : Value) : Option Settings := do
  let field ← v.fields? ["check", "export", "library", "log_level"]
  return {
    check := ← Value.orDefault CheckSettings.ofValue? {} (field "check")
    tagTablePath := ← Value.orDefault exportPath? none (field "export")
    library :=
      ← Value.orDefault (fun v => v.array?.bind
        (fun items => items.mapM LibraryRule.ofValue?)) [] (field "library")
    logLevel? :=
      ← Value.orDefault (fun v => v.text?.map some) none (field "log_level") }

/-- Reads settings from a TOML document and checks them. -/
def parse (text : String) : Except SettingsFault Settings :=
  match (Toml.parse? text).bind ofValue? with
  | none => .error .malformed
  | some settings =>
    match settings.fault? with
    | some fault => .error fault
    | none => .ok settings

/-- Reads settings from the content of a file; `none` is a file that is not
there. -/
def load : Option ByteArray → Except SettingsFault Settings
  | none => .error .fileNotFound
  | some content =>
    match String.fromUTF8? content with
    | none => .error .fileNotUtf8
    | some text => parse text

end Settings

end ThreadConfinement
