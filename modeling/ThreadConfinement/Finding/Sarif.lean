import ThreadConfinement.Finding

/-!
Findings as a SARIF 2.1.0 report.

Locations are texts of the host, so they appear as logical locations and not as
regions of a file.
-/

namespace ThreadConfinement.Sarif

/-- The schema that a report names. -/
def schemaUri : String :=
  "https://raw.githubusercontent.com/oasis-tcs/sarif-spec/main/"
    ++ "sarif-2.1/schema/sarif-schema-2.1.0.json"

/-- The version of the format. -/
def formatVersion : String :=
  "2.1.0"

/-- A rule as the tool describes it. -/
structure RuleInfo where
  id : String
  name : String
  shortDescription : String

/-- The tool that made the report, with all its rules. -/
structure Tool where
  name : String
  version : String
  rules : List RuleInfo

/-- One finding; a location is the full name of a declaration. -/
structure Result where
  ruleId : String
  ruleIndex : Nat
  level : String
  message : String
  locations : List String
  relatedLocations : List String

structure Report where
  schema : String
  version : String
  tool : Tool
  results : List Result

def RuleInfo.ofRule (r : Rule) : RuleInfo where
  id := r.code
  name := r.name
  shortDescription := r.description

/-- Findings are never toned down: each is an error. -/
def Result.ofFinding (f : Finding) : Result where
  ruleId := f.rule.code
  ruleIndex := f.rule.index
  level := "error"
  message := f.message
  locations := [f.location]
  relatedLocations := f.related

/-- The report of a tool on a list of findings. -/
def Report.ofFindings (findings : List Finding)
    (toolName toolVersion : String) : Report where
  schema := schemaUri
  version := formatVersion
  tool := ⟨toolName, toolVersion, Rule.all.map RuleInfo.ofRule⟩
  results := findings.map Result.ofFinding

end ThreadConfinement.Sarif
