import ThreadConfinement.Log
import ThreadConfinement.Marker

/-!
Findings: what a check of a unit has to say about it.

A finding names declarations by their locations and carries the tags that
decided.  None stops a check; what follows from a finding is up to the host.
-/

namespace ThreadConfinement

/-- A tagged parent of a method that overrides several. -/
structure ParentTag where
  parent : String
  tag : LocatedTag
deriving DecidableEq

inductive Finding where
  /-- `child` runs on a thread that `parent` does not allow; `implicit` when a
  tag that covers subclasses takes the place of an override edge. -/
  | overrideConflict (child parent : String)
      (childTag parentTag : Option LocatedTag) (implicit : Bool)
  | callSiteViolation (caller callee : String)
      (callerTag calleeTag : Option LocatedTag) (sameInstance : Bool)
  | missingSynchronization (declaration : String) (requiredBy : LocatedTag)
  /-- The markers of one declaration name several tags. -/
  | unresolvableTag (declaration : String) (tags : List Tag)
  /-- An untagged method overrides parents with different tags. -/
  | inheritanceConflict (method : String) (methodTag : Option LocatedTag)
      (parents : List ParentTag)
  | fieldAccessViolation (accessor field : String)
      (accessorTag fieldTag : Option LocatedTag)
deriving DecidableEq

/-- The kinds of finding, which are also the rules of a report. -/
inductive Rule where
  | overrideConflict
  | callSiteViolation
  | missingSynchronization
  | unresolvableTag
  | inheritanceConflict
  | fieldAccessViolation
deriving DecidableEq

namespace Rule

def all : List Rule :=
  [overrideConflict, callSiteViolation, missingSynchronization, unresolvableTag,
    inheritanceConflict, fieldAccessViolation]

def name : Rule → String
  | overrideConflict => "OverrideConflict"
  | callSiteViolation => "CallSiteViolation"
  | missingSynchronization => "MissingSynchronization"
  | unresolvableTag => "UnresolvableAttribute"
  | inheritanceConflict => "InheritanceConflict"
  | fieldAccessViolation => "FieldAccessViolation"

/-- The stable code of the rule. -/
def code : Rule → String
  | overrideConflict => "AFF001"
  | callSiteViolation => "AFF002"
  | missingSynchronization => "AFF003"
  | unresolvableTag => "AFF004"
  | inheritanceConflict => "AFF005"
  | fieldAccessViolation => "AFF006"

def description : Rule → String
  | overrideConflict =>
    "Overriding method runs on a thread its parent does not allow"
  | callSiteViolation => "Call crosses into an incompatible thread context"
  | missingSynchronization =>
    "Declaration requires synchronization but holds no lock"
  | unresolvableTag => "Conflicting thread tags on one declaration"
  | inheritanceConflict =>
    "Untagged method overrides parents with differing thread tags"
  | fieldAccessViolation => "Field accessed from an incompatible thread context"

/-- The position of the rule in `all`. -/
def index (r : Rule) : Nat :=
  all.idxOf r

end Rule

namespace Finding

def rule : Finding → Rule
  | overrideConflict .. => .overrideConflict
  | callSiteViolation .. => .callSiteViolation
  | missingSynchronization .. => .missingSynchronization
  | unresolvableTag .. => .unresolvableTag
  | inheritanceConflict .. => .inheritanceConflict
  | fieldAccessViolation .. => .fieldAccessViolation

/-- The location of the acting side. -/
def location : Finding → String
  | overrideConflict child .. => child
  | callSiteViolation caller .. => caller
  | missingSynchronization declaration _ => declaration
  | unresolvableTag declaration _ => declaration
  | inheritanceConflict method .. => method
  | fieldAccessViolation accessor .. => accessor

/-- The locations of the other side. -/
def related : Finding → List String
  | overrideConflict _ parent .. => [parent]
  | callSiteViolation _ callee .. => [callee]
  | missingSynchronization _ requiredBy => [requiredBy.location]
  | unresolvableTag .. => []
  | inheritanceConflict _ _ parents => parents.map ParentTag.parent
  | fieldAccessViolation _ field .. => [field]

/-- A location and its tag in parentheses. -/
def side (location : String) (tag : Option LocatedTag) : String :=
  location ++ " (" ++ LocatedTag.describe? tag ++ ")"

def message : Finding → String
  | overrideConflict child parent childTag parentTag implicit =>
    side child childTag ++ " cannot override " ++ side parent parentTag
      ++ (if implicit then " [subclass-wide tag]" else "")
  | callSiteViolation caller callee callerTag calleeTag _ =>
    side caller callerTag ++ " cannot call " ++ side callee calleeTag
  | missingSynchronization declaration requiredBy =>
    declaration ++ " must hold its lock, required by " ++ requiredBy.describe
  | unresolvableTag declaration tags =>
    declaration ++ " has conflicting tags: " ++ ", ".intercalate
      (tags.map Tag.name)
  | inheritanceConflict method methodTag parents =>
    side method methodTag ++ " overrides parents with differing tags:"
      ++ String.join
      (parents.map (fun p => " " ++ side p.parent (some p.tag) ++ ";"))
  | fieldAccessViolation accessor field accessorTag fieldTag =>
    side accessor accessorTag ++ " cannot access field " ++ side field fieldTag

/-- A finding as an event, for hosts that follow a check in its log. -/
def event (f : Finding) : Event where
  level := .warn
  message := f.message
  fields := [("kind", .text f.rule.name), ("location", .text f.location)]

/-- Both tags are missing, or both are there and mean the same thread. -/
def sameTag? : Option LocatedTag → Option LocatedTag → Bool
  | none, none => true
  | some a, some b => a.sameTag b
  | _, _ => false

/-- Both lists name the same parents with the same threads. -/
def sameParents : List ParentTag → List ParentTag → Bool
  | [], [] => true
  | a :: as, b :: bs =>
    a.parent == b.parent && a.tag.sameTag b.tag && sameParents as bs
  | _, _ => false

/-- Two findings say the same when they differ at most in where their tags come
from and in the flags of these. -/
def saysSame : Finding → Finding → Bool
  | overrideConflict c p ct pt i, overrideConflict c' p' ct' pt' i' =>
    c == c' && p == p' && sameTag? ct ct' && sameTag? pt pt' && i == i'
  | callSiteViolation c m ct mt s, callSiteViolation c' m' ct' mt' s' =>
    c == c' && m == m' && sameTag? ct ct' && sameTag? mt mt' && s == s'
  | missingSynchronization d t, missingSynchronization d' t' =>
    d == d' && t.sameTag t'
  | unresolvableTag d ts, unresolvableTag d' ts' => d == d' && ts == ts'
  | inheritanceConflict m mt ps, inheritanceConflict m' mt' ps' =>
    m == m' && sameTag? mt mt' && sameParents ps ps'
  | fieldAccessViolation a f at₁ ft, fieldAccessViolation a' f' at₂ ft' =>
    a == a' && f == f' && sameTag? at₁ at₂ && sameTag? ft ft'
  | _, _ => false

end Finding

end ThreadConfinement
