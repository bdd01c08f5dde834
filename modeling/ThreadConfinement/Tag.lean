import ThreadConfinement.Text.Blank

/-!
Thread tags: the contexts that code can be confined to, with their names.
-/

namespace ThreadConfinement

/-- The execution context that a declaration is confined to. -/
inductive Tag where
  /-- The event thread of the user interface. -/
  | uiEventThread
  /-- The event thread, or the loader that builds a user interface before it is
  shown. -/
  | uiLoaderOrEventThread
  /-- The thread of a second, independent user interface. -/
  | secondaryUiThread
  /-- The simulation thread. -/
  | simulationThread
  /-- A background worker. -/
  | worker
  /-- The thread that handles the events of a debugged virtual machine. -/
  | vmEventHandler
  /-- Every thread but the handler of virtual machine events. -/
  | notVmEventHandler
  /-- Every thread. -/
  | any
deriving DecidableEq

/-- A text that names no tag; `name` is the text without outer blanks. -/
structure UnknownTag where
  name : String
deriving DecidableEq

namespace Tag

/-- All tags, in the order in which they are listed. -/
def all : List Tag :=
  [uiEventThread, uiLoaderOrEventThread, secondaryUiThread,
    simulationThread, worker, vmEventHandler, notVmEventHandler, any]

theorem mem_all (t : Tag) : t ∈ all := by
  cases t <;> decide

def name : Tag → String
  | uiEventThread => "UiEventThread"
  | uiLoaderOrEventThread => "UiLoaderOrEventThread"
  | secondaryUiThread => "SecondaryUiThread"
  | simulationThread => "SimulationThread"
  | worker => "Worker"
  | vmEventHandler => "VmEventHandler"
  | notVmEventHandler => "NotVmEventHandler"
  | any => "Any"

/-- The tag with exactly this name. -/
def ofName? (s : String) : Option Tag :=
  all.find? (fun t => t.name == s)

theorem ofName?_name (t : Tag) : ofName? t.name = some t := by
  cases t <;> decide

/-- Reads a tag name; blanks around it do not count. -/
def parse (s : String) : Except UnknownTag Tag :=
  match ofName? (Text.trim s) with
  | some t => .ok t
  | none => .error ⟨Text.trim s⟩

end Tag

namespace UnknownTag

def message (e : UnknownTag) : String :=
  "unknown thread tag: " ++ e.name

def code (_ : UnknownTag) : String :=
  "UNKNOWN_TAG"

end UnknownTag

end ThreadConfinement
