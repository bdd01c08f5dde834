import ThreadConfinement.Directory
import ThreadConfinement.Registry

/-!
Export of a registry to a table file, under a lock.

An export goes step by step: it opens the lock file beside the table, tries to
take the lock, reads the prior table, writes the merged one, and gives the lock
back.  Several exports may go through their steps in turns, and each sees the
directory as the others have left it.
-/

namespace ThreadConfinement

inductive ExportError where
  | file (fault : FileFault)
  /-- Another writer holds the lock of the table. -/
  | locked (path : String)
  | table (fault : TableFault)
deriving DecidableEq

namespace ExportError

def message : ExportError → String
  | file fault => "IO error: " ++ fault.message
  | locked path =>
    "Export locked: " ++ path ++ " is being written by another process"
  | table .notUtf8 => "Prior tag table is not valid UTF-8"
  | table (.malformed line fault) =>
    "Malformed prior tag table at line " ++ line.repr ++ ": " ++ fault.message

def code : ExportError → String
  | file _ => "EXPORT_IO_ERROR"
  | locked _ => "EXPORT_LOCKED"
  | table _ => "EXPORT_MALFORMED"

end ExportError

/-- What one export to a file has done. -/
structure ExportSummary where
  path : FileName
  /-- The rows that were written. -/
  entries : Nat
  /-- The rows of the prior table that the registry does not have. -/
  preserved : Nat
deriving DecidableEq

def ExportSummary.event (s : ExportSummary) : Event where
  level := .info
  message := "tag table exported"
  fields :=
    [("path", .text s.path.text), ("entries", .number s.entries),
      ("preserved", .number s.preserved)]

namespace Registry

/-- The number of rows of a prior table that the registry does not have. -/
def preserved (r : Registry) (prior : Table) : Nat :=
  (prior.rows.keys.filter (fun location => (r.get? location).isNone)).length

/-- The number of line feeds in a text. -/
def lineFeeds (text : String) : Nat :=
  text.toList.count '\n'

/-- How far an export has come. -/
inductive ExportPhase where
  | waiting
  /-- The lock file is open. -/
  | opened
  /-- The lock is held. -/
  | holding
  /-- The prior table is read; the lock is held. -/
  | loaded (prior : Option ByteArray)
  /-- All is decided, and the lock is still held. -/
  | stored (result : Except ExportError ExportSummary)
  | done (result : Except ExportError ExportSummary)

/-- Writes the merged table over the prior one. -/
def store (r : Registry) (path : FileName) (prior : Option ByteArray)
    (d : Directory) : Except ExportError ExportSummary × Directory :=
  match Table.ofPrior prior with
  | .error fault => (.error (.table fault), d)
  | .ok table =>
    let text := (r.overwrite table).render
    match d.write path text.toUTF8 with
    | .error fault => (.error (.file fault), d)
    | .ok d => (.ok ⟨path, lineFeeds text, r.preserved table⟩, d)

/-- One step of an export. -/
def exportStep (r : Registry) (path : FileName) :
    ExportPhase × Directory → ExportPhase × Directory
  | (.waiting, d) =>
    match d.touch path.lock with
    | .error fault => (.done (.error (.file fault)), d)
    | .ok d => (.opened, d)
  | (.opened, d) =>
    if d.isLocked path.lock then (.done (.error (.locked path.text)), d)
    else (.holding, d.acquire path.lock)
  | (.holding, d) =>
    match d.read path with
    | .ok bytes => (.loaded (some bytes), d)
    | .error .notFound => (.loaded none, d)
    | .error fault => (.stored (.error (.file fault)), d)
  | (.loaded prior, d) =>
    let (result, d) := r.store path prior d
    (.stored result, d)
  | (.stored result, d) => (.done result, d.release path.lock)
  | (.done result, d) => (.done result, d)

/-- The first `n` steps of an export, with no other writer in between. -/
def exportSteps (r : Registry) (path : FileName) :
    Nat → ExportPhase × Directory → ExportPhase × Directory
  | 0, s => s
  | n + 1, s => exportSteps r path n (r.exportStep path s)

namespace ExportPhase

/-- The number of steps that an export has left at most. -/
def left : ExportPhase → Nat
  | waiting => 5
  | opened => 4
  | holding => 3
  | loaded _ => 2
  | stored _ => 1
  | done _ => 0

/-- The result of an export that has come to its end. -/
def result : (p : ExportPhase) → p.left = 0 → Except ExportError ExportSummary
  | done result, _ => result

end ExportPhase

theorem left_exportStep_le (r : Registry) (path : FileName)
    (s : ExportPhase × Directory) :
    (r.exportStep path s).1.left ≤ s.1.left - 1 := by
  obtain ⟨phase, d⟩ := s
  cases phase <;> simp only [exportStep] <;> (repeat' split) <;>
    simp [ExportPhase.left]

theorem left_exportSteps_le (r : Registry) (path : FileName) (n : Nat)
    (s : ExportPhase × Directory) :
    (r.exportSteps path n s).1.left ≤ s.1.left - n := by
  induction n generalizing s with
  | zero => exact Nat.le_refl _
  | succ n ih =>
    have step := r.left_exportStep_le path s
    have rest := ih (r.exportStep path s)
    simp only [exportSteps]
    omega

/-- A whole export with no other writer in between. -/
def exportToFile (r : Registry) (path : FileName) (d : Directory) :
    Except ExportError ExportSummary × Directory :=
  let s := r.exportSteps path 5 (.waiting, d)
  (s.1.result (Nat.le_zero.1 (r.left_exportSteps_le path 5 (.waiting, d))), s.2)

/-- The event for an export that is not asked for. -/
def noPathEvent : Event where
  level := .debug
  message := "no tag table path configured, skipping export"

end Registry

end ThreadConfinement
