import ThreadConfinement.Proofs.TableFile
import Mathlib.Data.List.Basic

/-!
Exports to one table that take their steps in turns.

An export reads the table and writes it while it holds the lock, and only one
can hold it.  So whatever the interleaving, the table ends up as if the exports
that succeed had run one after another, in the order in which they took the
lock, and the others had not run at all.
-/

namespace ThreadConfinement

namespace Registry.ExportPhase

def holdsLock : ExportPhase → Bool
  | holding | loaded _ | stored _ => true
  | waiting | opened | done _ => false

def wrote : ExportPhase → Bool
  | stored (.ok _) | done (.ok _) => true
  | waiting | opened | holding | loaded _ | stored (.error _) |
      done (.error _) => false

end Registry.ExportPhase

open Registry

/-- One of the exports that share a directory. -/
structure Exporter where
  registry : Registry
  phase : ExportPhase

/-- The registry that the export has brought into the table, if it has. -/
def Exporter.contribution? (e : Exporter) : Option Registry :=
  if e.phase.wrote then some e.registry else none

/-- Exports to one table on their way. -/
structure Exports where
  exporters : List Exporter
  directory : Directory
  /-- The places of the exports that have taken the lock, in the order in which
  they took it. -/
  taken : List Nat

namespace Exports

def start (registries : List Registry) (d : Directory) : Exports :=
  ⟨registries.map (fun r => ⟨r, .waiting⟩), d, []⟩

/-- The export at the named place takes its next step. -/
def step (path : FileName) (s : Exports) (turn : Nat) : Exports :=
  match s.exporters[turn]? with
  | none => s
  | some e =>
    let (phase, directory) := e.registry.exportStep path (e.phase, s.directory)
    { exporters := s.exporters.set turn ⟨e.registry, phase⟩
      directory := directory
      taken :=
        if phase.holdsLock && !e.phase.holdsLock then s.taken ++ [turn]
        else s.taken }

/-- Lets the exports take their steps, at each turn the one at the named
place. -/
def play (path : FileName) (s : Exports) (schedule : List Nat) : Exports :=
  schedule.foldl (step path) s

def succeeded (s : Exports) (place : Nat) : Bool :=
  match s.exporters[place]? with
  | some ⟨_, .done (.ok _)⟩ => true
  | _ => false

/-- The places of the exports that have returned with success, in the order in
which they took the lock. -/
def winners (s : Exports) : List Nat :=
  s.taken.filter s.succeeded

/-- The registries that have come into the table, in the order in which the lock
was taken for them. -/
def written (s : Exports) : List Registry :=
  s.taken.filterMap
    (fun place => s.exporters[place]?.bind Exporter.contribution?)

end Exports

/-- Whole exports to one table, one after another. -/
def Registry.exportInTurn (path : FileName) (registries : List Registry)
    (d : Directory) : Directory :=
  registries.foldl (fun d r => (r.exportToFile path d).2) d

namespace Exports

variable {path : FileName} {d : Directory} {s : Exports}

/-- The lock serializes the exports: its holder is the last one that took it,
has read what is in the table now, and the table is what the contributions so
far make of the one at the start. -/
structure Serial (path : FileName) (d : Directory) (s : Exports) : Prop where
  ready : s.directory.Ready path
  holder : ∀ (i : Nat) (e : Exporter), s.exporters[i]? = some e →
    e.phase.holdsLock = true →
    s.directory.isLocked path.lock = true ∧ s.taken.getLast? = some i
  loaded : ∀ (i : Nat) (e : Exporter) (prior : Option ByteArray),
    s.exporters[i]? = some e →
    e.phase = .loaded prior → prior = s.directory.content? path
  past : ∀ (i : Nat) (e : Exporter), i ∈ s.taken → s.exporters[i]? = some e →
    e.phase.left ≤ 3
  nodup : s.taken.Nodup
  wrote : ∀ (i : Nat) (e : Exporter), s.exporters[i]? = some e →
    e.phase.wrote = true → i ∈ s.taken
  content : s.directory.content? path =
    s.written.foldl (fun content r => r.rewrite content) (d.content? path)
  /-- A lock that someone else held at the start is never had. -/
  outside : d.isLocked path.lock = true →
    s.directory.isLocked path.lock = true ∧ s.taken = []

theorem serial_start (hd : d.Ready path) (registries : List Registry) :
    Serial path d (start registries d) := by
  have hwaiting : ∀ (i : Nat) (e : Exporter),
      (start registries d).exporters[i]? = some e →
      e.phase = .waiting := by
    intro i e he
    obtain ⟨r, -, rfl⟩ := List.mem_map.mp (List.mem_of_getElem? he)
    rfl
  refine ⟨hd, ?_, ?_, ?_, List.nodup_nil, ?_, rfl,
    fun hlocked => ⟨hlocked, rfl⟩⟩
  · intro i e he hholds
    simp [hwaiting i e he, ExportPhase.holdsLock] at hholds
  · intro i e prior he hphase
    simp [hwaiting i e he] at hphase
  · intro i e hi
    simp [start] at hi
  · intro i e he hwrote
    simp [hwaiting i e he, ExportPhase.wrote] at hwrote

/-- The other exports stay where they are. -/
theorem getElem?_set_of_getElem? {i : Nat} {e : Exporter}
    (he : s.exporters[i]? = some e) (new : Exporter) (j : Nat) :
    (s.exporters.set i new)[j]? = if i =
      j then some new else s.exporters[j]? := by
  have hlt : i < s.exporters.length := (List.getElem?_eq_some_iff.mp he).1
  rw [List.getElem?_set, if_pos hlt]

/-- After a step an export is the one that moved, or it is where it was. -/
theorem eq_or_of_getElem?_set {i : Nat} {e : Exporter}
    (he : s.exporters[i]? = some e) {new : Exporter} {j : Nat} {f : Exporter}
    (hf : (s.exporters.set i new)[j]? = some f) :
    i = j ∧ new = f ∨ i ≠ j ∧ s.exporters[j]? = some f := by
  rw [getElem?_set_of_getElem? he] at hf
  split at hf
  · next hij => exact Or.inl ⟨hij, Option.some.inj hf⟩
  · next hij => exact Or.inr ⟨hij, hf⟩

section Steps

variable {i : Nat} {e : Exporter} {phase : ExportPhase} {after : Directory}

/-- A step that neither takes the lock nor writes. -/
theorem Serial.keep (hs : Serial path d s) (he : s.exporters[i]? = some e)
    (hready : after.Ready path)
    (hcontent : after.content? path = s.directory.content? path)
    (hwrote : phase.wrote = e.phase.wrote) (hleft : phase.left ≤ e.phase.left)
    (hholds : phase.holdsLock = true → e.phase.holdsLock = true)
    (hlock : after.isLocked path.lock = s.directory.isLocked path.lock ∨
      e.phase.holdsLock = true ∧ phase.holdsLock = false)
    (hloaded : ∀ prior, phase = .loaded prior →
      prior = s.directory.content? path) :
    Serial path d ⟨s.exporters.set i ⟨e.registry, phase⟩, after, s.taken⟩ := by
  refine ⟨hready, ?_, ?_, ?_, hs.nodup, ?_, ?_, ?_⟩
  · intro j f hf hfholds
    rcases eq_or_of_getElem?_set he hf with ⟨rfl, rfl⟩ | ⟨hij, hf⟩
    · obtain ⟨hlocked, hlast⟩ := hs.holder i e he (hholds hfholds)
      rcases hlock with hsame | ⟨-, hgiven⟩
      · exact ⟨hsame.trans hlocked, hlast⟩
      · simp [hgiven] at hfholds
    · obtain ⟨hlocked, hlast⟩ := hs.holder j f hf hfholds
      rcases hlock with hsame | ⟨hheld, -⟩
      · exact ⟨hsame.trans hlocked, hlast⟩
      · have hsecond := (hs.holder i e he hheld).2
        rw [hlast] at hsecond
        exact absurd (Option.some.inj hsecond).symm hij
  · intro j f prior hf hphase
    rw [hcontent]
    rcases eq_or_of_getElem?_set he hf with ⟨rfl, rfl⟩ | ⟨-, hf⟩
    · exact hloaded prior hphase
    · exact hs.loaded j f prior hf hphase
  · intro j f hj hf
    rcases eq_or_of_getElem?_set he hf with ⟨rfl, rfl⟩ | ⟨-, hf⟩
    · exact Nat.le_trans hleft (hs.past i e hj he)
    · exact hs.past j f hj hf
  · intro j f hf hfwrote
    rcases eq_or_of_getElem?_set he hf with ⟨rfl, rfl⟩ | ⟨-, hf⟩
    · exact hs.wrote i e he (hwrote.symm.trans hfwrote)
    · exact hs.wrote j f hf hfwrote
  · have hwritten : written ⟨s.exporters.set i ⟨e.registry, phase⟩, after,
        s.taken⟩ = s.written := by
      apply List.filterMap_congr
      intro j _
      rw [getElem?_set_of_getElem? he]
      split
      · next hij => simp [← hij, he, Exporter.contribution?, hwrote]
      · rfl
    rw [hcontent, hwritten]
    exact hs.content
  · intro houtside
    obtain ⟨hlocked, hnone⟩ := hs.outside houtside
    rcases hlock with hsame | ⟨hheld, -⟩
    · exact ⟨hsame.trans hlocked, hnone⟩
    · have hlast := (hs.holder i e he hheld).2
      simp [hnone] at hlast

/-- A step that takes the lock. -/
theorem Serial.acquire (hs : Serial path d s) (he : s.exporters[i]? = some e)
    (hphase : e.phase = .opened)
    (hfree : s.directory.isLocked path.lock = false) (hready : after.Ready path)
    (hcontent : after.content? path = s.directory.content? path)
    (hlocked : after.isLocked path.lock = true) :
    Serial path d ⟨s.exporters.set i ⟨e.registry, .holding⟩, after,
      s.taken ++ [i]⟩ := by
  have hget := getElem?_set_of_getElem? he ⟨e.registry, .holding⟩
  have hfirst : i ∉ s.taken := by
    intro hi
    have hpast := hs.past i e hi he
    simp [hphase, ExportPhase.left] at hpast
  refine ⟨hready, ?_, ?_, ?_, ?_, ?_, ?_, ?_⟩
  · intro j f hf hfholds
    rcases eq_or_of_getElem?_set he hf with ⟨rfl, rfl⟩ | ⟨-, hf⟩
    · exact ⟨hlocked, by simp⟩
    · have hbusy := (hs.holder j f hf hfholds).1
      simp [hfree] at hbusy
  · intro j f prior hf hfphase
    rw [hcontent]
    rcases eq_or_of_getElem?_set he hf with ⟨rfl, rfl⟩ | ⟨-, hf⟩
    · cases hfphase
    · exact hs.loaded j f prior hf hfphase
  · intro j f hj hf
    rcases eq_or_of_getElem?_set he hf with ⟨rfl, rfl⟩ | ⟨hij, hf⟩
    · exact Nat.le_refl 3
    · have hbefore : j ∈ s.taken := by simpa [Ne.symm hij] using hj
      exact hs.past j f hbefore hf
  · exact List.nodup_append.mpr ⟨hs.nodup, by simp, by
      intro a ha b hb heq
      obtain rfl := List.mem_singleton.mp hb
      exact hfirst (heq ▸ ha)⟩
  · intro j f hf hfwrote
    rcases eq_or_of_getElem?_set he hf with ⟨rfl, rfl⟩ | ⟨-, hf⟩
    · simp
    · exact List.mem_append_left _ (hs.wrote j f hf hfwrote)
  · have hwritten : written ⟨s.exporters.set i ⟨e.registry, .holding⟩, after,
        s.taken ++ [i]⟩ =
        s.written := by
      have hnew :
          (s.exporters.set i ⟨e.registry, .holding⟩)[i]?.bind
            Exporter.contribution? =
            none := by
        rw [hget, if_pos rfl]
        rfl
      simp only [written, List.filterMap_append, List.filterMap_cons, hnew,
        List.filterMap_nil, List.append_nil]
      apply List.filterMap_congr
      intro j hj
      rw [hget, if_neg (fun hij : i = j => hfirst (hij ▸ hj))]
    rw [hcontent, hwritten]
    exact hs.content
  · intro houtside
    have hbusy := (hs.outside houtside).1
    simp [hfree] at hbusy

/-- A step that writes the table. -/
theorem Serial.write (hs : Serial path d s) (he : s.exporters[i]? = some e)
    (hphase : e.phase = .loaded (s.directory.content? path))
    (summary : ExportSummary) (hready : after.Ready path)
    (hcontent : after.content? path =
      e.registry.rewrite (s.directory.content? path))
    (hlock : after.isLocked path.lock = s.directory.isLocked path.lock) :
    Serial path d ⟨s.exporters.set i ⟨e.registry, .stored (.ok summary)⟩, after,
      s.taken⟩ := by
  have hget := getElem?_set_of_getElem? he ⟨e.registry, .stored (.ok summary)⟩
  obtain ⟨hlocked, hlast⟩ := hs.holder i e he (by rw [hphase]; rfl)
  obtain ⟨before, hbefore⟩ : ∃ before, s.taken = before ++ [i] :=
    List.getLast?_eq_some_iff.mp hlast
  have hearlier : i ∉ before := by
    have hnodup := hs.nodup
    rw [hbefore, List.nodup_append] at hnodup
    exact fun hi => hnodup.2.2 i hi i (by simp) rfl
  refine ⟨hready, ?_, ?_, ?_, hs.nodup, ?_, ?_, ?_⟩
  · intro j f hf hfholds
    rcases eq_or_of_getElem?_set he hf with ⟨rfl, rfl⟩ | ⟨-, hf⟩
    · exact ⟨hlock.trans hlocked, hlast⟩
    · obtain ⟨hbusy, hlater⟩ := hs.holder j f hf hfholds
      exact ⟨hlock.trans hbusy, hlater⟩
  · intro j f prior hf hfphase
    rcases eq_or_of_getElem?_set he hf with ⟨rfl, rfl⟩ | ⟨hij, hf⟩
    · cases hfphase
    · -- a second reader would hold the lock as well
      have hsecond := (hs.holder j f hf (by rw [hfphase]; rfl)).2
      rw [hlast] at hsecond
      exact absurd (Option.some.inj hsecond) hij
  · intro j f hj hf
    rcases eq_or_of_getElem?_set he hf with ⟨rfl, rfl⟩ | ⟨-, hf⟩
    · simp [ExportPhase.left]
    · exact hs.past j f hj hf
  · intro j f hf hfwrote
    rcases eq_or_of_getElem?_set he hf with ⟨rfl, rfl⟩ | ⟨-, hf⟩
    · simp [hbefore]
    · exact hs.wrote j f hf hfwrote
  · have hothers : before.filterMap (fun j =>
        (s.exporters.set i ⟨e.registry, .stored (.ok summary)⟩)[j]?.bind
          Exporter.contribution?) =
        before.filterMap
            (fun j => s.exporters[j]?.bind Exporter.contribution?) := by
      apply List.filterMap_congr
      intro j hj
      rw [hget, if_neg (fun hij : i = j => hearlier (hij ▸ hj))]
    have hold : s.exporters[i]?.bind Exporter.contribution? = none := by
      simp [he, Exporter.contribution?, hphase, ExportPhase.wrote]
    have hnew : (s.exporters.set i ⟨e.registry, .stored (.ok summary)⟩)[i]?.bind
        Exporter.contribution? = some e.registry := by
      rw [hget, if_pos rfl]
      rfl
    have hwritten :
        written ⟨s.exporters.set i ⟨e.registry, .stored (.ok summary)⟩,
          after, s.taken⟩ =
          s.written ++ [e.registry] := by
      simp only [written, hbefore, List.filterMap_append, hothers,
        List.filterMap_cons, hnew, hold, List.filterMap_nil, List.append_nil]
    rw [hcontent, hwritten, hs.content, List.foldl_append]
    rfl
  · intro houtside
    obtain ⟨hbusy, hnone⟩ := hs.outside houtside
    exact ⟨hlock.trans hbusy, hnone⟩

end Steps

theorem step_of_exportStep {turn : Nat} {r : Registry}
    {phase next : ExportPhase} {after : Directory}
    (he : s.exporters[turn]? = some ⟨r, phase⟩)
    (hmove : r.exportStep path (phase, s.directory) = (next, after)) :
    s.step path turn = ⟨s.exporters.set turn ⟨r, next⟩, after,
      if next.holdsLock && !phase.holdsLock then s.taken ++ [turn]
      else s.taken⟩ := by
  simp only [step, he, hmove]

theorem Serial.step (hs : Serial path d s) (turn : Nat) :
    Serial path d (s.step path turn) := by
  cases he : s.exporters[turn]? with
  | none =>
      rw [Exports.step, he]
      exact hs
  | some e =>
      obtain ⟨r, phase⟩ := e
      obtain ⟨hready, hview⟩ := r.exportStep_eq hs.ready phase
      obtain ⟨next, after, hmove⟩ : ∃ next after,
          r.exportStep path (phase, s.directory) = (next, after) := ⟨_, _, rfl⟩
      rw [step_of_exportStep he hmove]
      rw [hmove] at hready hview
      cases phase with
      | waiting =>
          simp only [viewStep, Directory.tableView, Prod.mk.injEq,
            TableView.mk.injEq] at hview
          obtain ⟨rfl, hcontent, hlock⟩ := hview
          exact hs.keep he hready hcontent rfl (by simp [ExportPhase.left])
            (by simp [ExportPhase.holdsLock]) (.inl hlock) (by simp)
      | opened =>
          cases hlocked : s.directory.isLocked path.lock with
          | true =>
              simp only [viewStep, Directory.tableView, hlocked, ↓reduceIte,
                Prod.mk.injEq, TableView.mk.injEq] at hview
              obtain ⟨rfl, hcontent, hlock⟩ := hview
              exact hs.keep he hready hcontent rfl (by simp [ExportPhase.left])
                (by simp [ExportPhase.holdsLock])
                (.inl (hlock.trans hlocked.symm)) (by simp)
          | false =>
              simp only [viewStep, Directory.tableView, hlocked,
                Bool.false_eq_true, ↓reduceIte, Prod.mk.injEq,
                TableView.mk.injEq] at hview
              obtain ⟨rfl, hcontent, hlock⟩ := hview
              exact hs.acquire he rfl hlocked hready hcontent hlock
      | holding =>
          simp only [viewStep, Directory.tableView, Prod.mk.injEq,
            TableView.mk.injEq] at hview
          obtain ⟨rfl, hcontent, hlock⟩ := hview
          exact hs.keep he hready hcontent rfl (by simp [ExportPhase.left])
            (fun _ => rfl) (.inl hlock)
            (fun prior h => (ExportPhase.loaded.inj h).symm)
      | loaded prior =>
          obtain rfl := hs.loaded turn _ prior he rfl
          cases hprior : Table.ofPrior (s.directory.content? path) with
          | error fault =>
              simp only [viewStep, hprior, Directory.tableView, Prod.mk.injEq,
                TableView.mk.injEq] at hview
              obtain ⟨rfl, hcontent, hlock⟩ := hview
              exact hs.keep he hready hcontent rfl (by simp [ExportPhase.left])
                (fun _ => rfl) (.inl hlock) (by simp)
          | ok t =>
              simp only [viewStep, hprior, Directory.tableView, Prod.mk.injEq,
                TableView.mk.injEq] at hview
              obtain ⟨rfl, hcontent, hlock⟩ := hview
              refine hs.write he rfl _ hready ?_ hlock
              rw [hcontent, rewrite, r.exportText_of_ofPrior hprior]
      | stored result =>
          simp only [viewStep, Directory.tableView, Prod.mk.injEq,
            TableView.mk.injEq] at hview
          obtain ⟨rfl, hcontent, -⟩ := hview
          exact hs.keep he hready hcontent (by cases result <;> rfl)
            (by simp [ExportPhase.left]) (by simp [ExportPhase.holdsLock])
            (.inr ⟨rfl, rfl⟩) (by simp)
      | done result =>
          simp only [viewStep, Directory.tableView, Prod.mk.injEq,
            TableView.mk.injEq] at hview
          obtain ⟨rfl, hcontent, hlock⟩ := hview
          exact hs.keep he hready hcontent rfl (Nat.le_refl _) (fun h => h)
            (.inl hlock) (by simp)

theorem Serial.play (hs : Serial path d s) (schedule : List Nat) :
    Serial path d (s.play path schedule) := by
  induction schedule generalizing s with
  | nil => exact hs
  | cons turn rest ih => exact ih (hs.step turn)

/-- No turn gives an export another registry or another place. -/
theorem map_registry_play (path : FileName) (s : Exports)
    (schedule : List Nat) :
    (s.play path schedule).exporters.map Exporter.registry =
      s.exporters.map Exporter.registry := by
  induction schedule generalizing s with
  | nil => rfl
  | cons turn rest ih =>
      refine (ih (s.step path turn)).trans ?_
      cases he : s.exporters[turn]? with
      | none => simp only [step, he]
      | some e =>
          simp only [step, he, List.map_set]
          apply List.ext_getElem?
          intro j
          rw [List.getElem?_set]
          split
          · next hj =>
              obtain ⟨hlt, rfl⟩ := List.getElem?_eq_some_iff.mp he
              simp [← hj, hlt]
          · rfl

/-- Where the lock file cannot be opened, every export fails at its first
step. -/
structure Stuck (d : Directory) (s : Exports) : Prop where
  directory : s.directory = d
  taken : s.taken = []
  phase : ∀ e ∈ s.exporters, e.phase = .waiting ∨
    ∃ fault, e.phase = .done (.error fault)

theorem Stuck.step (hlock : ¬ d.Serves path.lock) (hs : Stuck d s)
    (turn : Nat) :
    Stuck d (s.step path turn) := by
  cases he : s.exporters[turn]? with
  | none =>
      rw [Exports.step, he]
      exact hs
  | some e =>
      obtain ⟨r, phase⟩ := e
      have hmove : ∃ fault, r.exportStep path (phase, s.directory) =
          (.done (.error fault), s.directory) := by
        rcases hs.phase _ (List.mem_of_getElem? he) with rfl | ⟨fault, rfl⟩
        · rw [hs.directory]
          cases htouch : d.touch path.lock with
          | ok after => exact absurd (Directory.serves_of_update htouch) hlock
          | error fault => exact ⟨.file fault, by simp [exportStep, htouch]⟩
        · exact ⟨fault, rfl⟩
      obtain ⟨fault, hmove⟩ := hmove
      rw [step_of_exportStep he hmove]
      refine ⟨hs.directory, hs.taken, ?_⟩
      intro f hf
      rcases List.mem_or_eq_of_mem_set hf with hold | rfl
      · exact hs.phase f hold
      · exact .inr ⟨fault, rfl⟩

theorem Stuck.play (hlock : ¬ d.Serves path.lock) (hs : Stuck d s)
    (schedule : List Nat) :
    Stuck d (s.play path schedule) := by
  induction schedule generalizing s with
  | nil => exact hs
  | cons turn rest ih => exact ih (hs.step hlock turn)

/-- Once all exports have returned, those that have written are those that have
succeeded. -/
theorem written_eq_winners {registries : List Registry}
    (hregistries : s.exporters.map Exporter.registry = registries)
    (hended : ∀ e ∈ s.exporters, e.phase.left = 0) :
    s.written = s.winners.filterMap (fun place => registries[place]?) := by
  rw [written, winners, List.filterMap_filter]
  apply List.filterMap_congr
  intro place _
  rw [← hregistries, List.getElem?_map]
  unfold succeeded
  cases he : s.exporters[place]? with
  | none => rfl
  | some e =>
      obtain ⟨r, phase⟩ := e
      have hleft := hended _ (List.mem_of_getElem? he)
      cases phase with
      | done result => cases result <;> rfl
      | _ => simp [ExportPhase.left] at hleft

theorem wrote_of_succeeded {place : Nat}
    (hsucceeded : s.succeeded place = true) :
    ∃ e, s.exporters[place]? = some e ∧ e.phase.wrote = true := by
  unfold succeeded at hsucceeded
  split at hsucceeded
  · next r summary he => exact ⟨_, he, rfl⟩
  · exact nomatch hsucceeded

/-- What is known of exports that have all returned. -/
structure Outcome (path : FileName) (d : Directory) (registries : List Registry)
    (s : Exports) : Prop where
  serves : s.directory.Serves path
  nodup : s.taken.Nodup
  taken : ∀ place, s.succeeded place = true → place ∈ s.taken
  content : s.directory.content? path =
    (s.winners.filterMap (fun place => registries[place]?)).foldl
      (fun content r => r.rewrite content) (d.content? path)
  /-- Exports only succeed where the lock could be had from the start. -/
  free : s.winners = [] ∨ d.Ready path ∧ d.isLocked path.lock = false

theorem outcome_play (hd : d.Serves path) (registries : List Registry)
    (schedule : List Nat)
    (hended : ∀ e ∈ ((start registries d).play path schedule).exporters,
      e.phase.left = 0) :
    Outcome path d registries ((start registries d).play path schedule) := by
  have hregistries :
      ((start registries d).play path schedule).exporters.map
        Exporter.registry =
        registries := by
    rw [map_registry_play]
    simp [start, Function.comp_def]
  have hwritten := written_eq_winners hregistries hended
  by_cases hlock : d.Serves path.lock
  · have hserial := (serial_start ⟨hd, hlock⟩ registries).play schedule
    refine ⟨hserial.ready.table, hserial.nodup, ?_, ?_, ?_⟩
    · intro place hsucceeded
      obtain ⟨e, he, hwrote⟩ := wrote_of_succeeded hsucceeded
      exact hserial.wrote place e he hwrote
    · rw [← hwritten]
      exact hserial.content
    · cases hlocked : d.isLocked path.lock with
      | true => exact .inl (by simp [winners, (hserial.outside hlocked).2])
      | false => exact .inr ⟨⟨hd, hlock⟩, rfl⟩
  · have hstuck : Stuck d (start registries d) := by
      refine ⟨rfl, rfl, ?_⟩
      intro e he
      obtain ⟨r, -, rfl⟩ := List.mem_map.mp he
      exact .inl rfl
    have hend := hstuck.play hlock schedule
    have hnone : ((start registries d).play path schedule).winners = [] := by
      simp [winners, hend.taken]
    refine ⟨hend.directory.symm ▸ hd, by simp [hend.taken], ?_, ?_, .inl hnone⟩
    · intro place hsucceeded
      obtain ⟨e, he, hwrote⟩ := wrote_of_succeeded hsucceeded
      rcases hend.phase e (List.mem_of_getElem? he) with hphase |
        ⟨fault, hphase⟩
      · simp [hphase, ExportPhase.wrote] at hwrote
      · simp [hphase, ExportPhase.wrote] at hwrote
    · rw [hnone, hend.directory]
      rfl

end Exports

namespace Registry

variable {path : FileName} {d : Directory}

theorem tableView_exportInTurn (hd : d.Ready path)
    (hfree : d.isLocked path.lock = false) (registries : List Registry) :
    (exportInTurn path registries d).Ready path ∧
      (exportInTurn path registries d).content? path =
        registries.foldl (fun content r => r.rewrite content)
          (d.content? path) := by
  induction registries generalizing d with
  | nil => exact ⟨hd, rfl⟩
  | cons r rest ih =>
      obtain ⟨hready, hview⟩ := r.tableView_exportToFile hd hfree
      rw [Directory.tableView, TableView.mk.injEq] at hview
      have hrest := ih hready hview.2
      rw [hview.1] at hrest
      exact hrest

/-- Rewriting a table that can be read overwrites its rows. -/
theorem ofPrior_foldl_rewrite {registries : List Registry}
    (hreachable : ∀ r ∈ registries, r.Reachable)
    {prior : Option ByteArray} {t : Table}
    (hprior : Table.ofPrior prior = .ok t) :
    Table.ofPrior
      (registries.foldl (fun content r => r.rewrite content) prior) =
      .ok (registries.foldl (fun t r => r.overwrite t) t) := by
  induction registries generalizing prior t with
  | nil => exact hprior
  | cons r rest ih =>
      have hr := hreachable r List.mem_cons_self
      refine ih (fun other hother => hreachable other
        (List.mem_cons_of_mem r hother)) ?_
      show Table.ofPrior (r.rewrite prior) = .ok (r.overwrite t)
      rw [rewrite, r.exportText_of_ofPrior hprior]
      exact hr.ofPrior_render hprior

/-- Of several registries laid over a table, the last one that has a location
decides. -/
theorem getElem?_rows_foldl_overwrite (registries : List Registry) (t : Table)
    (location : String) :
    (registries.foldl (fun t r => r.overwrite t) t).rows[location]? =
      ((registries.reverse.findSome? (·.get? location)).map (·.tag.name)).or
        t.rows[location]? := by
  induction registries generalizing t with
  | nil => rfl
  | cons r rest ih =>
      rw [List.foldl_cons, ih, getElem?_rows_overwrite, List.reverse_cons,
        List.findSome?_append]
      cases rest.reverse.findSome? (·.get? location) with
      | some tag => rfl
      | none =>
          cases hget : r.get? location with
          | some tag => simp [hget]
          | none => simp [hget]

end Registry

namespace Exports

/-- No update is lost between exports that take their steps in turns.  Once all
have returned, the table is the one that the successful ones leave when they run
one after another, in the order in which they took the lock; it holds for each
location the tag of the last of them that has one there, and otherwise what it
held before. -/
theorem play_serializes (path : FileName) {d : Directory} (hd : d.Serves path)
    {registries : List Registry}
    (hreachable : ∀ r ∈ registries, r.Reachable) {t : Table}
    (hprior : Table.ofPrior (d.content? path) = .ok t) {schedule : List Nat}
    {final : Exports} (hfinal : (start registries d).play path schedule = final)
    (hended : ∀ e ∈ final.exporters, e.phase.left = 0) :
    final.winners.Nodup ∧
      (∀ place, place ∈ final.winners ↔ final.succeeded place = true) ∧
      final.directory.read path =
        (exportInTurn path (final.winners.filterMap
          (fun place => registries[place]?)) d).read path ∧
      ∃ after, Table.ofPrior (final.directory.content? path) = .ok after ∧
        ∀ location : String, after.rows[location]? =
          (((final.winners.filterMap
            (fun place => registries[place]?)).reverse.findSome?
            (·.get? location)).map (·.tag.name)).or t.rows[location]? := by
  subst hfinal
  have houtcome := outcome_play hd registries schedule hended
  generalize (start registries d).play path schedule = final at houtcome
  have hwon : ∀ r ∈ final.winners.filterMap (fun place => registries[place]?),
      r.Reachable := by
    intro r hr
    obtain ⟨place, -, hget⟩ := List.mem_filterMap.mp hr
    exact hreachable r (List.mem_of_getElem? hget)
  refine ⟨houtcome.nodup.filter _, ?_, ?_, _, ?_,
    getElem?_rows_foldl_overwrite _ t⟩
  · intro place
    rw [winners, List.mem_filter]
    exact ⟨fun h => h.2, fun h => ⟨houtcome.taken place h, h⟩⟩
  · rcases houtcome.free with hnone | ⟨hready, hfree⟩
    · have hcontent := houtcome.content
      rw [hnone] at hcontent ⊢
      show final.directory.read path = d.read path
      rw [houtcome.serves.read, hd.read, hcontent]
      rfl
    · obtain ⟨hturn, hcontent⟩ := tableView_exportInTurn hready hfree
        (final.winners.filterMap (fun place => registries[place]?))
      rw [houtcome.serves.read, hturn.table.read, houtcome.content, hcontent]
  · rw [houtcome.content]
    exact ofPrior_foldl_rewrite hwon hprior

def tagsDirectory : Directory :=
  Directory.empty.put ["tags"] (.file "old\tGone\n".toUTF8)

/-- Three exports of different tags for one view: the second one comes while the
first holds the lock, and the third one after it. -/
def viewExports : Exports :=
  (start [viewRegistry .worker, viewRegistry .uiEventThread,
    viewRegistry .any] tagsDirectory).play ⟨"tags"⟩ [0, 1, 0, 1, 0, 2, 0,
      0, 2, 2, 2, 2]

theorem viewExports_serialized :
    viewExports.winners = [0, 2] ∧
      viewExports.directory.read ⟨"tags"⟩ =
        (exportInTurn ⟨"tags"⟩ [viewRegistry .worker, viewRegistry .any]
          tagsDirectory).read ⟨"tags"⟩ ∧
      ∃ after,
        Table.ofPrior (viewExports.directory.content? ⟨"tags"⟩) = .ok after ∧
        after.rows["app.View"]? = some "Any" ∧
        after.rows["old"]? = some "Gone" := by
  have hserves : tagsDirectory.Serves ⟨"tags"⟩ := by
    have hok : (tagsDirectory.write ⟨"tags"⟩ ByteArray.empty).toOption.isSome =
        true := by
      decide +kernel
    obtain ⟨after, hafter⟩ := Option.isSome_iff_exists.mp hok
    cases hwrite : tagsDirectory.write ⟨"tags"⟩ ByteArray.empty with
    | error fault => simp [hwrite, Except.toOption] at hafter
    | ok after => exact Directory.serves_of_update hwrite
  have hrows : (Table.ofPrior (tagsDirectory.content? ⟨"tags"⟩)).toOption.map
      (fun t => t.rows.toList) = some [("old", "Gone")] := by decide +kernel
  obtain ⟨hwinners, hended⟩ : viewExports.winners = [0, 2] ∧
      ∀ e ∈ viewExports.exporters, e.phase.left = 0 := by decide +kernel
  have hreachable :
      ∀ r ∈ [viewRegistry .worker, viewRegistry .uiEventThread,
        viewRegistry .any], r.Reachable := by
    intro r hr
    simp only [List.mem_cons, List.not_mem_nil, or_false] at hr
    rcases hr with rfl | rfl | rfl <;> exact .record .empty _
  have hplay : (start [viewRegistry .worker, viewRegistry .uiEventThread,
      viewRegistry .any] tagsDirectory).play ⟨"tags"⟩ [0, 1, 0, 1, 0, 2, 0, 0,
        2, 2, 2, 2] = viewExports := rfl
  cases hprior : Table.ofPrior (tagsDirectory.content? ⟨"tags"⟩) with
  | error fault =>
      rw [hprior] at hrows
      exact nomatch hrows
  | ok t =>
      obtain ⟨-, -, hread, after, hafter, hlocations⟩ :=
        play_serializes ⟨"tags"⟩ hserves hreachable hprior hplay hended
      rw [hwinners] at hread hlocations
      have hold : t.rows["old"]? = some "Gone" := by
        rw [hprior] at hrows
        have hlist : t.rows.toList = [("old", "Gone")] := Option.some.inj hrows
        apply Std.ExtTreeMap.mem_toList_iff_getElem?_eq_some.mp
        rw [hlist]
        exact List.mem_singleton.mpr rfl
      refine ⟨hwinners, hread, after, hafter, ?_, ?_⟩
      · rw [hlocations]
        have hlast : [viewRegistry .any, viewRegistry .worker].findSome?
            (·.get? "app.View") =
            some (({ tag := .any } : Marker).located "app.View") := by
          decide +kernel
        show (([viewRegistry .any, viewRegistry .worker].findSome?
            (·.get? "app.View")).map
          (·.tag.name)).or t.rows["app.View"]? = some "Any"
        rw [hlast]
        rfl
      · rw [hlocations]
        have hnone : [viewRegistry .any, viewRegistry .worker].findSome?
            (·.get? "old") = none := by
          decide +kernel
        show (([viewRegistry .any, viewRegistry .worker].findSome?
            (·.get? "old")).map
          (·.tag.name)).or t.rows["old"]? = some "Gone"
        rw [hnone]
        exact hold

end Exports

end ThreadConfinement
