import ThreadConfinement.Proofs.Resemblance
import ThreadConfinement.Proofs.SharedRegistry

/-!
Checking units apart gives what checking them in turn gives.

Units that are checked side by side share nothing while they run, so their
passes may take their steps in any order.  What is collected from them in the
order of the units is what a single run over the units would have reported and
recorded, also where several units have tags at one location.
-/

namespace ThreadConfinement

namespace Checker

/-- Checks units from left to right with one registry. -/
def checkInTurn (c : Checker) :
    List SourceUnit → Registry → List Report × Registry
  | [], registry => ([], registry)
  | u :: us, registry =>
    let (report, registry) := c.check u registry
    let (reports, registry) := checkInTurn c us registry
    (report :: reports, registry)

/-- The passes of a run in turn make up its reports, and the last of them has
its registry. -/
theorem checkInTurn_eq_runInTurn (c : Checker) (us : List SourceUnit)
    (registry : Registry) :
    c.checkInTurn us registry =
      (List.zipWith Pass.toReport (c.runInTurn us registry) us,
        ((c.runInTurn us registry).map Pass.registry).getLastD registry) := by
  induction us generalizing registry with
  | nil => rfl
  | cons u rest ih =>
      simp only [checkInTurn, runInTurn, check, ih, List.zipWith_cons_cons,
        List.map_cons, List.getLastD_cons]

/-- Recording over a shared registry is merging what each unit records on its
own. -/
theorem checkInTurn_eq_merge (c : Checker) (us : List SourceUnit)
    (base : Registry) :
    c.checkInTurn us base =
      (us.map (fun u => (c.check u .empty).1),
        (us.map (fun u => (c.check u .empty).2)).foldl
          Registry.merge base) := by
  induction us generalizing base with
  | nil => rfl
  | cons u rest ih =>
      simp only [checkInTurn]
      rw [c.check_eq_merge u base]
      simp only [ih, List.map_cons, List.foldl_cons]

theorem checkApart_eq_checkInTurn (c : Checker) (us : List SourceUnit) :
    c.checkApart us = c.checkInTurn us .empty := by
  rw [checkInTurn_eq_merge]
  simp only [checkApart, List.map_map]
  rfl

def stages (c : Checker) (u : SourceUnit) : List (Pass → Pass) :=
  let ctx := c.context u
  [fun p => p.resolveAll ctx,
    fun p => p.checkOverrides ctx u.overrides,
    fun p => p.checkCalls ctx u,
    fun p =>
      if c.settings.checkFieldAccess then
        p.checkFieldAccesses ctx u.fieldAccesses
      else p,
    fun p => p.checkGuards ctx,
    fun p =>
      let stats := { p.stats with findings := p.findingCount }
      { p with stats := stats }.note (stats.event u.name)]

end Checker

/-- One of the passes that run side by side.  It has a registry of its own, and
may be anywhere on its way: what it still has to do leads to the end of the pass
over its unit. -/
structure Worker (c : Checker) where
  unit : SourceUnit
  pass : Pass
  todo : List (Pass → Pass)
  onTrack : todo.foldl (fun p step => step p) pass = c.run unit .empty

namespace Worker

variable {c : Checker}

/-- A worker that has done nothing yet, and will go through the stages. -/
def start (c : Checker) (u : SourceUnit) : Worker c where
  unit := u
  pass := .start .empty
  todo := c.stages u
  onTrack := rfl

/-- Takes the next step; a worker that is done stays as it is. -/
def step (w : Worker c) : Worker c :=
  match w with
  | ⟨unit, pass, [], onTrack⟩ => ⟨unit, pass, [], onTrack⟩
  | ⟨unit, pass, next :: rest, onTrack⟩ => ⟨unit, next pass, rest, onTrack⟩

theorem unit_step (w : Worker c) : w.step.unit = w.unit := by
  obtain ⟨unit, pass, todo, honTrack⟩ := w
  cases todo with
  | nil => rfl
  | cons next rest => rfl

theorem length_todo_step (w : Worker c) :
    w.step.todo.length = w.todo.length - 1 := by
  obtain ⟨unit, pass, todo, honTrack⟩ := w
  cases todo with
  | nil => rfl
  | cons next rest => rfl

/-- A worker with nothing left to do has made the whole pass. -/
theorem pass_eq_run (w : Worker c) (hdone : w.todo = []) :
    w.pass = c.run w.unit .empty := by
  have honTrack := w.onTrack
  rw [hdone] at honTrack
  exact honTrack

/-- Lets workers take their steps: at each turn, the worker at the named place
takes one. -/
def play (pool : List (Worker c)) (schedule : List Nat) : List (Worker c) :=
  schedule.foldl (fun pool turn => pool.modify turn step) pool

/-- No turn moves a worker to another place or another unit. -/
theorem map_unit_play (pool : List (Worker c)) (schedule : List Nat) :
    (play pool schedule).map unit = pool.map unit := by
  induction schedule generalizing pool with
  | nil => rfl
  | cons turn rest ih =>
      have hturn : (pool.modify turn step).map unit = pool.map unit := by
        apply List.ext_getElem?
        intro i
        rw [List.getElem?_map, List.getElem?_map, List.getElem?_modify]
        split
        · simp [Function.comp_def, unit_step]
        · simp
      exact (ih (pool.modify turn step)).trans hturn

/-- Each turn of a worker takes one step off what it has to do, and the turns of
others none. -/
theorem length_todo_play (pool : List (Worker c))
    (schedule : List Nat) (i : Nat) :
    (play pool schedule)[i]?.map (fun w => w.todo.length) =
      pool[i]?.map (fun w => w.todo.length - schedule.count i) := by
  induction schedule generalizing pool with
  | nil => rfl
  | cons turn rest ih =>
      have hrest := ih (pool.modify turn step)
      rw [List.getElem?_modify] at hrest
      refine hrest.trans ?_
      cases pool[i]? with
      | none => rfl
      | some w =>
          by_cases hturn : turn = i
          · have hcount : w.step.todo.length - rest.count i =
                w.todo.length - (turn :: rest).count i := by
              rw [length_todo_step, hturn, List.count_cons_self]
              omega
            simpa [hturn] using hcount
          · simp [hturn, List.count_cons_of_ne]

/-- Workers that have had a turn for each of their steps are done. -/
theorem todo_eq_nil_of_mem_play {pool : List (Worker c)} {schedule : List Nat}
    (hturns : ∀ (i : Nat) (w : Worker c), pool[i]? = some w →
      w.todo.length ≤ schedule.count i) :
    ∀ w ∈ play pool schedule, w.todo = [] := by
  intro w hw
  obtain ⟨i, hi⟩ := List.getElem?_of_mem hw
  have hlength := length_todo_play pool schedule i
  rw [hi] at hlength
  cases hstart : pool[i]? with
  | none => simp [hstart] at hlength
  | some first =>
      have hleft : w.todo.length = first.todo.length - schedule.count i := by
        simpa [hstart] using hlength
      have henough := hturns i first hstart
      apply List.eq_nil_of_length_eq_zero
      omega

/-- What is collected from the workers, in the order of their places. -/
def gather (pool : List (Worker c)) : List Report × Registry :=
  (pool.map (fun w => w.pass.toReport w.unit),
    (pool.map (fun w => w.pass.registry)).foldl Registry.merge .empty)

theorem gather_of_done (pool : List (Worker c))
    (hdone : ∀ w ∈ pool, w.todo = []) :
    gather pool = c.checkApart (pool.map unit) := by
  have hresults : (pool.map unit).map (fun u => c.check u .empty) =
      pool.map (fun w => (w.pass.toReport w.unit, w.pass.registry)) := by
    rw [List.map_map]
    apply List.map_congr_left
    intro w hw
    rw [w.pass_eq_run (hdone w hw)]
    rfl
  simp only [Checker.checkApart, hresults, List.map_map]
  rfl

end Worker

namespace Checker

open Worker

/-- Checking units side by side refines checking them in turn: the reports are
the same, and so is the registry.  This holds however the passes take their
turns, once each of them has had enough. -/
theorem checkApart_refines (s : Settings) (us : List SourceUnit) :
    (ofSettings s).checkApart us = (ofSettings s).checkInTurn us .empty ∧
      ∀ (pool : List (Worker (ofSettings s))) (schedule : List Nat),
        pool.map unit = us →
        (∀ (i : Nat) (w : Worker (ofSettings s)), pool[i]? = some w →
          w.todo.length ≤ schedule.count i) →
        gather (play pool schedule) = (ofSettings s).checkInTurn us .empty := by
  refine ⟨checkApart_eq_checkInTurn _ us, ?_⟩
  intro pool schedule hunits hturns
  rw [gather_of_done _ (todo_eq_nil_of_mem_play hturns), map_unit_play, hunits]
  exact checkApart_eq_checkInTurn _ us

/-- An alarm that rings on a worker thread, and reads a clock whose tag differs
between units. -/
def clockFacts (name : String) (tag : Tag) : UnitFacts where
  name := name
  declarations :=
    [{ id := ⟨1⟩, kind := .module, location := "app", qualifiedName := "app" },
      { id := ⟨2⟩, kind := .type, enclosing := some ⟨1⟩,
        location := "app.Clock", qualifiedName := "app.Clock",
        markers := [{ tag := tag }] },
      { id := ⟨3⟩, kind := .method, enclosing := some ⟨2⟩,
        location := "app.Clock.read", qualifiedName := "app.Clock.read" },
      { id := ⟨4⟩, kind := .method, enclosing := some ⟨1⟩,
        location := "app.ring", qualifiedName := "app.ring",
        markers := [{ tag := .worker }] }]
  overrides := []
  calls := [⟨⟨4⟩, ⟨3⟩, false⟩]
  fieldAccesses := []

/-- Two units that say different things about one location. -/
def clockUnits : List SourceUnit :=
  [.ofFacts (clockFacts "first" .uiEventThread),
    .ofFacts (clockFacts "second" .any)]

/-- Only the first unit has a finding, and the second has the last word on the
clock. -/
theorem clockUnits_refines :
    (∀ u ∈ clockUnits, u.Accepted) ∧
    gather (play (clockUnits.map (start (ofSettings {})))
        [1, 0, 1, 1, 0, 1, 1, 0, 1, 0, 0, 0]) =
      (ofSettings {}).checkInTurn clockUnits .empty ∧
      ((ofSettings {}).checkApart clockUnits).1.map (·.findings.length) =
        [1, 0] ∧
      (((ofSettings {}).checkApart clockUnits).2.get? "app.Clock").map (·.tag) =
        some .any := by
  refine ⟨?_, (checkApart_refines {} clockUnits).2 _ _ rfl ?_,
    by decide +kernel, by decide +kernel⟩
  · intro u hu
    simp only [clockUnits, List.mem_cons, List.not_mem_nil, or_false] at hu
    rcases hu with rfl | rfl
    · exact ⟨_, SourceUnit.build_ofFacts (by decide +kernel)⟩
    · exact ⟨_, SourceUnit.build_ofFacts (by decide +kernel)⟩
  · intro i w hw
    match i with
    | 0 =>
        obtain rfl : start _ _ = w := Option.some.inj hw
        decide
    | 1 =>
        obtain rfl : start _ _ = w := Option.some.inj hw
        decide
    | i + 2 => simp [clockUnits] at hw

end Checker

end ThreadConfinement
