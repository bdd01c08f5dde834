import ThreadConfinement.Proofs.Families
import ThreadConfinement.Proofs.ImpliedOverrides
import ThreadConfinement.Proofs.Resemblance
import Mathlib.Data.Set.Card

/-!
The counters of a check.

Every edge of an accepted unit moves exactly one counter: its own, or that of
the edges whose acting side is left alone.  `Checker.counters_acts` lists the
counters that a run moves, edge by edge, and `Checker.check_counts` adds them
up.
-/

namespace ThreadConfinement

/-- The counter of an edge: its own, unless its acting side is left alone. -/
def Counter.ofEdge (counter : Counter) (checked : Bool) : Counter :=
  if checked then counter else .skipped

namespace Counter

variable {α : Type}

theorem count_map_ofEdge {counter : Counter} (hcounter : counter ≠ .skipped)
    (checked : α → Bool) (edges : List α) :
    (edges.map (fun e => counter.ofEdge (checked e))).count counter =
      edges.countP checked := by
  rw [List.count, List.countP_map]
  refine List.countP_congr (fun e _ => ?_)
  cases hchecked : checked e <;> simp [ofEdge, hchecked, hcounter.symm]

theorem count_map_ofEdge_of_ne {counter other : Counter} (hne : other ≠ counter)
    (hother : other ≠ .skipped) (checked : α → Bool) (edges : List α) :
    (edges.map (fun e => counter.ofEdge (checked e))).count other = 0 := by
  rw [List.count_eq_zero, List.mem_map]
  rintro ⟨e, -, heq⟩
  rw [ofEdge] at heq
  split at heq
  · exact hne heq.symm
  · exact hother heq.symm

/-- What moves a counter moves one of the five. -/
theorem length_eq_sum_count (moved : List Counter) :
    moved.length =
      moved.count .overrides + moved.count
        .implicitOverrides + moved.count .calls
      + moved.count .fieldAccesses + moved.count .skipped := by
  induction moved with
  | nil => rfl
  | cons counter moved ih =>
      rw [List.length_cons, ih]
      cases counter <;> simp +arith

end Counter

namespace Stats

def edges (s : Stats) : Counter → Nat
  | .overrides => s.overridesChecked
  | .implicitOverrides => s.implicitOverridesChecked
  | .calls => s.callsChecked
  | .fieldAccesses => s.fieldAccessesChecked
  | .skipped => s.skippedEdges

theorem edges_bump (s : Stats) (moved counter : Counter) :
    (s.bump moved).edges counter = s.edges counter + [moved].count counter := by
  cases moved <;> cases counter <;> rfl

theorem edges_foldl_bump (s : Stats) (moved : List Counter)
    (counter : Counter) :
    (moved.foldl bump s).edges counter =
      s.edges counter + moved.count counter := by
  induction moved generalizing s with
  | nil => rfl
  | cons first moved ih =>
      rw [List.foldl_cons, ih, edges_bump, Nat.add_assoc, ← List.count_append,
        List.singleton_append]

/-- Edges leave the counts of declarations alone. -/
theorem declarations_foldl_bump (s : Stats) (moved : List Counter) :
    (moved.foldl bump s).declarations = s.declarations ∧
      (moved.foldl bump s).taggedDeclarations = s.taggedDeclarations := by
  induction moved generalizing s with
  | nil => exact ⟨rfl, rfl⟩
  | cons first moved ih =>
      obtain ⟨hdeclarations, htagged⟩ := ih (s.bump first)
      rw [List.foldl_cons, hdeclarations, htagged]
      cases first <;> exact ⟨rfl, rfl⟩

end Stats

/-! ### Which counters a run moves -/

/-- Items that move one counter each. -/
theorem Act.counters_flatMap {α : Type} {items : List α} {acts : α → List Act}
    {counter : α → Counter}
    (hone : ∀ a ∈ items, (acts a).filterMap counter? = [counter a]) :
    (items.flatMap acts).filterMap counter? = items.map counter := by
  rw [List.filterMap_flatMap, List.map_eq_flatMap]
  exact List.flatMap_congr hone

/-- Items that move none. -/
theorem Act.counters_flatMap_nil {α : Type} {items : List α}
    {acts : α → List Act}
    (hnone : ∀ a ∈ items, (acts a).filterMap counter? = []) :
    (items.flatMap acts).filterMap counter? = [] := by
  rw [List.filterMap_flatMap, List.flatMap_eq_nil_iff]
  exact hnone

@[simp] theorem Act.counters_reports (actor : DeclId)
    (findings : List Finding) :
    (findings.map (report actor)).filterMap counter? = [] := by
  simp [List.filterMap_map, Function.comp_def, counter?]

@[simp] theorem Declaration.counters_demands (d : Declaration)
    (place : LocatedTag → Option String) (tag? : Option LocatedTag) :
    (d.demands place tag?).filterMap Act.counter? = [] := by
  rw [demands]
  split
  · rfl
  · simp [List.filterMap_map, Function.comp_def, Act.counter?]

namespace Context

/-- The accessor is there, builds no object, and is not left alone. -/
def checksAccess (ctx : Context) (accessor : DeclId) : Bool :=
  (ctx.model.find? accessor).any
    (fun d => !d.kind.isConstruction && (ctx.skipReason? d).isNone)

section

variable (ctx : Context) (patterns : List Glob)

theorem counters_acting {counter : Counter} {d : Declaration} {acts : List Act}
    (hacts : acts.filterMap Act.counter? = [counter]) :
    (ctx.acting d acts).filterMap Act.counter? =
      [counter.ofEdge (ctx.skipReason? d).isNone] := by
  rw [acting]
  cases ctx.skipReason? d with
  | none => simpa [Counter.ofEdge] using hacts
  | some reason => simp [Counter.ofEdge, Act.counter?]

theorem counters_overrideActs (implicit : Bool) (child : Declaration)
    (parent : DeclId) :
    (ctx.overrideActs patterns implicit child parent).filterMap Act.counter? =
      [] := by
  rw [overrideActs, List.filterMap_append, List.filterMap_append,
    Act.counters_reports, Declaration.counters_demands]
  rfl

theorem counters_edgeActs {e : OverrideEdge} {child : Declaration}
    (hchild : ctx.model.find? e.child = some child) :
    (ctx.edgeActs patterns e).filterMap Act.counter? =
      [Counter.ofEdge .overrides (ctx.checks e.child)] := by
  simp only [edgeActs, checks, hchild, Option.any_some]
  refine ctx.counters_acting ?_
  rw [List.filterMap_append, counters_overrideActs]
  rfl

theorem counters_impliedActs (parent : Declaration) {child : Declaration}
    (hchild : ctx.model.find? child.id = some child) :
    (ctx.impliedActs patterns parent child).filterMap Act.counter? =
      [Counter.ofEdge .implicitOverrides (ctx.checks child.id)] := by
  simp only [impliedActs, checks, hchild, Option.any_some]
  refine ctx.counters_acting ?_
  rw [List.filterMap_append, counters_overrideActs]
  rfl

theorem counters_familyActs (family : DeclId × List DeclId) :
    (ctx.familyActs patterns family).filterMap Act.counter? = [] :=
  Act.counters_reports _ _

theorem counters_callActs (overrides : List OverrideEdge) {e : CallEdge}
    {caller : Declaration} (hcaller : ctx.model.find? e.caller = some caller) :
    (ctx.callActs overrides e).filterMap Act.counter? =
      [Counter.ofEdge .calls (ctx.checks e.caller)] := by
  simp only [callActs, checks, hcaller, Option.any_some]
  refine ctx.counters_acting ?_
  simp [Act.counter?]

theorem counters_accessActs {e : FieldAccess} {accessor field : Declaration}
    (haccessor : ctx.model.find? e.accessor = some accessor)
    (hfield : ctx.model.find? e.field = some field) :
    (ctx.accessActs e).filterMap Act.counter? =
      [Counter.ofEdge .fieldAccesses (ctx.checksAccess e.accessor)] := by
  simp only [accessActs, checksAccess, haccessor, hfield, Option.any_some]
  cases accessor.kind.isConstruction with
  | true => rfl
  | false =>
      refine ctx.counters_acting ?_
      cases e.lockHeld <;> simp [Act.counter?]

theorem counters_guardActs (marked : DeclId → Bool) (d : Declaration) :
    (ctx.guardActs marked d).filterMap Act.counter? = [] := by
  rw [guardActs]
  split
  · rfl
  · exact d.counters_demands _ _

end

/-- The implied overrides move one counter each, in the order of the search. -/
theorem counters_impliedByActs (ctx : Context) (haccepted : ctx.model.Accepted)
    (patterns : List Glob) (overrides : List OverrideEdge) :
    (ctx.model.declarations.flatMap
      (ctx.impliedByActs patterns overrides)).filterMap
        Act.counter? =
      (ctx.impliedPairs overrides).map
        (fun pair => Counter.ofEdge .implicitOverrides
          (ctx.checks pair.2.id)) := by
  rw [List.filterMap_flatMap, impliedPairs, List.map_flatMap]
  refine List.flatMap_congr (fun parent hparent => ?_)
  rw [impliedByActs_eq, List.map_map]
  refine Act.counters_flatMap (fun child hchild => ?_)
  have himplies := (mem_impliedBy_iff haccepted hparent).mp hchild
  exact ctx.counters_impliedActs patterns parent
    (haccepted.find?_id himplies.child_mem)

end Context

namespace Checker

section Counts

variable (c : Checker) {u : SourceUnit} (haccepted : u.Accepted)

include haccepted

/-- The counters that a run moves: one for each edge, and one for each implied
override. -/
theorem counters_acts :
    (c.acts u).filterMap Act.counter? =
      u.overrides.map
        (fun e => Counter.ofEdge .overrides ((c.context u).checks e.child)) ++
          (if c.settings.subclassPropagation then
            ((c.context u).impliedPairs u.overrides).map
              (fun pair => Counter.ofEdge .implicitOverrides
                ((c.context u).checks pair.2.id))
          else [])
        ++ u.calls.map
          (fun e => Counter.ofEdge .calls ((c.context u).checks e.caller))
        ++ (if c.settings.checkFieldAccess then
            u.fieldAccesses.map
              (fun e => Counter.ofEdge .fieldAccesses
                ((c.context u).checksAccess e.accessor))
          else []) := by
  have hoverrides : (u.overrides.flatMap
      ((c.context u).edgeActs c.settings.exemptPatterns)).filterMap
      Act.counter? =
      u.overrides.map (fun e => Counter.ofEdge .overrides
        ((c.context u).checks e.child)) := by
    refine Act.counters_flatMap (fun e he => ?_)
    obtain ⟨child, hchild, -⟩ := haccepted.exists_child he
    exact (c.context u).counters_edgeActs _ hchild
  have hcalls :
      (u.calls.flatMap ((c.context u).callActs u.overrides)).filterMap
        Act.counter? =
        u.calls.map
          (fun e => Counter.ofEdge .calls ((c.context u).checks e.caller)) := by
    refine Act.counters_flatMap (fun e he => ?_)
    obtain ⟨caller, hcaller, -⟩ := haccepted.exists_caller he
    exact (c.context u).counters_callActs _ hcaller
  have haccesses :
      (u.fieldAccesses.flatMap (c.context u).accessActs).filterMap
        Act.counter? =
        u.fieldAccesses.map
          (fun e => Counter.ofEdge .fieldAccesses
            ((c.context u).checksAccess e.accessor)) := by
    refine Act.counters_flatMap (fun e he => ?_)
    obtain ⟨accessor, field, haccessor, -, hfield, -⟩ :=
      haccepted.exists_access he
    exact (c.context u).counters_accessActs haccessor hfield
  have himplied := (c.context u).counters_impliedByActs haccepted.model
    c.settings.exemptPatterns u.overrides
  have hfamilies : (((c.context u).parentsByChild u.overrides).toList.flatMap
      ((c.context u).familyActs c.settings.exemptPatterns)).filterMap
      Act.counter? = [] :=
    Act.counters_flatMap_nil
      (fun family _ => (c.context u).counters_familyActs _ family)
  have hguards : (u.model.declarations.flatMap
      ((c.context u).guardActs (fun id => .mark id ∈ c.edgeActs u))).filterMap
      Act.counter? = [] :=
    Act.counters_flatMap_nil (fun d _ => (c.context u).counters_guardActs _ d)
  have hsettings : (c.context u).settings = c.settings := rfl
  have hmodel : (c.context u).model = u.model := rfl
  rw [hmodel] at himplied
  rw [acts, List.filterMap_append, hguards, List.append_nil]
  simp only [edgeActs, Context.overridesActs, hsettings, hmodel,
    List.filterMap_append, apply_ite (List.filterMap Act.counter?),
    List.filterMap_nil, hoverrides, himplied, hfamilies, hcalls, haccesses,
    List.append_nil]

/-- What a run shows on a counter of edges is how often its edges move it. -/
theorem edges_stats_run (registry : Registry) (counter : Counter) :
    (c.run u registry).stats.edges counter =
      ((c.acts u).filterMap Act.counter?).count counter := by
  rw [c.stats_run haccepted.model registry]
  have hmoved := Stats.edges_foldl_bump
    { declarations := u.model.size
      taggedDeclarations :=
        ((c.context u).heldTags u.model.declarations).length }
    ((c.acts u).filterMap Act.counter?) counter
  cases counter <;> simpa [Stats.edges] using hmoved

/-- What the counter of checked edges of one kind shows, for the four kinds. -/
theorem edges_checked (registry : Registry) :
    (c.run u registry).stats.overridesChecked =
        u.overrides.countP (fun e => (c.context u).checks e.child) ∧
      (c.run u registry).stats.implicitOverridesChecked =
        (if c.settings.subclassPropagation then
          ((c.context u).impliedPairs u.overrides).countP
            (fun pair => (c.context u).checks pair.2.id)
        else 0) ∧
      (c.run u registry).stats.callsChecked =
        u.calls.countP (fun e => (c.context u).checks e.caller) ∧
      (c.run u registry).stats.fieldAccessesChecked =
        if c.settings.checkFieldAccess then
          u.fieldAccesses.countP
            (fun e => (c.context u).checksAccess e.accessor)
        else 0 := by
  have hcount (counter : Counter) :=
    c.edges_stats_run haccepted registry counter
  have hoverrides := hcount .overrides
  have himplicit := hcount .implicitOverrides
  have hcalls := hcount .calls
  have haccesses := hcount .fieldAccesses
  rw [c.counters_acts haccepted] at hoverrides himplicit hcalls haccesses
  simp only [List.count_append, apply_ite (List.count _), List.count_nil,
    ne_eq, reduceCtorEq, not_false_eq_true, Counter.count_map_ofEdge,
    Counter.count_map_ofEdge_of_ne, ite_self, Nat.add_zero,
    Nat.zero_add] at hoverrides himplicit hcalls haccesses
  exact ⟨hoverrides, himplicit, hcalls, haccesses⟩

/-- The edges counters together show all edges. -/
theorem sum_edges (registry : Registry) :
    (c.run u registry).stats.overridesChecked + (c.run u
      registry).stats.implicitOverridesChecked
        + (c.run u registry).stats.callsChecked + (c.run u
          registry).stats.fieldAccessesChecked
        + (c.run u registry).stats.skippedEdges =
      u.overrides.length
        + (if c.settings.subclassPropagation then
            ((c.context u).impliedPairs u.overrides).length
          else 0)
        + u.calls.length
        + if c.settings.checkFieldAccess then u.fieldAccesses.length
          else 0 := by
  have hlength :=
    Counter.length_eq_sum_count ((c.acts u).filterMap Act.counter?)
  simp only [← c.edges_stats_run haccepted registry] at hlength
  refine Eq.trans hlength.symm ?_
  rw [c.counters_acts haccepted]
  simp only [List.length_append, apply_ite List.length, List.length_map,
    List.length_nil]

end Counts

end Checker

/-- The search counts each implied override once, so it counts how many there
are. -/
theorem Context.ncard_implies (ctx : Context) (haccepted : ctx.model.Accepted)
    (overrides : List OverrideEdge)
    (wanted : Declaration × Declaration → Bool) :
    {pair : Declaration × Declaration |
        ctx.Implies overrides pair.1 pair.2 ∧ wanted pair = true}.ncard =
      (ctx.impliedPairs overrides).countP wanted := by
  have hset : {pair : Declaration × Declaration |
      ctx.Implies overrides pair.1 pair.2 ∧ wanted pair = true} =
      ((ctx.impliedPairs overrides).filter wanted).toFinset := by
    ext ⟨parent, child⟩
    simp [mem_impliedPairs_iff haccepted]
  rw [hset, Set.ncard_coe_finset,
    List.toFinset_card_of_nodup
      ((nodup_impliedPairs haccepted overrides).filter wanted),
    List.countP_eq_length_filter]

/-- No edge is dropped.  The counters of edges together show the override edges,
the implied overrides, the calls and the field accesses of the unit, as far as
the settings ask for them; each counter of checked edges shows those whose
acting side is not left alone; and the other counters show the declarations,
those with a tag, and the findings. -/
theorem Checker.check_counts (c : Checker) {u : SourceUnit}
    (haccepted : u.Accepted) (registry : Registry) :
    let ctx := c.context u
    let report := (c.check u registry).1
    report.stats.overridesChecked + report.stats.implicitOverridesChecked
        + report.stats.callsChecked + report.stats.fieldAccessesChecked
        + report.stats.skippedEdges =
      u.overrides.length
        + (if c.settings.subclassPropagation then
            {pair : Declaration × Declaration |
              ctx.Implies u.overrides pair.1 pair.2}.ncard
          else 0)
        + u.calls.length
        + (if c.settings.checkFieldAccess then u.fieldAccesses.length else 0) ∧
      report.stats.overridesChecked =
        u.overrides.countP (fun e => ctx.checks e.child) ∧
      report.stats.implicitOverridesChecked =
        (if c.settings.subclassPropagation then
          {pair : Declaration × Declaration |
            ctx.Implies u.overrides pair.1 pair.2 ∧
              ctx.checks pair.2.id = true}.ncard
        else 0) ∧
      report.stats.callsChecked =
        u.calls.countP (fun e => ctx.checks e.caller) ∧
      report.stats.fieldAccessesChecked =
        (if c.settings.checkFieldAccess then
          u.fieldAccesses.countP (fun e => ctx.checksAccess e.accessor)
        else 0) ∧
      report.stats.declarations = u.model.declarations.length ∧
      report.stats.taggedDeclarations =
        u.model.declarations.countP (fun d => (ctx.effectiveTag? d.id).isSome) ∧
      report.stats.findings = report.findings.length := by
  intro ctx report
  have hall := ctx.ncard_implies haccepted.model u.overrides (fun _ => true)
  simp only [and_true, List.countP_true] at hall
  obtain ⟨hoverrides, himplicit, hcalls, haccesses⟩ :=
    c.edges_checked haccepted registry
  have hstats := c.stats_run haccepted.model registry
  obtain ⟨hdeclarations, htagged⟩ := Stats.declarations_foldl_bump
    { declarations := u.model.size
      taggedDeclarations := (ctx.heldTags u.model.declarations).length }
    ((c.acts u).filterMap Act.counter?)
  refine ⟨?_, hoverrides, ?_, hcalls, haccesses, ?_, ?_, ?_⟩
  · rw [hall]
    exact c.sum_edges haccepted registry
  · rw [ctx.ncard_implies haccepted.model]
    exact himplicit
  · exact (congrArg Stats.declarations hstats).trans hdeclarations
  · rw [← List.length_filterMap_eq_countP]
    exact (congrArg Stats.taggedDeclarations hstats).trans htagged
  · exact congrArg Stats.findings hstats

/-- Shapes whose types form a diamond and a cycle.  All of them draw: the square
overrides the drawing of shapes by an edge, the disc and the pill only because a
rule covers subclasses, and the pill is left alone. -/
def shapeFacts : UnitFacts where
  name := "shapes"
  declarations :=
    [{ id := ⟨1⟩, kind := .module, location := "app", qualifiedName := "app" },
      { id := ⟨2⟩, kind := .type, enclosing := some ⟨1⟩,
        location := "app.Shape", qualifiedName := "app.Shape",
        supertypes := [⟨8⟩] },
      { id := ⟨3⟩, kind := .method, enclosing := some ⟨2⟩,
        location := "app.Shape.draw", qualifiedName := "app.Shape.draw",
        signature := some "draw" },
      { id := ⟨4⟩, kind := .type, enclosing := some ⟨1⟩,
        location := "app.Square", qualifiedName := "app.Square",
        supertypes := [⟨2⟩] },
      { id := ⟨5⟩, kind := .method, enclosing := some ⟨4⟩,
        location := "app.Square.draw", qualifiedName := "app.Square.draw",
        signature := some "draw" },
      { id := ⟨6⟩, kind := .type, enclosing := some ⟨1⟩, location := "app.Disc",
        qualifiedName := "app.Disc", supertypes := [⟨2⟩] },
      { id := ⟨7⟩, kind := .method, enclosing := some ⟨6⟩,
        location := "app.Disc.draw", qualifiedName := "app.Disc.draw",
        signature := some "draw" },
      { id := ⟨8⟩, kind := .type, enclosing := some ⟨1⟩, location := "app.Pill",
        qualifiedName := "app.Pill", supertypes := [⟨4⟩, ⟨6⟩],
        suppressions := ["threadchecker"] },
      { id := ⟨9⟩, kind := .method, enclosing := some ⟨8⟩,
        location := "app.Pill.draw", qualifiedName := "app.Pill.draw",
        signature := some "draw" },
      { id := ⟨10⟩, kind := .field, enclosing := some ⟨6⟩,
        location := "app.Disc.width", qualifiedName := "app.Disc.width" },
      { id := ⟨11⟩, kind := .constructor, enclosing := some ⟨6⟩,
        location := "app.Disc.new", qualifiedName := "app.Disc.new" }]
  overrides := [⟨⟨5⟩, ⟨3⟩⟩]
  calls := [⟨⟨5⟩, ⟨3⟩, true⟩, ⟨⟨5⟩, ⟨3⟩, true⟩, ⟨⟨9⟩, ⟨7⟩, false⟩]
  fieldAccesses := [⟨⟨7⟩, ⟨10⟩, false⟩, ⟨⟨11⟩, ⟨10⟩, false⟩]

/-- Drawing a shape is for the event thread, and so is every drawing below. -/
def shapeRules : List LibraryRule :=
  [{ scope := .method, path := "app.Shape.draw", tag := .uiEventThread,
     coversSubclasses := true }]

theorem shape_check_counts :
    ∃ u, SourceUnit.build shapeFacts = .ok u ∧
      let c := Checker.ofSettings { library := shapeRules }
      {pair : Declaration × Declaration |
        (c.context u).Implies u.overrides pair.1 pair.2}.ncard = 2 ∧
      {pair : Declaration × Declaration |
        (c.context u).Implies u.overrides pair.1 pair.2 ∧
          (c.context u).checks pair.2.id = true}.ncard = 1 ∧
      (c.check u .empty).1.stats.skippedEdges = 3 := by
  have hbuild : SourceUnit.build shapeFacts = .ok (.ofFacts shapeFacts) :=
    SourceUnit.build_ofFacts (by decide +kernel)
  refine ⟨_, hbuild, ?_⟩
  intro c
  have hstats : (c.check (.ofFacts shapeFacts) .empty).1.stats =
      { declarations := 11, taggedDeclarations := 1, overridesChecked := 1,
        implicitOverridesChecked := 1, callsChecked := 2,
        fieldAccessesChecked := 1, skippedEdges := 3, findings := 2 } := by
    decide +kernel
  obtain ⟨hsum, -, himplied, -⟩ :=
    Checker.check_counts c ⟨shapeFacts, hbuild⟩ .empty
  rw [hstats] at hsum himplied
  -- one override, three calls and two field accesses besides the implied
  -- overrides
  change 8 = 1 + Set.ncard _ + 3 + 2 at hsum
  exact ⟨by omega, himplied.symm, by rw [hstats]⟩

end ThreadConfinement
