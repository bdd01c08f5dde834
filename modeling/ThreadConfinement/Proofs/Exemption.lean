import ThreadConfinement.Proofs.CallingContext
import ThreadConfinement.Proofs.InheritanceConflicts

/-!
What exempt parent types take from a report.

Exemption is asked for twice: a child is not compared with an exempt parent, and
an exempt parent does not count where several disagree.  A child answers to an
exempt parent for its lock as to any other.  So further patterns leave a run as
it is but for these two kinds of finding, and of them they only remove:
`Checker.check_exempting`.
-/

namespace ThreadConfinement

/-! ### More patterns -/

namespace Model

/-- The parent stands in a type that one of the texts exempts; a text that is no
pattern exempts none. -/
def exempts (m : Model) (texts : List String) (parent : DeclId) : Bool :=
  m.isExempt
    ({ exemptParentTypes := texts } : CheckSettings).exemptPatterns parent

theorem isExempt_append (m : Model) (patterns more : List Glob)
    (parent : DeclId) :
    m.isExempt (patterns ++ more) parent =
      (m.isExempt patterns parent || m.isExempt more parent) := by
  unfold isExempt
  cases m.enclosingType? parent <;> simp

end Model

namespace Context

def exempting (ctx : Context) (texts : List String) : Context :=
  { ctx with
    settings :=
      { ctx.settings with
        exemptParentTypes := ctx.settings.exemptParentTypes ++ texts } }

variable {ctx : Context} {texts : List String}

theorem isExempt_exempting (ctx : Context) (texts : List String)
    (parent : DeclId) :
    ctx.model.isExempt (ctx.exempting texts).settings.exemptPatterns parent =
      (ctx.model.isExempt ctx.settings.exemptPatterns parent ||
        ctx.model.exempts texts parent) := by
  have hpatterns : (ctx.exempting texts).settings.exemptPatterns =
      ctx.settings.exemptPatterns ++
      ({ exemptParentTypes := texts } : CheckSettings).exemptPatterns :=
    List.filterMap_append
  rw [hpatterns, ctx.model.isExempt_append]
  rfl

/-- Two methods clash as before, unless the type of the parent has become
exempt. -/
theorem clashes_exempting {parent child : Declaration} :
    (ctx.exempting texts).Clashes parent child ↔
      ctx.Clashes parent child ∧ ctx.model.exempts texts parent.id = false := by
  have hexempt := ctx.isExempt_exempting texts parent.id
  have htag (id : DeclId) : (ctx.exempting texts).effectiveTag? id =
      ctx.effectiveTag? id := rfl
  have hskip :
      (ctx.exempting texts).skipReason? child = ctx.skipReason? child := rfl
  have hmodel : (ctx.exempting texts).model = ctx.model := rfl
  rw [clashes_iff, clashes_iff, hskip, htag, htag, hmodel, hexempt, and_assoc]
  refine and_congr_right (fun _ => ?_)
  cases ctx.effectiveTag? child.id with
  | none => simp [overrideConflicts]
  | some tag =>
    cases ctx.model.exempts texts parent.id <;> simp [overrideConflicts]

/-- Of the parents that have tags, those in types that have become exempt do not
count any more. -/
theorem taggedParents_exempting (ctx : Context) (texts : List String)
    (overrides : List OverrideEdge) (child : DeclId) :
    (ctx.exempting texts).taggedParents overrides child =
      (ctx.taggedParents overrides child).filter
        (fun pair => !ctx.model.exempts texts pair.1) := by
  simp only [taggedParents, tagsOf, List.filter_filterMap,
    List.filterMap_filter]
  apply List.filterMap_congr
  intro id _
  have hexempt : (ctx.exempting texts).model.isExempt
      (ctx.exempting texts).settings.exemptPatterns id =
      _ := ctx.isExempt_exempting texts id
  have htag :
      (ctx.exempting texts).effectiveTag? id = ctx.effectiveTag? id := rfl
  rw [hexempt, htag]
  cases hexempts : ctx.model.exempts texts id <;>
    cases ctx.model.isExempt ctx.settings.exemptPatterns id <;>
      cases ctx.effectiveTag? id <;>
    simp [hexempts, Option.filter]

/-- A child that is torn with more exempt parents was torn before. -/
theorem torn_of_exempting {overrides : List OverrideEdge} {child : Declaration}
    (htorn : (ctx.exempting texts).Torn overrides child) :
    ctx.Torn overrides child := by
  obtain ⟨hacts, huntagged, first, hfirst, second, hsecond, hdiffer⟩ := htorn
  rw [taggedParents_exempting] at hfirst hsecond
  exact ⟨hacts, huntagged, first, (List.mem_filter.mp hfirst).1, second,
    (List.mem_filter.mp hsecond).1, hdiffer⟩

end Context

/-! ### What is left without the two kinds of finding -/

/-- The rules for which exemption counts. -/
def Rule.heedsExemption (rule : Rule) : Bool :=
  rule == .overrideConflict || rule == .inheritanceConflict

namespace Act

variable {rules : Rule → Bool}

theorem lessReports_map_report {finding? : Option Finding}
    (hrule : ∀ f, finding? = some f → rules f.rule = true) (actor : DeclId) :
    lessReports rules (finding?.toList.map (report actor)) = [] := by
  cases finding? with
  | none => rfl
  | some f => simp [lessReports, reportsUnder, hrule f rfl]

theorem lessReports_demands (d : Declaration)
    (place : LocatedTag → Option String) (tag? : Option LocatedTag) :
    lessReports rules (d.demands place tag?) = d.demands place tag? := by
  unfold Declaration.demands
  split
  · rfl
  · cases tag? <;> rfl

end Act

namespace Context

variable {ctx : Context} {patterns : List Glob}

theorem lessReports_acting (rules : Rule → Bool) (d : Declaration)
    (acts : List Act) :
    Act.lessReports rules (ctx.acting d acts) =
      ctx.acting d (Act.lessReports rules acts) := by
  unfold acting
  split <;> rfl

/-- Without its report, an override is what it decides about the lock of the
child. -/
theorem lessReports_overrideActs (implicit : Bool) (child : Declaration)
    (parent : DeclId) :
    Act.lessReports Rule.heedsExemption
      (ctx.overrideActs patterns implicit child parent) =
      ctx.lockActs child parent := by
  have hreport : Act.lessReports Rule.heedsExemption
      ((ctx.overrideFinding? patterns implicit child parent).toList.map
        (.report child.id)) = [] := by
    apply Act.lessReports_map_report
    intro f hfinding
    rw [rule_of_overrideFinding? hfinding]
    rfl
  rw [overrideActs, Act.lessReports_append, Act.lessReports_append, hreport,
    Act.lessReports_demands]
  rfl

theorem lessReports_familyActs (family : DeclId × List DeclId) :
    Act.lessReports Rule.heedsExemption (ctx.familyActs patterns family) =
      [] := by
  apply Act.lessReports_map_report
  intro f hfinding
  rw [rule_of_inheritanceFinding? hfinding]
  rfl

/-- Without the two kinds of finding, no pattern bears on what is done about an
override edge. -/
theorem lessReports_edgeActs (patterns more : List Glob) (e : OverrideEdge) :
    Act.lessReports Rule.heedsExemption (ctx.edgeActs patterns e) =
      Act.lessReports Rule.heedsExemption (ctx.edgeActs more e) := by
  unfold edgeActs
  cases ctx.model.find? e.child with
  | none => rfl
  | some child =>
      simp only [lessReports_acting, Act.lessReports_append,
        lessReports_overrideActs]

theorem lessReports_impliedByActs (patterns more : List Glob)
    (overrides : List OverrideEdge) (parent : Declaration) :
    Act.lessReports Rule.heedsExemption
      (ctx.impliedByActs patterns overrides parent) =
      Act.lessReports Rule.heedsExemption
        (ctx.impliedByActs more overrides parent) := by
  simp only [impliedByActs_eq, impliedActs, Act.lessReports_flatMap,
    lessReports_acting, Act.lessReports_append, lessReports_overrideActs]

end Context

namespace Checker

def exempting (c : Checker) (texts : List String) : Checker :=
  { c with
    settings :=
      { c.settings with
        exemptParentTypes := c.settings.exemptParentTypes ++ texts } }

theorem context_exempting (c : Checker) (texts : List String) (u : SourceUnit) :
    (c.exempting texts).context u = (c.context u).exempting texts :=
  rfl

/-- The two runs act alike, but for what they report under the two rules. -/
theorem lessReports_acts_exempting (c : Checker) (texts : List String)
    (u : SourceUnit) :
    Act.lessReports Rule.heedsExemption ((c.exempting texts).acts u) =
      Act.lessReports Rule.heedsExemption (c.acts u) := by
  have hoverrides : Act.lessReports Rule.heedsExemption
      (((c.context u).exempting texts).overridesActs u.overrides) =
      Act.lessReports Rule.heedsExemption
        ((c.context u).overridesActs u.overrides) := by
    simp only [Context.overridesActs, Act.lessReports_append,
      Act.lessReports_flatMap, Context.lessReports_familyActs,
      apply_ite (Act.lessReports Rule.heedsExemption)]
    refine congrArg₂ (· ++ ·) (congrArg₂ (· ++ ·) ?_ ?_) ?_
    · exact List.flatMap_congr (fun e _ => Context.lessReports_edgeActs _ _ e)
    · apply ite_congr rfl
      · intro _
        exact List.flatMap_congr
          (fun d _ => Context.lessReports_impliedByActs _ _ u.overrides d)
      · intro _
        rfl
    · rfl
  apply lessReports_acts
  · rw [edgeActs, edgeActs, context_exempting, Act.lessReports_append,
      Act.lessReports_append, Act.lessReports_append,
      Act.lessReports_append, hoverrides]
    rfl
  · rfl

/-- Findings on single overrides go, and none comes. -/
theorem findingsOf_overrideConflict_exempting (c : Checker) {u : SourceUnit}
    (haccepted : u.Accepted) (texts : List String) (registry : Registry) :
    (((c.exempting texts).check u registry).1.findingsOf
      .overrideConflict).Sublist
      ((c.check u registry).1.findingsOf .overrideConflict) := by
  obtain ⟨stated, hstated, hends⟩ := haccepted.exists_stated
  have hfewer (pairs : List (Declaration × Declaration)) (implicit : Bool) :
      ((pairs.filter
        (fun pair => ((c.exempting texts).context u).Clashes pair.1 pair.2)).map
        (((c.exempting texts).context u).conflict implicit)).Sublist
        ((pairs.filter (fun pair => (c.context u).Clashes pair.1 pair.2)).map
          ((c.context u).conflict implicit)) := by
    apply List.Sublist.map
    apply List.monotone_filter_right
    intro pair hclashes
    rw [decide_eq_true_eq, context_exempting,
      Context.clashes_exempting] at hclashes
    exact decide_eq_true hclashes.1
  rw [c.findingsOf_overrideConflict haccepted.model registry hstated hends,
    (c.exempting texts).findingsOf_overrideConflict haccepted.model registry
      hstated hends]
  have hsetting : (c.exempting texts).settings.subclassPropagation =
      c.settings.subclassPropagation := rfl
  rw [hsetting]
  apply (hfewer stated false).append
  split
  · exact hfewer _ true
  · exact List.Sublist.refl []

/-- With further exempt parent types a run records and counts as before, and
reports the same, except for overrides.  Findings on single overrides are only
left out.  A child that is still reported for parents that disagree was so
before, and the parents named are those of before without the ones that are now
exempt. -/
theorem check_exempting (c : Checker) {u : SourceUnit} (haccepted : u.Accepted)
    (texts : List String) (registry : Registry) :
    ((c.exempting texts).check u registry).2 = (c.check u registry).2 ∧
    { ((c.exempting texts).check u registry).1.stats with
      findings :=
        (c.check u registry).1.stats.findings } = (c.check u registry).1.stats ∧
    ((c.exempting texts).check u registry).1.findings.filter
        (fun f =>
          f.rule != .overrideConflict && f.rule != .inheritanceConflict) =
      (c.check u registry).1.findings.filter
        (fun f =>
          f.rule != .overrideConflict && f.rule != .inheritanceConflict) ∧
    (((c.exempting texts).check u registry).1.findingsOf
      .overrideConflict).Sublist
      ((c.check u registry).1.findingsOf .overrideConflict) ∧
    ∃ (before after : List Declaration)
      (tagged : DeclId → List (DeclId × LocatedTag)),
      before.Pairwise (fun first second => first.id.toNat < second.id.toNat) ∧
      after.Sublist before ∧
      (c.check u registry).1.findingsOf .inheritanceConflict =
        before.map (fun child => .inheritanceConflict child.location none
          ((tagged child.id).map (fun pair => ⟨u.model.locationOf pair.1,
            pair.2⟩))) ∧
      ((c.exempting texts).check u registry).1.findingsOf .inheritanceConflict =
        after.map (fun child => .inheritanceConflict child.location none
          (((tagged child.id).filter
            (fun pair => !u.model.exempts texts pair.1)).map
            (fun pair => ⟨u.model.locationOf pair.1, pair.2⟩))) := by
  have hlibrary : (c.exempting texts).library = c.library := rfl
  obtain ⟨hregistry, hstats, hfindings⟩ :=
    check_of_lessReports haccepted.model registry rfl hlibrary
      (c.lessReports_acts_exempting texts u)
  have hrules : (fun f : Finding => !f.rule.heedsExemption) =
      fun f => f.rule != .overrideConflict &&
        f.rule != .inheritanceConflict := by
    funext f
    exact Bool.not_or _ _
  rw [hrules] at hfindings
  obtain ⟨before, hascend, hbefore, hreported⟩ :=
    c.findingsOf_inheritanceConflict haccepted.model registry
  obtain ⟨after, hascend', hafter, hreported'⟩ :=
    (c.exempting texts).findingsOf_inheritanceConflict haccepted.model registry
  refine ⟨hregistry, hstats, hfindings,
    c.findingsOf_overrideConflict_exempting haccepted texts registry,
    before, after, (c.context u).taggedParents u.overrides, hascend, ?_,
    hreported, ?_⟩
  · -- both lists are in ascending order, so the second is the first without
    -- those that are not torn
    have hkept : after = before.filter
        (fun child => ((c.context u).exempting texts).Torn
          u.overrides child) := by
      apply eq_of_ascending hascend' (hascend.filter _)
      intro child
      rw [hafter, List.mem_filter, hbefore, decide_eq_true_eq,
        context_exempting]
      constructor
      · rintro ⟨hchild, htorn⟩
        exact ⟨⟨hchild, Context.torn_of_exempting htorn⟩, htorn⟩
      · rintro ⟨⟨hchild, -⟩, htorn⟩
        exact ⟨hchild, htorn⟩
    rw [hkept]
    exact List.filter_sublist
  · rw [hreported', context_exempting]
    apply List.map_congr_left
    intro child _
    rw [Context.disagreement, Context.taggedParents_exempting]
    rfl

/-- A plug that opens on a worker below an old port and a control, and closes
below these and a task without saying on which thread. -/
def plugFacts : UnitFacts where
  name := "plug"
  declarations :=
    [{ id := ⟨1⟩, kind := .module, location := "app", qualifiedName := "app" },
      { id := ⟨2⟩, kind := .type, enclosing := some ⟨1⟩, location := "old.Port",
        qualifiedName := "old.Port" },
      { id := ⟨3⟩, kind := .method, enclosing := some ⟨2⟩,
        location := "old.Port.open", qualifiedName := "old.Port.open",
        markers := [{ tag := .simulationThread }] },
      { id := ⟨4⟩, kind := .type, enclosing := some ⟨1⟩,
        location := "app.Control", qualifiedName := "app.Control" },
      { id := ⟨5⟩, kind := .method, enclosing := some ⟨4⟩,
        location := "app.Control.turn", qualifiedName := "app.Control.turn",
        markers := [{ tag := .uiEventThread }] },
      { id := ⟨6⟩, kind := .type, enclosing := some ⟨1⟩, location := "app.Task",
        qualifiedName := "app.Task" },
      { id := ⟨7⟩, kind := .method, enclosing := some ⟨6⟩,
        location := "app.Task.run", qualifiedName := "app.Task.run",
        markers := [{ tag := .worker }] },
      { id := ⟨8⟩, kind := .type, enclosing := some ⟨1⟩, location := "app.Plug",
        qualifiedName := "app.Plug" },
      { id := ⟨9⟩, kind := .method, enclosing := some ⟨8⟩,
        location := "app.Plug.open", qualifiedName := "app.Plug.open",
        markers := [{ tag := .worker, requireSynchronized := true }] },
      { id := ⟨10⟩, kind := .method, enclosing := some ⟨8⟩,
        location := "app.Plug.close", qualifiedName := "app.Plug.close" }]
  overrides := [⟨⟨9⟩, ⟨3⟩⟩, ⟨⟨9⟩, ⟨5⟩⟩, ⟨⟨10⟩, ⟨5⟩⟩, ⟨⟨10⟩, ⟨3⟩⟩, ⟨⟨10⟩, ⟨7⟩⟩]

/-- Where the old port is exempt, the plug is still reported for the control,
for its lock, and for the two parents that are left; a text that is no pattern
changes nothing. -/
theorem plug_check_exempting :
    ∃ u, SourceUnit.build plugFacts = .ok u ∧
      let c := Checker.ofSettings {}
      let texts := ["old.*", "[old"]
      ((c.exempting texts).check u .empty).2 = (c.check u .empty).2 ∧
      (((c.exempting texts).check u .empty).1.findingsOf
        .overrideConflict).Sublist
        ((c.check u .empty).1.findingsOf .overrideConflict) ∧
      (c.check u .empty).1.findings.map
        (fun f => (f.rule, f.location, f.related)) =
        [(.overrideConflict, "app.Plug.open", ["old.Port.open"]),
          (.missingSynchronization, "app.Plug.open", ["app.Plug.open"]),
          (.overrideConflict, "app.Plug.open", ["app.Control.turn"]),
          (.inheritanceConflict, "app.Plug.close",
            ["app.Control.turn", "old.Port.open", "app.Task.run"])] ∧
      ((c.exempting texts).check u .empty).1.findings.map
          (fun f => (f.rule, f.location, f.related)) =
        [(.missingSynchronization, "app.Plug.open", ["app.Plug.open"]),
          (.overrideConflict, "app.Plug.open", ["app.Control.turn"]),
          (.inheritanceConflict, "app.Plug.close",
            ["app.Control.turn", "app.Task.run"])] := by
  have hbuild : SourceUnit.build plugFacts = .ok (.ofFacts plugFacts) :=
    SourceUnit.build_ofFacts (by decide +kernel)
  refine ⟨_, hbuild, ?_⟩
  intro c texts
  obtain ⟨hregistry, -, -, hsublist, -⟩ :=
    c.check_exempting ⟨plugFacts, hbuild⟩ texts .empty
  exact ⟨hregistry, hsublist, by decide +kernel, by decide +kernel⟩

end Checker

end ThreadConfinement
