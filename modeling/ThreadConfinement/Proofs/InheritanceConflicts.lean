import ThreadConfinement.Proofs.HostOrder
import ThreadConfinement.Proofs.Propagation
import Mathlib.Data.List.Induction
import Mathlib.Data.List.Sort

/-!
Methods whose parents disagree about their thread.

A child without a tag is torn when two of its parents, by edges and outside
exempt types, have tags for different threads.  A run reports exactly the
children that are torn, in ascending order, each with all of its parents that
have tags: `Checker.check_inheritanceConflicts`.
-/

namespace ThreadConfinement

/-- A list without its repetitions stands in the order of first places. -/
theorem pairwise_idxOf_eraseDups {α : Type} [DecidableEq α] (l : List α) :
    l.eraseDups.Pairwise
      (fun first second => l.idxOf first < l.idxOf second) := by
  induction l using List.reverseRecOn with
  | nil => exact List.Pairwise.nil
  | append_singleton known a ih =>
      -- what is known keeps its place when one more comes
      have hkept : known.eraseDups.Pairwise (fun first second =>
          (known ++ [a]).idxOf first < (known ++ [a]).idxOf second) := by
        refine ih.imp_of_mem ?_
        intro first second hfirst hsecond hlt
        rwa [List.idxOf_append_of_mem (List.mem_eraseDups.mp hfirst),
          List.idxOf_append_of_mem (List.mem_eraseDups.mp hsecond)]
      rw [eraseDups_append_singleton]
      split
      · exact hkept
      · next hnew =>
          rw [List.pairwise_append]
          refine ⟨hkept, List.pairwise_singleton _ _, ?_⟩
          intro first hfirst second hsecond
          have hknown := List.mem_eraseDups.mp hfirst
          rw [List.mem_singleton.mp hsecond, List.idxOf_append_of_mem hknown,
            List.idxOf_append_of_notMem
              (fun hmem => hnew (List.mem_eraseDups.mpr hmem))]
          exact Nat.lt_add_right _ (List.idxOf_lt_length_of_mem hknown)

/-- Edges that repeat others add no parent. -/
theorem eraseDups_parentsOf (overrides : List OverrideEdge) (child : DeclId) :
    (parentsOf overrides child).eraseDups =
      parentsOf overrides.eraseDups child := by
  induction overrides using List.reverseRecOn with
  | nil => rfl
  | append_singleton known e ih =>
      rw [parentsOf_append, parentsOf_singleton, eraseDups_append_singleton]
      by_cases hchild : e.child = child
      · subst hchild
        have hknown : e.parent ∈ parentsOf known.eraseDups e.child ↔
            e ∈ known.eraseDups :=
          mem_parentsOf
        rw [if_pos rfl, eraseDups_append_singleton, ih]
        simp only [hknown]
        split
        · rfl
        · rw [parentsOf_append, parentsOf_singleton, if_pos rfl]
      · rw [if_neg hchild, List.append_nil, ih]
        split
        · rfl
        · rw [parentsOf_append, parentsOf_singleton, if_neg hchild,
            List.append_nil]

namespace Context

/-- The parents of a child that have tags and stand in no exempt type, each
once. -/
def taggedParents (ctx : Context) (overrides : List OverrideEdge)
    (child : DeclId) : List (DeclId × LocatedTag) :=
  ctx.tagsOf ((parentsOf overrides.eraseDups child).filter
    (fun id => !ctx.model.isExempt ctx.settings.exemptPatterns id))

/-- The child acts and has no tag, and two of its parents have tags for
different threads. -/
def Torn (ctx : Context) (overrides : List OverrideEdge)
    (child : Declaration) : Prop :=
  ctx.skipReason? child = none ∧ ctx.effectiveTag? child.id = none ∧
    ∃ first ∈ ctx.taggedParents overrides child.id,
      ∃ second ∈ ctx.taggedParents overrides child.id,
        first.2.tag ≠ second.2.tag

instance (ctx : Context) (overrides : List OverrideEdge) (child : Declaration) :
    Decidable (ctx.Torn overrides child) :=
  inferInstanceAs (Decidable (_ ∧ _ ∧ ∃ first ∈ _, ∃ second ∈ _, _))

def disagreement (ctx : Context) (overrides : List OverrideEdge)
    (child : Declaration) : Finding :=
  .inheritanceConflict child.location none
    ((ctx.taggedParents overrides child.id).map
      (fun pair => ⟨ctx.model.locationOf pair.1, pair.2⟩))

variable {ctx : Context} {overrides : List OverrideEdge}

theorem mem_taggedParents {child parent : DeclId} {tag : LocatedTag} :
    (parent, tag) ∈ ctx.taggedParents overrides child ↔
      ⟨child, parent⟩ ∈ overrides ∧
        (∀ type ∈ ctx.model.enclosingType? parent,
          ∀ pattern ∈ ctx.settings.exemptPatterns,
            pattern.isMatch type.qualifiedName = false) ∧
        ctx.effectiveTag? parent = some tag := by
  have hmem : (parent, tag) ∈ ctx.taggedParents overrides child ↔
      (parent ∈ parentsOf overrides.eraseDups child ∧
        ctx.model.isExempt ctx.settings.exemptPatterns parent = false) ∧
        ctx.effectiveTag? parent = some tag := by
    simp [taggedParents, tagsOf]
  rw [hmem, mem_parentsOf, List.mem_eraseDups, and_assoc]
  simp [Model.isExempt, Option.any_eq_false]

/-- The parents come in the order of their first edges. -/
theorem pairwise_taggedParents (ctx : Context) (overrides : List OverrideEdge)
    (child : DeclId) :
    (ctx.taggedParents overrides child).Pairwise (fun first second =>
      overrides.idxOf ⟨child, first.1⟩ < overrides.idxOf ⟨child,
          second.1⟩) := by
  have hparents :
      (parentsOf overrides.eraseDups child).Pairwise (fun first second =>
      overrides.idxOf ⟨child, first⟩ < overrides.idxOf ⟨child, second⟩) := by
    rw [parentsOf, List.pairwise_map]
    have hedge : ∀ e ∈ overrides.eraseDups.filter (fun e => e.child == child),
        OverrideEdge.mk child e.parent = e := by
      intro e he
      rw [← beq_iff_eq.mp (List.mem_filter.mp he).2]
    apply ((pairwise_idxOf_eraseDups overrides).filter _).imp_of_mem
    intro first second hfirst hsecond hlt
    rw [hedge first hfirst, hedge second hsecond]
    exact hlt
  rw [taggedParents, tagsOf, List.pairwise_filterMap]
  apply (hparents.filter _).imp
  intro first second hlt pair hpair other hother
  obtain ⟨_, -, rfl⟩ := Option.map_eq_some_iff.mp hpair
  obtain ⟨_, -, rfl⟩ := Option.map_eq_some_iff.mp hother
  exact hlt

/-- Only edges to parents with tags count, and each of them once. -/
theorem taggedParents_eq (ctx : Context) (overrides : List OverrideEdge)
    (child : DeclId) :
    ctx.taggedParents overrides child =
      ctx.tagsOf ((parentsOf
        (overrides.eraseDups.filter
          (fun e => (ctx.effectiveTag? e.parent).isSome)) child).filter
          (fun id => !ctx.model.isExempt ctx.settings.exemptPatterns id)) := by
  simp only [taggedParents, tagsOf, parentsOf, List.filterMap_filter,
    List.filterMap_map]
  congr 1
  funext e
  cases htag : ctx.effectiveTag? e.parent <;> simp [htag]

/-- A child that is torn has two parents at least. -/
theorem Torn.two_le_length {child : Declaration}
    (htorn : ctx.Torn overrides child) :
    2 ≤ (parentsOf overrides.eraseDups child.id).length := by
  obtain ⟨-, -, ⟨parent, tag⟩, hfirst, ⟨parent', tag'⟩, hsecond,
    hdiffer⟩ := htorn
  obtain ⟨hedge, -, htag⟩ := mem_taggedParents.mp hfirst
  obtain ⟨hedge', -, htag'⟩ := mem_taggedParents.mp hsecond
  have hne : parent ≠ parent' := by
    rintro rfl
    cases htag.symm.trans htag'
    exact hdiffer rfl
  have hparents :
      [parent, parent'] ⊆ parentsOf overrides.eraseDups child.id := by
    simp [mem_parentsOf, hedge, hedge']
  exact (List.subperm_of_subset (by simpa using hne) hparents).length_le

/-- What is reported about a child that acts. -/
theorem inheritanceFinding?_eq (haccepted : ctx.model.Accepted)
    {child : Declaration} (hchild : child ∈ ctx.model.declarations)
    (hacts : ctx.skipReason? child = none) :
    ctx.inheritanceFinding? ctx.settings.exemptPatterns
        (child.id, (parentsOf overrides child.id).eraseDups) =
      if ctx.Torn overrides child then some (ctx.disagreement overrides child)
      else none := by
  have hdiffer : tagsDiffer ((ctx.taggedParents overrides child.id).map
      (fun pair => ⟨ctx.model.locationOf pair.1, pair.2⟩)) = true ↔
      ∃ first ∈ ctx.taggedParents overrides child.id,
        ∃ second ∈ ctx.taggedParents overrides child.id,
          first.2.tag ≠ second.2.tag := by
    simp [tagsDiffer_eq_true_iff]
  simp only [inheritanceFinding?, eraseDups_parentsOf,
    haccepted.locationOf_id hchild]
  by_cases htorn : ctx.Torn overrides child
  · obtain ⟨-, huntagged, hparents⟩ := id htorn
    have hfew : ¬ (parentsOf overrides.eraseDups child.id).length < 2 :=
      Nat.not_lt.mpr htorn.two_le_length
    rw [if_pos htorn, if_neg (by simp [hfew, huntagged])]
    exact if_pos (hdiffer.mpr hparents)
  · rw [if_neg htorn]
    split
    · rfl
    · next hmany =>
        rw [Bool.or_eq_true, not_or] at hmany
        have huntagged := Option.not_isSome_iff_eq_none.mp hmany.2
        apply if_neg
        intro hparents
        exact htorn ⟨hacts, huntagged, hdiffer.mp hparents⟩

/-- What is reported about families: the children that are torn, in ascending
order. -/
theorem flatMap_inheritanceFinding? (haccepted : ctx.model.Accepted)
    (overrides : List OverrideEdge) :
    ∃ children : List Declaration,
      children.Pairwise (fun first second => first.id.toNat < second.id.toNat) ∧
      (∀ child, child ∈ children ↔
        child ∈ ctx.model.declarations ∧ ctx.Torn overrides child) ∧
      (ctx.parentsByChild overrides).toList.flatMap (fun family =>
          (ctx.inheritanceFinding? ctx.settings.exemptPatterns family).toList) =
        children.map (ctx.disagreement overrides) := by
  -- the families of the table, each by its child
  have hfamily : ∀ family ∈ (ctx.parentsByChild overrides).toList,
      ∃ child : Declaration,
        (child ∈ ctx.model.declarations ∧ ctx.skipReason? child = none) ∧
        (child.id, (parentsOf overrides child.id).eraseDups) = family := by
    intro family hmem
    obtain ⟨child, hchild, hacts, hsame⟩ :=
      ctx.exists_of_mem_parentsByChild haccepted hmem
    exact ⟨child, ⟨hchild, hacts⟩, hsame.symm⟩
  obtain ⟨children, hfamilies, hchildren⟩ := exists_map_eq hfamily
  refine ⟨children.filter (fun child => ctx.Torn overrides child), ?_, ?_, ?_⟩
  · have hkeys :=
      Std.ExtTreeMap.ordered_keys_toList (t := ctx.parentsByChild overrides)
    rw [← hfamilies, List.pairwise_map] at hkeys
    exact (hkeys.imp DeclId.compare_eq_lt_iff.mp).filter _
  · intro child
    rw [List.mem_filter, decide_eq_true_eq]
    constructor
    · rintro ⟨hmem, htorn⟩
      exact ⟨(hchildren child hmem).1, htorn⟩
    · rintro ⟨hchild, htorn⟩
      refine ⟨?_, htorn⟩
      have hparents : parentsOf overrides child.id ≠ [] := by
        intro hnone
        have hmany := htorn.two_le_length
        rw [← eraseDups_parentsOf, hnone] at hmany
        simp at hmany
      have hget : (ctx.parentsByChild overrides)[child.id]? =
          some (parentsOf overrides child.id).eraseDups := by
        rw [getElem?_parentsByChild, if_pos]
        exact ⟨checks_eq_true_iff.mpr ⟨child, haccepted.find?_id hchild,
          htorn.1⟩, hparents⟩
      have hmem := Std.ExtTreeMap.mem_toList_iff_getElem?_eq_some.mpr hget
      rw [← hfamilies] at hmem
      obtain ⟨other, hother, hsame⟩ := List.mem_map.mp hmem
      cases haccepted.eq_of_id_eq (hchildren other hother).1 hchild
        (congrArg Prod.fst hsame)
      exact hother
  · rw [← hfamilies, List.flatMap_map, ← flatMap_toList_ite]
    apply List.flatMap_congr
    intro child hchild
    rw [inheritanceFinding?_eq haccepted (hchildren child hchild).1
      (hchildren child hchild).2]

end Context

namespace Checker

theorem findingsOf_inheritanceConflict (c : Checker) {u : SourceUnit}
    (haccepted : u.model.Accepted) (registry : Registry) :
    ∃ children : List Declaration,
      children.Pairwise (fun first second => first.id.toNat < second.id.toNat) ∧
      (∀ child, child ∈ children ↔
        child ∈ u.model.declarations ∧ (c.context u).Torn u.overrides child) ∧
      (c.check u registry).1.findingsOf .inheritanceConflict =
        children.map ((c.context u).disagreement u.overrides) := by
  have hmodel : (c.context u).model.Accepted := haccepted
  rw [c.findingsOf_check haccepted registry (by decide) (by decide),
    filter_edgeFindings]
  exact Context.flatMap_inheritanceFinding? hmodel u.overrides

/-- Repeated edges, parents without tags, implied overrides and whatever else a
unit holds do not bear on the children that are torn. -/
theorem findingsOf_inheritanceConflict_congr {c : Checker} {u u' : SourceUnit}
    (haccepted : u.model.Accepted) (hmodel : u'.model = u.model)
    (hedges :
      u'.overrides.eraseDups.filter
    (fun e => ((c.context u).effectiveTag? e.parent).isSome) =
        u.overrides.eraseDups.filter
        (fun e => ((c.context u).effectiveTag? e.parent).isSome))
    (on : Bool) (registry registry' : Registry) :
    ((c.propagate on).check u' registry').1.findingsOf .inheritanceConflict =
      (c.check u registry).1.findingsOf .inheritanceConflict := by
  obtain ⟨children, hascend, hmem, hfindings⟩ :=
    c.findingsOf_inheritanceConflict haccepted registry
  obtain ⟨children', hascend', hmem', hfindings'⟩ :=
    (c.propagate on).findingsOf_inheritanceConflict
      (hmodel ▸ haccepted) registry'
  have hctx : (c.propagate on).context u' = (c.propagate on).context u := by
    rw [context, hmodel, context]
  have hparents : ((c.propagate on).context u).taggedParents u'.overrides =
      (c.context u).taggedParents u.overrides := by
    funext child
    have hcounted := (c.context u).taggedParents_eq u'.overrides child
    rw [hedges, ← Context.taggedParents_eq] at hcounted
    exact hcounted
  have htorn (child : Declaration) :
      ((c.propagate on).context u).Torn u'.overrides child ↔
        (c.context u).Torn u.overrides child := by
    rw [Context.Torn, hparents]
    rfl
  have hfinding : ((c.propagate on).context u).disagreement u'.overrides =
      (c.context u).disagreement u.overrides := by
    funext child
    rw [Context.disagreement, hparents]
    rfl
  have hsame : children' = children := by
    apply eq_of_ascending hascend' hascend
    intro child
    rw [hmem, hmem', hmodel, hctx, htorn]
  rw [hfindings, hfindings', hsame, hctx, hfinding]

/-- The children whose parents disagree are reported in ascending order, each
once and with all of its parents that have tags and are not exempt, in the order
of their first edges.  Edges that repeat others, edges to parents without tags
and implied overrides change nothing about it. -/
theorem check_inheritanceConflicts (c : Checker) {u : SourceUnit}
    (haccepted : u.Accepted) (registry : Registry) :
    ∃ (children : List Declaration)
      (tagged : DeclId → List (DeclId × LocatedTag)),
      children.Pairwise (fun first second => first.id.toNat < second.id.toNat) ∧
      (∀ child, child ∈ children ↔
        child ∈ u.model.declarations ∧ (c.context u).skipReason? child = none ∧
          (c.context u).effectiveTag? child.id = none ∧
          ∃ first ∈ tagged child.id, ∃ second ∈ tagged child.id,
            first.2.tag ≠ second.2.tag) ∧
      (∀ child parent tag, (parent, tag) ∈ tagged child ↔
        ⟨child, parent⟩ ∈ u.overrides ∧
          (∀ type ∈ u.model.enclosingType? parent,
            ∀ pattern ∈ c.settings.exemptPatterns,
              pattern.isMatch type.qualifiedName = false) ∧
          (c.context u).effectiveTag? parent = some tag) ∧
      (∀ child, (tagged child).Pairwise (fun first second =>
        u.overrides.idxOf ⟨child, first.1⟩ <
          u.overrides.idxOf ⟨child, second.1⟩)) ∧
      (c.check u registry).1.findingsOf .inheritanceConflict =
        children.map (fun child => .inheritanceConflict child.location none
          ((tagged child.id).map
            (fun pair => ⟨u.model.locationOf pair.1, pair.2⟩))) ∧
      ∀ (on : Bool) (u' : SourceUnit) (registry' : Registry),
        u'.model = u.model →
        u'.overrides.eraseDups.filter
          (fun e => ((c.context u).effectiveTag? e.parent).isSome) =
          u.overrides.eraseDups.filter
            (fun e => ((c.context u).effectiveTag? e.parent).isSome) →
        ((c.propagate on).check u' registry').1.findingsOf
          .inheritanceConflict =
          (c.check u registry).1.findingsOf .inheritanceConflict := by
  obtain ⟨children, hascend, hmem, hfindings⟩ :=
    c.findingsOf_inheritanceConflict haccepted.model registry
  refine ⟨children, (c.context u).taggedParents u.overrides, hascend, hmem,
    fun _ _ _ => Context.mem_taggedParents,
    (c.context u).pairwise_taggedParents u.overrides, hfindings, ?_⟩
  intro on u' registry' hmodel hedges
  exact findingsOf_inheritanceConflict_congr haccepted.model hmodel hedges on
    registry registry'

/-- A dial above a control, a task, a log without tags and an old port.  The
dial hands in its highest number first and states one edge twice; where it
resets, only the port disagrees. -/
def dialFacts : UnitFacts where
  name := "dial"
  declarations :=
    [{ id := ⟨1⟩, kind := .module, location := "app", qualifiedName := "app" },
      { id := ⟨2⟩, kind := .type, enclosing := some ⟨1⟩,
        location := "app.Control", qualifiedName := "app.Control" },
      { id := ⟨3⟩, kind := .method, enclosing := some ⟨2⟩,
        location := "app.Control.turn", qualifiedName := "app.Control.turn",
        markers := [{ tag := .uiEventThread }] },
      { id := ⟨4⟩, kind := .type, enclosing := some ⟨1⟩, location := "app.Task",
        qualifiedName := "app.Task" },
      { id := ⟨5⟩, kind := .method, enclosing := some ⟨4⟩,
        location := "app.Task.run", qualifiedName := "app.Task.run",
        markers := [{ tag := .worker }] },
      { id := ⟨6⟩, kind := .method, enclosing := some ⟨4⟩,
        location := "app.Task.log", qualifiedName := "app.Task.log" },
      { id := ⟨7⟩, kind := .type, enclosing := some ⟨1⟩, location := "old.Port",
        qualifiedName := "old.Port" },
      { id := ⟨8⟩, kind := .method, enclosing := some ⟨7⟩,
        location := "old.Port.open", qualifiedName := "old.Port.open",
        markers := [{ tag := .simulationThread }] },
      { id := ⟨9⟩, kind := .type, enclosing := some ⟨1⟩, location := "app.Dial",
        qualifiedName := "app.Dial" },
      { id := ⟨12⟩, kind := .method, enclosing := some ⟨9⟩,
        location := "app.Dial.spin", qualifiedName := "app.Dial.spin" },
      { id := ⟨11⟩, kind := .method, enclosing := some ⟨9⟩,
        location := "app.Dial.push", qualifiedName := "app.Dial.push" },
      { id := ⟨10⟩, kind := .method, enclosing := some ⟨9⟩,
        location := "app.Dial.reset", qualifiedName := "app.Dial.reset" }]
  overrides :=
    [⟨⟨12⟩, ⟨6⟩⟩, ⟨⟨12⟩, ⟨5⟩⟩, ⟨⟨11⟩, ⟨8⟩⟩, ⟨⟨12⟩, ⟨3⟩⟩, ⟨⟨12⟩, ⟨5⟩⟩,
      ⟨⟨11⟩, ⟨3⟩⟩, ⟨⟨10⟩, ⟨8⟩⟩, ⟨⟨11⟩, ⟨5⟩⟩, ⟨⟨10⟩, ⟨3⟩⟩]

theorem build_dialFacts :
    SourceUnit.build dialFacts = .ok (.ofFacts dialFacts) :=
  SourceUnit.build_ofFacts (by decide +kernel)

/-- Both findings on the dial, and the same ones without the log, the second
edge and all implied overrides. -/
theorem dial_check_inheritanceConflicts :
    ∃ u, SourceUnit.build dialFacts = .ok u ∧
      let c :=
  Checker.ofSettings { check := { exemptParentTypes := ["old.*"] } }
      let findings : List Finding :=
        [.inheritanceConflict "app.Dial.push" none
            [⟨"app.Control.turn",
              { tag := .uiEventThread, location := "app.Control.turn" }⟩,
              ⟨"app.Task.run", { tag := .worker, location := "app.Task.run" }⟩],
          .inheritanceConflict "app.Dial.spin" none
            [⟨"app.Task.run", { tag := .worker, location := "app.Task.run" }⟩,
              ⟨"app.Control.turn",
                { tag := .uiEventThread, location := "app.Control.turn" }⟩]]
      let u' : SourceUnit :=
        { u with overrides := [⟨⟨12⟩, ⟨5⟩⟩, ⟨⟨11⟩, ⟨8⟩⟩, ⟨⟨12⟩, ⟨3⟩⟩,
          ⟨⟨11⟩, ⟨3⟩⟩, ⟨⟨10⟩, ⟨8⟩⟩, ⟨⟨11⟩, ⟨5⟩⟩, ⟨⟨10⟩, ⟨3⟩⟩] }
      (c.check u .empty).1.findingsOf .inheritanceConflict = findings ∧
        ((c.propagate false).check u' .empty).1.findingsOf
          .inheritanceConflict = findings := by
  refine ⟨_, build_dialFacts, ?_⟩
  intro c findings u'
  obtain ⟨children, tagged, -, -, -, -, -, hsame⟩ :=
    c.check_inheritanceConflicts ⟨dialFacts, build_dialFacts⟩ .empty
  have hfindings :
      (c.check (.ofFacts dialFacts) .empty).1.findingsOf .inheritanceConflict =
        findings := by decide +kernel
  exact ⟨hfindings,
    (hsame false u' .empty rfl (by decide +kernel)).trans hfindings⟩

end Checker

end ThreadConfinement
