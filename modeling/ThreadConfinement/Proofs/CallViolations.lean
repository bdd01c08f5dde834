import ThreadConfinement.Proofs.Dispatch
import ThreadConfinement.Proofs.Families
import ThreadConfinement.Proofs.Resemblance
import Mathlib.Data.List.Basic

/-!
Which calls are reported, and as whose.

A caller without a tag may call with the tag of what it overrides.
`Context.Inherits` says which tag that is, by all override edges in their order.
A run reports exactly the calls that their callers may not make with the tags
they call with, in the order of the edges: `Checker.check_callSiteViolations`.
-/

namespace ThreadConfinement

/-- A call with both of its ends. -/
structure Call where
  caller : Declaration
  callee : Declaration
  sameInstance : Bool

def Call.edge (call : Call) : CallEdge :=
  ⟨call.caller.id, call.callee.id, call.sameInstance⟩

/-- Every call edge of an accepted unit has its two ends among the
declarations. -/
theorem SourceUnit.Accepted.exists_calls {u : SourceUnit}
    (haccepted : u.Accepted) :
    ∃ calls : List Call, calls.map Call.edge = u.calls ∧
      ∀ call ∈ calls, call.caller ∈ u.model.declarations ∧
      call.callee ∈ u.model.declarations := by
  apply exists_map_eq
  intro e he
  obtain ⟨⟨caller, hcaller, -⟩, ⟨callee, hcallee, -⟩⟩ :=
    haccepted.exists_callEnds he
  obtain ⟨hcaller, hcallerId⟩ := haccepted.model.find?_eq_some_iff.mp hcaller
  obtain ⟨hcallee, hcalleeId⟩ := haccepted.model.find?_eq_some_iff.mp hcallee
  exact ⟨⟨caller, callee, e.sameInstance⟩, ⟨hcaller, hcallee⟩, by
    rw [Call.edge, hcallerId, hcalleeId]⟩

namespace Context

/-- The child overrides a method with this tag, none of its edges before has a
parent with a tag, and all parents with tags mean the same thread. -/
structure Inherits (ctx : Context) (overrides : List OverrideEdge)
    (child : DeclId) (tag : LocatedTag) : Prop where
  first : ∃ before e after, overrides = before ++ e :: after ∧ e.child = child ∧
    ctx.effectiveTag? e.parent = some tag ∧
    ∀ other ∈ before, other.child = child →
      ctx.effectiveTag? other.parent = none
  agree : ∀ e ∈ overrides, e.child = child →
    ∀ other ∈ ctx.effectiveTag? e.parent, other.tag = tag.tag

/-- The tags of the parents of a child, in the order of its edges. -/
theorem map_snd_tagsOf_parentsOf (ctx : Context) (overrides : List OverrideEdge)
    (child : DeclId) :
    (ctx.tagsOf (parentsOf overrides child)).map Prod.snd =
      overrides.filterMap (fun e =>
        if e.child = child then ctx.effectiveTag? e.parent else none) := by
  rw [tagsOf, parentsOf, List.map_filterMap, List.filterMap_map,
    List.filterMap_filter]
  congr 1
  funext e
  simp [Option.map_map, Function.comp_def]

variable {ctx : Context} {overrides : List OverrideEdge}

/-- The tag that all parents agree on is the one that the child inherits. -/
theorem agreedTag?_parents_eq_some_iff {child : DeclId} {tag : LocatedTag} :
    agreedTag? ((ctx.tagsOf (parentsOf overrides child)).map Prod.snd) =
      some tag ↔
      ctx.Inherits overrides child tag := by
  rw [agreedTag?_eq_some_iff, map_snd_tagsOf_parentsOf, List.head?_filterMap,
    List.findSome?_eq_some_iff]
  constructor
  · rintro ⟨⟨before, e, after, hsplit, he, hbefore⟩, hagree⟩
    obtain ⟨hchild, htag⟩ := Option.ite_none_right_eq_some.mp he
    refine ⟨⟨before, e, after, hsplit, hchild, htag, ?_⟩, ?_⟩
    · intro other hother hsame
      simpa [hsame] using hbefore other hother
    · intro e he hsame other hother
      exact hagree other (List.mem_filterMap.mpr ⟨e, he,
        (if_pos hsame).trans hother⟩)
  · rintro ⟨⟨before, e, after, hsplit, hchild, htag, hbefore⟩, hagree⟩
    refine ⟨⟨before, e, after, hsplit, (if_pos hchild).trans htag, ?_⟩, ?_⟩
    · intro other hother
      by_cases hsame : other.child = child
      · exact (if_pos hsame).trans (hbefore other hother hsame)
      · exact if_neg hsame
    · intro other hother
      obtain ⟨e, he, hedge⟩ := List.mem_filterMap.mp hother
      obtain ⟨hsame, hother⟩ := Option.ite_none_right_eq_some.mp hedge
      exact hagree e he hsame other hother

/-- The tag with which a declaration calls: its own, or else the inherited one
where that counts. -/
theorem callingTag?_eq_some_iff {caller : DeclId} {tag : LocatedTag} :
    ctx.callingTag? overrides caller = some tag ↔
      ctx.effectiveTag? caller = some tag ∨
        ctx.effectiveTag? caller = none ∧
          ctx.settings.inheritFromOverridden = true ∧
          ctx.Inherits overrides caller tag := by
  rw [← agreedTag?_parents_eq_some_iff, callingTag?]
  cases ctx.effectiveTag? caller with
  | some own => simp
  | none => simp [parentsOf]

theorem callingTag?_of_tagged {caller : DeclId} {tag : LocatedTag}
    (htag : ctx.effectiveTag? caller = some tag) :
    ctx.callingTag? overrides caller = some tag :=
  callingTag?_eq_some_iff.mpr (Or.inl htag)

/-- The caller acts, and with the tag it calls with it may not call the
callee. -/
def Violates (ctx : Context) (overrides : List OverrideEdge)
    (call : Call) : Prop :=
  ctx.skipReason? call.caller = none ∧
    callAllowed ((ctx.callingTag? overrides call.caller.id).map (·.tag))
      ((ctx.effectiveTag? call.callee.id).map (·.tag)) call.sameInstance = false

instance (ctx : Context) (overrides : List OverrideEdge) (call : Call) :
    Decidable (ctx.Violates overrides call) :=
  inferInstanceAs (Decidable (_ ∧ _))

def violation (ctx : Context) (overrides : List OverrideEdge)
    (call : Call) : Finding :=
  .callSiteViolation call.caller.location call.callee.location
    (ctx.callingTag? overrides call.caller.id)
    (ctx.effectiveTag? call.callee.id) call.sameInstance

/-- What has no tag may always be called. -/
theorem not_violates_of_untagged {call : Call}
    (huntagged : ctx.effectiveTag? call.callee.id = none) :
    ¬ ctx.Violates overrides call := by
  rintro ⟨-, hforbidden⟩
  rw [← Bool.not_eq_true, callAllowed_iff, huntagged] at hforbidden
  exact hforbidden (Or.inl rfl)

/-- A declaration may always call itself: with a tag of its own it calls with
that tag, and without one it may be called with every tag. -/
theorem not_violates_of_recursive {call : Call}
    (hself : call.caller = call.callee) :
    ¬ ctx.Violates overrides call := by
  cases htag : ctx.effectiveTag? call.callee.id with
  | none => exact not_violates_of_untagged htag
  | some tag =>
      have hcalling : ctx.callingTag? overrides call.caller.id = some tag :=
        callingTag?_of_tagged (by rw [hself, htag])
      rintro ⟨-, hforbidden⟩
      rw [← Bool.not_eq_true, callAllowed_iff, hcalling, htag] at hforbidden
      exact hforbidden (Or.inr (Or.inr (Or.inl rfl)))

/-- What is reported about calls, given their ends. -/
theorem flatMap_callFinding? (haccepted : ctx.model.Accepted)
    {calls : List Call} (hcalls : ∀ call ∈ calls,
      call.caller ∈ ctx.model.declarations ∧
      call.callee ∈ ctx.model.declarations) :
    (calls.map Call.edge).flatMap
      (fun e => (ctx.callFinding? overrides e).toList) =
      (calls.filter (fun call => ctx.Violates overrides call)).map
        (ctx.violation overrides) := by
  rw [List.flatMap_map, ← flatMap_toList_ite]
  apply List.flatMap_congr
  intro call hcall
  have hcaller := haccepted.find?_id (hcalls call hcall).1
  have hcallee := haccepted.locationOf_id (hcalls call hcall).2
  simp only [callFinding?, Call.edge, hcaller, hcallee, Violates, violation]
  by_cases hskip : ctx.skipReason? call.caller = none
  · simp only [hskip, Option.isSome_none, Bool.false_eq_true,
      ↓reduceIte, true_and, ← Bool.not_eq_true, ite_not]
  · simp [hskip, Option.isSome_iff_ne_none]

end Context

namespace Checker

theorem findingsOf_callSiteViolation (c : Checker) {u : SourceUnit}
    (haccepted : u.model.Accepted) (registry : Registry) {calls : List Call}
    (hedges : calls.map Call.edge = u.calls) (hends : ∀ call ∈ calls,
      call.caller ∈ u.model.declarations ∧ call.callee ∈ u.model.declarations) :
    (c.check u registry).1.findingsOf .callSiteViolation =
      (calls.filter (fun call => (c.context u).Violates u.overrides call)).map
        ((c.context u).violation u.overrides) := by
  rw [c.findingsOf_check haccepted registry (by decide) (by decide),
    filter_edgeFindings, edgeFindingsOf, ← hedges]
  exact Context.flatMap_callFinding? haccepted hends

/-- The findings on calls are those of the call edges whose callers act and may
not make the call, in the order of the edges.  A caller calls with its own tag,
or else, where that counts, with the one that it inherits; so nobody is reported
for calling itself or what has no tag. -/
theorem check_callSiteViolations (c : Checker) {u : SourceUnit}
    (haccepted : u.Accepted) (registry : Registry) :
    ∃ calls : List Call, calls.map Call.edge = u.calls ∧
      (∀ call ∈ calls, call.caller ∈ u.model.declarations ∧
        call.callee ∈ u.model.declarations) ∧
      (∀ caller tag, (c.context u).callingTag? u.overrides caller = some tag ↔
        (c.context u).effectiveTag? caller = some tag ∨
          (c.context u).effectiveTag? caller = none ∧
            c.settings.inheritFromOverridden = true ∧
            (c.context u).Inherits u.overrides caller tag) ∧
      (c.check u registry).1.findingsOf .callSiteViolation =
        (calls.filter (fun call => (c.context u).Violates u.overrides call)).map
          ((c.context u).violation u.overrides) ∧
      ∀ call ∈ calls,
        call.caller = call.callee ∨
          (c.context u).effectiveTag? call.callee.id = none →
          ¬ (c.context u).Violates u.overrides call := by
  obtain ⟨calls, hedges, hends⟩ := haccepted.exists_calls
  refine ⟨calls, hedges, hends,
    fun caller tag => Context.callingTag?_eq_some_iff,
    c.findingsOf_callSiteViolation haccepted.model registry hedges hends, ?_⟩
  rintro call - (hself | huntagged)
  · exact Context.not_violates_of_recursive hself
  · exact Context.not_violates_of_untagged huntagged

/-- A menu whose methods say nothing of threads.  What it draws with overrides a
method without a tag and then, twice, one of the event thread; what it runs with
overrides methods of two threads; what it hides with is suppressed. -/
def menuFacts : UnitFacts where
  name := "menu"
  declarations :=
    [{ id := ⟨1⟩, kind := .module, location := "app", qualifiedName := "app" },
      { id := ⟨2⟩, kind := .type, enclosing := some ⟨1⟩, location := "app.View",
        qualifiedName := "app.View" },
      { id := ⟨3⟩, kind := .method, enclosing := some ⟨2⟩,
        location := "app.View.draw", qualifiedName := "app.View.draw",
        markers := [{ tag := .uiEventThread }] },
      { id := ⟨4⟩, kind := .method, enclosing := some ⟨2⟩,
        location := "app.View.paint", qualifiedName := "app.View.paint",
        markers := [{ tag := .uiEventThread }] },
      { id := ⟨5⟩, kind := .type, enclosing := some ⟨1⟩, location := "app.Task",
        qualifiedName := "app.Task" },
      { id := ⟨6⟩, kind := .method, enclosing := some ⟨5⟩,
        location := "app.Task.run", qualifiedName := "app.Task.run",
        markers := [{ tag := .worker }] },
      { id := ⟨7⟩, kind := .method, enclosing := some ⟨5⟩,
        location := "app.Task.log", qualifiedName := "app.Task.log" },
      { id := ⟨8⟩, kind := .type, enclosing := some ⟨1⟩, location := "app.Menu",
        qualifiedName := "app.Menu" },
      { id := ⟨9⟩, kind := .method, enclosing := some ⟨8⟩,
        location := "app.Menu.draw", qualifiedName := "app.Menu.draw" },
      { id := ⟨10⟩, kind := .method, enclosing := some ⟨8⟩,
        location := "app.Menu.run", qualifiedName := "app.Menu.run" },
      { id := ⟨11⟩, kind := .method, enclosing := some ⟨8⟩,
        location := "app.Menu.hide", qualifiedName := "app.Menu.hide",
        suppressions := ["threadchecker"] }]
  overrides :=
    [⟨⟨9⟩, ⟨7⟩⟩, ⟨⟨9⟩, ⟨3⟩⟩, ⟨⟨10⟩, ⟨3⟩⟩, ⟨⟨10⟩, ⟨6⟩⟩, ⟨⟨9⟩, ⟨3⟩⟩, ⟨⟨11⟩, ⟨3⟩⟩]
  calls :=
    [⟨⟨9⟩, ⟨4⟩, true⟩, ⟨⟨9⟩, ⟨6⟩, false⟩, ⟨⟨10⟩, ⟨10⟩, true⟩,
      ⟨⟨10⟩, ⟨4⟩, false⟩, ⟨⟨9⟩, ⟨7⟩, false⟩, ⟨⟨11⟩, ⟨6⟩, false⟩,
      ⟨⟨9⟩, ⟨4⟩, false⟩]

theorem build_menuFacts :
    SourceUnit.build menuFacts = .ok (.ofFacts menuFacts) :=
  SourceUnit.build_ofFacts (by decide +kernel)

theorem menu_check_callSiteViolations :
    ∃ u, SourceUnit.build menuFacts = .ok u ∧
      let c :=
  Checker.ofSettings { check := { inheritFromOverridden? := some true } }
      ∃ calls : List Call, calls.map Call.edge = u.calls ∧
        (calls.filter (fun call => (c.context u).Violates u.overrides call)).map
            ((c.context u).violation u.overrides) =
          (c.check u .empty).1.findingsOf .callSiteViolation ∧
        (c.check u .empty).1.findingsOf .callSiteViolation =
          [.callSiteViolation "app.Menu.draw" "app.Task.run"
              (some { tag := .uiEventThread, location := "app.View.draw" })
              (some { tag := .worker, location := "app.Task.run" }) false,
            .callSiteViolation "app.Menu.run" "app.View.paint" none
              (some { tag := .uiEventThread, location := "app.View.paint" })
              false] := by
  refine ⟨_, build_menuFacts, ?_⟩
  intro c
  obtain ⟨calls, hedges, -, -, hfindings, -⟩ :=
    c.check_callSiteViolations ⟨menuFacts, build_menuFacts⟩ .empty
  exact ⟨calls, hedges, hfindings.symm, by decide +kernel⟩

end Checker

end ThreadConfinement
