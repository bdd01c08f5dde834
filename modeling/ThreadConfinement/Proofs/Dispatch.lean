import ThreadConfinement.Proofs.TagFindings

/-!
What a clean report promises about whole executions.

Only single edges are checked, each call edge by the rule for calls and each
override edge by the rule for overrides.  An execution goes through many of
them: a call to a method may run any method that overrides it at some depth, and
that one calls on.  The rules compose along such chains, except that code for
every thread may call code for every thread but the handler of virtual machine
events.
-/

namespace ThreadConfinement

namespace Tag

/-- A child may override its parent when it is safe everywhere, when both have
the same tag, or when it belongs to the loader and its parent to the event
thread. -/
theorem mayOverride_iff {child : Tag} {parent : Option Tag} :
    child.mayOverride parent = true ↔
      child = any ∨ parent = some child ∨
        child = uiLoaderOrEventThread ∧ parent = some uiEventThread := by
  cases parent with
  | none => cases child <;> simp [mayOverride]
  | some parent => cases child <;> cases parent <;> simp [mayOverride]

end Tag

/-- What may be called: what has no tag, what is safe everywhere, what has the
caller's own tag, from the event thread what belongs to the loader, and from
every tag but one what only leaves out that one. -/
theorem callAllowed_iff {caller callee : Option Tag} {sameInstance : Bool} :
    callAllowed caller callee sameInstance = true ↔
      callee = none ∨ callee = some .any ∨ caller = callee ∨
        caller = some .uiEventThread ∧ callee = some .uiLoaderOrEventThread ∨
        callee = some .notVmEventHandler ∧ caller ≠ none ∧
          caller ≠ some .vmEventHandler := by
  cases caller with
  | none =>
      cases callee with
      | none => simp [callAllowed]
      | some callee => cases callee <;> simp [callAllowed]
  | some caller =>
      cases callee with
      | none => simp [callAllowed, Tag.mayCall]
      | some callee =>
        cases caller <;> cases callee <;> simp [callAllowed, Tag.mayCall]

section Rules

variable {a b c : Option Tag} {sameInstance : Bool}

/-- Only the event thread itself may call into the event thread. -/
theorem eq_of_callAllowed_uiEventThread
    (hcall : callAllowed a (some .uiEventThread) sameInstance) :
    a = some .uiEventThread := by
  simpa using callAllowed_iff.mp hcall

/-- Who may call a method may also run what overrides it: a child has no tag, or
one that fits. -/
theorem callAllowed_of_mayOverride (hcall : callAllowed a b sameInstance)
    (hfits : ∀ tag, c = some tag → tag.mayOverride b = true) :
    callAllowed a c sameInstance := by
  cases c with
  | none => exact callAllowed_iff.mpr (Or.inl rfl)
  | some tag =>
      rcases Tag.mayOverride_iff.mp (hfits tag rfl) with rfl | rfl | ⟨rfl, rfl⟩
      · exact callAllowed_iff.mpr (Or.inr (Or.inl rfl))
      · exact hcall
      · have hcaller := eq_of_callAllowed_uiEventThread hcall
        exact callAllowed_iff.mpr
          (Or.inr (Or.inr (Or.inr (Or.inl ⟨hcaller, rfl⟩))))

/-- Two calls in a row are as good as one, with one exception. -/
theorem callAllowed_trans (hfirst : callAllowed a b sameInstance)
    (hsecond : callAllowed b c sameInstance) :
    callAllowed a c sameInstance ∨ c = some .notVmEventHandler ∧
      b = some .any := by
  rcases callAllowed_iff.mp hsecond with rfl | rfl | rfl | ⟨rfl, rfl⟩ |
    ⟨rfl, hsome, hhandler⟩
  · exact Or.inl (callAllowed_iff.mpr (Or.inl rfl))
  · exact Or.inl (callAllowed_iff.mpr (Or.inr (Or.inl rfl)))
  · exact Or.inl hfirst
  · have hcaller := eq_of_callAllowed_uiEventThread hfirst
    exact Or.inl
      (callAllowed_iff.mpr (Or.inr (Or.inr (Or.inr (Or.inl ⟨hcaller, rfl⟩)))))
  · have hopen : a ≠ none → a ≠ some .vmEventHandler →
        callAllowed a (some .notVmEventHandler) sameInstance := by
      intro hne hnot
      exact callAllowed_iff.mpr
        (Or.inr (Or.inr (Or.inr (Or.inr ⟨rfl, hne, hnot⟩))))
    rcases callAllowed_iff.mp hfirst with rfl | rfl | rfl | ⟨rfl, rfl⟩ |
      ⟨rfl, hne, hnot⟩
    · exact absurd rfl hsome
    · exact Or.inr ⟨rfl, rfl⟩
    · exact Or.inl (hopen hsome hhandler)
    · exact Or.inl (hopen (by simp) (by simp))
    · exact Or.inl (hopen hne hnot)

end Rules

namespace SourceUnit

/-- A call to `method` may run `target`: the method itself, or what overrides it
at some depth. -/
inductive DispatchesTo (u : SourceUnit) (method : DeclId) : DeclId → Prop
  | self : DispatchesTo u method method
  | down {e : OverrideEdge} (hparent : DispatchesTo u method e.parent)
      (he : e ∈ u.overrides) :
      DispatchesTo u method e.child

/-- The code of `source` may go on in `target` by one call. -/
def Invokes (u : SourceUnit) (source target : DeclId) : Prop :=
  ∃ e ∈ u.calls, e.caller = source ∧ u.DispatchesTo e.callee target

/-- A chain of calls from `first` to `last`; the list holds what runs strictly
between them. -/
inductive Execution (u : SourceUnit) : DeclId → List DeclId → DeclId → Prop
  | call {first last : DeclId} (hcall : u.Invokes first last) :
      Execution u first [] last
  | next {first second last : DeclId} {between : List DeclId}
      (hcall : u.Invokes first second)
      (hrest : Execution u second between last) :
      Execution u first (second :: between) last

end SourceUnit

/-- The thread that a declaration is confined to. -/
def Context.threadOf? (ctx : Context) (id : DeclId) : Option Tag :=
  (ctx.effectiveTag? id).map (·.tag)

namespace Context

variable {ctx : Context} {u : SourceUnit} {sameInstance : Bool}

/-- Going down along overrides that fit, the caller stays within its rights. -/
theorem callAllowed_of_dispatchesTo
    (hoverrides : ∀ e ∈ u.overrides, ∀ tag, ctx.threadOf? e.child = some tag →
      tag.mayOverride (ctx.threadOf? e.parent) = true)
    {caller : Option Tag} {method target : DeclId}
    (hcall : callAllowed caller (ctx.threadOf? method) sameInstance)
    (hdown : u.DispatchesTo method target) :
    callAllowed caller (ctx.threadOf? target) sameInstance := by
  induction hdown with
  | self => exact hcall
  | down _ he ih => exact callAllowed_of_mayOverride ih (hoverrides _ he)

/-- When every edge obeys its rule, so does every execution, but for the one gap
between the rules. -/
theorem callAllowed_of_edges
    (hoverrides : ∀ e ∈ u.overrides, ∀ tag, ctx.threadOf? e.child = some tag →
      tag.mayOverride (ctx.threadOf? e.parent) = true)
    (hcalls : ∀ e ∈ u.calls,
      callAllowed (ctx.threadOf? e.caller)
      (ctx.threadOf? e.callee) sameInstance)
    {first last : DeclId} {between : List DeclId}
    (hrun : u.Execution first between last) :
    callAllowed (ctx.threadOf? first) (ctx.threadOf? last) sameInstance ∨
      ctx.threadOf? last = some .notVmEventHandler ∧
        ∃ e ∈ between, ctx.threadOf? e = some .any := by
  have hinvokes : ∀ source target, u.Invokes source target →
      callAllowed (ctx.threadOf? source) (ctx.threadOf? target)
        sameInstance := by
    rintro source target ⟨e, he, rfl, hdown⟩
    exact callAllowed_of_dispatchesTo hoverrides (hcalls e he) hdown
  -- The induction peels off the first call; the gap, once found, lies inside
  -- every longer chain.
  induction hrun with
  | call hcall => exact Or.inl (hinvokes _ _ hcall)
  | next hcall _ ih =>
      rcases ih with hrest | ⟨hlast, e, he, hany⟩
      · rcases callAllowed_trans (hinvokes _ _ hcall) hrest with hdirect |
          ⟨hlast, hany⟩
        · exact Or.inl hdirect
        · exact Or.inr ⟨hlast, _, List.mem_cons_self, hany⟩
      · exact Or.inr ⟨hlast, e, List.mem_cons_of_mem _ he, hany⟩

theorem callingTag?_eq_effectiveTag? (ctx : Context)
    (hinherit : ctx.settings.inheritFromOverridden = false)
    (overrides : List OverrideEdge) (caller : DeclId) :
    ctx.callingTag? overrides caller = ctx.effectiveTag? caller := by
  rw [callingTag?]
  cases htag : ctx.effectiveTag? caller with
  | some tag => rfl
  | none => simp [hinherit]

end Context

namespace Checker

variable {c : Checker} {u : SourceUnit} {registry : Registry}

/-- What an edge calls for stands in the report. -/
theorem mem_findings_of_mem_edgeFindings (haccepted : u.Accepted) {f : Finding}
    (hf : f ∈ c.edgeFindings u) : f ∈ (c.check u registry).1.findings := by
  have hmem : f ∈ (c.run u registry).tagFindings := by
    rw [c.tagFindings_run haccepted.model registry]
    exact List.mem_append_right _ hf
  exact (List.mem_filter.mp hmem).1

/-- Where no finding of a rule is reported, no edge calls for one. -/
theorem eq_none_of_clean (haccepted : u.Accepted) {rule : Rule}
    (hclean : ∀ f ∈ (c.check u registry).1.findings, f.rule ≠ rule)
    {found : Option Finding}
    (hfound : ∀ f, found = some f → f.rule = rule ∧ f ∈ c.edgeFindings u) :
    found = none := by
  cases hcase : found with
  | none => rfl
  | some f =>
      obtain ⟨hrule, hmem⟩ := hfound f hcase
      exact absurd hrule
        (hclean f (mem_findings_of_mem_edgeFindings haccepted hmem))

/-- Without a finding on overrides, every tagged child fits its parent. -/
theorem mayOverride_of_clean (haccepted : u.Accepted)
    (hexempt : c.settings.exemptParentTypes = [])
    (hclean : ∀ f ∈ (c.check u registry).1.findings, f.rule ≠ .overrideConflict)
    (hscope : ∀ d ∈ u.model.declarations, d.kind.isCallable = true →
      u.model.skipReason? c.settings d = none)
    (hheeds : ∀ d ∈ u.model.declarations,
      ∀ tag ∈ (c.context u).effectiveTag? d.id, tag.ignoreParent = false)
    {e : OverrideEdge} (he : e ∈ u.overrides) {tag : Tag}
    (htag : (c.context u).threadOf? e.child = some tag) :
    tag.mayOverride ((c.context u).threadOf? e.parent) = true := by
  obtain ⟨child, hfind, hcallable⟩ := haccepted.exists_child he
  obtain ⟨hchild, hid⟩ := haccepted.model.find?_eq_some_iff.mp hfind
  obtain ⟨located, hlocated, rfl⟩ := Option.map_eq_some_iff.mp htag
  have hlocated' : (c.context u).effectiveTag? child.id = some located :=
    hid ▸ hlocated
  have hskip : (c.context u).skipReason? child = none :=
    hscope child hchild hcallable
  have hpatterns : c.settings.exemptPatterns = [] := by
    simp [CheckSettings.exemptPatterns, hexempt]
  have hnone :
      (c.context u).edgeFinding? c.settings.exemptPatterns e = none := by
    apply eq_none_of_clean haccepted hclean
    intro f hfinding
    refine ⟨Context.rule_of_edgeFinding? hfinding, ?_⟩
    refine List.mem_append_left _ (List.mem_append_left _ ?_)
    refine List.mem_append_left _ (List.mem_append_left _ ?_)
    exact List.mem_flatMap.mpr ⟨e, he, Option.mem_toList.mpr hfinding⟩
  have hfits : overrideConflicts false (some located)
      ((c.context u).effectiveTag? e.parent) =
      false := by
    have hfind' : (c.context u).model.find? e.child = some child := hfind
    simpa [Context.edgeFinding?, hfind', hskip, hpatterns,
      Context.overrideFinding?, Model.isExempt, hlocated'] using hnone
  simpa [overrideConflicts, hheeds child hchild located hlocated',
    Context.threadOf?] using hfits

/-- Without a finding on calls, every call is allowed. -/
theorem callAllowed_of_clean (haccepted : u.Accepted)
    (hinherit : c.settings.inheritFromOverridden = false)
    (hclean : ∀ f ∈ (c.check u registry).1.findings,
      f.rule ≠ .callSiteViolation)
    (hscope : ∀ d ∈ u.model.declarations, d.kind.isCallable = true →
      u.model.skipReason? c.settings d = none)
    {e : CallEdge} (he : e ∈ u.calls) :
    callAllowed ((c.context u).threadOf? e.caller)
      ((c.context u).threadOf? e.callee) e.sameInstance = true := by
  obtain ⟨caller, hfind, hcallable⟩ := haccepted.exists_caller he
  obtain ⟨hcaller, -⟩ := haccepted.model.find?_eq_some_iff.mp hfind
  have hskip : (c.context u).skipReason? caller = none :=
    hscope caller hcaller hcallable
  have hnone : (c.context u).callFinding? u.overrides e = none := by
    apply eq_none_of_clean haccepted hclean
    intro f hfinding
    refine ⟨Context.rule_of_callFinding? hfinding, ?_⟩
    refine List.mem_append_left _ (List.mem_append_right _ ?_)
    exact List.mem_flatMap.mpr ⟨e, he, Option.mem_toList.mpr hfinding⟩
  have hcalling :=
    (c.context u).callingTag?_eq_effectiveTag? hinherit u.overrides e.caller
  have hfind' : (c.context u).model.find? e.caller = some caller := hfind
  simpa [Context.callFinding?, hfind', hskip, hcalling, Context.threadOf?]
    using hnone

/-- A clean report is sound under dynamic dispatch: along every chain of calls,
the first declaration may call the last one, unless the last one only leaves out
the handler of virtual machine events and something in between is safe on every
thread. -/
theorem callAllowed_of_execution (s : Settings) {u : SourceUnit}
    (haccepted : u.Accepted) (registry : Registry)
    (hinherit : s.check.inheritFromOverridden = false)
    (hexempt : s.check.exemptParentTypes = [])
    (hclean : ∀ f ∈ ((ofSettings s).check u registry).1.findings,
      f.rule ≠ .callSiteViolation ∧ f.rule ≠ .overrideConflict)
    (hscope : ∀ d ∈ u.model.declarations, d.kind.isCallable = true →
      u.model.skipReason? s.check d = none)
    (hheeds : ∀ d ∈ u.model.declarations,
      ∀ tag ∈ ((ofSettings s).context u).effectiveTag? d.id,
      tag.ignoreParent = false)
    {first last : DeclId} {between : List DeclId}
    (hrun : u.Execution first between last) (sameInstance : Bool) :
    callAllowed (((ofSettings s).context u).threadOf? first)
        (((ofSettings s).context u).threadOf? last) sameInstance = true ∨
      ((ofSettings s).context u).threadOf? last = some .notVmEventHandler ∧
        ∃ e ∈ between, ((ofSettings s).context u).threadOf? e = some .any := by
  refine Context.callAllowed_of_edges ?_ ?_ hrun
  · intro e he tag htag
    exact mayOverride_of_clean haccepted hexempt (fun f hf => (hclean f hf).2)
      hscope hheeds he htag
  · intro e he
    have hallowed :=
      callAllowed_of_clean haccepted hinherit
        (fun f hf => (hclean f hf).1) hscope he
    exact callAllowed_iff.mpr (callAllowed_iff.mp hallowed)

/-- A view with a panel below it: showing the view paints it, which may run the
panel's own painting. -/
def panelFacts : UnitFacts where
  name := "panel"
  declarations :=
    [{ id := ⟨1⟩, kind := .module, location := "app", qualifiedName := "app" },
      { id := ⟨2⟩, kind := .type, enclosing := some ⟨1⟩, location := "app.View",
        qualifiedName := "app.View" },
      { id := ⟨3⟩, kind := .method, enclosing := some ⟨2⟩,
        location := "app.View.show", qualifiedName := "app.View.show",
        markers := [{ tag := .uiEventThread }] },
      { id := ⟨4⟩, kind := .method, enclosing := some ⟨2⟩,
        location := "app.View.paint", qualifiedName := "app.View.paint",
        markers := [{ tag := .uiEventThread }] },
      { id := ⟨5⟩, kind := .type, enclosing := some ⟨1⟩,
        location := "app.Panel", qualifiedName := "app.Panel",
        supertypes := [⟨2⟩] },
      { id := ⟨6⟩, kind := .method, enclosing := some ⟨5⟩,
        location := "app.Panel.paint", qualifiedName := "app.Panel.paint",
        markers := [{ tag := .uiLoaderOrEventThread }] },
      { id := ⟨7⟩, kind := .method, enclosing := some ⟨5⟩,
        location := "app.Panel.log", qualifiedName := "app.Panel.log",
        markers := [{ tag := .notVmEventHandler }] }]
  overrides := [⟨⟨6⟩, ⟨4⟩⟩]
  calls := [⟨⟨3⟩, ⟨4⟩, true⟩, ⟨⟨6⟩, ⟨7⟩, false⟩]

def panel : SourceUnit :=
  ⟨panelFacts.name, .ofDeclarations panelFacts.declarations,
    panelFacts.overrides, panelFacts.calls, []⟩

theorem panel_accepted : panel.Accepted := by
  have hfault : Model.fault? panelFacts.declarations = none := by decide +kernel
  have hedges : SourceUnit.edgeFault? panel.model panelFacts = none := by
    decide +kernel
  exact ⟨panelFacts, SourceUnit.build_eq_ok_iff.mpr
    ⟨panel.model, Model.build_eq_ok_iff.mpr ⟨hfault, rfl⟩, hedges, rfl⟩⟩

theorem panel_execution : panel.Execution ⟨3⟩ [⟨6⟩] ⟨7⟩ := by
  have hpaint : panel.DispatchesTo ⟨4⟩ ⟨6⟩ :=
    .down (e := ⟨⟨6⟩, ⟨4⟩⟩) .self (by simp [panel, panelFacts])
  refine .next ⟨⟨⟨3⟩, ⟨4⟩, true⟩, ?_, rfl, hpaint⟩ (.call ⟨⟨⟨6⟩, ⟨7⟩, false⟩,
    ?_, rfl, .self⟩)
  · simp [panel, panelFacts]
  · simp [panel, panelFacts]

theorem panel_show_may_log :
    panel.Execution ⟨3⟩ [⟨6⟩] ⟨7⟩ ∧
      (callAllowed (((ofSettings {}).context panel).threadOf? ⟨3⟩)
          (((ofSettings {}).context panel).threadOf? ⟨7⟩) true = true ∨
        ((ofSettings {}).context panel).threadOf? ⟨7⟩ =
          some .notVmEventHandler ∧
          ∃ e ∈ [(⟨6⟩ : DeclId)],
            ((ofSettings {}).context panel).threadOf? e = some .any) :=
  ⟨panel_execution,
    callAllowed_of_execution {} panel_accepted .empty (by decide) (by decide)
      (by decide +kernel) (by decide +kernel) (by decide +kernel)
      panel_execution true⟩

end Checker

end ThreadConfinement
