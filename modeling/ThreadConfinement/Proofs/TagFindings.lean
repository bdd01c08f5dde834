import ThreadConfinement.Proofs.FirstRound

/-!
The findings on tags, read off the edges of a unit.

A settled pass judges every edge by the tags that hold, so what it reports about
tags can be listed without running it: `Checker.tagFindings_run` gives the list,
and `Checker.findingsOf_check` the part of one rule.  Findings on missing locks
also depend on what was reported before, and are left out here.
-/

namespace ThreadConfinement

/-- The finding is about tags, and not about a missing lock. -/
def Finding.concernsTags (f : Finding) : Bool :=
  f.rule != .missingSynchronization

/-- The findings of a report under one rule, in their order. -/
def Report.findingsOf (r : Report) (rule : Rule) : List Finding :=
  r.findings.filter (fun f => f.rule == rule)

/-- Reports that are all under one rule are selected together. -/
theorem Finding.filter_rule_flatMap {α : Type} {own : Rule}
    {reports : α → List Finding} (hown : ∀ a, ∀ f ∈ reports a, f.rule = own)
    (rule : Rule) (l : List α) :
    (l.flatMap reports).filter (fun f => f.rule == rule) =
      if own = rule then l.flatMap reports else [] := by
  have hrule : ∀ f ∈ l.flatMap reports, f.rule = own := by
    intro f hf
    obtain ⟨a, -, ha⟩ := List.mem_flatMap.mp hf
    exact hown a f ha
  split
  case isTrue hsame =>
    exact List.filter_eq_self.mpr (by simpa [hsame] using hrule)
  case isFalse hother =>
    refine List.filter_eq_nil_iff.mpr (fun f hf => ?_)
    simp [hrule f hf, hother]

theorem Finding.filter_rule_flatMap_toList {α : Type} {own : Rule}
    {finding? : α → Option Finding}
    (hown : ∀ a f, finding? a = some f → f.rule = own) (rule : Rule)
    (l : List α) :
    (l.flatMap (fun a => (finding? a).toList)).filter
      (fun f => f.rule == rule) =
      if own = rule then l.flatMap (fun a => (finding? a).toList) else [] :=
  filter_rule_flatMap (fun a f hf => hown a f (Option.mem_toList.mp hf)) rule l

/-- Items that are reported when `p` holds of them. -/
theorem flatMap_toList_ite {α β : Type} (p : α → Prop) [DecidablePred p]
    (g : α → β) (l : List α) :
    l.flatMap (fun a => (if p a then some (g a) else none).toList) =
      (l.filter p).map g := by
  induction l with
  | nil => rfl
  | cons a rest ih =>
      rw [List.flatMap_cons, ih]
      by_cases hp : p a
      · simp [hp]
      · simp [hp]

namespace Context

def edgeFinding? (ctx : Context) (patterns : List Glob) (e : OverrideEdge) :
    Option Finding :=
  match ctx.model.find? e.child with
  | none => none
  | some child =>
    if (ctx.skipReason? child).isSome then none
    else ctx.overrideFinding? patterns false child e.parent

def impliedFindings (ctx : Context) (patterns : List Glob)
    (overrides : List OverrideEdge) (parent : Declaration) : List Finding :=
  if parent.kind ≠ .method || parent.signature.isNone then []
  else if (ctx.effectiveTag? parent.id).any (·.coversSubclasses) then
    (ctx.model.impliedChildren overrides parent).flatMap (fun child =>
      if (ctx.skipReason? child).isSome then []
      else (ctx.overrideFinding? patterns true child parent.id).toList)
  else []

/-- Everything that is reported about the tags of overrides. -/
def overrideFindings (ctx : Context) (overrides : List OverrideEdge) :
    List Finding :=
  let patterns := ctx.settings.exemptPatterns
  overrides.flatMap (fun e => (ctx.edgeFinding? patterns e).toList)
    ++ (if ctx.settings.subclassPropagation then
        ctx.model.declarations.flatMap (ctx.impliedFindings patterns overrides)
      else [])
    ++ (ctx.parentsByChild overrides).toList.flatMap (fun family =>
        (ctx.inheritanceFinding? patterns family).toList)

end Context

/-- The findings so far, those on missing locks left out. -/
def Pass.tagFindings (p : Pass) : List Finding :=
  p.journal.findings.filter Finding.concernsTags

namespace Act

def tagFinding? : Act → Option Finding
  | report _ finding => if finding.concernsTags then some finding else none
  | count _ | mark _ | demand .. => none

/-- Demands for locks lead to no finding on tags, so what was demanded before
does not matter. -/
theorem filter_concernsTags_heard (known : DeclId → Option String → Bool)
    (acts : List Act) :
    ((heard known acts).map Prod.snd).filter Finding.concernsTags =
      acts.filterMap tagFinding? := by
  induction acts generalizing known with
  | nil => rfl
  | cons act rest ih =>
      cases act with
      | count counter => exact ih known
      | report actor finding =>
          simp only [heard, List.map_cons, List.filter_cons,
            List.filterMap_cons, tagFinding?, ih]
          split <;> rfl
      | mark actor => exact ih known
      | demand actor location place requiredBy =>
          rw [heard]
          split
          · exact ih known
          · exact ih _

theorem filterMap_tagFinding?_map_report (actor : DeclId)
    {finding? : Option Finding} {rule : Rule}
    (hrule : ∀ f, finding? = some f → f.rule = rule)
    (hother : rule ≠ .missingSynchronization) :
    (finding?.toList.map (report actor)).filterMap tagFinding? =
      finding?.toList := by
  cases finding? with
  | none => rfl
  | some f => simp [tagFinding?, Finding.concernsTags, hrule f rfl, hother]

theorem filterMap_tagFinding?_demands (d : Declaration)
    (place : LocatedTag → Option String) (tag? : Option LocatedTag) :
    (d.demands place tag?).filterMap tagFinding? = [] := by
  unfold Declaration.demands
  split
  · rfl
  · cases tag? <;> rfl

end Act

namespace Context

variable (ctx : Context) (patterns : List Glob)

section Rules

variable {ctx patterns} {f : Finding}

theorem rule_of_overrideFinding? {implicit : Bool} {child : Declaration}
    {parent : DeclId}
    (hfinding : ctx.overrideFinding? patterns implicit child parent = some f) :
    f.rule = .overrideConflict := by
  simp only [overrideFinding?, Option.ite_none_right_eq_some] at hfinding
  cases hfinding.2
  rfl

theorem rule_of_edgeFinding? {e : OverrideEdge}
    (hfinding : ctx.edgeFinding? patterns e = some f) :
    f.rule = .overrideConflict := by
  rw [edgeFinding?] at hfinding
  split at hfinding
  · cases hfinding
  · split at hfinding
    · cases hfinding
    · exact rule_of_overrideFinding? hfinding

theorem rule_of_mem_impliedFindings {overrides : List OverrideEdge}
    {parent : Declaration}
    (hfinding : f ∈ ctx.impliedFindings patterns overrides parent) :
    f.rule = .overrideConflict := by
  rw [impliedFindings] at hfinding
  split at hfinding
  · simp at hfinding
  · split at hfinding
    · obtain ⟨child, -, hchild⟩ := List.mem_flatMap.mp hfinding
      split at hchild
      · simp at hchild
      · exact rule_of_overrideFinding? (Option.mem_toList.mp hchild)
    · simp at hfinding

theorem rule_of_inheritanceFinding? {family : DeclId × List DeclId}
    (hfinding : ctx.inheritanceFinding? patterns family = some f) :
    f.rule = .inheritanceConflict := by
  simp only [inheritanceFinding?, Option.ite_none_left_eq_some,
    Option.ite_none_right_eq_some] at hfinding
  cases hfinding.2.2
  rfl

theorem rule_of_callFinding? {overrides : List OverrideEdge} {e : CallEdge}
    (hfinding : ctx.callFinding? overrides e = some f) :
    f.rule = .callSiteViolation := by
  rw [callFinding?] at hfinding
  split at hfinding
  · cases hfinding
  · simp only [Option.ite_none_left_eq_some] at hfinding
    cases hfinding.2.2
    rfl

theorem rule_of_accessFinding? {e : FieldAccess}
    (hfinding : ctx.accessFinding? e = some f) :
    f.rule = .fieldAccessViolation := by
  rw [accessFinding?.eq_def] at hfinding
  split at hfinding
  · simp only [Option.ite_none_left_eq_some] at hfinding
    cases hfinding.2.2
    rfl
  · cases hfinding

end Rules

theorem tagFindings_overrideActs (implicit : Bool) (child : Declaration)
    (parent : DeclId) :
    (ctx.overrideActs patterns implicit child parent).filterMap
      Act.tagFinding? =
      (ctx.overrideFinding? patterns implicit child parent).toList := by
  have hreport :
      ((ctx.overrideFinding? patterns implicit child parent).toList.map
        (Act.report child.id)).filterMap Act.tagFinding? = _ :=
    Act.filterMap_tagFinding?_map_report child.id
      (fun _ => rule_of_overrideFinding?) (by decide)
  rw [overrideActs, List.filterMap_append, List.filterMap_append, hreport,
    Act.filterMap_tagFinding?_demands]
  simp [Act.tagFinding?]

theorem tagFindings_acting (d : Declaration) (acts : List Act) :
    (ctx.acting d acts).filterMap Act.tagFinding? =
      if (ctx.skipReason? d).isSome then []
      else acts.filterMap Act.tagFinding? := by
  rw [acting]
  split <;> rfl

theorem tagFindings_edgeActs (e : OverrideEdge) :
    (ctx.edgeActs patterns e).filterMap Act.tagFinding? =
      (ctx.edgeFinding? patterns e).toList := by
  rw [edgeActs, edgeFinding?]
  cases ctx.model.find? e.child with
  | none => rfl
  | some child =>
      simp only [tagFindings_acting, List.filterMap_append,
        tagFindings_overrideActs]
      split <;> simp [Act.tagFinding?]

theorem tagFindings_impliedByActs (overrides : List OverrideEdge)
    (parent : Declaration) :
    (ctx.impliedByActs patterns overrides parent).filterMap Act.tagFinding? =
      ctx.impliedFindings patterns overrides parent := by
  have hchild (child : Declaration) :
      (ctx.impliedActs patterns parent child).filterMap Act.tagFinding? =
        if (ctx.skipReason? child).isSome then []
        else (ctx.overrideFinding? patterns true child parent.id).toList := by
    rw [impliedActs, tagFindings_acting, List.filterMap_append,
      tagFindings_overrideActs]
    exact ite_congr rfl (fun _ => rfl) (fun _ => List.append_nil _)
  rw [impliedByActs, impliedFindings]
  split
  · rfl
  · split
    · simp only [List.filterMap_flatMap, hchild]
    · rfl

theorem tagFindings_familyActs (family : DeclId × List DeclId) :
    (ctx.familyActs patterns family).filterMap Act.tagFinding? =
      (ctx.inheritanceFinding? patterns family).toList :=
  Act.filterMap_tagFinding?_map_report family.1
    (fun _ => rule_of_inheritanceFinding?) (by decide)

theorem tagFindings_callActs (overrides : List OverrideEdge) (e : CallEdge) :
    (ctx.callActs overrides e).filterMap Act.tagFinding? =
      (ctx.callFinding? overrides e).toList := by
  rw [callActs]
  cases hcaller : ctx.model.find? e.caller with
  | none => simp [callFinding?, hcaller]
  | some caller =>
      simp only [tagFindings_acting]
      split
      · rename_i hskip
        simp [callFinding?, hcaller, hskip]
      · exact Act.filterMap_tagFinding?_map_report caller.id
          (fun _ => rule_of_callFinding?) (by decide)

theorem tagFindings_accessActs (e : FieldAccess) :
    (ctx.accessActs e).filterMap Act.tagFinding? =
      (ctx.accessFinding? e).toList := by
  rw [accessActs.eq_def]
  split
  · rename_i accessor field haccessor hfield
    split
    · rename_i hconstruction
      simp [accessFinding?, haccessor, hfield, hconstruction, Act.tagFinding?]
    · rw [tagFindings_acting]
      split
      · rename_i hskip
        simp [accessFinding?, haccessor, hfield, hskip]
      · have hreport :
            ((ctx.accessFinding? e).toList.map
              (Act.report accessor.id)).filterMap
            Act.tagFinding? = _ :=
          Act.filterMap_tagFinding?_map_report accessor.id
            (fun _ => rule_of_accessFinding?) (by decide)
        have hlock :
            (if e.lockHeld then []
              else accessor.demands (fun tag => some tag.location)
                (LocatedTag.lockDemand?
                  (ctx.effectiveTag? field.id))).filterMap
              Act.tagFinding? = [] := by
          split
          · rfl
          · exact Act.filterMap_tagFinding?_demands accessor _ _
        rw [List.cons_append, List.filterMap_cons, List.filterMap_append,
          hreport, hlock]
        simp [Act.tagFinding?]
  · rename_i hmissing
    rw [accessFinding?.eq_def]
    split
    · rename_i accessor field haccessor hfield
      exact absurd hfield (hmissing accessor field haccessor)
    · rfl

end Context

namespace Checker

/-- What a run reports about the tags of edges, in order. -/
def edgeFindings (c : Checker) (u : SourceUnit) : List Finding :=
  (c.context u).overrideFindings u.overrides
    ++ u.calls.flatMap
    (fun e => ((c.context u).callFinding? u.overrides e).toList) ++
      (if c.settings.checkFieldAccess then
        u.fieldAccesses.flatMap
          (fun e => ((c.context u).accessFinding? e).toList)
      else [])

/-- What the edges of a unit call for under one rule. -/
def edgeFindingsOf (c : Checker) (u : SourceUnit) : Rule → List Finding
  | .overrideConflict =>
    u.overrides.flatMap
      (fun e => ((c.context u).edgeFinding? c.settings.exemptPatterns
        e).toList) ++ if c.settings.subclassPropagation then
        u.model.declarations.flatMap
          ((c.context u).impliedFindings c.settings.exemptPatterns u.overrides)
      else []
  | .inheritanceConflict =>
    ((c.context u).parentsByChild u.overrides).toList.flatMap (fun family =>
      ((c.context u).inheritanceFinding? c.settings.exemptPatterns
        family).toList)
  | .callSiteViolation =>
    u.calls.flatMap (fun e => ((c.context u).callFinding? u.overrides e).toList)
  | .fieldAccessViolation =>
    if c.settings.checkFieldAccess then
      u.fieldAccesses.flatMap (fun e => ((c.context u).accessFinding? e).toList)
    else []
  | .missingSynchronization | .unresolvableTag => []

theorem filter_edgeFindings (c : Checker) (u : SourceUnit) (rule : Rule) :
    (c.edgeFindings u).filter (fun f => f.rule == rule) =
      c.edgeFindingsOf u rule := by
  simp only [edgeFindings, Context.overrideFindings, List.filter_append,
    apply_ite (List.filter (fun f : Finding => f.rule == rule)),
    List.filter_nil]
  rw [Finding.filter_rule_flatMap_toList
    (fun _ _ => Context.rule_of_edgeFinding?), Finding.filter_rule_flatMap
    (fun _ _ => Context.rule_of_mem_impliedFindings),
    Finding.filter_rule_flatMap_toList
      (fun _ _ => Context.rule_of_inheritanceFinding?),
    Finding.filter_rule_flatMap_toList
      (fun _ _ => Context.rule_of_callFinding?),
    Finding.filter_rule_flatMap_toList
      (fun _ _ => Context.rule_of_accessFinding?)]
  cases rule <;> simp [edgeFindingsOf, context]

theorem tagFindings_acts (c : Checker) (u : SourceUnit) :
    (c.acts u).filterMap Act.tagFinding? = c.edgeFindings u := by
  have hguards (marked : DeclId → Bool) (d : Declaration) :
      ((c.context u).guardActs marked d).filterMap Act.tagFinding? = [] := by
    rw [Context.guardActs]
    split
    · rfl
    · exact Act.filterMap_tagFinding?_demands d _ _
  simp only [acts, edgeActs, edgeFindings, Context.overridesActs,
    Context.overrideFindings, List.filterMap_append, List.filterMap_flatMap,
    apply_ite (List.filterMap Act.tagFinding?), Context.tagFindings_edgeActs,
    Context.tagFindings_impliedByActs, Context.tagFindings_familyActs,
    Context.tagFindings_callActs, Context.tagFindings_accessActs, hguards,
    List.filterMap_nil]
  rw [List.flatMap_eq_nil_iff.mpr (fun _ _ => rfl), List.append_nil]

/-- The findings of a whole run on tags: those of the first round, and then one
list for each kind of edge. -/
theorem tagFindings_run (c : Checker) {u : SourceUnit}
    (haccepted : u.model.Accepted) (registry : Registry) :
    (c.run u registry).tagFindings =
      ((Pass.start registry).resolveAll (c.context u)).tagFindings ++
        c.edgeFindings u := by
  rw [Pass.tagFindings, c.findings_run haccepted, List.filter_append,
    Act.filter_concernsTags_heard, tagFindings_acts]
  rfl

/-- The findings of one rule, if it is neither about markers nor about locks,
are those of the edges. -/
theorem findingsOf_check (c : Checker) {u : SourceUnit}
    (haccepted : u.model.Accepted) (registry : Registry) {rule : Rule}
    (hmarkers : rule ≠ .unresolvableTag)
    (hlocks : rule ≠ .missingSynchronization) :
    (c.check u registry).1.findingsOf rule =
      (c.edgeFindings u).filter (fun f => f.rule == rule) := by
  have hopening : (c.opening u registry).tagFindings.filter
      (fun f => f.rule == rule) = [] := by
    rw [List.filter_eq_nil_iff]
    intro f hf
    rw [c.rule_of_mem_findings_opening haccepted registry
      (List.mem_filter.mp hf).1]
    simpa using hmarkers.symm
  have htags : (c.run u registry).tagFindings.filter (fun f => f.rule == rule) =
      (c.check u registry).1.findingsOf rule := by
    rw [Pass.tagFindings, List.filter_filter]
    refine List.filter_congr (fun f _ => ?_)
    by_cases hrule : f.rule = rule
    · simp [Finding.concernsTags, hrule, hlocks]
    · simp [hrule]
  rw [← htags, c.tagFindings_run haccepted, List.filter_append]
  exact (congrArg (· ++ _) hopening).trans (List.nil_append _)

end Checker

end ThreadConfinement
