import ThreadConfinement.Checker

/-!
A pass and the registry it starts from.

A pass only ever adds to its registry and never looks into it.  So a pass that
starts from entries of others goes exactly as one that starts from none, with
its own entries laid over theirs at the end: `Checker.run_eq_atop`.
-/

namespace ThreadConfinement

namespace Registry

@[simp] theorem get?_merge (r other : Registry) (location : String) :
    (r.merge other).get? location =
      (other.get? location).or (r.get? location) :=
  Std.ExtTreeMap.getElem?_union

/-- Registries with the same tag at every location are equal. -/
theorem ext_get? {r other : Registry}
    (hget : ∀ location : String, r.get? location = other.get? location) :
    r = other := by
  obtain ⟨entries⟩ := r
  obtain ⟨others⟩ := other
  have hentries : entries = others := Std.ExtTreeMap.ext_getElem? hget
  rw [hentries]

theorem get?_empty (location : String) : empty.get? location = none := by
  simp [empty, get?]

theorem get?_record (r : Registry) (tag : LocatedTag) (location : String) :
    (r.record tag).get? location =
      if isExportable tag.location = true ∧
        tag.location = location then some tag
      else r.get? location := by
  unfold record
  by_cases hexportable : isExportable tag.location = true
  · rw [if_pos hexportable]
    simp only [get?, Std.ExtTreeMap.getElem?_insert, hexportable, true_and,
      Std.LawfulEqCmp.compare_eq_iff_eq]
  · simp [hexportable]

@[simp] theorem merge_empty (r : Registry) : r.merge empty = r := by
  apply ext_get?
  intro location
  rw [get?_merge, get?_empty, Option.none_or]

@[simp] theorem empty_merge (r : Registry) : empty.merge r = r := by
  apply ext_get?
  intro location
  rw [get?_merge, get?_empty, Option.or_none]

theorem merge_assoc (r s t : Registry) :
    (r.merge s).merge t = r.merge (s.merge t) := by
  apply ext_get?
  intro location
  simp only [get?_merge, Option.or_assoc]

/-- A tag recorded over a merged registry may as well be recorded before the
merge. -/
theorem record_merge (base r : Registry) (tag : LocatedTag) :
    (base.merge r).record tag = base.merge (r.record tag) := by
  unfold record
  split
  · exact congrArg mk
      (Std.ExtTreeMap.union_insert_right_eq_insert_union
        (p := ⟨tag.location, tag⟩)).symm
  · rfl

end Registry

namespace Pass

/-- The pass with its registry laid over `base`. -/
def atop (base : Registry) (p : Pass) : Pass :=
  { p with registry := base.merge p.registry }

def answerAtop {α : Type} (base : Registry) (answer : α × Pass) : α × Pass :=
  (answer.1, answer.2.atop base)

section Atop

variable (base : Registry) (ctx : Context) (p : Pass)

theorem start_atop : (start .empty).atop base = start base := by
  simp [atop, start]

theorem note_atop (e : Event) :
    (p.atop base).note e = (p.note e).atop base := rfl

theorem report_atop (f : Finding) :
    (p.atop base).report f = (p.report f).atop base := rfl

theorem skipEdge_atop (message role : String) (acting : Declaration)
    (reason : SkipReason) :
    (p.atop base).skipEdge message role acting reason =
      (p.skipEdge message role acting reason).atop base := rfl

theorem markEvaluated_atop (id : DeclId) :
    (p.atop base).markEvaluated id = (p.markEvaluated id).atop base := rfl

theorem stats_atop (stats : Stats) :
    { p.atop base with stats := stats } =
      ({ p with stats := stats } : Pass).atop base := rfl

/-- A walk whose steps go the same over `base` goes the same over `base`. -/
theorem foldl_atop {α : Type} {step : Pass → α → Pass}
    (hstep : ∀ (q : Pass) (a : α), step (q.atop base) a = (step q a).atop base)
    (items : List α) :
    items.foldl step (p.atop base) = (items.foldl step p).atop base := by
  induction items generalizing p with
  | nil => rfl
  | cons a rest ih =>
      rw [List.foldl_cons, List.foldl_cons, hstep, ih]

theorem record_atop (tag : LocatedTag) :
    (p.atop base).record tag = (p.record tag).atop base := by
  unfold record
  cases Registry.refusal? tag with
  | none => simp only [atop, Registry.record_merge]
  | some event => simp only [atop, note, Registry.record_merge]

/-! ### Resolution -/

theorem ownTag_atop (d : Declaration) :
    (p.atop base).ownTag ctx d = answerAtop base (p.ownTag ctx d) := by
  have hown : (p.atop base).own = p.own := rfl
  unfold ownTag
  rw [hown]
  cases p.own[d.id]? with
  | some own => rfl
  | none =>
      cases ctx.library.ownTag d with
      | absent => rfl
      | tagged tag => rfl
      | conflicted tags => rfl

theorem firstTagged_atop (ds : List Declaration) :
    (p.atop base).firstTagged ctx ds =
      answerAtop base (p.firstTagged ctx ds) := by
  induction ds generalizing p with
  | nil => rfl
  | cons d rest ih =>
      unfold firstTagged
      rw [ownTag_atop]
      obtain ⟨own, q⟩ := p.ownTag ctx d
      cases own with
      | absent => exact ih q
      | tagged tag => rfl
      | conflicted tags => exact ih q

theorem resolveFresh_atop (d : Declaration) :
    (p.atop base).resolveFresh ctx d =
      answerAtop base (p.resolveFresh ctx d) := by
  unfold resolveFresh
  rw [ownTag_atop]
  obtain ⟨own, q⟩ := p.ownTag ctx d
  cases own with
  | tagged tag => rfl
  | conflicted tags => rfl
  | absent =>
      simp only [answerAtop, inheritedTag]
      split
      · rfl
      · exact firstTagged_atop base ctx q (ctx.model.tagSources d)

/-- Answers do not depend on the registry. -/
theorem resolve_atop (id : DeclId) :
    (p.atop base).resolve ctx id = answerAtop base (p.resolve ctx id) := by
  have heffective : (p.atop base).effective = p.effective := rfl
  unfold resolve
  rw [heffective]
  cases p.effective[id]? with
  | some tag => rfl
  | none =>
      cases ctx.model.find? id with
      | none => rfl
      | some d =>
          simp only [resolveFresh_atop]
          obtain ⟨tag, q⟩ := p.resolveFresh ctx d
          cases tag with
          | none => rfl
          | some tag =>
              -- the one place where a pass writes to its registry
              simp only [answerAtop, record_atop]
              rfl

theorem resolveTags_atop (ids : List DeclId) :
    (p.atop base).resolveTags ctx ids =
      answerAtop base (p.resolveTags ctx ids) := by
  induction ids generalizing p with
  | nil => rfl
  | cons id rest ih =>
      unfold resolveTags
      rw [resolve_atop]
      obtain ⟨tag, q⟩ := p.resolve ctx id
      simp only [answerAtop, ih]
      cases tag with
      | none => rfl
      | some tag => rfl

theorem resolveAll_atop :
    (p.atop base).resolveAll ctx = (p.resolveAll ctx).atop base := by
  have hstep : ∀ (q : Pass) (d : Declaration),
      resolveDeclaration ctx (q.atop base) d =
        (resolveDeclaration ctx q d).atop base := by
    intro q d
    unfold resolveDeclaration
    rw [resolve_atop]
    rfl
  have htake : ∀ q : Pass,
      (q.atop base).takeConflicts = answerAtop base q.takeConflicts := by
    intro q
    rfl
  simp only [resolveAll, foldl_atop base p hstep, htake]
  exact foldl_atop base _ (report_atop base) _

/-! ### Checks -/

theorem reportLock_atop (d : Declaration) (place : Option String)
    (requiredBy : LocatedTag) :
    (p.atop base).reportLock d place requiredBy =
      (p.reportLock d place requiredBy).atop base := by
  have hreported : (p.atop base).reported = p.reported := rfl
  unfold reportLock
  rw [hreported]
  split
  · rfl
  · rfl

theorem require_atop (d : Declaration) (requiredBy : LocatedTag) :
    (p.atop base).require d requiredBy =
      (p.require d requiredBy).atop base := by
  simp only [require, reportLock_atop, apply_ite (atop base)]

theorem requireAtAccess_atop (accessor : Declaration) (lockHeld : Bool)
    (requiredBy : LocatedTag) :
    (p.atop base).requireAtAccess accessor lockHeld requiredBy =
      (p.requireAtAccess accessor lockHeld requiredBy).atop base := by
  simp only [requireAtAccess, reportLock_atop, apply_ite (atop base)]

theorem checkOverride_atop (patterns : List Glob) (implicit : Bool)
    (child : Declaration) (parent : DeclId) :
    (p.atop base).checkOverride ctx patterns implicit child parent =
      (p.checkOverride ctx patterns implicit child parent).atop base := by
  unfold checkOverride
  rw [resolve_atop]
  obtain ⟨childTag, q⟩ := p.resolve ctx child.id
  simp only [answerAtop, resolve_atop]
  obtain ⟨parentTag, q⟩ := q.resolve ctx parent
  simp only [report_atop, ← apply_ite (atop base), markEvaluated_atop]
  cases overrideDemand? childTag parentTag with
  | none => rfl
  | some tag => exact require_atop base _ child tag

theorem checkOverrideEdge_atop (patterns : List Glob) (e : OverrideEdge) :
    (p.atop base).checkOverrideEdge ctx patterns e =
      (p.checkOverrideEdge ctx patterns e).atop base := by
  unfold checkOverrideEdge
  cases ctx.model.find? e.child with
  | none => rfl
  | some child =>
      cases hskip : ctx.skipReason? child with
      | some reason => simp only [hskip, skipEdge_atop]
      | none =>
          simp only [hskip, checkOverride_atop]
          rfl

theorem checkImplied_atop (patterns : List Glob) (parent child : Declaration) :
    checkImplied ctx patterns parent (p.atop base) child =
      (checkImplied ctx patterns parent p child).atop base := by
  unfold checkImplied
  cases ctx.skipReason? child with
  | some reason => rfl
  | none =>
      simp only [checkOverride_atop]
      rfl

theorem checkImpliedBy_atop (patterns : List Glob)
    (overrides : List OverrideEdge) (parent : Declaration) :
    (p.atop base).checkImpliedBy ctx patterns overrides parent =
      (p.checkImpliedBy ctx patterns overrides parent).atop base := by
  unfold checkImpliedBy
  split
  · rfl
  · rw [resolve_atop]
    obtain ⟨tag, q⟩ := p.resolve ctx parent.id
    have hchildren := foldl_atop base q
      (fun r child => checkImplied_atop base ctx r patterns parent child)
      (ctx.model.impliedChildren overrides parent)
    simp only [answerAtop, hchildren, apply_ite (atop base)]

theorem checkInheritance_atop (patterns : List Glob)
    (family : DeclId × List DeclId) :
    (p.atop base).checkInheritance ctx patterns family =
      (p.checkInheritance ctx patterns family).atop base := by
  obtain ⟨child, parents⟩ := family
  simp only [checkInheritance]
  split
  · rfl
  · rw [resolve_atop]
    obtain ⟨tag, q⟩ := p.resolve ctx child
    cases tag with
    | some tag => rfl
    | none =>
        simp only [answerAtop, resolveTags_atop]
        split
        · rfl
        · rfl

theorem checkOverrides_atop (overrides : List OverrideEdge) :
    (p.atop base).checkOverrides ctx overrides =
      (p.checkOverrides ctx overrides).atop base := by
  unfold checkOverrides
  simp only
  rw [foldl_atop base p (note_atop base),
    foldl_atop base _ (fun q e => checkOverrideEdge_atop base ctx q
      ctx.settings.exemptPatterns e)]
  split
  · rw [foldl_atop base _ (fun q d =>
        checkImpliedBy_atop base ctx q ctx.settings.exemptPatterns overrides d)]
    exact foldl_atop base _ (fun q f =>
      checkInheritance_atop base ctx q ctx.settings.exemptPatterns f) _
  · exact foldl_atop base _ (fun q f =>
      checkInheritance_atop base ctx q ctx.settings.exemptPatterns f) _

theorem foldl_consult_atop (a : Agreement) (parents : List DeclId) :
    parents.foldl (consult ctx) (a, p.atop base) =
      answerAtop base (parents.foldl (consult ctx) (a, p)) := by
  induction parents generalizing a p with
  | nil => rfl
  | cons parent rest ih =>
      simp only [List.foldl_cons, consult, resolve_atop, answerAtop, ih]

theorem callerTag_atop (parents : IdMap (List DeclId)) (caller : DeclId) :
    (p.atop base).callerTag ctx parents caller =
      answerAtop base (p.callerTag ctx parents caller) := by
  unfold callerTag
  rw [resolve_atop]
  obtain ⟨tag, q⟩ := p.resolve ctx caller
  cases tag with
  | some tag => rfl
  | none => simp only [answerAtop, overriddenTag, foldl_consult_atop]

theorem checkCall_atop (parents : IdMap (List DeclId)) (e : CallEdge) :
    (p.atop base).checkCall ctx parents e =
      (p.checkCall ctx parents e).atop base := by
  unfold checkCall
  cases ctx.model.find? e.caller with
  | none => rfl
  | some caller =>
      cases hskip : ctx.skipReason? caller with
      | some reason => simp only [hskip, skipEdge_atop]
      | none =>
          simp only [hskip]
          simp only [stats_atop, callerTag_atop, answerAtop,
            resolve_atop, report_atop, apply_ite (atop base)]
          rfl

theorem checkFieldAccess_atop (e : FieldAccess) :
    (p.atop base).checkFieldAccess ctx e =
      (p.checkFieldAccess ctx e).atop base := by
  unfold checkFieldAccess
  cases ctx.model.find? e.accessor with
  | none => rfl
  | some accessor =>
      cases ctx.model.find? e.field with
      | none => rfl
      | some field =>
          simp only
          split
          · rfl
          · cases ctx.skipReason? accessor with
            | some reason => rfl
            | none =>
                have hstats : (p.atop base).stats = p.stats := rfl
                simp only [hstats, stats_atop]
                generalize ({ p with stats := { p.stats with
                  fieldAccessesChecked := p.stats.fieldAccessesChecked + 1 } } :
                    Pass) = counted
                rw [resolve_atop]
                obtain ⟨accessorTag, q⟩ := counted.resolve ctx accessor.id
                simp only [answerAtop, resolve_atop]
                obtain ⟨fieldTag, q⟩ := q.resolve ctx field.id
                simp only [report_atop, ← apply_ite (atop base)]
                cases LocatedTag.lockDemand? fieldTag with
                | none => rfl
                | some tag =>
                  exact requireAtAccess_atop base _ accessor e.lockHeld tag

theorem checkGuard_atop (d : Declaration) :
    (p.atop base).checkGuard ctx d = (p.checkGuard ctx d).atop base := by
  have hevaluated : (p.atop base).isEvaluated d.id = p.isEvaluated d.id := rfl
  unfold checkGuard
  rw [hevaluated]
  split
  · rfl
  · rw [resolve_atop]
    obtain ⟨tag, q⟩ := p.resolve ctx d.id
    simp only [answerAtop]
    cases LocatedTag.lockDemand? tag with
    | none => rfl
    | some tag => exact require_atop base q d tag

end Atop

end Pass

namespace Checker

open Pass

/-- A pass that starts from `base` is the pass that starts from nothing, laid
over `base`. -/
theorem run_eq_atop (c : Checker) (u : SourceUnit) (base : Registry) :
    c.run u base = (c.run u .empty).atop base := by
  have hcalls (p : Pass) :
      (p.atop base).checkCalls (c.context u) u =
        (p.checkCalls (c.context u) u).atop base :=
    foldl_atop base p
      (fun q e => checkCall_atop base (c.context u) q _ e) u.calls
  have haccesses (p : Pass) :
      (p.atop base).checkFieldAccesses (c.context u) u.fieldAccesses =
        (p.checkFieldAccesses (c.context u) u.fieldAccesses).atop base :=
    foldl_atop base p (checkFieldAccess_atop base (c.context u)) u.fieldAccesses
  have hguards (p : Pass) :
      (p.atop base).checkGuards (c.context u) =
        (p.checkGuards (c.context u)).atop base :=
    foldl_atop base p (checkGuard_atop base (c.context u))
      (c.context u).model.declarations
  simp only [run, ← start_atop base, resolveAll_atop, checkOverrides_atop,
    hcalls, haccesses, ← apply_ite (atop base), hguards]
  rfl

/-- What a check reports does not depend on the registry it starts from, and
what it records is laid over that registry. -/
theorem check_eq_merge (c : Checker) (u : SourceUnit) (base : Registry) :
    c.check u base =
      ((c.check u .empty).1, base.merge (c.check u .empty).2) := by
  simp only [check, run_eq_atop c u base]
  rfl

end Checker

end ThreadConfinement
