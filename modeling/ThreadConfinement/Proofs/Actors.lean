import ThreadConfinement.Proofs.Acts
import ThreadConfinement.Proofs.Families

/-!
On whose behalf a pass acts.

Every act of a run belongs to one declaration of the model, and what it reports
stands at the location of that declaration: `Checker.exists_belongsTo`.
-/

namespace ThreadConfinement

/-- The act is on behalf of `d`: it bears the number of `d`, and what it reports
stands at the location of `d`. -/
def Act.BelongsTo (d : Declaration) : Act → Prop
  | .count _ => True
  | .report actor finding =>
    actor = d.id ∧ finding.location = d.location ∧
      finding.rule ≠ .unresolvableTag
  | .mark actor => actor = d.id
  | .demand actor location _ _ => actor = d.id ∧ location = d.location

/-- What is heard stands at the location of its actor, when this is so of all
acts. -/
theorem Act.heard_belongsTo (known : DeclId → Option String → Bool)
    {acts : List Act} {ds : List Declaration}
    (hacts : ∀ act ∈ acts, ∃ d ∈ ds, act.BelongsTo d) :
    ∀ item ∈ heard known acts, ∃ d ∈ ds,
      (Act.report item.1 item.2).BelongsTo d := by
  induction acts generalizing known with
  | nil => simp [heard]
  | cons act rest ih =>
      have hrest :=
        fun known =>
          ih known (fun a ha => hacts a (List.mem_cons_of_mem act ha))
      intro item hitem
      cases act with
      | count counter => exact hrest known item hitem
      | mark actor => exact hrest known item hitem
      | report actor finding =>
          rcases List.mem_cons.mp hitem with rfl | hitem
          · exact hacts _ List.mem_cons_self
          · exact hrest known item hitem
      | demand actor location place requiredBy =>
          rw [heard] at hitem
          split at hitem
          · exact hrest known item hitem
          · rcases List.mem_cons.mp hitem with rfl | hitem
            · obtain ⟨d, hd, hactor, hlocation⟩ := hacts _ List.mem_cons_self
              exact ⟨d, hd, hactor, hlocation, by simp [Finding.rule]⟩
            · exact hrest _ item hitem

theorem Declaration.belongsTo_demands (d : Declaration)
    (place : LocatedTag → Option String) (tag? : Option LocatedTag) :
    ∀ act ∈ d.demands place tag?, act.BelongsTo d := by
  intro act hact
  unfold demands at hact
  split at hact
  · simp at hact
  · obtain ⟨tag, -, rfl⟩ := List.mem_map.mp hact
    exact ⟨rfl, rfl⟩

namespace Context

variable (ctx : Context) (patterns : List Glob)

theorem belongsTo_map_report {d : Declaration} {finding? : Option Finding}
    (hfinding : ∀ f ∈ finding?, f.location = d.location ∧
      f.rule ≠ .unresolvableTag) :
    ∀ act ∈ finding?.toList.map (Act.report d.id), act.BelongsTo d := by
  intro act hact
  obtain ⟨f, hf, rfl⟩ := List.mem_map.mp hact
  exact ⟨rfl, hfinding f (Option.mem_toList.mp hf)⟩

theorem belongsTo_acting {d : Declaration} {acts : List Act}
    (hacts : ∀ act ∈ acts, act.BelongsTo d) :
    ∀ act ∈ ctx.acting d acts, act.BelongsTo d := by
  intro act hact
  unfold acting at hact
  split at hact
  · cases List.mem_singleton.mp hact
    trivial
  · exact hacts act hact

theorem belongsTo_overrideActs (implicit : Bool) (child : Declaration)
    (parent : DeclId) :
    ∀ act ∈ ctx.overrideActs patterns implicit child parent,
      act.BelongsTo child := by
  intro act hact
  rw [overrideActs, List.mem_append, List.mem_append] at hact
  rcases hact with (hreport | hmark) | hdemand
  · refine belongsTo_map_report ?_ act hreport
    intro f hf
    simp only [overrideFinding?, Option.mem_def,
      Option.ite_none_right_eq_some] at hf
    cases hf.2
    exact ⟨rfl, by simp [Finding.rule]⟩
  · cases List.mem_singleton.mp hmark
    rfl
  · exact child.belongsTo_demands _ _ act hdemand

/-- The acts of an override with its count at the end belong to the child. -/
theorem belongsTo_overrideActs_count (implicit : Bool) (child : Declaration)
    (parent : DeclId) (counter : Counter) :
    ∀ act ∈ ctx.overrideActs patterns implicit child parent ++ [.count counter],
      act.BelongsTo child := by
  intro act hact
  rcases List.mem_append.mp hact with hact | hact
  · exact ctx.belongsTo_overrideActs patterns implicit child parent act hact
  · cases List.mem_singleton.mp hact
    trivial

theorem belongsTo_callActs {overrides : List OverrideEdge} {e : CallEdge}
    {caller : Declaration} (hcaller : ctx.model.find? e.caller = some caller) :
    ∀ act ∈ (.count .calls : Act) ::
      (ctx.callFinding? overrides e).toList.map (.report caller.id),
      act.BelongsTo caller := by
  intro act hact
  rcases List.mem_cons.mp hact with rfl | hact
  · trivial
  · refine belongsTo_map_report ?_ act hact
    intro f hf
    simp only [Option.mem_def, callFinding?, hcaller,
      Option.ite_none_left_eq_some] at hf
    cases hf.2.2
    exact ⟨rfl, by simp [Finding.rule]⟩

theorem belongsTo_accessActs {e : FieldAccess} {accessor field : Declaration}
    (haccessor : ctx.model.find? e.accessor = some accessor)
    (hfield : ctx.model.find? e.field = some field) :
    ∀ act ∈ (.count .fieldAccesses : Act)
        :: (ctx.accessFinding? e).toList.map (.report accessor.id)
        ++ (if e.lockHeld then []
          else accessor.demands (fun tag => some tag.location)
            (LocatedTag.lockDemand? (ctx.effectiveTag? field.id))),
      act.BelongsTo accessor := by
  intro act hact
  rw [List.cons_append, List.mem_cons, List.mem_append] at hact
  rcases hact with rfl | hreport | hdemand
  · trivial
  · refine belongsTo_map_report ?_ act hreport
    intro f hf
    simp only [Option.mem_def, accessFinding?, haccessor, hfield,
      Option.ite_none_left_eq_some] at hf
    cases hf.2.2
    exact ⟨rfl, by simp [Finding.rule]⟩
  · split at hdemand
    · simp at hdemand
    · exact accessor.belongsTo_demands _ _ act hdemand

theorem belongsTo_guardActs (marked : DeclId → Bool) (d : Declaration) :
    ∀ act ∈ ctx.guardActs marked d, act.BelongsTo d := by
  intro act hact
  unfold guardActs at hact
  split at hact
  · simp at hact
  · exact d.belongsTo_demands _ _ act hact

variable {ctx}

/-- A family belongs to its child. -/
theorem belongsTo_familyActs (haccepted : ctx.model.Accepted)
    {child : Declaration} (hchild : child ∈ ctx.model.declarations)
    (parents : List DeclId) :
    ∀ act ∈ ctx.familyActs patterns (child.id, parents),
      act.BelongsTo child := by
  refine belongsTo_map_report ?_
  intro f hf
  simp only [inheritanceFinding?, Option.mem_def, Option.ite_none_left_eq_some,
    Option.ite_none_right_eq_some] at hf
  cases hf.2.2
  refine ⟨?_, by simp [Finding.rule]⟩
  exact haccepted.locationOf_id hchild

/-- A family of the table is that of a declaration that acts, with its distinct
parents. -/
theorem exists_of_mem_parentsByChild (ctx : Context)
    (haccepted : ctx.model.Accepted) {overrides : List OverrideEdge}
    {family : DeclId × List DeclId}
    (hfamily : family ∈ (ctx.parentsByChild overrides).toList) :
    ∃ child ∈ ctx.model.declarations, ctx.skipReason? child = none ∧
      family = (child.id, (parentsOf overrides child.id).eraseDups) := by
  have hget := Std.ExtTreeMap.mem_toList_iff_getElem?_eq_some.mp hfamily
  rw [getElem?_parentsByChild, Option.ite_none_right_eq_some] at hget
  obtain ⟨child, hfind, hacts⟩ := checks_eq_true_iff.mp hget.1.1
  obtain ⟨hchild, hid⟩ := haccepted.find?_eq_some_iff.mp hfind
  refine ⟨child, hchild, hacts, ?_⟩
  rw [hid, Option.some.inj hget.2]

end Context

theorem Model.Accepted.mem_of_mem_impliedChildren {m : Model}
    (haccepted : m.Accepted) {overrides : List OverrideEdge}
    {parent child : Declaration}
    (hchild : child ∈ m.impliedChildren overrides parent) :
    child ∈ m.declarations := by
  unfold impliedChildren at hchild
  split at hchild
  · simp at hchild
  · obtain ⟨id, -, hfilter⟩ := List.mem_filterMap.mp hchild
    obtain ⟨hfind, -⟩ := Option.filter_eq_some_iff.mp hfilter
    exact (haccepted.find?_eq_some_iff.mp hfind).1

namespace Context

section Accepted

variable {ctx : Context} (haccepted : ctx.model.Accepted)

include haccepted

theorem exists_belongsTo_edgeActs {patterns : List Glob}
    {e : OverrideEdge} {act : Act} (hact : act ∈ ctx.edgeActs patterns e) :
    ∃ d ∈ ctx.model.declarations, act.BelongsTo d := by
  unfold edgeActs at hact
  split at hact
  · simp at hact
  · next child hchild =>
      exact ⟨child, (haccepted.find?_eq_some_iff.mp hchild).1,
        ctx.belongsTo_acting (ctx.belongsTo_overrideActs_count patterns false
          child e.parent .overrides) act hact⟩

theorem exists_belongsTo_impliedByActs {patterns : List Glob}
    {overrides : List OverrideEdge} {parent : Declaration} {act : Act}
    (hact : act ∈ ctx.impliedByActs patterns overrides parent) :
    ∃ d ∈ ctx.model.declarations, act.BelongsTo d := by
  unfold impliedByActs at hact
  split at hact
  · simp at hact
  · split at hact
    · obtain ⟨child, hchild, hact⟩ := List.mem_flatMap.mp hact
      exact ⟨child, haccepted.mem_of_mem_impliedChildren hchild,
        ctx.belongsTo_acting (ctx.belongsTo_overrideActs_count patterns true
          child parent.id .implicitOverrides) act hact⟩
    · simp at hact

theorem exists_belongsTo_overridesActs
    {overrides : List OverrideEdge} {act : Act}
    (hact : act ∈ ctx.overridesActs overrides) :
    ∃ d ∈ ctx.model.declarations, act.BelongsTo d := by
  simp only [overridesActs, List.mem_append, List.mem_flatMap] at hact
  rcases hact with (⟨e, -, hact⟩ | himplied) | ⟨family, hfamily, hact⟩
  · exact exists_belongsTo_edgeActs haccepted hact
  · split at himplied
    · obtain ⟨parent, -, hact⟩ := List.mem_flatMap.mp himplied
      exact exists_belongsTo_impliedByActs haccepted hact
    · simp at himplied
  · obtain ⟨child, hchild, -, rfl⟩ :=
      exists_of_mem_parentsByChild ctx haccepted hfamily
    exact ⟨child, hchild, belongsTo_familyActs _ haccepted hchild _ act hact⟩

theorem exists_belongsTo_callActs {overrides : List OverrideEdge}
    {e : CallEdge} {act : Act} (hact : act ∈ ctx.callActs overrides e) :
    ∃ d ∈ ctx.model.declarations, act.BelongsTo d := by
  unfold callActs at hact
  split at hact
  · simp at hact
  · next caller hcaller =>
      exact ⟨caller, (haccepted.find?_eq_some_iff.mp hcaller).1,
        ctx.belongsTo_acting (ctx.belongsTo_callActs hcaller) act hact⟩

theorem exists_belongsTo_accessActs {e : FieldAccess} {act : Act}
    (hact : act ∈ ctx.accessActs e) :
    ∃ d ∈ ctx.model.declarations, act.BelongsTo d := by
  unfold accessActs at hact
  split at hact
  · next accessor field haccessor hfield =>
      refine ⟨accessor, (haccepted.find?_eq_some_iff.mp haccessor).1, ?_⟩
      split at hact
      · cases List.mem_singleton.mp hact
        trivial
      · exact ctx.belongsTo_acting
          (ctx.belongsTo_accessActs haccessor hfield) act hact
  · simp at hact

end Accepted

end Context

/-- Every act of a run belongs to a declaration of the model. -/
theorem Checker.exists_belongsTo (c : Checker) {u : SourceUnit}
    (haccepted : u.model.Accepted) :
    ∀ act ∈ c.acts u, ∃ d ∈ u.model.declarations, act.BelongsTo d := by
  have hctx : (c.context u).model.Accepted := haccepted
  intro act hact
  simp only [acts, edgeActs, List.mem_append, List.mem_flatMap] at hact
  rcases hact with ((hoverride | ⟨e, -, hcall⟩) | haccess) | ⟨d, hd, hguard⟩
  · exact Context.exists_belongsTo_overridesActs hctx hoverride
  · exact Context.exists_belongsTo_callActs hctx hcall
  · split at haccess
    · obtain ⟨e, -, haccess⟩ := List.mem_flatMap.mp haccess
      exact Context.exists_belongsTo_accessActs hctx haccess
    · simp at haccess
  · exact ⟨d, hd, Context.belongsTo_guardActs _ _ d act hguard⟩

end ThreadConfinement
