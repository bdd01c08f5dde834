import ThreadConfinement.Proofs.Actors
import ThreadConfinement.Proofs.FirstRound
import ThreadConfinement.Proofs.Resemblance
import ThreadConfinement.Proofs.SharedRegistry
import ThreadConfinement.Proofs.Subtypes
import Mathlib.Data.List.Perm.Basic
import Mathlib.Data.Multiset.Defs

/-!
The order in which a host hands in declarations and edges does not matter.

In another order a unit is accepted as before, its counters are the same, and
its findings are the same up to their order and to what the order decides: which
tag asked for a lock first, the order of parents, and from which parent a caller
takes its tag.  `Finding.gist` leaves that out, and `Checker.check_reorder` is
the statement.
-/

namespace ThreadConfinement

/-- What a finding says in every order of the input. -/
inductive Gist where
  | overrideConflict (child parent : String)
      (childTag parentTag : Option LocatedTag) (implicit : Bool)
  | callSiteViolation (caller callee : String) (callerTag : Option Tag)
      (calleeTag : Option LocatedTag) (sameInstance : Bool)
  | missingSynchronization (declaration : String)
  | unresolvableTag (declaration : String) (tags : List Tag)
  | inheritanceConflict (method : String) (methodTag : Option LocatedTag)
      (parents : Multiset ParentTag)
  | fieldAccessViolation (accessor field : String)
      (accessorTag fieldTag : Option LocatedTag)

/-- Leaves out which tag asked for a lock, the order of parents, and where the
tag of a caller comes from. -/
def Finding.gist : Finding → Gist
  | overrideConflict child parent childTag parentTag implicit =>
    .overrideConflict child parent childTag parentTag implicit
  | callSiteViolation caller callee callerTag calleeTag sameInstance =>
    .callSiteViolation caller callee (callerTag.map (·.tag))
      calleeTag sameInstance
  | missingSynchronization declaration _ => .missingSynchronization declaration
  | unresolvableTag declaration tags => .unresolvableTag declaration tags
  | inheritanceConflict method methodTag parents =>
    .inheritanceConflict method methodTag (Multiset.ofList parents)
  | fieldAccessViolation accessor field accessorTag fieldTag =>
    .fieldAccessViolation accessor field accessorTag fieldTag

/-- The same facts in another order. -/
structure UnitFacts.Reorders (facts facts' : UnitFacts) : Prop where
  name : facts'.name = facts.name
  declarations : facts'.declarations.Perm facts.declarations
  overrides : facts'.overrides.Perm facts.overrides
  calls : facts'.calls.Perm facts.calls
  fieldAccesses : facts'.fieldAccesses.Perm facts.fieldAccesses

theorem UnitFacts.Reorders.symm {facts facts' : UnitFacts}
    (hfacts : facts.Reorders facts') :
    facts'.Reorders facts :=
  ⟨hfacts.name.symm, hfacts.declarations.symm, hfacts.overrides.symm,
    hfacts.calls.symm, hfacts.fieldAccesses.symm⟩

theorem UnitFacts.Reorders.varies {facts facts' : UnitFacts}
    (hfacts : facts.Reorders facts') :
    facts.Varies (fun _ => []) facts' where
  declarations := by
    rw [Declaration.mute_nothing, List.map_id']
    exact hfacts.declarations
  overrides := hfacts.overrides
  calls := hfacts.calls
  fieldAccesses := hfacts.fieldAccesses

def UnitFacts.reverse (facts : UnitFacts) : UnitFacts :=
  ⟨facts.name, facts.declarations.reverse, facts.overrides.reverse,
    facts.calls.reverse, facts.fieldAccesses.reverse⟩

theorem UnitFacts.reorders_reverse (facts : UnitFacts) :
    facts.Reorders facts.reverse :=
  ⟨rfl, List.reverse_perm _, List.reverse_perm _, List.reverse_perm _,
    List.reverse_perm _⟩

/-! ### Lists up to their order -/

theorem nodup_eraseDups {α : Type} [BEq α] [LawfulBEq α] (l : List α) :
    l.eraseDups.Nodup := by
  cases l with
  | nil => simp
  | cons a rest =>
      rw [List.eraseDups_cons, List.nodup_cons]
      refine ⟨by simp [List.mem_eraseDups], nodup_eraseDups _⟩
termination_by l.length
decreasing_by exact Nat.lt_succ_of_le (List.length_filter_le _ _)

theorem perm_eraseDups {α : Type} [BEq α] [LawfulBEq α] {l l' : List α}
    (hperm : l'.Perm l) :
    l'.eraseDups.Perm l.eraseDups := by
  rw [List.perm_ext_iff_of_nodup (nodup_eraseDups l') (nodup_eraseDups l)]
  intro a
  rw [List.mem_eraseDups, List.mem_eraseDups, hperm.mem_iff]

/-- Some tag differs from the first one exactly when two differ. -/
theorem tagsDiffer_eq_true_iff {parents : List ParentTag} :
    tagsDiffer parents = true ↔
      ∃ p ∈ parents, ∃ q ∈ parents, p.tag.tag ≠ q.tag.tag := by
  cases parents with
  | nil => simp [tagsDiffer]
  | cons first rest =>
      rw [tagsDiffer, List.any_eq_true]
      constructor
      · rintro ⟨q, hq, hdiffers⟩
        exact ⟨first, List.mem_cons_self, q, List.mem_cons_of_mem first hq,
          by simpa [LocatedTag.sameTag] using hdiffers⟩
      · have hrest : ∀ p ∈ first :: rest, p.tag.tag ≠ first.tag.tag →
            ∃ q ∈ rest, (!first.tag.sameTag q.tag) = true := by
          intro p hp hdiffers
          rcases List.mem_cons.mp hp with rfl | hp
          · exact absurd rfl hdiffers
          · exact ⟨p, hp, by simpa [LocatedTag.sameTag] using Ne.symm hdiffers⟩
        rintro ⟨p, hp, q, hq, hdiffers⟩
        by_cases hfirst : p.tag.tag = first.tag.tag
        · exact hrest q hq (fun heq => hdiffers (hfirst.trans heq.symm))
        · exact hrest p hp hfirst

theorem tagsDiffer_perm {parents parents' : List ParentTag}
    (hperm : parents'.Perm parents) :
    tagsDiffer parents' = tagsDiffer parents := by
  rw [Bool.eq_iff_iff, tagsDiffer_eq_true_iff, tagsDiffer_eq_true_iff]
  simp only [hperm.mem_iff]

/-- The tag that all agree on does not depend on who is asked first; where it
comes from does. -/
theorem map_tag_agreedTag?_eq_some_iff {tags : List LocatedTag} {thread : Tag} :
    (agreedTag? tags).map (·.tag) = some thread ↔
      tags ≠ [] ∧ ∀ tag ∈ tags, tag.tag = thread := by
  rw [Option.map_eq_some_iff]
  simp only [agreedTag?_eq_some_iff]
  constructor
  · rintro ⟨tag, ⟨hhead, hagree⟩, rfl⟩
    refine ⟨?_, hagree⟩
    rintro rfl
    cases hhead
  · rintro ⟨hsome, hthread⟩
    obtain ⟨first, rest, rfl⟩ := List.exists_cons_of_ne_nil hsome
    have hfirst := hthread first List.mem_cons_self
    exact ⟨first, ⟨rfl, fun tag htag => (hthread tag htag).trans hfirst.symm⟩,
      hfirst⟩

theorem map_tag_agreedTag?_perm {tags tags' : List LocatedTag}
    (hperm : tags'.Perm tags) :
    (agreedTag? tags').map (·.tag) = (agreedTag? tags).map (·.tag) := by
  ext thread
  rw [map_tag_agreedTag?_eq_some_iff, map_tag_agreedTag?_eq_some_iff]
  simp only [hperm.mem_iff, ne_eq, ← List.length_eq_zero_iff, hperm.length_eq]

/-! ### What acts come down to -/

/-- What is left of an act when order does not count. -/
inductive Deed where
  | count (counter : Counter)
  | report (gist : Gist)
  | mark (actor : DeclId)
  | demand (actor : DeclId) (place : Option String)

namespace Deed

def counter? : Deed → Option Counter
  | count counter => some counter
  | report _ | mark _ | demand .. => none

def gist? : Deed → Option Gist
  | report gist => some gist
  | count _ | mark _ | demand .. => none

/-- Of whom a lock is demanded, and for which reason. -/
def lock? : Deed → Option (DeclId × Option String)
  | demand actor place => some (actor, place)
  | count _ | report _ | mark _ => none

end Deed

namespace Act

def deed : Act → Deed
  | count counter => .count counter
  | report _ finding => .report finding.gist
  | mark actor => .mark actor
  | demand actor _ place _ => .demand actor place

theorem filterMap_counter?_eq (acts : List Act) :
    acts.filterMap counter? = (acts.map deed).filterMap Deed.counter? := by
  rw [List.filterMap_map]
  apply List.filterMap_congr
  intro act _
  cases act <;> rfl

theorem mark_mem_map_deed {acts : List Act} {id : DeclId} :
    Deed.mark id ∈ acts.map deed ↔ mark id ∈ acts := by
  rw [List.mem_map]
  constructor
  · rintro ⟨act, hact, hdeed⟩
    cases act <;> cases hdeed
    exact hact
  · intro hact
    exact ⟨mark id, hact, rfl⟩

theorem map_deed_reports (finding? : Option Finding) (actor : DeclId) :
    (finding?.toList.map (report actor)).map deed =
      (finding?.map Finding.gist).toList.map Deed.report := by
  cases finding? <;> rfl

/-- One more lock that is known takes its demands away. -/
theorem filter_unknown_or (known : DeclId → Option String → Bool)
    (actor : DeclId) (place : Option String)
    (locks : List (DeclId × Option String)) :
    locks.filter (fun lock =>
        !(decide (actor = lock.1 ∧ place = lock.2) || known lock.1 lock.2)) =
      (locks.filter (fun lock => !known lock.1 lock.2)).filter
        (fun lock => !lock == (actor, place)) := by
  rw [List.filter_filter]
  apply List.filter_congr
  rintro ⟨id, other⟩ _
  have hsame : ((id, other) == (actor, place)) =
      decide (actor = id ∧ place = other) := by
    rw [Bool.eq_iff_iff, beq_iff_eq, decide_eq_true_eq, Prod.mk.injEq, eq_comm,
      eq_comm (a := other)]
  rw [hsame, Bool.not_or]

/-- What is heard, up to order: all reports, and one finding for each lock that
is demanded and was not before. -/
theorem perm_map_gist_heard {m : Model} (haccepted : m.Accepted)
    (known : DeclId → Option String → Bool) {acts : List Act}
    (hacts : ∀ act ∈ acts, ∃ d ∈ m.declarations, act.BelongsTo d) :
    ((heard known acts).map (fun item => item.2.gist)).Perm
      ((acts.map deed).filterMap Deed.gist?
        ++ ((((acts.map deed).filterMap Deed.lock?).filter
            (fun lock => !known lock.1 lock.2)).eraseDups).map
          (fun lock => .missingSynchronization (m.locationOf lock.1))) := by
  induction acts generalizing known with
  | nil => exact .refl _
  | cons act rest ih =>
      have hrest :=
        fun known =>
          ih known (fun a ha => hacts a (List.mem_cons_of_mem act ha))
      cases act with
      | count counter => exact hrest known
      | mark actor => exact hrest known
      | report actor finding => exact (hrest known).cons finding.gist
      | demand actor location place requiredBy =>
          obtain ⟨d, hd, rfl, rfl⟩ := hacts _ List.mem_cons_self
          have hlocation := haccepted.locationOf_id hd
          have hgists :
              ((demand d.id d.location place requiredBy :: rest).map
                deed).filterMap
              Deed.gist? = (rest.map deed).filterMap Deed.gist? := rfl
          have hlocks :
              ((demand d.id d.location place requiredBy :: rest).map
                deed).filterMap
              Deed.lock? = (d.id, place) ::
                (rest.map deed).filterMap Deed.lock? := rfl
          rw [heard, hgists, hlocks]
          by_cases hknown : known d.id place = true
          · rw [if_pos hknown, List.filter_cons_of_neg (by simpa using hknown)]
            exact hrest known
          · rw [if_neg hknown, List.filter_cons_of_pos (by simpa using hknown),
              List.eraseDups_cons, List.map_cons, List.map_cons, hlocation]
            refine (List.Perm.cons _ ?_).trans List.perm_middle.symm
            -- from now on the lock counts as demanded, so later demands of it
            -- lead to nothing
            have hlater := hrest (fun id other =>
              decide (d.id = id ∧ place = other) || known id other)
            rw [filter_unknown_or] at hlater
            exact hlater

end Act

/-! ### Two contexts that differ in order -/

theorem perm_parentsOf {overrides overrides' : List OverrideEdge}
    (hoverrides : overrides'.Perm overrides) (child : DeclId) :
    (parentsOf overrides' child).Perm (parentsOf overrides child) :=
  (hoverrides.filter _).map _

theorem map_gist_inheritanceConflict_perm (method : String)
    {parents parents' : List ParentTag} (hperm : parents'.Perm parents) :
    (if tagsDiffer parents' then
      some (Finding.inheritanceConflict method none parents')
      else none).map Finding.gist =
      (if tagsDiffer parents then
        some (Finding.inheritanceConflict method none parents)
        else none).map Finding.gist := by
  rw [tagsDiffer_perm hperm]
  split
  · simp only [Option.map_some, Finding.gist, Multiset.coe_eq_coe.mpr hperm]
  · rfl

/-- What is reported about a child does not depend on the order of its
parents. -/
theorem Context.map_deed_familyActs_perm (ctx : Context) (patterns : List Glob)
    (child : DeclId) {parents parents' : List DeclId}
    (hparents : parents'.Perm parents) :
    (ctx.familyActs patterns (child, parents')).map Act.deed =
      (ctx.familyActs patterns (child, parents)).map Act.deed := by
  rw [familyActs, familyActs, Act.map_deed_reports, Act.map_deed_reports]
  simp only [inheritanceFinding?]
  rw [hparents.length_eq]
  split
  · rfl
  · exact congrArg (fun gist? => gist?.toList.map Deed.report)
      (map_gist_inheritanceConflict_perm _
        (((hparents.filter _).filterMap _).map _))

/-- The second context is the first, with declarations in another order. -/
structure Context.Reorders (ctx ctx' : Context) : Prop
    extends ctx.Resembles (fun _ => []) ctx' where
  declarations : ctx'.model.declarations.Perm ctx.model.declarations
  members : ∀ id, (ctx'.model.membersOf id).Perm (ctx.model.membersOf id)
  subtypes : ∀ id, ctx'.model.hierarchy.transitiveSubtypes id =
    ctx.model.hierarchy.transitiveSubtypes id
  settings : ctx'.settings = ctx.settings

namespace Context.Reorders

variable {ctx ctx' : Context} (hctx : ctx.Reorders ctx')

include hctx

theorem find?_eq (id : DeclId) : ctx'.model.find? id = ctx.model.find? id := by
  rw [hctx.model.find?, Declaration.mute_nothing, Option.map_id']

theorem skipReason?_eq (d : Declaration) :
    ctx'.skipReason? d = ctx.skipReason? d := by
  have henclosers := hctx.model.enclosers_mute d
  have hmodule := hctx.model.moduleOf?_eq d.id
  rw [Declaration.mute_nothing, List.map_id'] at henclosers
  rw [Declaration.mute_nothing, Option.map_id'] at hmodule
  rw [skipReason?, Model.skipReason?, henclosers, hmodule,
    hctx.settings, skipReason?, Model.skipReason?]

theorem overrideActs_eq (patterns : List Glob) (implicit : Bool)
    (child : Declaration) (parent : DeclId) :
    ctx'.overrideActs patterns implicit child parent =
      ctx.overrideActs patterns implicit child parent := by
  have hacts := hctx.overrideActs_mute patterns implicit child parent
  rwa [Declaration.mute_nothing] at hacts

theorem acting_eq (d : Declaration) (acts : List Act) :
    ctx'.acting d acts = ctx.acting d acts := by
  rw [acting, hctx.skipReason?_eq, acting]

theorem edgeActs_eq (patterns : List Glob) (e : OverrideEdge) :
    ctx'.edgeActs patterns e = ctx.edgeActs patterns e := by
  simp only [edgeActs, hctx.find?_eq, hctx.acting_eq, hctx.overrideActs_eq]

theorem accessActs_eq (e : FieldAccess) :
    ctx'.accessActs e = ctx.accessActs e := by
  simp only [accessActs, accessFinding?, hctx.find?_eq, hctx.acting_eq,
    hctx.skipReason?_eq, hctx.effectiveTag?_eq]

theorem guardActs_eq {marked marked' : DeclId → Bool} {d : Declaration}
    (hmarked : marked' d.id = marked d.id) :
    ctx'.guardActs marked' d = ctx.guardActs marked d := by
  simp only [guardActs, hmarked, hctx.skipReason?_eq, hctx.effectiveTag?_eq]

section Overrides

variable {overrides overrides' : List OverrideEdge}
  (hoverrides : overrides'.Perm overrides)

include hoverrides

theorem perm_impliedChildren (parent : Declaration) :
    (ctx'.model.impliedChildren overrides' parent).Perm
      (ctx.model.impliedChildren overrides parent) := by
  have htype := hctx.model.nearest?_eq parent.id .type
  rw [Declaration.mute_nothing, Option.map_id'] at htype
  simp only [Model.impliedChildren, Model.enclosingType?, htype, hctx.subtypes,
    hctx.find?_eq, hoverrides.mem_iff]
  cases ctx.model.nearest? parent.id .type with
  | none => exact .refl _
  | some owner =>
    exact (List.Perm.flatMap_left _ (fun id _ => hctx.members id)).filterMap _

theorem perm_impliedByActs (patterns : List Glob) (parent : Declaration) :
    (ctx'.impliedByActs patterns overrides' parent).Perm
      (ctx.impliedByActs patterns overrides parent) := by
  have himplied :
      ctx'.impliedActs patterns parent = ctx.impliedActs patterns parent := by
    funext child
    simp only [impliedActs, hctx.acting_eq, hctx.overrideActs_eq]
  simp only [impliedByActs, hctx.effectiveTag?_eq, himplied]
  split
  · exact .refl _
  · split
    · exact (hctx.perm_impliedChildren hoverrides parent).flatMap_right _
    · exact .refl _

theorem map_tag_callingTag?_eq (caller : DeclId) :
    (ctx'.callingTag? overrides' caller).map (·.tag) =
      (ctx.callingTag? overrides caller).map (·.tag) := by
  simp only [callingTag?, hctx.effectiveTag?_eq, hctx.tagsOf_eq, hctx.settings]
  cases ctx.effectiveTag? caller with
  | some tag => rfl
  | none =>
      dsimp only
      split
      · exact map_tag_agreedTag?_perm
          ((((hoverrides.filter _).map _).filterMap _).map _)
      · rfl

theorem map_gist_callFinding?_eq (e : CallEdge) :
    (ctx'.callFinding? overrides' e).map Finding.gist =
      (ctx.callFinding? overrides e).map Finding.gist := by
  have hcaller := hctx.map_tag_callingTag?_eq hoverrides e.caller
  simp only [callFinding?, hctx.find?_eq, hctx.skipReason?_eq,
    hctx.effectiveTag?_eq, hctx.model.locationOf_eq, hcaller]
  cases ctx.model.find? e.caller with
  | none => rfl
  | some caller =>
      dsimp only
      split
      · rfl
      · split
        · rfl
        · simp only [Option.map_some, Finding.gist, hcaller]

theorem map_deed_callActs_eq (e : CallEdge) :
    (ctx'.callActs overrides' e).map Act.deed =
      (ctx.callActs overrides e).map Act.deed := by
  simp only [callActs, acting, hctx.find?_eq, hctx.skipReason?_eq]
  cases ctx.model.find? e.caller with
  | none => rfl
  | some caller =>
      dsimp only
      split
      · rfl
      · simp only [List.map_cons, Act.map_deed_reports,
          hctx.map_gist_callFinding?_eq hoverrides e]

/-- The same children stand in both tables, each with the parents that its edges
give it. -/
theorem parentsByChild_eq_map :
    ctx'.parentsByChild overrides' =
      (ctx.parentsByChild overrides).map
        (fun id _ => (parentsOf overrides' id).eraseDups) := by
  apply Std.ExtTreeMap.ext_getElem?
  intro id
  have hchecks : ctx'.checks id = ctx.checks id := by
    simp only [checks, hctx.find?_eq, hctx.skipReason?_eq]
  have hparents := perm_parentsOf hoverrides id
  have hnone : parentsOf overrides' id ≠ [] ↔ parentsOf overrides id ≠ [] := by
    rw [ne_eq, ne_eq, ← List.length_eq_zero_iff, hparents.length_eq,
      List.length_eq_zero_iff]
  rw [Std.ExtTreeMap.getElem?_map, getElem?_parentsByChild,
    getElem?_parentsByChild, hchecks]
  simp only [hnone]
  split <;> rfl

theorem map_deed_families_eq (patterns : List Glob) :
    ((ctx'.parentsByChild overrides').toList.flatMap
      (ctx'.familyActs patterns)).map Act.deed =
      ((ctx.parentsByChild overrides).toList.flatMap
        (ctx.familyActs patterns)).map Act.deed := by
  rw [hctx.parentsByChild_eq_map hoverrides, Std.ExtTreeMap.toList_map,
    List.flatMap_map, List.map_flatMap, List.map_flatMap]
  apply List.flatMap_congr
  rintro ⟨child, parents⟩ hfamily
  rw [Std.ExtTreeMap.mem_toList_iff_getElem?_eq_some,
    getElem?_parentsByChild] at hfamily
  split at hfamily
  · cases hfamily
    rw [hctx.familyActs_eq]
    exact map_deed_familyActs_perm ctx patterns child
      (perm_eraseDups (perm_parentsOf hoverrides child))
  · cases hfamily

theorem perm_overridesActs :
    ((ctx'.overridesActs overrides').map Act.deed).Perm
      ((ctx.overridesActs overrides).map Act.deed) := by
  have hedges :
      (overrides'.flatMap (ctx'.edgeActs ctx.settings.exemptPatterns)).Perm
        (overrides.flatMap (ctx.edgeActs ctx.settings.exemptPatterns)) := by
    rw [funext (hctx.edgeActs_eq _)]
    exact hoverrides.flatMap_right _
  have himplied : (ctx'.model.declarations.flatMap
        (ctx'.impliedByActs ctx.settings.exemptPatterns overrides')).Perm
      (ctx.model.declarations.flatMap
        (ctx.impliedByActs ctx.settings.exemptPatterns overrides)) :=
    hctx.declarations.flatMap
      (fun parent _ => hctx.perm_impliedByActs hoverrides _ parent)
  simp only [overridesActs, hctx.settings, List.map_append,
    hctx.map_deed_families_eq hoverrides]
  refine ((hedges.map _).append ?_).append_right _
  split
  · exact himplied.map _
  · exact .refl _

end Overrides

end Context.Reorders

/-! ### Counters and records -/

theorem Stats.bump_comm (s : Stats) (a b : Counter) :
    (s.bump a).bump b = (s.bump b).bump a := by
  cases a <;> cases b <;> rfl

theorem Stats.foldl_bump_perm {counters counters' : List Counter}
    (hperm : counters'.Perm counters) (s : Stats) :
    counters'.foldl Stats.bump s = counters.foldl Stats.bump s :=
  hperm.foldl_eq' (fun a _ b _ s => s.bump_comm a b) s

namespace Registry

/-- Two tags at different locations, or one tag twice, may be recorded in any
order. -/
theorem record_comm (r : Registry) {s t : LocatedTag}
    (hagree : s.location = t.location → s = t) :
    (r.record s).record t = (r.record t).record s := by
  by_cases hlocation : s.location = t.location
  · rw [hagree hlocation]
  · apply ext_get?
    intro location
    simp only [get?_record]
    by_cases hs : s.location = location
    · subst hs
      simp [Ne.symm hlocation]
    · simp [hs]

theorem recordAll_perm (r : Registry) {tags tags' : List LocatedTag}
    (hperm : tags'.Perm tags)
    (hagree : ∀ s ∈ tags, ∀ t ∈ tags, s.location = t.location → s = t) :
    r.recordAll tags' = r.recordAll tags :=
  hperm.foldl_eq' (fun s hs t ht r =>
    r.record_comm (hagree s (hperm.mem_iff.mp hs) t (hperm.mem_iff.mp ht))) r

end Registry

namespace Checker

section Reordered

variable (c : Checker) {facts facts' : UnitFacts}
  (hfacts : facts.Reorders facts')
  (hbuild : SourceUnit.build facts = .ok (.ofFacts facts))

include hfacts hbuild

theorem reorders_context :
    (c.context (.ofFacts facts)).Reorders (c.context (.ofFacts facts')) := by
  have hdeclarations := hfacts.declarations
  refine ⟨⟨(SourceUnit.build_of_varies hfacts.varies hbuild).2, rfl⟩,
    hdeclarations, ?_, ?_, rfl⟩
  · intro id
    simp only [context, SourceUnit.ofFacts, Model.membersOf_ofDeclarations]
    exact (hdeclarations.filter _).map _
  · apply Hierarchy.transitiveSubtypes_congr
    intro sup sub
    simp only [context, SourceUnit.ofFacts, Model.extends_hierarchy_iff,
      hdeclarations.mem_iff]

theorem perm_edgeActs :
    ((c.edgeActs (.ofFacts facts')).map Act.deed).Perm
      ((c.edgeActs (.ofFacts facts)).map Act.deed) := by
  have hctx := c.reorders_context hfacts hbuild
  have hcalls : ((facts'.calls.flatMap
        ((c.context (.ofFacts facts')).callActs facts'.overrides)).map
        Act.deed).Perm
      ((facts.calls.flatMap
        ((c.context (.ofFacts facts)).callActs facts.overrides)).map
        Act.deed) := by
    rw [List.map_flatMap, List.map_flatMap]
    simp only [hctx.map_deed_callActs_eq hfacts.overrides]
    exact hfacts.calls.flatMap_right _
  rw [edgeActs, edgeActs, funext hctx.accessActs_eq]
  simp only [List.map_append]
  refine ((hctx.perm_overridesActs hfacts.overrides).append hcalls).append ?_
  split
  · exact (hfacts.fieldAccesses.flatMap_right _).map _
  · exact .refl _

/-- A run on reordered facts does the same deeds, in some order. -/
theorem perm_acts :
    ((c.acts (.ofFacts facts')).map Act.deed).Perm
      ((c.acts (.ofFacts facts)).map Act.deed) := by
  have hctx := c.reorders_context hfacts hbuild
  have hedges := c.perm_edgeActs hfacts hbuild
  have hmarked : ∀ id,
      .mark id ∈ c.edgeActs (.ofFacts facts') ↔
        .mark id ∈ c.edgeActs (.ofFacts facts) := by
    intro id
    rw [← Act.mark_mem_map_deed, hedges.mem_iff, Act.mark_mem_map_deed]
  have hguards :
      (c.context (.ofFacts facts')).guardActs
        (fun id => .mark id ∈ c.edgeActs (.ofFacts facts')) =
        (c.context (.ofFacts facts)).guardActs
          (fun id => .mark id ∈ c.edgeActs (.ofFacts facts)) := by
    funext d
    exact hctx.guardActs_eq (by simp only [hmarked])
  rw [acts, acts, hguards, List.map_append, List.map_append]
  exact hedges.append ((hctx.declarations.flatMap_right _).map _)

theorem perm_heldTags :
    ((c.context (.ofFacts facts')).heldTags
      (SourceUnit.ofFacts facts').model.declarations).Perm
      ((c.context (.ofFacts facts)).heldTags
        (SourceUnit.ofFacts facts).model.declarations) := by
  have hctx := c.reorders_context hfacts hbuild
  simp only [Context.heldTags, hctx.effectiveTag?_eq]
  exact hfacts.declarations.filterMap _

/-- A run finds the same in another order, up to what the order decides. -/
theorem perm_findings_run (registry : Registry) :
    ((c.run (.ofFacts facts') registry).journal.findings.map Finding.gist).Perm
      ((c.run (.ofFacts facts) registry).journal.findings.map
        Finding.gist) := by
  have hctx := c.reorders_context hfacts hbuild
  have hbuild' := (SourceUnit.build_of_varies hfacts.varies hbuild).1
  have haccepted := SourceUnit.Accepted.model ⟨facts, hbuild⟩
  have haccepted' := SourceUnit.Accepted.model ⟨facts', hbuild'⟩
  have hacts := c.perm_acts hfacts hbuild
  have hopening : (c.opening (.ofFacts facts') registry).journal.findings.Perm
      (c.opening (.ofFacts facts) registry).journal.findings :=
    ((c.perm_findings_opening haccepted' registry).trans
      (hfacts.declarations.filterMap _)).trans
      (c.perm_findings_opening haccepted registry).symm
  have hheard := Act.perm_map_gist_heard haccepted (fun _ _ => false)
    (c.exists_belongsTo haccepted)
  have hheard' :=
    Act.perm_map_gist_heard haccepted' (fun _ _ => false)
      (c.exists_belongsTo haccepted')
  have hlocation : (SourceUnit.ofFacts facts').model.locationOf =
      (SourceUnit.ofFacts facts).model.locationOf :=
    funext hctx.model.locationOf_eq
  rw [hlocation] at hheard'
  rw [c.findings_run haccepted, c.findings_run haccepted']
  simp only [List.map_append, List.map_map]
  refine (hopening.map _).append
    (hheard'.trans (List.Perm.trans ?_ hheard.symm))
  exact (hacts.filterMap _).append
    ((perm_eraseDups ((hacts.filterMap Deed.lock?).filter _)).map _)

theorem stats_run_eq (registry : Registry) :
    (c.run (.ofFacts facts') registry).stats =
      (c.run (.ofFacts facts) registry).stats := by
  have hbuild' := (SourceUnit.build_of_varies hfacts.varies hbuild).1
  have hfindings := (c.perm_findings_run hfacts hbuild registry).length_eq
  have hcounters := (c.perm_acts hfacts hbuild).filterMap Deed.counter?
  have hheld := (c.perm_heldTags hfacts hbuild).length_eq
  have hsize : (SourceUnit.ofFacts facts').model.size =
      (SourceUnit.ofFacts facts).model.size :=
    hfacts.declarations.length_eq
  rw [List.length_map, List.length_map] at hfindings
  rw [c.stats_run (SourceUnit.Accepted.model ⟨facts, hbuild⟩),
    c.stats_run (SourceUnit.Accepted.model ⟨facts', hbuild'⟩), hfindings, hsize,
    hheld,
    Act.filterMap_counter?_eq, Act.filterMap_counter?_eq,
    Stats.foldl_bump_perm hcounters]

end Reordered

/-- The order of what a host hands in is immaterial.  Facts in another order are
accepted or refused as before.  When they are accepted, all counters are the
same, the findings are the same up to their order and to what `Finding.gist`
leaves out, and so is the registry, unless two declarations have tags that
differ at one location. -/
theorem check_reorder (c : Checker) {facts facts' : UnitFacts}
    (hfacts : facts.Reorders facts') :
    ((∃ u, SourceUnit.build facts = .ok u) ↔
      ∃ u', SourceUnit.build facts' = .ok u') ∧
      ∀ u u', SourceUnit.build facts = .ok u →
        SourceUnit.build facts' = .ok u' →
        ∀ registry : Registry,
          (c.check u' registry).1.stats = (c.check u registry).1.stats ∧
          ((c.check u' registry).1.findings.map Finding.gist).Perm
            ((c.check u registry).1.findings.map Finding.gist) ∧
          ((∀ d ∈ facts.declarations, ∀ e ∈ facts.declarations,
              ∀ s ∈ (c.context u).effectiveTag? d.id,
                ∀ t ∈ (c.context u).effectiveTag? e.id,
                  s.location = t.location → s = t) →
            (c.check u' registry).2 = (c.check u registry).2) := by
  constructor
  · constructor
    · rintro ⟨u, hbuild⟩
      exact ⟨_, (SourceUnit.build_of_varies hfacts.varies hbuild).1⟩
    · rintro ⟨u', hbuild'⟩
      exact ⟨_, (SourceUnit.build_of_varies hfacts.symm.varies hbuild').1⟩
  · intro u u' hbuild hbuild' registry
    obtain ⟨-, -, rfl⟩ := SourceUnit.build_eq_ok_iff_ofFacts.mp hbuild
    obtain ⟨-, -, rfl⟩ := SourceUnit.build_eq_ok_iff_ofFacts.mp hbuild'
    refine ⟨c.stats_run_eq hfacts hbuild registry,
      c.perm_findings_run hfacts hbuild registry, ?_⟩
    intro hagree
    have hheld : ∀ s ∈ (c.context (.ofFacts facts)).heldTags facts.declarations,
        ∀ t ∈ (c.context (.ofFacts facts)).heldTags facts.declarations,
          s.location = t.location → s = t := by
      intro s hs t ht
      obtain ⟨d, hd, hs⟩ := List.mem_filterMap.mp hs
      obtain ⟨e, he, ht⟩ := List.mem_filterMap.mp ht
      exact hagree d hd e he s hs t ht
    calc
      (c.run (.ofFacts facts') registry).registry
          = registry.recordAll
            ((c.context (.ofFacts facts')).heldTags facts'.declarations) :=
        c.registry_run (SourceUnit.Accepted.model ⟨facts', hbuild'⟩) registry
      _ = registry.recordAll
          ((c.context (.ofFacts facts)).heldTags facts.declarations) :=
        registry.recordAll_perm (c.perm_heldTags hfacts hbuild) hheld
      _ = (c.run (.ofFacts facts) registry).registry :=
        (c.registry_run (SourceUnit.Accepted.model ⟨facts, hbuild⟩)
          registry).symm

/-- A dialog that is both a view and a task.  Its two methods override one
method of each, and the order of the edges decides which parent comes first. -/
def dialogFacts : UnitFacts where
  name := "dialog"
  declarations :=
    [{ id := ⟨1⟩, kind := .module, location := "app", qualifiedName := "app" },
      { id := ⟨2⟩, kind := .type, enclosing := some ⟨1⟩, location := "app.View",
        qualifiedName := "app.View" },
      { id := ⟨3⟩, kind := .method, enclosing := some ⟨2⟩,
        location := "app.View.draw", qualifiedName := "app.View.draw",
        markers := [{ tag := .uiEventThread }] },
      { id := ⟨4⟩, kind := .method, enclosing := some ⟨2⟩,
        location := "app.View.close", qualifiedName := "app.View.close",
        markers := [{ tag := .uiEventThread, requireSynchronized := true }] },
      { id := ⟨5⟩, kind := .type, enclosing := some ⟨1⟩, location := "app.Task",
        qualifiedName := "app.Task" },
      { id := ⟨6⟩, kind := .method, enclosing := some ⟨5⟩,
        location := "app.Task.draw", qualifiedName := "app.Task.draw",
        markers := [{ tag := .worker }] },
      { id := ⟨7⟩, kind := .method, enclosing := some ⟨5⟩,
        location := "app.Task.close", qualifiedName := "app.Task.close",
        markers := [{ tag := .uiEventThread, requireSynchronized := true }] },
      { id := ⟨8⟩, kind := .type, enclosing := some ⟨1⟩,
        location := "app.Dialog", qualifiedName := "app.Dialog" },
      { id := ⟨9⟩, kind := .method, enclosing := some ⟨8⟩,
        location := "app.Dialog.draw", qualifiedName := "app.Dialog.draw" },
      { id := ⟨10⟩, kind := .method, enclosing := some ⟨8⟩,
        location := "app.Dialog.close", qualifiedName := "app.Dialog.close" }]
  overrides := [⟨⟨9⟩, ⟨3⟩⟩, ⟨⟨9⟩, ⟨6⟩⟩, ⟨⟨10⟩, ⟨4⟩⟩, ⟨⟨10⟩, ⟨7⟩⟩]
  calls := [⟨⟨10⟩, ⟨6⟩, false⟩]

/-- From its end the dialog has other findings, and they differ in nothing but
what is left out. -/
theorem dialog_check_reorder :
    ∃ c u u', SourceUnit.build dialogFacts = .ok u ∧
      SourceUnit.build dialogFacts.reverse = .ok u' ∧
      ¬ (check c u' .empty).1.findings.Perm (check c u .empty).1.findings ∧
      ((check c u' .empty).1.findings.map Finding.gist).Perm
        ((check c u .empty).1.findings.map Finding.gist) ∧
      (check c u' .empty).1.stats = (check c u .empty).1.stats ∧
      (check c u' .empty).2 = (check c u .empty).2 := by
  have hbuild : SourceUnit.build dialogFacts = .ok (.ofFacts dialogFacts) :=
    SourceUnit.build_ofFacts (by decide +kernel)
  let c := ofSettings { check := { inheritFromOverridden? := some true } }
  obtain ⟨haccepted, houtcome⟩ := check_reorder c dialogFacts.reorders_reverse
  obtain ⟨u', hbuild'⟩ := haccepted.mp ⟨_, hbuild⟩
  obtain ⟨hstats, hfindings, hregistry⟩ := houtcome _ _ hbuild hbuild' .empty
  refine ⟨c, _, _, hbuild, hbuild', ?_, hfindings, hstats,
    hregistry (by decide +kernel)⟩
  rw [(SourceUnit.build_eq_ok_iff_ofFacts.mp hbuild').2.2]
  decide +kernel

end Checker

end ThreadConfinement
