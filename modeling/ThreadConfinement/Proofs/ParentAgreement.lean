import ThreadConfinement.Proofs.CallViolations
import ThreadConfinement.Proofs.InheritanceConflicts
import Mathlib.Logic.Basic

/-!
Parents that disagree are reported, and parents that agree are followed.

Overrides and calls look at the parents of a method in two ways: the one by a
table of distinct parents, the other by all edges.
`Checker.reports_xor_inherits` says that they draw the same line: a method
without a tag that overrides one with a tag is either reported or has a tag to
call with.
-/

namespace ThreadConfinement

namespace Context

variable {ctx : Context} {overrides : List OverrideEdge}

/-- A child with a tagged parent inherits a tag exactly when all of its parents
with tags agree. -/
theorem exists_inherits_iff {child : DeclId}
    (htagged : ∃ parent, ⟨child, parent⟩ ∈ overrides ∧
      ctx.effectiveTag? parent ≠ none) :
    (∃ tag, ctx.Inherits overrides child tag) ↔
      ∀ parent parent', ⟨child, parent⟩ ∈ overrides →
        ⟨child, parent'⟩ ∈ overrides →
        ∀ tag ∈ ctx.effectiveTag? parent, ∀ tag' ∈ ctx.effectiveTag? parent',
          tag.tag = tag'.tag := by
  constructor
  · rintro ⟨inherited, -, hagree⟩ parent parent' hedge hedge' tag htag tag'
      htag'
    rw [hagree _ hedge rfl tag htag, hagree _ hedge' rfl tag' htag']
  · intro hagree
    obtain ⟨parent, hedge, htag⟩ := htagged
    obtain ⟨tag, htag⟩ := Option.ne_none_iff_exists'.mp htag
    -- the first tag of a parent is the one that is inherited
    have hmem {other : LocatedTag} :
        other ∈ (ctx.tagsOf (parentsOf overrides child)).map Prod.snd ↔
          ∃ parent, ⟨child, parent⟩ ∈ overrides ∧
            ctx.effectiveTag? parent = some other := by
      simp [tagsOf, mem_parentsOf]
    have hne := List.ne_nil_of_mem (hmem.mpr ⟨parent, hedge, htag⟩)
    have hfirst := List.head?_eq_some_head hne
    obtain ⟨parent', hedge', htag'⟩ := hmem.mp (List.mem_of_head? hfirst)
    refine ⟨_, agreedTag?_parents_eq_some_iff.mp
      (agreedTag?_eq_some_iff.mpr ⟨hfirst, ?_⟩)⟩
    intro other hother
    obtain ⟨parent'', hedge'', htag''⟩ := hmem.mp hother
    exact hagree parent'' parent' hedge'' hedge' other htag'' _ htag'

/-- Where no parent is exempt, a child without a tag is torn exactly when it
inherits none. -/
theorem torn_iff_not_inherits {child : Declaration}
    (hexempt : ∀ e ∈ overrides, ∀ type ∈ ctx.model.enclosingType? e.parent,
      ∀ pattern ∈ ctx.settings.exemptPatterns,
      pattern.isMatch type.qualifiedName = false)
    (hacts : ctx.skipReason? child = none)
    (huntagged : ctx.effectiveTag? child.id = none)
    (htagged : ∃ parent, ⟨child.id, parent⟩ ∈ overrides ∧
      ctx.effectiveTag? parent ≠ none) :
    ctx.Torn overrides child ↔
      ¬ ∃ tag, ctx.Inherits overrides child.id tag := by
  rw [exists_inherits_iff htagged]
  constructor
  · rintro ⟨-, -, ⟨parent, tag⟩, hfirst, ⟨parent', tag'⟩, hsecond, hdiffer⟩
      hagree
    obtain ⟨hedge, -, htag⟩ := mem_taggedParents.mp hfirst
    obtain ⟨hedge', -, htag'⟩ := mem_taggedParents.mp hsecond
    exact hdiffer (hagree parent parent' hedge hedge' tag htag tag' htag')
  · intro hdisagree
    push Not at hdisagree
    obtain ⟨parent, parent', hedge, hedge', tag, htag, tag', htag', hdiffer⟩ :=
      hdisagree
    exact ⟨hacts, huntagged, (parent, tag),
      mem_taggedParents.mpr ⟨hedge, hexempt _ hedge, htag⟩, (parent', tag'),
      mem_taggedParents.mpr ⟨hedge', hexempt _ hedge', htag'⟩, hdiffer⟩

end Context

namespace Pass

variable {ctx : Context} {p : Pass}

/-- A settled pass adds what there is to report about a family. -/
theorem Settled.findings_checkInheritance (hp : p.Settled ctx)
    (patterns : List Glob) (family : DeclId × List DeclId) :
    (p.checkInheritance ctx patterns family).journal.findings =
      p.journal.findings ++
        (ctx.inheritanceFinding? patterns family).toList := by
  have hfindings :=
    congrArg Ledger.findings
      (hp.performs_checkInheritance patterns family).ledger
  have hheard :
      (Act.heard p.ledger.demanded (ctx.familyActs patterns family)).map
        Prod.snd =
        (ctx.inheritanceFinding? patterns family).toList := by
    rw [Context.familyActs]
    cases ctx.inheritanceFinding? patterns family <;> rfl
  rw [Ledger.findings_foldl_perform, hheard] at hfindings
  exact hfindings

/-- A settled pass finds the tag that a method inherits. -/
theorem Settled.overriddenTag_eq_some_iff (hp : p.Settled ctx)
    (overrides : List OverrideEdge) {child : DeclId} {tag : LocatedTag} :
    (p.overriddenTag ctx (parentIndex overrides) child).1 = some tag ↔
      ctx.Inherits overrides child tag := by
  rw [hp.overriddenTag, Context.agreedTag?_parents_eq_some_iff]

end Pass

namespace Checker

/-- A method that acts, has no tag and overrides one with a tag stands in the
table of children.  When no type around its parents is exempt, then either it is
among the children that the report names for parents that disagree, or its calls
get a tag from its parents, and that is the tag of all parents that have one.
It is among these children exactly when the check of its family, by whatever
settled pass comes to it, adds a finding of the report. -/
theorem reports_xor_inherits (c : Checker) {u : SourceUnit}
    (haccepted : u.Accepted) (registry : Registry)
    (hexempt : ∀ e ∈ u.overrides, ∀ type ∈ u.model.enclosingType? e.parent,
      ∀ pattern ∈ c.settings.exemptPatterns,
      pattern.isMatch type.qualifiedName = false)
    {child : Declaration} (hchild : child ∈ u.model.declarations)
    (hacts : (c.context u).skipReason? child = none)
    (huntagged : (c.context u).effectiveTag? child.id = none)
    (htagged : ∃ parent, ⟨child.id, parent⟩ ∈ u.overrides ∧
      (c.context u).effectiveTag? parent ≠ none) :
    ∃ (children : List Declaration) (parents : List DeclId),
      children.Pairwise (fun first second => first.id.toNat < second.id.toNat) ∧
      (∀ d, d ∈ children ↔ d ∈ u.model.declarations ∧
        (c.context u).Torn u.overrides d) ∧
      (c.check u registry).1.findingsOf .inheritanceConflict =
        children.map ((c.context u).disagreement u.overrides) ∧
      ((c.context u).parentsByChild u.overrides)[child.id]? = some parents ∧
      ∀ p : Pass, p.Settled (c.context u) →
        Xor (child ∈ children)
            (∃ tag, (p.overriddenTag (c.context u) (parentIndex u.overrides)
              child.id).1 = some tag) ∧
          (child ∈ children ↔
            ∃ f ∈ (c.check u registry).1.findings,
              f.rule = .inheritanceConflict ∧ f.location = child.location ∧
              (p.checkInheritance (c.context u) c.settings.exemptPatterns
                (child.id, parents)).journal.findings =
                  p.journal.findings ++ [f]) ∧
          ∀ tag,
            (p.overriddenTag (c.context u) (parentIndex u.overrides)
              child.id).1 = some tag →
            ∀ parent, ⟨child.id, parent⟩ ∈ u.overrides →
              ∀ other ∈ (c.context u).effectiveTag? parent,
                other.tag = tag.tag := by
  have hmodel : (c.context u).model.Accepted := haccepted.model
  obtain ⟨children, hascend, hmem, hfindings⟩ :=
    c.findingsOf_inheritanceConflict haccepted.model registry
  refine ⟨children, (parentsOf u.overrides child.id).eraseDups, hascend, hmem,
    hfindings, ?_, ?_⟩
  · obtain ⟨parent, hedge, -⟩ := htagged
    rw [Context.getElem?_parentsByChild, if_pos]
    exact ⟨Context.checks_eq_true_iff.mpr
        ⟨child, hmodel.find?_id hchild, hacts⟩,
      List.ne_nil_of_mem (mem_parentsOf.mpr hedge)⟩
  · intro p hp
    have htorn : child ∈ children ↔ (c.context u).Torn u.overrides child := by
      rw [hmem, and_iff_right hchild]
    have hstep := hp.findings_checkInheritance c.settings.exemptPatterns
      (child.id, (parentsOf u.overrides child.id).eraseDups)
    have hfinding : (c.context u).inheritanceFinding? c.settings.exemptPatterns
        (child.id, (parentsOf u.overrides child.id).eraseDups) =
        if (c.context u).Torn u.overrides child then
          some ((c.context u).disagreement u.overrides child)
        else none :=
      Context.inheritanceFinding?_eq hmodel hchild hacts
    rw [hfinding] at hstep
    simp only [hp.overriddenTag_eq_some_iff]
    refine ⟨?_, ?_, ?_⟩
    · rw [xor_iff_iff_not, htorn]
      exact Context.torn_iff_not_inherits hexempt hacts huntagged htagged
    · constructor
      · intro hreported
        have hfound : (c.context u).disagreement u.overrides child ∈
            (c.check u registry).1.findingsOf .inheritanceConflict := by
          rw [hfindings]
          exact List.mem_map_of_mem hreported
        refine ⟨_, (List.mem_filter.mp hfound).1, rfl, rfl, ?_⟩
        simp [hstep, htorn.mp hreported]
      · rintro ⟨f, -, -, -, hreported⟩
        rw [htorn]
        by_contra hquiet
        simp [hstep, hquiet] at hreported
    · rintro tag ⟨-, hagree⟩ parent hedge other hother
      exact hagree _ hedge rfl other hother

/-- What the menu draws with inherits a tag, past a parent without one; what it
runs with is reported. -/
theorem menu_reports_xor_inherits :
    ∃ u, SourceUnit.build menuFacts = .ok u ∧
      let c := Checker.ofSettings {}
      let p := c.opening u .empty
      let reported (id : DeclId) : Prop :=
        ∃ child ∈ u.model.declarations, child.id = id ∧
          (c.context u).disagreement u.overrides child ∈
            (c.check u .empty).1.findingsOf .inheritanceConflict
      (p.Settled (c.context u) ∧
        (p.overriddenTag (c.context u) (parentIndex u.overrides) ⟨9⟩).1 =
          some { tag := .uiEventThread, location := "app.View.draw" } ∧
        ∀ parent, ⟨⟨9⟩, parent⟩ ∈ u.overrides →
          ∀ other ∈ (c.context u).effectiveTag? parent,
            other.tag = .uiEventThread) ∧
      reported ⟨10⟩ ∧
      ∃ parents, ((c.context u).parentsByChild u.overrides)[(⟨10⟩ : DeclId)]? =
        some parents ∧
        ∃ f ∈ (c.check u .empty).1.findings,
          f.rule = .inheritanceConflict ∧ f.location = "app.Menu.run" ∧
          (p.checkInheritance (c.context u) c.settings.exemptPatterns
            (⟨10⟩, parents)).journal.findings = p.journal.findings ++ [f] := by
  refine ⟨_, build_menuFacts, ?_⟩
  intro c p reported
  have haccepted : (SourceUnit.ofFacts menuFacts).Accepted :=
    ⟨menuFacts, build_menuFacts⟩
  have hp : p.Settled (c.context (.ofFacts menuFacts)) :=
    Pass.settled_resolveAll haccepted.model (Pass.remembers_start _ .empty)
  have hdraws : (p.overriddenTag (c.context (.ofFacts menuFacts))
      (parentIndex menuFacts.overrides) ⟨9⟩).1 =
      some { tag := .uiEventThread, location := "app.View.draw" } := by
    decide +kernel
  have hruns : (p.overriddenTag (c.context (.ofFacts menuFacts))
      (parentIndex menuFacts.overrides) ⟨10⟩).1 = none := by decide +kernel
  have hrunner := List.get_mem menuFacts.declarations ⟨9, by decide⟩
  obtain ⟨_, _, -, -, -, -, hdraw⟩ :=
    c.reports_xor_inherits haccepted .empty (by decide +kernel)
      (List.get_mem menuFacts.declarations ⟨8, by decide⟩) (by decide +kernel)
      (by decide +kernel) ⟨⟨3⟩, by decide +kernel, by decide +kernel⟩
  obtain ⟨children, parents, -, -, hfindings, hparents, hrun⟩ :=
    c.reports_xor_inherits haccepted .empty (by decide +kernel) hrunner
      (by decide +kernel) (by decide +kernel)
      ⟨⟨3⟩, by decide +kernel, by decide +kernel⟩
  obtain ⟨hxor, hadded, -⟩ := hrun p hp
  rcases hxor.or with hreported | ⟨tag, htag⟩
  · refine ⟨⟨hp, hdraws, (hdraw p hp).2.2 _ hdraws⟩, ⟨_, hrunner, rfl, ?_⟩,
      parents, hparents, hadded.mp hreported⟩
    rw [hfindings]
    exact List.mem_map_of_mem hreported
  · cases hruns.symm.trans htag

end Checker

end ThreadConfinement
