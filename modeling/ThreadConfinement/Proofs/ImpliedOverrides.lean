import ThreadConfinement.Proofs.FirstRound
import ThreadConfinement.Proofs.Subtypes
import Mathlib.Data.List.Nodup

/-!
Overrides that are implied by a tag for all subclasses.

`Context.Implies` says which pairs of methods these are, by the types of the two
and nothing else.  The search through subtypes and their members comes to each
of them exactly once, whatever cycles and diamonds the types form:
`Context.mem_impliedPairs_iff` and `Context.nodup_impliedPairs`.
-/

namespace ThreadConfinement

namespace Model

/-- `sub` is a type that names `sup` among its supertypes. -/
def Extends (m : Model) (sup sub : DeclId) : Prop :=
  ∃ d ∈ m.declarations, d.kind = .type ∧ d.id = sub ∧ sup ∈ d.supertypes

/-- Going down from `sup`, one comes to `sub`, which is another type. -/
def Below (m : Model) (sup sub : DeclId) : Prop :=
  sub ≠ sup ∧ Relation.TransGen m.Extends sup sub

namespace Accepted

variable {m : Model} (haccepted : m.Accepted)

include haccepted

theorem mem_transitiveSubtypes_iff_below {sup sub : DeclId} :
    sub ∈ m.hierarchy.transitiveSubtypes sup ↔ m.Below sup sub := by
  obtain ⟨ds, hbuild⟩ := haccepted
  obtain ⟨-, rfl⟩ := build_eq_ok_iff.mp hbuild
  have hedges :
      (ofDeclarations ds).hierarchy.Extends = (ofDeclarations ds).Extends := by
    funext sup sub
    exact propext extends_hierarchy_iff
  rw [Hierarchy.mem_transitiveSubtypes_iff, hedges, Below]

theorem mem_membersOf_iff {outer id : DeclId} :
    id ∈ m.membersOf outer ↔
      ∃ d ∈ m.declarations, d.enclosing = some outer ∧ d.id = id := by
  obtain ⟨ds, hbuild⟩ := haccepted
  obtain ⟨-, rfl⟩ := build_eq_ok_iff.mp hbuild
  rw [membersOf_ofDeclarations]
  simp [ofDeclarations, and_assoc]

theorem nodup_membersOf (outer : DeclId) : (m.membersOf outer).Nodup := by
  obtain ⟨ds, hbuild⟩ := haccepted
  obtain ⟨hfault, rfl⟩ := build_eq_ok_iff.mp hbuild
  rw [membersOf_ofDeclarations]
  exact (nodup_of_fault?_eq_none hfault).sublist (List.filter_sublist.map _)

/-- A declaration is a member of one other at most, so members of different
types differ. -/
theorem nodup_flatMap_membersOf {types : List DeclId} (htypes : types.Nodup) :
    (types.flatMap m.membersOf).Nodup := by
  rw [List.nodup_flatMap]
  refine ⟨fun type _ => haccepted.nodup_membersOf type, htypes.imp ?_⟩
  intro first second hne id hfirst hsecond
  obtain ⟨d, hd, henc, hid⟩ := haccepted.mem_membersOf_iff.mp hfirst
  obtain ⟨e, he, henc', hid'⟩ := haccepted.mem_membersOf_iff.mp hsecond
  cases haccepted.eq_of_id_eq hd he (hid.trans hid'.symm)
  rw [henc] at henc'
  exact hne (Option.some.inj henc')

/-- What the search comes to below the type around `parent`. -/
theorem mem_impliedChildren_iff_of_owner {overrides : List OverrideEdge}
    {parent child owner : Declaration}
    (howner : m.enclosingType? parent.id = some owner) :
    child ∈ m.impliedChildren overrides parent ↔
      child ∈ m.declarations ∧ child.kind = .method ∧
        child.signature = parent.signature ∧
        (∃ sub, child.enclosing = some sub ∧ m.Below owner.id sub) ∧
        ⟨child.id, parent.id⟩ ∉ overrides := by
  simp only [impliedChildren, howner, List.mem_filterMap, List.mem_flatMap,
    haccepted.mem_transitiveSubtypes_iff_below, haccepted.mem_membersOf_iff,
    Option.filter_eq_some_iff, haccepted.find?_eq_some_iff,
    Bool.and_eq_true, beq_iff_eq, decide_eq_true_eq]
  constructor
  · rintro ⟨id, ⟨sub, hbelow, d, hd, henc, hid⟩, ⟨hchild, hid'⟩,
      ⟨hkind, hsignature⟩, hedge⟩
    cases haccepted.eq_of_id_eq hd hchild (hid.trans hid'.symm)
    exact ⟨hchild, hkind, hsignature, ⟨sub, henc, hbelow⟩, hedge⟩
  · rintro ⟨hchild, hkind, hsignature, ⟨sub, henc, hbelow⟩, hedge⟩
    exact ⟨child.id, ⟨sub, hbelow, child, hchild, henc, rfl⟩, ⟨hchild, rfl⟩,
      ⟨hkind, hsignature⟩, hedge⟩

theorem mem_impliedChildren_iff {overrides : List OverrideEdge}
    {parent child : Declaration} (hparent : parent ∈ m.declarations) :
    child ∈ m.impliedChildren overrides parent ↔
      child ∈ m.declarations ∧ child.kind = .method ∧
        child.signature = parent.signature ∧
        (∃ owner sub, m.Nearest .type parent owner ∧
          child.enclosing = some sub ∧
          m.Below owner.id sub) ∧
        ⟨child.id, parent.id⟩ ∉ overrides := by
  constructor
  · intro hmem
    cases howner : m.enclosingType? parent.id with
    | none => simp [impliedChildren, howner] at hmem
    | some owner =>
        obtain ⟨hchild, hkind, hsignature, ⟨sub, henc, hbelow⟩, hedge⟩ :=
          (haccepted.mem_impliedChildren_iff_of_owner howner).mp hmem
        have hnearest :=
          (haccepted.nearest?_eq_some_iff .type hparent).mp howner
        exact ⟨hchild, hkind, hsignature,
          ⟨owner, sub, hnearest, henc, hbelow⟩, hedge⟩
  · rintro ⟨hchild, hkind, hsignature,
      ⟨owner, sub, hnearest, henc, hbelow⟩, hedge⟩
    have howner := (haccepted.nearest?_eq_some_iff .type hparent).mpr hnearest
    exact (haccepted.mem_impliedChildren_iff_of_owner howner).mpr
      ⟨hchild, hkind, hsignature, ⟨sub, henc, hbelow⟩, hedge⟩

theorem nodup_impliedChildren (overrides : List OverrideEdge)
    (parent : Declaration) :
    (m.impliedChildren overrides parent).Nodup := by
  rw [impliedChildren]
  cases m.enclosingType? parent.id with
  | none => exact List.nodup_nil
  | some owner =>
      have hsubtypes : (m.hierarchy.transitiveSubtypes owner.id).Nodup :=
        nodup_of_ascending (m.hierarchy.pairwise_transitiveSubtypes owner.id)
      refine (haccepted.nodup_flatMap_membersOf hsubtypes).filterMap ?_
      -- a declaration is found under its own number only
      intro id id' child hfirst hsecond
      have hfind := (Option.filter_eq_some_iff.mp hfirst).1
      have hfind' := (Option.filter_eq_some_iff.mp hsecond).1
      rw [← (haccepted.find?_eq_some_iff.mp hfind).2,
        ← (haccepted.find?_eq_some_iff.mp hfind').2]

end Accepted

end Model

namespace Context

/-- A tag for all subclasses on `parent` stands in for an override edge from
`child`. -/
structure Implies (ctx : Context) (overrides : List OverrideEdge)
    (parent child : Declaration) : Prop where
  parent_mem : parent ∈ ctx.model.declarations
  child_mem : child ∈ ctx.model.declarations
  parent_method : parent.kind = .method
  child_method : child.kind = .method
  signature : ∃ signature, parent.signature = some signature ∧
    child.signature = some signature
  covers : ∃ tag, ctx.effectiveTag? parent.id = some tag ∧
    tag.coversSubclasses = true
  below : ∃ owner sub, ctx.model.Nearest .type parent owner ∧
    child.enclosing = some sub ∧
    ctx.model.Below owner.id sub
  unstated : ⟨child.id, parent.id⟩ ∉ overrides

/-- The methods that a declaration implies an override for, in the order of the
search. -/
def impliedBy (ctx : Context) (overrides : List OverrideEdge)
    (parent : Declaration) : List Declaration :=
  if parent.kind ≠ .method || parent.signature.isNone then []
  else if (ctx.effectiveTag? parent.id).any (·.coversSubclasses) then
    ctx.model.impliedChildren overrides parent
  else []

def impliedPairs (ctx : Context) (overrides : List OverrideEdge) :
    List (Declaration × Declaration) :=
  ctx.model.declarations.flatMap (fun parent =>
    (ctx.impliedBy overrides parent).map (fun child => (parent, child)))

theorem impliedByActs_eq (ctx : Context) (patterns : List Glob)
    (overrides : List OverrideEdge) (parent : Declaration) :
    ctx.impliedByActs patterns overrides parent =
      (ctx.impliedBy overrides parent).flatMap
        (ctx.impliedActs patterns parent) := by
  rw [impliedByActs, impliedBy]
  split
  · rfl
  · split
    · rfl
    · rfl

section Accepted

variable {ctx : Context} (haccepted : ctx.model.Accepted)

include haccepted

theorem mem_impliedBy_iff {overrides : List OverrideEdge}
    {parent child : Declaration} (hparent : parent ∈ ctx.model.declarations) :
    child ∈ ctx.impliedBy overrides parent ↔
      ctx.Implies overrides parent child := by
  have hcovers : (ctx.effectiveTag? parent.id).any (·.coversSubclasses) = true ↔
      ∃ tag, ctx.effectiveTag? parent.id = some tag ∧
        tag.coversSubclasses = true :=
    Option.any_eq_true _ _
  have hlisted : child ∈ ctx.impliedBy overrides parent ↔
      parent.kind = .method ∧ parent.signature ≠ none ∧
        (∃ tag, ctx.effectiveTag? parent.id = some tag ∧
          tag.coversSubclasses = true) ∧
        child ∈ ctx.model.impliedChildren overrides parent := by
    rw [← hcovers, impliedBy]
    split
    case isTrue hother =>
      simp only [ne_eq, Bool.or_eq_true, decide_eq_true_eq,
        Option.isNone_iff_eq_none] at hother
      simp only [List.not_mem_nil, false_iff]
      rintro ⟨hmethod, hsome, -, -⟩
      exact hother.elim (· hmethod) hsome
    case isFalse hmethod =>
      simp only [ne_eq, Bool.or_eq_true, decide_eq_true_eq,
        Option.isNone_iff_eq_none, not_or, Decidable.not_not] at hmethod
      split
      case isTrue hcovering => simp [hmethod, hcovering]
      case isFalse hcovering => simp [hcovering]
  rw [hlisted, haccepted.mem_impliedChildren_iff hparent]
  constructor
  · rintro ⟨hmethod, hsome, htag, hchild, hkind, hsignature, hbelow, hedge⟩
    obtain ⟨signature, hparentSignature⟩ := Option.ne_none_iff_exists'.mp hsome
    exact ⟨hparent, hchild, hmethod, hkind,
      ⟨signature, hparentSignature, hsignature.trans hparentSignature⟩, htag,
      hbelow, hedge⟩
  · intro himplies
    obtain ⟨signature, hparentSignature, hchildSignature⟩ := himplies.signature
    exact ⟨himplies.parent_method, by simp [hparentSignature], himplies.covers,
      himplies.child_mem, himplies.child_method,
      hchildSignature.trans hparentSignature.symm, himplies.below,
      himplies.unstated⟩

theorem nodup_impliedBy (overrides : List OverrideEdge) (parent : Declaration) :
    (ctx.impliedBy overrides parent).Nodup := by
  rw [impliedBy]
  split
  · exact List.nodup_nil
  · split
    · exact haccepted.nodup_impliedChildren overrides parent
    · exact List.nodup_nil

/-- The search comes to exactly the pairs that are implied. -/
theorem mem_impliedPairs_iff {overrides : List OverrideEdge}
    {parent child : Declaration} :
    (parent, child) ∈ ctx.impliedPairs overrides ↔
      ctx.Implies overrides parent child := by
  rw [impliedPairs, List.mem_flatMap]
  constructor
  · rintro ⟨p, hp, hpair⟩
    obtain ⟨c, hc, heq⟩ := List.mem_map.mp hpair
    cases heq
    exact (mem_impliedBy_iff haccepted hp).mp hc
  · intro himplies
    exact ⟨parent, himplies.parent_mem, List.mem_map.mpr
      ⟨child, (mem_impliedBy_iff haccepted himplies.parent_mem).mpr himplies,
        rfl⟩⟩

/-- The search comes to no pair twice. -/
theorem nodup_impliedPairs (overrides : List OverrideEdge) :
    (ctx.impliedPairs overrides).Nodup := by
  rw [impliedPairs, List.nodup_flatMap]
  refine ⟨fun parent _ => (nodup_impliedBy haccepted overrides parent).map ?_,
    haccepted.nodup_declarations.imp ?_⟩
  · intro first second heq
    exact (Prod.mk.inj heq).2
  · rintro first second hne ⟨p, c⟩ hfirst hsecond
    obtain ⟨_, -, heq⟩ := List.mem_map.mp hfirst
    obtain ⟨_, -, heq'⟩ := List.mem_map.mp hsecond
    exact hne ((Prod.mk.inj heq).1.trans (Prod.mk.inj heq').1.symm)

end Accepted

end Context

end ThreadConfinement
