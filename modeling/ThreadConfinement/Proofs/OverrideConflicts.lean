import ThreadConfinement.Proofs.ImpliedOverrides
import ThreadConfinement.Proofs.Resemblance
import ThreadConfinement.Proofs.TagFindings

/-!
Which overrides are reported, and in which order.

`Context.Clashes` says when a child does not fit one of its parents.  A run
reports the explicit overrides that clash in the order of their edges, and after
them the implied ones, each once and in the order in which types and
declarations come: `Checker.check_overrideConflicts`.
-/

namespace ThreadConfinement

namespace Model

/-- The host hands in `first` before `second`. -/
def Precedes (m : Model) (first second : Declaration) : Prop :=
  [first, second].Sublist m.declarations

/-- The type around `first` has the smaller number, or one type is around both
and `first` comes first. -/
def PrecedesByType (m : Model) (first second : Declaration) : Prop :=
  ∃ type type', m.Nearest .type first type ∧ m.Nearest .type second type' ∧
    (type.id.toNat < type'.id.toNat ∨ type = type' ∧ m.Precedes first second)

/-- The order of pairs of a parent and a child: by the parents, and then by the
types around the children. -/
def VisitsBefore (m : Model)
    (first second : Declaration × Declaration) : Prop :=
  m.Precedes first.1 second.1 ∨ first.1 = second.1 ∧
    m.PrecedesByType first.2 second.2

theorem pairwise_precedes (m : Model) : m.declarations.Pairwise m.Precedes :=
  List.pairwise_iff_forall_sublist.mpr (fun hsublist => hsublist)

/-- Only types that were handed in stand below others. -/
theorem Below.exists_type {m : Model} {sup sub : DeclId}
    (hbelow : m.Below sup sub) :
    ∃ type ∈ m.declarations, type.kind = .type ∧ type.id = sub := by
  obtain ⟨_, -, type, htype, hkind, hid, -⟩ :=
    Relation.TransGen.tail'_iff.mp hbelow.2
  exact ⟨type, htype, hkind, hid⟩

namespace Accepted

variable {m : Model} (haccepted : m.Accepted)

include haccepted

/-- A type below another is the nearest around the methods that stand directly
in it. -/
theorem exists_nearest_of_below {sup sub : DeclId} {d : Declaration}
    (hd : d ∈ m.declarations) (hkind : d.kind = .method)
    (henc : d.enclosing = some sub) (hbelow : m.Below sup sub) :
    ∃ type, m.Nearest .type d type ∧ type.id = sub := by
  obtain ⟨type, htype, htypeKind, rfl⟩ := hbelow.exists_type
  have hencloses : m.Encloses type d := ⟨htype, henc⟩
  exact ⟨type, (haccepted.nearest_type_iff hd (by simp [hkind])).mpr ⟨hencloses,
    htypeKind⟩, rfl⟩

theorem exists_below_iff {sup : DeclId} {d : Declaration}
    (hd : d ∈ m.declarations) (hkind : d.kind = .method) :
    (∃ sub, d.enclosing = some sub ∧ m.Below sup sub) ↔
      ∃ type, m.Nearest .type d type ∧ m.Below sup type.id := by
  constructor
  · rintro ⟨sub, henc, hbelow⟩
    obtain ⟨type, htype, rfl⟩ :=
      haccepted.exists_nearest_of_below hd hkind henc hbelow
    exact ⟨type, htype, hbelow⟩
  · rintro ⟨type, htype, hbelow⟩
    have hencloses :=
      ((haccepted.nearest_type_iff hd (by simp [hkind])).mp htype).1
    exact ⟨type.id, hencloses.2, hbelow⟩

theorem pairwise_membersOf (outer : DeclId) :
    (m.membersOf outer).Pairwise (fun first second =>
      ∀ d e, m.find? first = some d → m.find? second = some e →
          m.Precedes d e) := by
  have hmembers : m.membersOf outer =
      (m.declarations.filter (fun d => d.enclosing == some outer)).map
        Declaration.id := by
    obtain ⟨ds, hbuild⟩ := haccepted
    obtain ⟨-, rfl⟩ := build_eq_ok_iff.mp hbuild
    exact membersOf_ofDeclarations ds outer
  rw [hmembers, List.pairwise_map]
  refine (m.pairwise_precedes.filter _).imp_of_mem ?_
  intro first second hfirst hsecond hprecedes d e hd he
  rw [haccepted.find?_id (List.mem_filter.mp hfirst).1] at hd
  rw [haccepted.find?_id (List.mem_filter.mp hsecond).1] at he
  cases hd
  cases he
  exact hprecedes

/-- The search comes to the types in ascending order, and to the members of each
in the order of the host. -/
theorem pairwise_impliedChildren (overrides : List OverrideEdge)
    (parent : Declaration) :
    (m.impliedChildren overrides parent).Pairwise m.PrecedesByType := by
  rw [impliedChildren]
  cases m.enclosingType? parent.id with
  | none => exact List.Pairwise.nil
  | some owner =>
      -- where a method that the search comes to stands
      have hplace : ∀ sub ∈ m.hierarchy.transitiveSubtypes owner.id,
          ∀ id ∈ m.membersOf sub, ∀ d, m.find? id = some d → d.kind = .method →
            ∃ type, m.Nearest .type d type ∧ type.id = sub := by
        intro sub hsub id hid d hfind hkind
        obtain ⟨e, he, henc, heId⟩ := haccepted.mem_membersOf_iff.mp hid
        obtain ⟨hd, hdId⟩ := haccepted.find?_eq_some_iff.mp hfind
        cases haccepted.eq_of_id_eq he hd (heId.trans hdId.symm)
        exact haccepted.exists_nearest_of_below hd hkind henc
          (haccepted.mem_transitiveSubtypes_iff_below.mp hsub)
      simp only [List.pairwise_filterMap, Option.filter_eq_some_iff,
        Bool.and_eq_true, beq_iff_eq]
      rw [List.pairwise_flatMap]
      constructor
      · intro sub hsub
        refine (haccepted.pairwise_membersOf sub).imp_of_mem ?_
        rintro first second hfirst hsecond hprecedes d ⟨hd, ⟨hdKind, -⟩, -⟩ e
          ⟨he, ⟨heKind, -⟩, -⟩
        obtain ⟨type, hnearest, hid⟩ := hplace sub hsub first hfirst d hd hdKind
        obtain ⟨type', hnearest', hid'⟩ :=
          hplace sub hsub second hsecond e he heKind
        have hsame :=
          haccepted.eq_of_id_eq hnearest.mem_declarations
            hnearest'.mem_declarations
          (hid.trans hid'.symm)
        exact ⟨type, type', hnearest, hnearest',
          Or.inr ⟨hsame, hprecedes d e hd he⟩⟩
      · refine (m.hierarchy.pairwise_transitiveSubtypes owner.id).imp_of_mem ?_
        rintro sub sub' hsub hsub' hlt first hfirst second hsecond d
          ⟨hd, ⟨hdKind, -⟩, -⟩ e ⟨he, ⟨heKind, -⟩, -⟩
        obtain ⟨type, hnearest, hid⟩ := hplace sub hsub first hfirst d hd hdKind
        obtain ⟨type', hnearest', hid'⟩ :=
          hplace sub' hsub' second hsecond e he heKind
        rw [← hid, ← hid'] at hlt
        exact ⟨type, type', hnearest, hnearest', Or.inl hlt⟩

end Accepted

end Model

namespace Context

/-- The child acts and has a tag that heeds its parent, the parent is not
exempt, and the tag may not override that of the parent. -/
def Clashes (ctx : Context) (parent child : Declaration) : Prop :=
  ctx.skipReason? child = none ∧
    ∃ tag ∈ ctx.effectiveTag? child.id, tag.ignoreParent = false ∧
      (∀ type ∈ ctx.model.enclosingType? parent.id,
        ∀ pattern ∈ ctx.settings.exemptPatterns,
          pattern.isMatch type.qualifiedName = false) ∧
      tag.tag.mayOverride ((ctx.effectiveTag? parent.id).map (·.tag)) = false

instance (ctx : Context) (parent child : Declaration) :
    Decidable (ctx.Clashes parent child) :=
  inferInstanceAs (Decidable (_ ∧ ∃ tag ∈ _,
    _ ∧ (∀ type ∈ _, ∀ pattern ∈ _, _) ∧ _))

def conflict (ctx : Context) (implicit : Bool)
    (pair : Declaration × Declaration) : Finding :=
  .overrideConflict pair.2.location pair.1.location
    (ctx.effectiveTag? pair.2.id) (ctx.effectiveTag? pair.1.id) implicit

theorem clashes_iff {ctx : Context} {parent child : Declaration} :
    ctx.Clashes parent child ↔
      ctx.skipReason? child = none ∧
        overrideConflicts
          (ctx.model.isExempt ctx.settings.exemptPatterns parent.id)
          (ctx.effectiveTag? child.id) (ctx.effectiveTag? parent.id) =
            true := by
  rw [Clashes]
  cases ctx.effectiveTag? child.id with
  | none => simp [overrideConflicts]
  | some tag =>
    simp [overrideConflicts, Model.isExempt, Option.any_eq_false, and_assoc]

/-- A child that acts is reported with its parent exactly when the two clash. -/
theorem overrideFinding?_eq {ctx : Context} (haccepted : ctx.model.Accepted)
    {parent : Declaration} (hparent : parent ∈ ctx.model.declarations)
    (child : Declaration) (implicit : Bool) :
    (if (ctx.skipReason? child).isSome then none
      else ctx.overrideFinding? ctx.settings.exemptPatterns implicit
        child parent.id) =
      if ctx.Clashes parent child then
        some (ctx.conflict implicit (parent, child))
      else none := by
  simp only [overrideFinding?, haccepted.locationOf_id hparent,
    conflict, clashes_iff]
  cases ctx.skipReason? child with
  | some reason => simp
  | none => simp

/-- What is reported about the overrides that a declaration implies. -/
theorem impliedFindings_eq {ctx : Context} (haccepted : ctx.model.Accepted)
    (overrides : List OverrideEdge) {parent : Declaration}
    (hparent : parent ∈ ctx.model.declarations) :
    ctx.impliedFindings ctx.settings.exemptPatterns overrides parent =
      (((ctx.impliedBy overrides parent).map
        (fun child => (parent, child))).filter
        (fun pair => ctx.Clashes pair.1 pair.2)).map (ctx.conflict true) := by
  have hlist :
      ctx.impliedFindings ctx.settings.exemptPatterns overrides parent =
        (ctx.impliedBy overrides parent).flatMap (fun child =>
          (if (ctx.skipReason? child).isSome then none
            else ctx.overrideFinding? ctx.settings.exemptPatterns true child
              parent.id).toList) := by
    rw [impliedFindings, impliedBy]
    simp only [apply_ite Option.toList, Option.toList_none]
    split
    · rfl
    · split <;> rfl
  simp only [hlist, overrideFinding?_eq haccepted hparent]
  rw [← flatMap_toList_ite, List.flatMap_map]

/-- What is reported about all overrides that are implied. -/
theorem flatMap_impliedFindings {ctx : Context} (haccepted : ctx.model.Accepted)
    (overrides : List OverrideEdge) :
    ctx.model.declarations.flatMap
      (ctx.impliedFindings ctx.settings.exemptPatterns overrides) =
      ((ctx.impliedPairs overrides).filter
        (fun pair => ctx.Clashes pair.1 pair.2)).map (ctx.conflict true) := by
  rw [impliedPairs, List.filter_flatMap, List.map_flatMap]
  exact List.flatMap_congr
    (fun parent hparent => impliedFindings_eq haccepted overrides hparent)

/-- What is reported about override edges, given their ends. -/
theorem flatMap_edgeFinding? {ctx : Context} (haccepted : ctx.model.Accepted)
    {pairs : List (Declaration × Declaration)}
    (hpairs : ∀ pair ∈ pairs, pair.1 ∈ ctx.model.declarations ∧
      pair.2 ∈ ctx.model.declarations) :
    (pairs.map (fun pair => OverrideEdge.mk pair.2.id pair.1.id)).flatMap
        (fun e => (ctx.edgeFinding? ctx.settings.exemptPatterns e).toList) =
      (pairs.filter (fun pair => ctx.Clashes pair.1 pair.2)).map
        (ctx.conflict false) := by
  rw [List.flatMap_map, ← flatMap_toList_ite]
  refine List.flatMap_congr (fun pair hpair => congrArg Option.toList ?_)
  rw [← overrideFinding?_eq haccepted (hpairs pair hpair).1, edgeFinding?,
    haccepted.find?_id (hpairs pair hpair).2]

theorem pairwise_impliedPairs {ctx : Context} (haccepted : ctx.model.Accepted)
    (overrides : List OverrideEdge) :
    (ctx.impliedPairs overrides).Pairwise ctx.model.VisitsBefore := by
  rw [impliedPairs, List.pairwise_flatMap]
  constructor
  · intro parent _
    rw [List.pairwise_map]
    have hchildren :
        (ctx.impliedBy overrides parent).Pairwise ctx.model.PrecedesByType := by
      rw [impliedBy]
      split
      · exact List.Pairwise.nil
      · split
        · exact haccepted.pairwise_impliedChildren overrides parent
        · exact List.Pairwise.nil
    exact hchildren.imp (fun hprecedes => Or.inr ⟨rfl, hprecedes⟩)
  · refine ctx.model.pairwise_precedes.imp ?_
    rintro first second hprecedes pair hpair pair' hpair'
    obtain ⟨_, -, rfl⟩ := List.mem_map.mp hpair
    obtain ⟨_, -, rfl⟩ := List.mem_map.mp hpair'
    exact Or.inl hprecedes

/-- The types of an implied override are the nearest ones around the two
methods. -/
theorem implies_iff {ctx : Context} (haccepted : ctx.model.Accepted)
    {overrides : List OverrideEdge} {parent child : Declaration} :
    ctx.Implies overrides parent child ↔
      (parent ∈ ctx.model.declarations ∧ parent.kind = .method ∧
        ∃ tag ∈ ctx.effectiveTag? parent.id, tag.coversSubclasses = true) ∧
      (child ∈ ctx.model.declarations ∧ child.kind = .method) ∧
      (∃ signature, parent.signature = some signature ∧
        child.signature = some signature) ∧
      (∃ owner type, ctx.model.Nearest .type parent owner ∧
        ctx.model.Nearest .type child type ∧
        ctx.model.Below owner.id type.id) ∧
      ⟨child.id, parent.id⟩ ∉ overrides := by
  constructor
  · intro himplies
    obtain ⟨owner, sub, howner, henc, hbelow⟩ := himplies.below
    obtain ⟨type, htype, hbelow⟩ :=
      (haccepted.exists_below_iff himplies.child_mem himplies.child_method).mp
        ⟨sub, henc, hbelow⟩
    exact ⟨⟨himplies.parent_mem, himplies.parent_method, himplies.covers⟩,
      ⟨himplies.child_mem, himplies.child_method⟩, himplies.signature,
      ⟨owner, type, howner, htype, hbelow⟩, himplies.unstated⟩
  · rintro ⟨⟨hparent, hparentKind, hcovers⟩, ⟨hchild, hchildKind⟩, hsignature,
      ⟨owner, type, howner, htype, hbelow⟩, hunstated⟩
    obtain ⟨sub, henc, hbelow⟩ :=
      (haccepted.exists_below_iff hchild hchildKind).mpr ⟨type, htype, hbelow⟩
    exact ⟨hparent, hchild, hparentKind, hchildKind, hsignature, hcovers,
      ⟨owner, sub, howner, henc, hbelow⟩, hunstated⟩

end Context

/-- Every override edge of an accepted unit has its two ends among the
declarations. -/
theorem SourceUnit.Accepted.exists_stated {u : SourceUnit}
    (haccepted : u.Accepted) :
    ∃ stated : List (Declaration × Declaration),
      stated.map (fun pair => OverrideEdge.mk pair.2.id pair.1.id) =
        u.overrides ∧
      ∀ pair ∈ stated, pair.1 ∈ u.model.declarations ∧
      pair.2 ∈ u.model.declarations := by
  refine exists_map_eq (fun e he => ?_)
  obtain ⟨⟨child, hchild, -⟩, ⟨parent, hparent, -⟩⟩ := haccepted.exists_ends he
  obtain ⟨hchild, hchildId⟩ := haccepted.model.find?_eq_some_iff.mp hchild
  obtain ⟨hparent, hparentId⟩ := haccepted.model.find?_eq_some_iff.mp hparent
  exact ⟨(parent, child), ⟨hparent, hchild⟩, by rw [hchildId, hparentId]⟩

namespace Checker

/-- Of the findings on edges, those on single overrides come from the edges and
the implied pairs. -/
theorem filter_overrideConflict_edgeFindings (c : Checker) (u : SourceUnit) :
    (c.edgeFindings u).filter (fun f => f.rule == .overrideConflict) =
      u.overrides.flatMap
          (fun e =>
            ((c.context u).edgeFinding? c.settings.exemptPatterns e).toList) ++
        if c.settings.subclassPropagation then
          u.model.declarations.flatMap
            ((c.context u).impliedFindings
              c.settings.exemptPatterns u.overrides)
        else [] :=
  c.filter_edgeFindings u .overrideConflict

/-- The findings on single overrides, given the ends of the edges. -/
theorem findingsOf_overrideConflict (c : Checker) {u : SourceUnit}
    (haccepted : u.model.Accepted) (registry : Registry)
    {stated : List (Declaration × Declaration)}
    (hstated : stated.map (fun pair => OverrideEdge.mk pair.2.id pair.1.id) =
      u.overrides)
    (hends : ∀ pair ∈ stated, pair.1 ∈ u.model.declarations ∧
      pair.2 ∈ u.model.declarations) :
    (c.check u registry).1.findingsOf .overrideConflict =
      (stated.filter (fun pair => (c.context u).Clashes pair.1 pair.2)).map
          ((c.context u).conflict false) ++
        if c.settings.subclassPropagation then
          (((c.context u).impliedPairs u.overrides).filter
            (fun pair => (c.context u).Clashes pair.1 pair.2)).map
            ((c.context u).conflict true)
        else [] := by
  have hmodel : (c.context u).model.Accepted := haccepted
  rw [c.findingsOf_check haccepted registry (by decide) (by decide),
    filter_overrideConflict_edgeFindings, ← hstated]
  have hedges := Context.flatMap_edgeFinding? hmodel hends
  have himplied := Context.flatMap_impliedFindings hmodel u.overrides
  rw [← hstated] at himplied
  exact congrArg₂ (· ++ ·) hedges
    (ite_congr rfl (fun _ => himplied) (fun _ => rfl))

/-- The findings on single overrides are those of the edges that clash, in the
order of the edges, and then those of the implied pairs that clash, in the order
of the search. -/
theorem check_overrideConflicts (c : Checker) {u : SourceUnit}
    (haccepted : u.Accepted) (registry : Registry) :
    ∃ stated implied : List (Declaration × Declaration),
      stated.map (fun pair => OverrideEdge.mk pair.2.id pair.1.id) =
        u.overrides ∧
      (∀ pair ∈ stated, pair.1 ∈ u.model.declarations ∧
        pair.2 ∈ u.model.declarations) ∧
      implied.Nodup ∧ implied.Pairwise u.model.VisitsBefore ∧
      (∀ parent child, (parent, child) ∈ implied ↔
        (parent ∈ u.model.declarations ∧ parent.kind = .method ∧
          ∃ tag ∈ (c.context u).effectiveTag? parent.id,
            tag.coversSubclasses = true) ∧
        (child ∈ u.model.declarations ∧ child.kind = .method) ∧
        (∃ signature, parent.signature = some signature ∧
          child.signature = some signature) ∧
        (∃ owner type, u.model.Nearest .type parent owner ∧
          u.model.Nearest .type child type ∧
          u.model.Below owner.id type.id) ∧
        ⟨child.id, parent.id⟩ ∉ u.overrides) ∧
      (c.check u registry).1.findingsOf .overrideConflict =
        (stated.filter (fun pair => (c.context u).Clashes pair.1 pair.2)).map
            ((c.context u).conflict false) ++
          if c.settings.subclassPropagation then
            (implied.filter
              (fun pair => (c.context u).Clashes pair.1 pair.2)).map
              ((c.context u).conflict true)
          else [] := by
  have hmodel : (c.context u).model.Accepted := haccepted.model
  obtain ⟨stated, hstated, hends⟩ := haccepted.exists_stated
  refine ⟨stated, (c.context u).impliedPairs u.overrides, hstated, hends,
    Context.nodup_impliedPairs hmodel u.overrides,
    Context.pairwise_impliedPairs hmodel u.overrides,
    fun parent child => (Context.mem_impliedPairs_iff hmodel).trans
      (Context.implies_iff hmodel), ?_⟩
  exact c.findingsOf_overrideConflict haccepted.model registry hstated hends

/-- A canvas with four kinds of layers, the last of them above the canvas again.
The picture is handed in before the text, whose number is smaller, and the frame
states its override twice. -/
def canvasFacts : UnitFacts where
  name := "canvas"
  declarations :=
    [{ id := ⟨1⟩, kind := .module, location := "ui", qualifiedName := "ui" },
      { id := ⟨2⟩, kind := .type, enclosing := some ⟨1⟩,
        location := "ui.Canvas", qualifiedName := "ui.Canvas",
        supertypes := [⟨10⟩] },
      { id := ⟨3⟩, kind := .method, enclosing := some ⟨2⟩,
        location := "ui.Canvas.paint", qualifiedName := "ui.Canvas.paint",
        signature := some "paint" },
      { id := ⟨6⟩, kind := .type, enclosing := some ⟨1⟩,
        location := "ui.Picture", qualifiedName := "ui.Picture",
        supertypes := [⟨2⟩] },
      { id := ⟨7⟩, kind := .method, enclosing := some ⟨6⟩,
        location := "ui.Picture.paint", qualifiedName := "ui.Picture.paint",
        signature := some "paint" },
      { id := ⟨4⟩, kind := .type, enclosing := some ⟨1⟩, location := "ui.Text",
        qualifiedName := "ui.Text", supertypes := [⟨2⟩, ⟨6⟩] },
      { id := ⟨5⟩, kind := .method, enclosing := some ⟨4⟩,
        location := "ui.Text.paint", qualifiedName := "ui.Text.paint",
        signature := some "paint" },
      { id := ⟨8⟩, kind := .type, enclosing := some ⟨1⟩, location := "ui.Frame",
        qualifiedName := "ui.Frame", supertypes := [⟨4⟩] },
      { id := ⟨9⟩, kind := .method, enclosing := some ⟨8⟩,
        location := "ui.Frame.paint", qualifiedName := "ui.Frame.paint",
        signature := some "paint" },
      { id := ⟨10⟩, kind := .type, enclosing := some ⟨1⟩,
        location := "ui.Overlay", qualifiedName := "ui.Overlay",
        supertypes := [⟨8⟩] },
      { id := ⟨11⟩, kind := .method, enclosing := some ⟨10⟩,
        location := "ui.Overlay.paint", qualifiedName := "ui.Overlay.paint",
        signature := some "paint" }]
  overrides := [⟨⟨9⟩, ⟨3⟩⟩, ⟨⟨9⟩, ⟨3⟩⟩]

/-- All layers paint on a worker, and the overlay asks not to be compared. -/
def canvasRules : List LibraryRule :=
  [{ scope := .method, path := "ui.Canvas.paint", tag := .uiEventThread,
     coversSubclasses := true },
    { scope := .method, path := "ui.Picture.paint", tag := .worker },
    { scope := .method, path := "ui.Text.paint", tag := .worker },
    { scope := .method, path := "ui.Frame.paint", tag := .worker },
    { scope := .method, path := "ui.Overlay.paint", tag := .worker,
      ignoreParent := true }]

theorem canvas_check_overrideConflicts :
    ∃ u, SourceUnit.build canvasFacts = .ok u ∧
      let c := Checker.ofSettings { library := canvasRules }
      ∃ stated implied : List (Declaration × Declaration),
        stated.map (fun pair => OverrideEdge.mk pair.2.id pair.1.id) =
          u.overrides ∧
        implied.Pairwise u.model.VisitsBefore ∧
        (stated.filter (fun pair => (c.context u).Clashes pair.1 pair.2)).map
              ((c.context u).conflict false) ++
            (implied.filter
              (fun pair => (c.context u).Clashes pair.1 pair.2)).map
              ((c.context u).conflict true) =
          (c.check u .empty).1.findingsOf .overrideConflict ∧
        ((c.check u .empty).1.findingsOf .overrideConflict).map
          Finding.location =
          ["ui.Frame.paint", "ui.Frame.paint", "ui.Text.paint",
            "ui.Picture.paint"] := by
  have hbuild : SourceUnit.build canvasFacts = .ok (.ofFacts canvasFacts) :=
    SourceUnit.build_ofFacts (by decide +kernel)
  refine ⟨_, hbuild, ?_⟩
  intro c
  obtain ⟨stated, implied, hstated, -, -, horder, -, hfindings⟩ :=
    c.check_overrideConflicts ⟨canvasFacts, hbuild⟩ .empty
  exact ⟨stated, implied, hstated, horder, hfindings.symm, by decide +kernel⟩

end Checker

end ThreadConfinement
