import ThreadConfinement.Proofs.Acts

/-!
Facts that a host may hand in another way: in another order, or with further
suppressions.

Whatever is looked up by number is then found as before, so the same facts are
accepted (`SourceUnit.build_of_varies`) and the same tags hold
(`Context.Resembles.effectiveTag?_eq`).
-/

namespace ThreadConfinement

def Declaration.mute (more : DeclId → List String) (d : Declaration) :
    Declaration :=
  { d with suppressions := d.suppressions ++ more d.id }

theorem Declaration.mute_nothing :
    Declaration.mute (fun _ => []) = fun d => d := by
  funext d
  simp [mute]

/-- A declaration is left alone when it or one around it is suppressed, or when
its module is ignored. -/
theorem Model.isSome_skipReason?_iff {m : Model} {s : CheckSettings}
    {d : Declaration} :
    (m.skipReason? s d).isSome = true ↔
      (∃ e ∈ d :: m.enclosers d, e.isSuppressedBy s.suppressionToken = true) ∨
        ∃ e, m.moduleOf? d.id = some e ∧
          s.ignoresModule e.qualifiedName = true := by
  rw [skipReason?, ← List.any_eq_true, ← Option.any_eq_true]
  cases (d :: m.enclosers d).any (·.isSuppressedBy s.suppressionToken) with
  | true => simp
  | false =>
      cases (m.moduleOf? d.id).any
          (fun e => s.ignoresModule e.qualifiedName) with
      | true => simp
      | false => simp

/-- The same facts in any order, with further suppressions on the
declarations. -/
structure UnitFacts.Varies (more : DeclId → List String)
    (facts facts' : UnitFacts) : Prop where
  declarations : facts'.declarations.Perm
    (facts.declarations.map (Declaration.mute more))
  overrides : facts'.overrides.Perm facts.overrides
  calls : facts'.calls.Perm facts.calls
  fieldAccesses : facts'.fieldAccesses.Perm facts.fieldAccesses

/-- The second model has as many declarations as the first, and finds under each
number what the first one finds, with further suppressions. -/
structure Model.Resembles (more : DeclId → List String)
    (m m' : Model) : Prop where
  size : m'.size = m.size
  find? : ∀ id, m'.find? id = (m.find? id).map (Declaration.mute more)

namespace Model.Resembles

variable {more : DeclId → List String} {m m' : Model}
  (hmodel : m.Resembles more m')

include hmodel

theorem bind_enclosing (d : Declaration) :
    (d.mute more).enclosing.bind (fun id => m'.index[id]?) =
      (d.enclosing.bind (fun id => m.index[id]?)).map
        (Declaration.mute more) := by
  rw [Option.map_bind]
  exact congrArg _ (funext hmodel.find?)

theorem ascend?_mute (steps : Nat) (d : Declaration) :
    (d.mute more).ascend? m'.index steps =
      (d.ascend? m.index steps).map (List.map (Declaration.mute more)) := by
  have hbind' := hmodel.bind_enclosing d
  cases hbind : d.enclosing.bind (fun id => m.index[id]?) with
  | none =>
      rw [hbind] at hbind'
      rw [Declaration.ascend?_of_eq_none hbind,
        Declaration.ascend?_of_eq_none hbind']
      rfl
  | some outer =>
      rw [hbind] at hbind'
      rw [Declaration.ascend?_of_eq_some hbind,
        Declaration.ascend?_of_eq_some hbind']
      cases steps with
      | zero => rfl
      | succ steps =>
          simp only [ascend?_mute steps outer, Option.map_map]
          rfl

theorem enclosers_mute (d : Declaration) :
    m'.enclosers (d.mute more) =
      (m.enclosers d).map (Declaration.mute more) := by
  rw [enclosers, hmodel.size, hmodel.ascend?_mute, enclosers]
  cases d.ascend? m.index m.size <;> rfl

theorem nearest?_eq (id : DeclId) (kind : Kind) :
    m'.nearest? id kind = (m.nearest? id kind).map (Declaration.mute more) := by
  rw [nearest?, hmodel.find?, nearest?]
  cases m.find? id with
  | none => rfl
  | some d =>
      simp only [Option.map_some, Option.bind_some, hmodel.enclosers_mute,
        List.find?_map]
      rfl

theorem moduleOf?_eq (id : DeclId) :
    m'.moduleOf? id = (m.moduleOf? id).map (Declaration.mute more) := by
  rw [moduleOf?, hmodel.find?, moduleOf?]
  cases m.find? id with
  | none => rfl
  | some d =>
      simp only [Option.map_some, Option.bind_some, hmodel.enclosers_mute,
        ← List.map_cons, List.find?_map]
      rfl

theorem locationOf_eq (id : DeclId) : m'.locationOf id = m.locationOf id := by
  rw [locationOf, hmodel.find?, locationOf]
  cases m.find? id <;> rfl

theorem isExempt_eq (patterns : List Glob) (parent : DeclId) :
    m'.isExempt patterns parent = m.isExempt patterns parent := by
  rw [isExempt, enclosingType?, hmodel.nearest?_eq, isExempt, enclosingType?]
  cases m.nearest? parent .type <;> rfl

theorem tagSources_mute (d : Declaration) :
    m'.tagSources (d.mute more) =
      (m.tagSources d).map (Declaration.mute more) := by
  have hkind : (d.mute more).kind = d.kind := rfl
  have hid : (d.mute more).id = d.id := rfl
  have hmodule : (m'.moduleOf? d.id).toList =
      (m.moduleOf? d.id).toList.map (Declaration.mute more) := by
    rw [hmodel.moduleOf?_eq]
    cases m.moduleOf? d.id <;> rfl
  have htype : (m'.enclosingType? d.id).toList =
      (m.enclosingType? d.id).toList.map (Declaration.mute more) := by
    rw [enclosingType?, hmodel.nearest?_eq, enclosingType?]
    cases m.nearest? d.id .type <;> rfl
  simp only [tagSources, hkind, hid, hmodule, htype]
  cases d.kind <;> simp

/-- The same tag holds for every declaration. -/
theorem effectiveTag?_eq (l : Library) (id : DeclId) :
    m'.effectiveTag? l id = m.effectiveTag? l id := by
  rw [effectiveTag?, hmodel.find?, effectiveTag?]
  cases m.find? id with
  | none => rfl
  | some d =>
      simp only [Option.map_some, Option.bind_some, hmodel.tagSources_mute,
        List.findSome?_map]
      rfl

/-! ### Faults -/

theorem enclosingFault?_mute (d : Declaration) :
    (d.mute more).enclosingFault? m'.index = d.enclosingFault? m.index := by
  have hfind (id : DeclId) :
      m'.index[id]? = (m.index[id]?).map (Declaration.mute more) :=
    hmodel.find? id
  have henclosing : (d.mute more).enclosing = d.enclosing := rfl
  rw [Declaration.enclosingFault?, Declaration.enclosingFault?, henclosing]
  cases d.enclosing with
  | none => rfl
  | some outer =>
      simp only [hfind]
      cases m.index[outer]? <;> rfl

theorem chainFault?_mute (count : Nat) (d : Declaration) :
    (d.mute more).chainFault? m'.index count = d.chainFault? m.index count := by
  rw [Declaration.chainFault?, hmodel.ascend?_mute, Declaration.chainFault?]
  cases d.ascend? m.index count with
  | none => rfl
  | some above =>
      have hlast :
          ((above.map (Declaration.mute more)).getLastD (d.mute more)).kind =
            (above.getLastD d).kind := by
        rw [List.getLastD_map]
        rfl
      simp only [Option.map_some, hlast]
      rfl

theorem supertypeFault?_mute (d : Declaration) :
    (d.mute more).supertypeFault? m'.index = d.supertypeFault? m.index := by
  have hfind (id : DeclId) :
      m'.index[id]? = (m.index[id]?).map (Declaration.mute more) :=
    hmodel.find? id
  have hkind : (d.mute more).kind = d.kind := rfl
  have hsupertypes : (d.mute more).supertypes = d.supertypes := rfl
  rw [Declaration.supertypeFault?, Declaration.supertypeFault?,
    hkind, hsupertypes]
  refine ite_congr rfl (fun _ => ?_) (fun _ => rfl)
  congr 1
  funext sup
  rw [hfind]
  cases m.index[sup]? <;> rfl

theorem endFault?_eq (edge : EdgeKind) (expected : EndKind) (id : DeclId) :
    m'.endFault? edge expected id = m.endFault? edge expected id := by
  rw [endFault?, hmodel.find?, endFault?]
  cases m.find? id <;> rfl

theorem overrideFault?_eq (e : OverrideEdge) :
    m'.overrideFault? e = m.overrideFault? e := by
  simp only [overrideFault?, hmodel.endFault?_eq]

theorem callFault?_eq (e : CallEdge) : m'.callFault? e = m.callFault? e := by
  simp only [callFault?, hmodel.endFault?_eq]

theorem fieldAccessFault?_eq (e : FieldAccess) :
    m'.fieldAccessFault? e = m.fieldAccessFault? e := by
  simp only [fieldAccessFault?, hmodel.endFault?_eq]

end Model.Resembles

namespace Model

variable {more : DeclId → List String} {ds ds' : List Declaration}

/-- The index does not depend on the order of declarations with distinct
numbers. -/
theorem resembles_ofDeclarations (hnodup : (ds.map Declaration.id).Nodup)
    (hperm : ds'.Perm (ds.map (Declaration.mute more))) :
    (ofDeclarations ds).Resembles more (ofDeclarations ds') where
  size := by simpa [Model.size, ofDeclarations] using hperm.length_eq
  find? id := by
    have hids : (ds'.map Declaration.id).Perm (ds.map Declaration.id) := by
      have hmap := hperm.map Declaration.id
      rw [List.map_map] at hmap
      exact hmap
    have hnodup' : (ds'.map Declaration.id).Nodup := hids.nodup_iff.mpr hnodup
    ext d'
    rw [Option.map_eq_some_iff]
    simp only [Model.find?, ofDeclarations, getElem?_indexOf_eq_some_iff hnodup,
      getElem?_indexOf_eq_some_iff hnodup', hperm.mem_iff, List.mem_map]
    constructor
    · rintro ⟨⟨d, hd, rfl⟩, hid⟩
      exact ⟨d, ⟨hd, hid⟩, rfl⟩
    · rintro ⟨d, ⟨hd, hid⟩, rfl⟩
      exact ⟨⟨d, hd, rfl⟩, hid⟩

/-- Declarations without fault stay so in any order and with any
suppressions. -/
theorem fault?_eq_none_of_perm (hfault : fault? ds = none)
    (hperm : ds'.Perm (ds.map (Declaration.mute more))) :
    fault? ds' = none := by
  have hmodel := resembles_ofDeclarations (nodup_of_fault?_eq_none hfault) hperm
  have hlength : ds'.length = ds.length := hmodel.size
  obtain ⟨hentry, henclosing, hchain, hsupertype⟩ :=
    fault?_eq_none_iff.mp hfault
  obtain ⟨hnodup, -, hlocation⟩ := entryFault?_eq_none_iff.mp hentry
  have hall {P : Declaration → Prop} (hP : ∀ d ∈ ds, P (d.mute more)) :
      ∀ d ∈ ds', P d := by
    intro d' hd'
    obtain ⟨d, hd, rfl⟩ := List.mem_map.mp (hperm.mem_iff.mp hd')
    exact hP d hd
  refine fault?_eq_none_iff.mpr ⟨entryFault?_eq_none_iff.mpr ⟨?_, ?_,
    hall hlocation⟩, ?_, ?_, ?_⟩
  · have hids := hperm.map Declaration.id
    rw [List.map_map] at hids
    exact hids.nodup_iff.mpr hnodup
  · simp
  · exact hall (fun d hd => (hmodel.enclosingFault?_mute d).trans
      (henclosing d hd))
  · rw [hlength]
    exact hall (fun d hd => (hmodel.chainFault?_mute ds.length d).trans
      (hchain d hd))
  · exact hall (fun d hd => (hmodel.supertypeFault?_mute d).trans
      (hsupertype d hd))

end Model

namespace SourceUnit

def ofFacts (facts : UnitFacts) : SourceUnit :=
  ⟨facts.name, .ofDeclarations facts.declarations, facts.overrides, facts.calls,
    facts.fieldAccesses⟩

theorem build_eq_ok_iff_ofFacts {facts : UnitFacts} {u : SourceUnit} :
    build facts = .ok u ↔
      Model.fault? facts.declarations = none ∧
        edgeFault? (.ofDeclarations facts.declarations) facts = none ∧
        u = ofFacts facts := by
  rw [build_eq_ok_iff]
  constructor
  · rintro ⟨m, hmodel, hedges, rfl⟩
    obtain ⟨hfault, rfl⟩ := Model.build_eq_ok_iff.mp hmodel
    exact ⟨hfault, hedges, rfl⟩
  · rintro ⟨hfault, hedges, rfl⟩
    exact ⟨_, Model.build_eq_ok_iff.mpr ⟨hfault, rfl⟩, hedges, rfl⟩

theorem build_ofFacts {facts : UnitFacts}
    (hfaults : Model.fault? facts.declarations = none ∧
      edgeFault? (.ofDeclarations facts.declarations) facts = none) :
    build facts = .ok (ofFacts facts) :=
  build_eq_ok_iff_ofFacts.mpr ⟨hfaults.1, hfaults.2, rfl⟩

/-- Facts that are accepted stay so in any order and with any suppressions. -/
theorem build_of_varies {more : DeclId → List String} {facts facts' : UnitFacts}
    {u : SourceUnit} (hvaries : facts.Varies more facts')
    (hbuild : build facts = .ok u) :
    build facts' = .ok (ofFacts facts') ∧
      u.model.Resembles more (ofFacts facts').model := by
  obtain ⟨hfault, hedges, rfl⟩ := build_eq_ok_iff_ofFacts.mp hbuild
  have hmodel :=
    Model.resembles_ofDeclarations (Model.nodup_of_fault?_eq_none hfault)
      hvaries.declarations
  obtain ⟨hoverrides, hcalls, haccesses⟩ := edgeFault?_eq_none_iff.mp hedges
  refine ⟨build_eq_ok_iff_ofFacts.mpr
    ⟨Model.fault?_eq_none_of_perm hfault hvaries.declarations, ?_, rfl⟩, hmodel⟩
  refine edgeFault?_eq_none_iff.mpr ⟨?_, ?_, ?_⟩
  · intro e he
    rw [hmodel.overrideFault?_eq]
    exact hoverrides e (hvaries.overrides.mem_iff.mp he)
  · intro e he
    rw [hmodel.callFault?_eq]
    exact hcalls e (hvaries.calls.mem_iff.mp he)
  · intro e he
    rw [hmodel.fieldAccessFault?_eq]
    exact haccesses e (hvaries.fieldAccesses.mem_iff.mp he)

end SourceUnit

/-! ### What is reported -/

/-- The second context has the library of the first, and a model that resembles
that of the first. -/
structure Context.Resembles (more : DeclId → List String)
    (ctx ctx' : Context) : Prop where
  model : ctx.model.Resembles more ctx'.model
  library : ctx'.library = ctx.library

namespace Context.Resembles

variable {more : DeclId → List String} {ctx ctx' : Context}
  (hctx : ctx.Resembles more ctx')

include hctx

theorem effectiveTag?_eq (id : DeclId) :
    ctx'.effectiveTag? id = ctx.effectiveTag? id := by
  rw [effectiveTag?, hctx.library, hctx.model.effectiveTag?_eq, effectiveTag?]

theorem tagsOf_eq (ids : List DeclId) : ctx'.tagsOf ids = ctx.tagsOf ids := by
  simp only [tagsOf, hctx.effectiveTag?_eq]

theorem overrideActs_mute (patterns : List Glob) (implicit : Bool)
    (child : Declaration) (parent : DeclId) :
    ctx'.overrideActs patterns implicit (child.mute more) parent =
      ctx.overrideActs patterns implicit child parent := by
  simp only [overrideActs, overrideFinding?, hctx.effectiveTag?_eq,
    hctx.model.isExempt_eq, hctx.model.locationOf_eq]
  rfl

theorem familyActs_eq (patterns : List Glob) (family : DeclId × List DeclId) :
    ctx'.familyActs patterns family = ctx.familyActs patterns family := by
  simp only [familyActs, inheritanceFinding?, hctx.effectiveTag?_eq,
    hctx.model.isExempt_eq, hctx.model.locationOf_eq, hctx.tagsOf_eq]

end Context.Resembles

end ThreadConfinement
