import ThreadConfinement.SourceUnit

/-!
Accepted models and units: look-up finds exactly the declarations, the chain of
enclosing declarations is walked to its end, and both ends of an edge are there.

The nearest enclosing declaration of a kind is said here as a relation, without
a bound on the walk; `Model.Accepted.nearest?_eq_some_iff` says that look-up
along the chain decides it.
-/

namespace ThreadConfinement

/-- The model has gone through all checks of its declarations. -/
def Model.Accepted (m : Model) : Prop :=
  ∃ ds, Model.build ds = .ok m

def SourceUnit.Accepted (u : SourceUnit) : Prop :=
  ∃ facts, SourceUnit.build facts = .ok u

namespace Model

theorem build_eq_ok_iff {ds : List Declaration} {m : Model} :
    build ds = .ok m ↔ fault? ds = none ∧ m = ofDeclarations ds := by
  rw [build]
  cases hfault : fault? ds with
  | none => simp [eq_comm]
  | some fault => simp

theorem build_eq_error_iff {ds : List Declaration} {fault : ModelFault} :
    build ds = .error fault ↔ fault? ds = some fault := by
  rw [build]
  cases hfault : fault? ds with
  | none => simp
  | some found => simp

theorem fault?_eq_none_iff {ds : List Declaration} :
    fault? ds = none ↔
      entryFault? ∅ ds = none ∧
        (∀ d ∈ ds, d.enclosingFault? (indexOf ds) = none) ∧
        (∀ d ∈ ds, d.chainFault? (indexOf ds) ds.length = none) ∧
        ∀ d ∈ ds, d.supertypeFault? (indexOf ds) = none := by
  simp only [fault?, Option.orElse_eq_orElse, Option.orElse_eq_or,
    Option.or_eq_none_iff, List.findSome?_eq_none_iff]

/-- The walk over the entries lets exactly those pass that have new and distinct
numbers, and locations without fault. -/
theorem entryFault?_eq_none_iff {seen : IdSet} {ds : List Declaration} :
    entryFault? seen ds = none ↔
      (ds.map Declaration.id).Nodup ∧ (∀ d ∈ ds, d.id ∉ seen) ∧
        ∀ d ∈ ds, d.locationFault? = none := by
  induction ds generalizing seen with
  | nil => simp [entryFault?]
  | cons d ds ih =>
      have hinsert : (∀ e ∈ ds, e.id ∉ seen.insert d.id) ↔
          d.id ∉ ds.map Declaration.id ∧ ∀ e ∈ ds, e.id ∉ seen := by
        simp only [Std.ExtTreeSet.mem_insert,
          Std.LawfulEqCmp.compare_eq_iff_eq, not_or, List.mem_map,
          not_exists, not_and]
        constructor
        · intro hnew
          exact ⟨fun e he heq => (hnew e he).1 heq.symm,
            fun e he => (hnew e he).2⟩
        · rintro ⟨hdistinct, hnew⟩ e he
          exact ⟨fun heq => hdistinct e he heq.symm, hnew e he⟩
      by_cases hseen : d.id ∈ seen
      · simp [entryFault?, hseen]
      · simp only [entryFault?, hseen, ↓reduceIte, Option.orElse_eq_orElse,
          Option.orElse_eq_or, Option.or_eq_none_iff, ih, hinsert,
          List.map_cons, List.nodup_cons, List.forall_mem_cons,
          not_false_eq_true, true_and]
        constructor
        · rintro ⟨hlocation, hnodup, ⟨hdistinct, hnew⟩, hlocations⟩
          exact ⟨⟨hdistinct, hnodup⟩, hnew, hlocation, hlocations⟩
        · rintro ⟨⟨hdistinct, hnodup⟩, hnew, hlocation, hlocations⟩
          exact ⟨hlocation, hnodup, ⟨hdistinct, hnew⟩, hlocations⟩

/-- Declarations without fault have distinct numbers. -/
theorem nodup_of_fault?_eq_none {ds : List Declaration}
    (hfault : fault? ds = none) :
    (ds.map Declaration.id).Nodup :=
  (entryFault?_eq_none_iff.mp (fault?_eq_none_iff.mp hfault).1).1

/-- With distinct numbers, the index finds each declaration under its own number
and nothing else. -/
theorem getElem?_indexOf_eq_some_iff {ds : List Declaration}
    (hnodup : (ds.map Declaration.id).Nodup) {id : DeclId} {d : Declaration} :
    (indexOf ds)[id]? = some d ↔ d ∈ ds ∧ d.id = id := by
  have hdistinct : (ds.map (fun d => (d.id, d))).Pairwise
      (fun a b => ¬ compare a.1 b.1 = .eq) := by
    rw [List.pairwise_map]
    rw [List.Nodup, List.pairwise_map] at hnodup
    refine hnodup.imp ?_
    intro a b hne heq
    exact hne (Std.LawfulEqOrd.eq_of_compare heq)
  have hfind : ∀ e ∈ ds, (indexOf ds)[e.id]? = some e := by
    intro e he
    exact Std.ExtTreeMap.getElem?_ofList_of_mem Std.compare_self hdistinct
      (List.mem_map.mpr ⟨e, he, rfl⟩)
  constructor
  · intro hsome
    have hid : id ∈ indexOf ds := by
      rw [Std.ExtTreeMap.mem_iff_isSome_getElem?, hsome]
      rfl
    rw [indexOf, Std.ExtTreeMap.mem_ofList, List.contains_iff_mem,
      List.map_map] at hid
    obtain ⟨e, he, heq⟩ := List.mem_map.mp hid
    have heq' : e.id = id := heq
    have hsame := hfind e he
    rw [heq', hsome] at hsame
    cases hsame
    exact ⟨he, heq'⟩
  · rintro ⟨hmem, rfl⟩
    exact hfind d hmem

theorem bind_indexOf_eq_some_iff {ds : List Declaration}
    (hnodup : (ds.map Declaration.id).Nodup) {d outer : Declaration} :
    d.enclosing.bind (fun id => (indexOf ds)[id]?) = some outer ↔
      outer ∈ ds ∧ d.enclosing = some outer.id := by
  rw [Option.bind_eq_some_iff]
  constructor
  · rintro ⟨id, henclosing, hfind⟩
    obtain ⟨hmem, rfl⟩ := (getElem?_indexOf_eq_some_iff hnodup).mp hfind
    exact ⟨hmem, henclosing⟩
  · rintro ⟨hmem, henclosing⟩
    exact ⟨outer.id, henclosing,
      (getElem?_indexOf_eq_some_iff hnodup).mpr ⟨hmem, rfl⟩⟩

end Model

namespace Model.Accepted

variable {m : Model}

theorem find?_eq_some_iff (haccepted : m.Accepted) {id : DeclId}
    {d : Declaration} :
    m.find? id = some d ↔ d ∈ m.declarations ∧ d.id = id := by
  obtain ⟨ds, hbuild⟩ := haccepted
  obtain ⟨hfault, rfl⟩ := build_eq_ok_iff.mp hbuild
  exact getElem?_indexOf_eq_some_iff (nodup_of_fault?_eq_none hfault)

theorem find?_eq_none_iff (haccepted : m.Accepted) {id : DeclId} :
    m.find? id = none ↔ ∀ d ∈ m.declarations, d.id ≠ id := by
  rw [Option.eq_none_iff_forall_not_mem]
  constructor
  · intro hnone d hd heq
    exact hnone d (haccepted.find?_eq_some_iff.mpr ⟨hd, heq⟩)
  · intro hall d hd
    obtain ⟨hmem, heq⟩ := haccepted.find?_eq_some_iff.mp hd
    exact hall d hmem heq

/-- A declaration is found under its own number. -/
theorem find?_id (haccepted : m.Accepted) {d : Declaration}
    (hd : d ∈ m.declarations) :
    m.find? d.id = some d :=
  haccepted.find?_eq_some_iff.mpr ⟨hd, rfl⟩

theorem locationOf_id (haccepted : m.Accepted) {d : Declaration}
    (hd : d ∈ m.declarations) :
    m.locationOf d.id = d.location := by
  rw [locationOf, haccepted.find?_id hd]

/-- The bound on the walk is large enough for every declaration. -/
theorem ascend?_eq_some (haccepted : m.Accepted) {d : Declaration}
    (hd : d ∈ m.declarations) :
    d.ascend? m.index m.size = some (m.enclosers d) := by
  obtain ⟨ds, hbuild⟩ := haccepted
  obtain ⟨hfault, rfl⟩ := build_eq_ok_iff.mp hbuild
  have hchain := (fault?_eq_none_iff.mp hfault).2.2.1 d hd
  rw [enclosers]
  cases hascend : d.ascend? (ofDeclarations ds).index
      (ofDeclarations ds).size with
  | none =>
      have hascend' : d.ascend? (indexOf ds) ds.length = none := hascend
      simp [Declaration.chainFault?, hascend'] at hchain
  | some above => rfl

/-- The outermost declaration around another, or the declaration itself, is a
module. -/
theorem kind_getLastD_enclosers (haccepted : m.Accepted) {d : Declaration}
    (hd : d ∈ m.declarations) :
    ((m.enclosers d).getLastD d).kind = .module := by
  have hascend := haccepted.ascend?_eq_some hd
  obtain ⟨ds, hbuild⟩ := haccepted
  obtain ⟨hfault, rfl⟩ := build_eq_ok_iff.mp hbuild
  have hchain := (fault?_eq_none_iff.mp hfault).2.2.1 d hd
  have hascend' : d.ascend? (indexOf ds) ds.length =
      some ((ofDeclarations ds).enclosers d) := hascend
  simpa [Declaration.chainFault?, hascend'] using hchain

end Model.Accepted

namespace Declaration

variable {index : IdMap Declaration} {d : Declaration}

theorem ascend?_of_eq_none
    (hbind : d.enclosing.bind (fun id => index[id]?) = none) (steps : Nat) :
    d.ascend? index steps = some [] := by
  unfold ascend?
  rw [hbind]

theorem ascend?_of_eq_some {outer : Declaration}
    (hbind : d.enclosing.bind (fun id => index[id]?) = some outer)
    (steps : Nat) :
    d.ascend? index steps =
      match steps with
      | 0 => none
      | steps + 1 => (outer.ascend? index steps).map (outer :: ·) := by
  conv =>
    lhs
    unfold ascend?
  rw [hbind]
  cases steps <;> rfl

end Declaration

def Model.Encloses (m : Model) (outer inner : Declaration) : Prop :=
  outer ∈ m.declarations ∧ inner.enclosing = some outer.id

/-- Going outward from `inner`, `outer` is the first declaration of the kind. -/
inductive Model.Nearest (m : Model) (kind : Kind) :
    Declaration → Declaration → Prop
  | direct {inner outer : Declaration} (henc : m.Encloses outer inner)
      (hkind : outer.kind = kind) : Nearest m kind inner outer
  | outward {inner middle outer : Declaration} (henc : m.Encloses middle inner)
      (hkind : middle.kind ≠ kind) (hrest : Nearest m kind middle outer) :
      Nearest m kind inner outer

theorem Model.Nearest.mem_declarations {m : Model} {kind : Kind}
    {inner outer : Declaration} (hnearest : m.Nearest kind inner outer) :
    outer ∈ m.declarations := by
  induction hnearest with
  | direct henc _ => exact henc.1
  | outward _ _ _ ih => exact ih

namespace Model.Accepted

variable {m : Model}

theorem bind_enclosing_eq_some_iff (haccepted : m.Accepted)
    {inner outer : Declaration} :
    inner.enclosing.bind (fun id => m.index[id]?) = some outer ↔
      m.Encloses outer inner := by
  obtain ⟨ds, hbuild⟩ := haccepted
  obtain ⟨hfault, rfl⟩ := build_eq_ok_iff.mp hbuild
  exact bind_indexOf_eq_some_iff (nodup_of_fault?_eq_none hfault)

/-- At most one declaration stands directly around another. -/
theorem encloses_unique (haccepted : m.Accepted)
    {inner first second : Declaration} (hfirst : m.Encloses first inner)
    (hsecond : m.Encloses second inner) : first = second := by
  have hsome := haccepted.bind_enclosing_eq_some_iff.mpr hfirst
  rw [haccepted.bind_enclosing_eq_some_iff.mpr hsecond] at hsome
  exact (Option.some.inj hsome).symm

theorem not_nearest_of_eq_none (haccepted : m.Accepted) {kind : Kind}
    {inner outer : Declaration}
    (hbind : inner.enclosing.bind (fun id => m.index[id]?) = none) :
    ¬ m.Nearest kind inner outer := by
  intro hnearest
  cases hnearest with
  | direct henc _ =>
    simp [haccepted.bind_enclosing_eq_some_iff.mpr henc] at hbind
  | outward henc _ _ =>
    simp [haccepted.bind_enclosing_eq_some_iff.mpr henc] at hbind

/-- The nearest declaration of a kind is directly around, or it is the nearest
one of what is. -/
theorem nearest_iff_of_encloses (haccepted : m.Accepted) {kind : Kind}
    {inner middle outer : Declaration} (henc : m.Encloses middle inner) :
    m.Nearest kind inner outer ↔
      if middle.kind = kind then middle =
        outer else m.Nearest kind middle outer := by
  constructor
  · intro hnearest
    cases hnearest with
    | direct henc' hkind =>
        have heq := haccepted.encloses_unique henc henc'
        rw [if_pos (heq ▸ hkind)]
        exact heq
    | outward henc' hkind hrest =>
        have heq := haccepted.encloses_unique henc henc'
        rw [if_neg (heq ▸ hkind), heq]
        exact hrest
  · intro hcase
    by_cases hkind : middle.kind = kind
    · rw [if_pos hkind] at hcase
      exact hcase ▸ .direct henc hkind
    · rw [if_neg hkind] at hcase
      exact .outward henc hkind hcase

/-- A walk that comes to its end lists the declarations among which the nearest
one is the first. -/
theorem find?_ascend?_eq_some_iff (haccepted : m.Accepted) (kind : Kind)
    (outer : Declaration) {steps : Nat} {d : Declaration}
    {above : List Declaration}
    (hascend : d.ascend? m.index steps = some above) :
    above.find? (fun e => e.kind == kind) = some outer ↔
      m.Nearest kind d outer := by
  induction steps generalizing d above with
  | zero =>
      cases hbind : d.enclosing.bind (fun id => m.index[id]?) with
      | none =>
          rw [Declaration.ascend?_of_eq_none hbind] at hascend
          cases hascend
          simp [haccepted.not_nearest_of_eq_none hbind]
      | some middle => simp [Declaration.ascend?_of_eq_some hbind] at hascend
  | succ steps ih =>
      cases hbind : d.enclosing.bind (fun id => m.index[id]?) with
      | none =>
          rw [Declaration.ascend?_of_eq_none hbind] at hascend
          cases hascend
          simp [haccepted.not_nearest_of_eq_none hbind]
      | some middle =>
          have henc := haccepted.bind_enclosing_eq_some_iff.mp hbind
          simp only [Declaration.ascend?_of_eq_some hbind] at hascend
          obtain ⟨rest, hrest, rfl⟩ := Option.map_eq_some_iff.mp hascend
          rw [haccepted.nearest_iff_of_encloses henc, List.find?_cons]
          by_cases hkind : middle.kind = kind
          · simp [hkind]
          · have hfalse : (middle.kind == kind) = false := by simp [hkind]
            rw [hfalse, if_neg hkind]
            exact ih hrest

theorem nearest?_eq_some_iff (haccepted : m.Accepted) (kind : Kind)
    {d outer : Declaration} (hd : d ∈ m.declarations) :
    m.nearest? d.id kind = some outer ↔ m.Nearest kind d outer := by
  rw [nearest?, haccepted.find?_id hd, Option.bind_some]
  exact haccepted.find?_ascend?_eq_some_iff kind outer
    (haccepted.ascend?_eq_some hd)

/-- What stands directly around a declaration is of a kind that may. -/
theorem mayEnclose_of_encloses (haccepted : m.Accepted)
    {inner outer : Declaration} (hinner : inner ∈ m.declarations)
    (henc : m.Encloses outer inner) :
    outer.kind.mayEnclose inner.kind = true := by
  have hfind := haccepted.find?_id henc.1
  obtain ⟨ds, hbuild⟩ := haccepted
  obtain ⟨hfault, rfl⟩ := build_eq_ok_iff.mp hbuild
  have hplaced := (fault?_eq_none_iff.mp hfault).2.1 inner hinner
  have hindex : (indexOf ds)[outer.id]? = some outer := hfind
  simpa [Declaration.enclosingFault?, henc.2, hindex] using hplaced

/-- Around a module there are only modules. -/
theorem not_nearest_type_of_module (haccepted : m.Accepted)
    {inner outer : Declaration} (hinner : inner ∈ m.declarations)
    (hkind : inner.kind = .module) :
    ¬ m.Nearest .type inner outer := by
  intro hnearest
  induction hnearest with
  | direct henc htype =>
      have hmay := haccepted.mayEnclose_of_encloses hinner henc
      simp [hkind, htype, Kind.mayEnclose] at hmay
  | outward henc _ _ ih =>
      have hmay := haccepted.mayEnclose_of_encloses hinner henc
      exact ih henc.1 (by simpa [hkind, Kind.mayEnclose] using hmay)

/-- The type around anything but a type stands directly around it. -/
theorem nearest_type_iff (haccepted : m.Accepted) {d type : Declaration}
    (hd : d ∈ m.declarations) (hkind : d.kind ≠ .type) :
    m.Nearest .type d type ↔ m.Encloses type d ∧ type.kind = .type := by
  constructor
  · intro hnearest
    cases hnearest with
    | direct henc htype => exact ⟨henc, htype⟩
    | @outward _ middle _ henc hother hrest =>
        have hmay := haccepted.mayEnclose_of_encloses hd henc
        have hmodule : middle.kind = .module := by
          cases hinner : d.kind <;> simp_all [Kind.mayEnclose]
        exact absurd hrest (haccepted.not_nearest_type_of_module henc.1 hmodule)
  · rintro ⟨henc, htype⟩
    exact .direct henc htype

/-- Everything but a module stands in a module. -/
theorem exists_nearest_module (haccepted : m.Accepted) {d : Declaration}
    (hd : d ∈ m.declarations) (hkind : d.kind ≠ .module) :
    ∃ outer, m.Nearest .module d outer := by
  have hascend := haccepted.ascend?_eq_some hd
  have hlast := haccepted.kind_getLastD_enclosers hd
  cases hfind : (m.enclosers d).find? (fun e => e.kind == .module) with
  | some outer =>
      exact ⟨outer,
        (haccepted.find?_ascend?_eq_some_iff .module outer hascend).mp hfind⟩
  | none =>
      rw [List.getLastD_eq_getLast?] at hlast
      cases hget : (m.enclosers d).getLast? with
      | none => simp [hget, hkind] at hlast
      | some e =>
          have hnot := List.find?_eq_none.mp hfind e (List.mem_of_getLast? hget)
          simp [hget] at hlast
          simp [hlast] at hnot

end Model.Accepted

namespace SourceUnit

theorem build_eq_ok_iff {facts : UnitFacts} {u : SourceUnit} :
    build facts = .ok u ↔
      ∃ m, Model.build facts.declarations = .ok m ∧ edgeFault? m facts = none ∧
        u = ⟨facts.name, m, facts.overrides, facts.calls,
          facts.fieldAccesses⟩ := by
  rw [build]
  cases hmodel : Model.build facts.declarations with
  | error fault => simp
  | ok m =>
      cases hfault : edgeFault? m facts with
      | some fault => simp [hfault]
      | none => simp [hfault, eq_comm]

theorem edgeFault?_eq_none_iff {m : Model} {facts : UnitFacts} :
    edgeFault? m facts = none ↔
      (∀ e ∈ facts.overrides, m.overrideFault? e = none) ∧
        (∀ e ∈ facts.calls, m.callFault? e = none) ∧
        ∀ e ∈ facts.fieldAccesses, m.fieldAccessFault? e = none := by
  simp only [edgeFault?, Option.orElse_eq_orElse, Option.orElse_eq_or,
    Option.or_eq_none_iff, List.findSome?_eq_none_iff]

end SourceUnit

theorem Model.endFault?_eq_none_iff {m : Model} {edge : EdgeKind}
    {expected : EndKind} {id : DeclId} :
    m.endFault? edge expected id = none ↔
      ∃ d, m.find? id = some d ∧ expected.admits d.kind = true := by
  rw [endFault?]
  cases hfind : m.find? id with
  | none => simp
  | some d => simp

/-- What comes item by item from values with a property comes from a list of
such values. -/
theorem exists_map_eq {α β : Type} {p : β → Prop} {f : β → α} {l : List α}
    (hfrom : ∀ a ∈ l, ∃ b, p b ∧ f b = a) :
    ∃ bs : List β, bs.map f = l ∧ ∀ b ∈ bs, p b := by
  induction l with
  | nil => exact ⟨[], rfl, by simp⟩
  | cons a rest ih =>
      obtain ⟨b, hb, hhead⟩ := hfrom a List.mem_cons_self
      obtain ⟨bs, htail, hbs⟩ :=
        ih (fun a ha => hfrom a (List.mem_cons_of_mem _ ha))
      exact ⟨b :: bs, by rw [List.map_cons, hhead, htail],
        List.forall_mem_cons.mpr ⟨hb, hbs⟩⟩

namespace SourceUnit.Accepted

variable {u : SourceUnit}

theorem model (haccepted : u.Accepted) : u.model.Accepted := by
  obtain ⟨facts, hbuild⟩ := haccepted
  obtain ⟨m, hmodel, -, rfl⟩ := build_eq_ok_iff.mp hbuild
  exact ⟨facts.declarations, hmodel⟩

/-- Both ends of an override edge are declarations that run code. -/
theorem exists_ends (haccepted : u.Accepted) {e : OverrideEdge}
    (he : e ∈ u.overrides) :
    (∃ d, u.model.find? e.child = some d ∧ d.kind.isCallable = true) ∧
      ∃ d, u.model.find? e.parent = some d ∧ d.kind.isCallable = true := by
  obtain ⟨facts, hbuild⟩ := haccepted
  obtain ⟨m, -, hedges, rfl⟩ := build_eq_ok_iff.mp hbuild
  have hfault := (edgeFault?_eq_none_iff.mp hedges).1 e he
  rw [Model.overrideFault?, Option.orElse_eq_orElse, Option.orElse_eq_or,
    Option.or_eq_none_iff] at hfault
  exact ⟨Model.endFault?_eq_none_iff.mp hfault.1,
    Model.endFault?_eq_none_iff.mp hfault.2⟩

theorem exists_child (haccepted : u.Accepted) {e : OverrideEdge}
    (he : e ∈ u.overrides) :
    ∃ d, u.model.find? e.child = some d ∧ d.kind.isCallable = true :=
  (haccepted.exists_ends he).1

/-- Both ends of a call edge are declarations that run code. -/
theorem exists_callEnds (haccepted : u.Accepted) {e : CallEdge}
    (he : e ∈ u.calls) :
    (∃ d, u.model.find? e.caller = some d ∧ d.kind.isCallable = true) ∧
      ∃ d, u.model.find? e.callee = some d ∧ d.kind.isCallable = true := by
  obtain ⟨facts, hbuild⟩ := haccepted
  obtain ⟨m, -, hedges, rfl⟩ := build_eq_ok_iff.mp hbuild
  have hfault := (edgeFault?_eq_none_iff.mp hedges).2.1 e he
  rw [Model.callFault?, Option.orElse_eq_orElse, Option.orElse_eq_or,
    Option.or_eq_none_iff] at hfault
  exact ⟨Model.endFault?_eq_none_iff.mp hfault.1,
    Model.endFault?_eq_none_iff.mp hfault.2⟩

theorem exists_caller (haccepted : u.Accepted) {e : CallEdge}
    (he : e ∈ u.calls) :
    ∃ d, u.model.find? e.caller = some d ∧ d.kind.isCallable = true :=
  (haccepted.exists_callEnds he).1

/-- A field access leads from a declaration that runs code to a field. -/
theorem exists_access (haccepted : u.Accepted) {e : FieldAccess}
    (he : e ∈ u.fieldAccesses) :
    ∃ accessor field, u.model.find? e.accessor = some accessor ∧
      accessor.kind.isCallable = true ∧
      u.model.find? e.field = some field ∧ field.kind = .field := by
  obtain ⟨facts, hbuild⟩ := haccepted
  obtain ⟨m, -, hedges, rfl⟩ := build_eq_ok_iff.mp hbuild
  have hfault := (edgeFault?_eq_none_iff.mp hedges).2.2 e he
  rw [Model.fieldAccessFault?, Option.orElse_eq_orElse, Option.orElse_eq_or,
    Option.or_eq_none_iff] at hfault
  obtain ⟨accessor, haccessor, hcallable⟩ :=
    Model.endFault?_eq_none_iff.mp hfault.1
  obtain ⟨field, hfield, hkind⟩ := Model.endFault?_eq_none_iff.mp hfault.2
  exact ⟨accessor, field, haccessor, hcallable, hfield,
    by simpa [EndKind.admits] using hkind⟩

end SourceUnit.Accepted

end ThreadConfinement
