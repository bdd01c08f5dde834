import ThreadConfinement.Proofs.Acceptance
import Mathlib.Data.List.Perm.Subperm

/-!
Which lists of declarations are accepted.

`WellFormed` says it without an index, without a bound on the walk outward and
without an order of checks, and `Model.build_accepts_iff` says that it is what
the checks decide.  The walk is cut off after as many steps as there are
declarations.  A chain that ends never repeats a declaration, so it is shorter
than that, and a chain that is cut off never ends.
-/

namespace ThreadConfinement

/-- The kinds of declaration that one of the given kind may stand in. -/
def Kind.hosts : Kind → List Kind
  | module => [module]
  | type => [module, type, method, constructor, initializer]
  | method | constructor | initializer => [module, type]
  | field => [type]

theorem Kind.mayEnclose_iff_mem_hosts {outer inner : Kind} :
    outer.mayEnclose inner = true ↔ outer ∈ inner.hosts := by
  cases inner <;> cases outer <;> decide

/-- Going outward from a declaration, one comes to one that stands in
nothing. -/
inductive Declaration.Ends (ds : List Declaration) : Declaration → Prop
  | root {d : Declaration} (hroot : d.enclosing = none) : Ends ds d
  | outward {d outer : Declaration} (houter : outer ∈ ds)
      (henc : d.enclosing = some outer.id) (hrest : Ends ds outer) : Ends ds d

/-- Each declaration on its own, and together with the one directly around it,
is as it has to be. -/
structure WellPlaced (ds : List Declaration) : Prop where
  distinct : (ds.map Declaration.id).Nodup
  named : ∀ d ∈ ds, d.location ≠ ""
  unpadded : ∀ d ∈ ds, ∀ c, d.location.toList.getLast? = some c →
    Text.isBlank c = false
  uncontrolled : ∀ d ∈ ds, ∀ c ∈ d.location.toList, Text.isControl c = false
  roots : ∀ d ∈ ds, d.enclosing = none → d.kind = .module
  hosted : ∀ d ∈ ds, ∀ id, d.enclosing = some id →
    ∃ outer ∈ ds, outer.id = id ∧ outer.kind ∈ d.kind.hosts

/-- The declarations are well placed, their chains end, and the supertypes of
types are types. -/
structure WellFormed (ds : List Declaration) : Prop extends WellPlaced ds where
  ends : ∀ d ∈ ds, d.Ends ds
  supertypes : ∀ d ∈ ds, d.kind = .type → ∀ sup ∈ d.supertypes,
    ∃ e ∈ ds, e.id = sup ∧ e.kind = .type

namespace Declaration

/-! ### The walk outward -/

section Walk

variable {index : IdMap Declaration} {d outer : Declaration}
  {above rest : List Declaration} {steps : Nat}

theorem ascend?_eq_some_nil_iff :
    d.ascend? index steps = some [] ↔
      d.enclosing.bind (fun id => index[id]?) = none := by
  cases hbind : d.enclosing.bind (fun id => index[id]?) with
  | none => simp [ascend?_of_eq_none hbind]
  | some outer =>
      rw [ascend?_of_eq_some hbind]
      cases steps <;> simp

theorem ascend?_eq_some_cons_iff :
    d.ascend? index steps = some (outer :: rest) ↔
      d.enclosing.bind (fun id => index[id]?) = some outer ∧
        ∃ fewer, steps = fewer + 1 ∧ outer.ascend? index fewer = some rest := by
  cases hbind : d.enclosing.bind (fun id => index[id]?) with
  | none => simp [ascend?_of_eq_none hbind]
  | some middle =>
      rw [ascend?_of_eq_some hbind]
      cases steps with
      | zero => simp
      | succ fewer =>
          simp only [Option.map_eq_some_iff, List.cons.injEq, Option.some.injEq,
            Nat.add_right_cancel_iff, exists_eq_left']
          constructor
          · rintro ⟨found, hfound, rfl, rfl⟩
            exact ⟨rfl, hfound⟩
          · rintro ⟨rfl, hfound⟩
            exact ⟨rest, hfound, rfl, rfl⟩

/-- A walk that comes to its end does so under every bound that is not below the
length of the chain. -/
theorem ascend?_of_length_le (hascend : d.ascend? index steps = some above)
    {bound : Nat} (hbound : above.length ≤ bound) :
    d.ascend? index bound = some above := by
  induction above generalizing d steps bound with
  | nil =>
    exact ascend?_eq_some_nil_iff.mpr (ascend?_eq_some_nil_iff.mp hascend)
  | cons outer rest ih =>
      obtain ⟨hbind, fewer, -, hrest⟩ := ascend?_eq_some_cons_iff.mp hascend
      rw [List.length_cons] at hbound
      obtain ⟨less, rfl⟩ : ∃ less, bound = less + 1 := ⟨bound - 1, by omega⟩
      exact ascend?_eq_some_cons_iff.mpr ⟨hbind, less, rfl, ih hrest (by omega)⟩

/-- The bound decides whether a walk comes to its end, but not what it finds. -/
theorem ascend?_unique {fewer : Nat}
    (hascend : d.ascend? index steps = some above)
    (hother : d.ascend? index fewer = some rest) : above = rest := by
  have hlong :=
    ascend?_of_length_le hascend (Nat.le_add_right above.length rest.length)
  rw [ascend?_of_length_le hother
    (Nat.le_add_left rest.length above.length)] at hlong
  exact (Option.some.inj hlong).symm

/-- The chain above a declaration on a chain is shorter. -/
theorem exists_shorter_of_mem (hascend : d.ascend? index steps = some above)
    {e : Declaration} (he : e ∈ above) :
    ∃ fewer shorter, e.ascend? index fewer = some shorter ∧
      shorter.length < above.length := by
  induction above generalizing d steps with
  | nil => simp at he
  | cons outer rest ih =>
      obtain ⟨-, fewer, -, hrest⟩ := ascend?_eq_some_cons_iff.mp hascend
      rcases List.mem_cons.mp he with rfl | he
      · exact ⟨fewer, rest, hrest, Nat.lt_succ_self _⟩
      · obtain ⟨less, shorter, hshorter, hlt⟩ := ih hrest he
        exact ⟨less, shorter, hshorter, Nat.lt_succ_of_lt hlt⟩

/-- A chain that ends has no declaration twice: above the second one it would
have to be shorter than above the first. -/
theorem nodup_of_ascend?_eq_some
    (hascend : d.ascend? index steps = some above) :
    (d :: above).Nodup := by
  induction above generalizing d steps with
  | nil => simp
  | cons outer rest ih =>
      obtain ⟨-, fewer, -, hrest⟩ := ascend?_eq_some_cons_iff.mp hascend
      refine List.nodup_cons.mpr ⟨?_, ih hrest⟩
      intro hmem
      obtain ⟨less, shorter, hshorter, hlt⟩ :=
        exists_shorter_of_mem hascend hmem
      rw [ascend?_unique hascend hshorter] at hlt
      exact Nat.lt_irrefl _ hlt

/-- The outermost declaration of a chain stands in nothing that the index
knows. -/
theorem bind_enclosing_getLastD (hascend : d.ascend? index steps = some above) :
    (above.getLastD d).enclosing.bind (fun id => index[id]?) = none := by
  induction above generalizing d steps with
  | nil => exact ascend?_eq_some_nil_iff.mp hascend
  | cons outer rest ih =>
      obtain ⟨-, fewer, -, hrest⟩ := ascend?_eq_some_cons_iff.mp hascend
      rw [List.getLastD_cons]
      exact ih hrest

end Walk

end Declaration

/-! ### Chains of declarations with distinct numbers -/

namespace Model

section Chains

variable {ds : List Declaration} (hdistinct : (ds.map Declaration.id).Nodup)
  {d : Declaration}

include hdistinct

/-- What is asked of a declaration with a number may be asked of what the index
finds under it. -/
theorem exists_mem_id_eq_iff {id : DeclId} {p : Declaration → Prop} :
    (∃ e ∈ ds, e.id = id ∧ p e) ↔ ∃ e, (indexOf ds)[id]? = some e ∧ p e := by
  simp only [getElem?_indexOf_eq_some_iff hdistinct, and_assoc]

theorem mem_of_ascend?_eq_some (hd : d ∈ ds) {steps : Nat}
    {above : List Declaration}
    (hascend : d.ascend? (indexOf ds) steps = some above) :
    ∀ e ∈ d :: above, e ∈ ds := by
  induction above generalizing d steps with
  | nil => simpa using hd
  | cons outer rest ih =>
      obtain ⟨hbind, fewer, -, hrest⟩ :=
        Declaration.ascend?_eq_some_cons_iff.mp hascend
      have houter := ((bind_indexOf_eq_some_iff hdistinct).mp hbind).1
      exact List.forall_mem_cons.mpr ⟨hd, ih houter hrest⟩

/-- A chain that ends under some bound ends within as many steps as there are
declarations. -/
theorem ascend?_length_of_ascend?_eq_some (hd : d ∈ ds) {steps : Nat}
    {above : List Declaration}
    (hascend : d.ascend? (indexOf ds) steps = some above) :
    d.ascend? (indexOf ds) ds.length = some above := by
  have hnodup := Declaration.nodup_of_ascend?_eq_some hascend
  have hle :=
    (hnodup.subperm (mem_of_ascend?_eq_some hdistinct hd hascend)).length_le
  rw [List.length_cons] at hle
  exact Declaration.ascend?_of_length_le hascend (by omega)

theorem exists_ascend?_of_ends (hends : d.Ends ds) :
    ∃ steps above, d.ascend? (indexOf ds) steps = some above := by
  induction hends with
  | root hroot =>
      refine ⟨0, [], Declaration.ascend?_eq_some_nil_iff.mpr ?_⟩
      rw [hroot, Option.bind_none]
  | outward houter henc _ ih =>
      obtain ⟨steps, above, hascend⟩ := ih
      exact ⟨steps + 1, _ :: above, Declaration.ascend?_eq_some_cons_iff.mpr
        ⟨(bind_indexOf_eq_some_iff hdistinct).mpr ⟨houter, henc⟩, steps,
          rfl, hascend⟩⟩

end Chains

end Model

namespace WellPlaced

variable {ds : List Declaration} (hplaced : WellPlaced ds) {d : Declaration}

include hplaced

/-- A declaration that the index finds nothing around stands in nothing. -/
theorem enclosing_eq_none (hd : d ∈ ds)
    (hbind : d.enclosing.bind (fun id => (Model.indexOf ds)[id]?) = none) :
    d.enclosing = none := by
  cases henclosing : d.enclosing with
  | none => rfl
  | some id =>
      obtain ⟨outer, houter, rfl, -⟩ := hplaced.hosted d hd id henclosing
      have hsome := (Model.bind_indexOf_eq_some_iff hplaced.distinct).mpr
        ⟨houter, henclosing⟩
      rw [hbind] at hsome
      cases hsome

theorem ends_of_ascend?_eq_some (hd : d ∈ ds) {steps : Nat}
    {above : List Declaration}
    (hascend : d.ascend? (Model.indexOf ds) steps = some above) :
    d.Ends ds := by
  induction above generalizing d steps with
  | nil =>
      exact .root (hplaced.enclosing_eq_none hd
        (Declaration.ascend?_eq_some_nil_iff.mp hascend))
  | cons outer rest ih =>
      obtain ⟨hbind, fewer, -, hrest⟩ :=
        Declaration.ascend?_eq_some_cons_iff.mp hascend
      obtain ⟨houter, henc⟩ :=
        (Model.bind_indexOf_eq_some_iff hplaced.distinct).mp hbind
      exact .outward houter henc (ih houter hrest)

/-- A chain that ends has no fault: it is not cut off, and its last declaration
is a module. -/
theorem chainFault?_of_ends (hd : d ∈ ds) (hends : d.Ends ds) :
    d.chainFault? (Model.indexOf ds) ds.length = none := by
  obtain ⟨steps, above, hascend⟩ :=
    Model.exists_ascend?_of_ends hplaced.distinct hends
  have hlast : above.getLastD d ∈ ds := by
    apply Model.mem_of_ascend?_eq_some hplaced.distinct hd hascend
    rw [List.getLastD_eq_getLast?]
    cases hget : above.getLast? with
    | none => exact List.mem_cons_self
    | some e => exact List.mem_cons_of_mem d (List.mem_of_getLast? hget)
  have hroot :=
    hplaced.enclosing_eq_none hlast
      (Declaration.bind_enclosing_getLastD hascend)
  rw [Declaration.chainFault?,
    Model.ascend?_length_of_ascend?_eq_some hplaced.distinct hd hascend]
  simp only [hplaced.roots _ hlast hroot, ↓reduceIte]

/-- A chain that does not end is cut off. -/
theorem chainFault?_of_not_ends (hd : d ∈ ds) (hends : ¬ d.Ends ds) :
    d.chainFault? (Model.indexOf ds) ds.length =
      some (.enclosingCycle d.id) := by
  rw [Declaration.chainFault?]
  cases hascend : d.ascend? (Model.indexOf ds) ds.length with
  | none => rfl
  | some above =>
    exact absurd (hplaced.ends_of_ascend?_eq_some hd hascend) hends

theorem chainFault?_eq_none_iff (hd : d ∈ ds) :
    d.chainFault? (Model.indexOf ds) ds.length = none ↔ d.Ends ds := by
  refine ⟨fun hnone => ?_, hplaced.chainFault?_of_ends hd⟩
  by_contra hends
  rw [hplaced.chainFault?_of_not_ends hd hends] at hnone
  cases hnone

theorem chainFault?_eq_cycle_iff (hd : d ∈ ds) {id : DeclId} :
    d.chainFault? (Model.indexOf ds) ds.length = some (.enclosingCycle id) ↔
      d.id = id ∧ ¬ d.Ends ds := by
  by_cases hends : d.Ends ds
  · simp [hplaced.chainFault?_of_ends hd hends, hends]
  · simp [hplaced.chainFault?_of_not_ends hd hends, hends]

end WellPlaced

/-! ### Faults, one check after another -/

namespace Declaration

/-- A blank location ends in a blank, so the check for blank locations refuses
nothing on its own. -/
theorem locationFault?_eq_none_iff {d : Declaration} :
    d.locationFault? = none ↔ isExportable d.location = true := by
  rw [locationFault?]
  by_cases hblank : Text.allBlank d.location = true
  · have hrefused : isExportable d.location ≠ true := by
      rw [Ne, isExportable_iff]
      rintro ⟨hne, hend, -⟩
      rw [Text.endsInBlank, Option.any_eq_false] at hend
      obtain ⟨last, hlast⟩ := Option.isSome_iff_exists.mp
        (List.getLast?_isSome.mpr
          (fun hnil => hne (String.toList_eq_nil_iff.mp hnil)))
      have hmem := List.all_eq_true.mp hblank last (List.mem_of_getLast? hlast)
      rw [hend last hlast] at hmem
      cases hmem
    simp [hblank, hrefused]
  · simp [hblank]

theorem enclosingFault?_eq_none_iff {ds : List Declaration}
    (hdistinct : (ds.map Declaration.id).Nodup) {d : Declaration} :
    d.enclosingFault? (Model.indexOf ds) = none ↔
      (d.enclosing = none → d.kind = .module) ∧
        ∀ id, d.enclosing = some id → ∃ outer ∈ ds, outer.id = id ∧
        outer.kind ∈ d.kind.hosts := by
  simp only [Model.exists_mem_id_eq_iff hdistinct, enclosingFault?]
  cases henclosing : d.enclosing with
  | none => simp
  | some id => cases hfind : (Model.indexOf ds)[id]? <;>
      simp [hfind, Kind.mayEnclose_iff_mem_hosts]

theorem supertypeFault?_eq_none_iff {ds : List Declaration}
    (hdistinct : (ds.map Declaration.id).Nodup) {d : Declaration} :
    d.supertypeFault? (Model.indexOf ds) = none ↔
      (d.kind = .type → ∀ sup ∈ d.supertypes, ∃ e ∈ ds, e.id = sup ∧
        e.kind = .type) := by
  simp only [Model.exists_mem_id_eq_iff hdistinct, supertypeFault?]
  by_cases hkind : d.kind = .type
  · rw [if_pos hkind, List.findSome?_eq_none_iff]
    simp only [hkind, true_implies]
    refine forall₂_congr (fun sup _ => ?_)
    cases hfind : (Model.indexOf ds)[sup]? <;> simp
  · simp [hkind]

/-- What the check of the declaration around another one may find. -/
theorem enclosingFault?_eq_some {index : IdMap Declaration} {d : Declaration}
    {fault : ModelFault} (hfault : d.enclosingFault? index = some fault) :
    (d.enclosing = none ∧ d.kind ≠ .module ∧ fault = .missingModule d.id) ∨
      (∃ missing, fault = .unknownDeclaration (.declaration d.id) missing) ∨
        ∃ kind, fault = .invalidEnclosing d.id kind := by
  unfold enclosingFault? at hfault
  split at hfault
  · next hnone =>
      split at hfault
      · cases hfault
      · next hkind => exact Or.inl ⟨hnone, hkind, (Option.some.inj hfault).symm⟩
  · split at hfault
    · exact Or.inr (Or.inl ⟨_, (Option.some.inj hfault).symm⟩)
    · split at hfault
      · cases hfault
      · exact Or.inr (Or.inr ⟨_, (Option.some.inj hfault).symm⟩)

/-- What the check of supertypes may find. -/
theorem supertypeFault?_eq_some {index : IdMap Declaration} {d : Declaration}
    {fault : ModelFault} (hfault : d.supertypeFault? index = some fault) :
    (∃ missing, fault = .unknownDeclaration (.supertypes d.id) missing) ∨
      ∃ sup, fault = .notAType d.id sup := by
  unfold supertypeFault? at hfault
  split at hfault
  · obtain ⟨sup, -, hsup⟩ := List.exists_of_findSome?_eq_some hfault
    split at hsup
    · exact Or.inl ⟨sup, (Option.some.inj hsup).symm⟩
    · split at hsup
      · cases hsup
      · exact Or.inr ⟨sup, (Option.some.inj hsup).symm⟩
  · cases hfault

/-- What the check of a location may find. -/
theorem locationFault?_eq_some {d : Declaration} {fault : ModelFault}
    (hfault : d.locationFault? = some fault) :
    fault = .emptyLocation d.id ∨
      fault = .unexportableLocation d.id d.location := by
  unfold locationFault? at hfault
  split at hfault
  · exact Or.inl (Option.some.inj hfault).symm
  · split at hfault
    · exact Or.inr (Option.some.inj hfault).symm
    · cases hfault

end Declaration

namespace Model

/-- What the check of entries may find. -/
theorem entryFault?_eq_some {seen : IdSet} {ds : List Declaration}
    {fault : ModelFault} (hfault : entryFault? seen ds = some fault) :
    ∃ id, fault = .duplicateDeclaration id ∨ fault = .emptyLocation id ∨
      ∃ location, fault = .unexportableLocation id location := by
  induction ds generalizing seen with
  | nil => cases hfault
  | cons d ds ih =>
      rw [entryFault?] at hfault
      split at hfault
      · exact ⟨d.id, Or.inl (Option.some.inj hfault).symm⟩
      · rw [Option.orElse_eq_orElse, Option.orElse_eq_or,
          Option.or_eq_some_iff] at hfault
        rcases hfault with hlocation | ⟨-, hrest⟩
        · rcases Declaration.locationFault?_eq_some hlocation with rfl | rfl
          · exact ⟨d.id, Or.inr (Or.inl rfl)⟩
          · exact ⟨d.id, Or.inr (Or.inr ⟨d.location, rfl⟩)⟩
        · exact ih hrest

/-- The first two checks, of entries and of what stands directly around them,
ask that declarations are well placed. -/
theorem wellPlaced_iff {ds : List Declaration} :
    WellPlaced ds ↔
      entryFault? ∅ ds = none ∧
        ∀ d ∈ ds, d.enclosingFault? (indexOf ds) = none := by
  have hlocation : ∀ d : Declaration, d.locationFault? = none ↔
      d.location ≠ "" ∧
        (∀ c, d.location.toList.getLast? = some c → Text.isBlank c = false) ∧
        ∀ c ∈ d.location.toList, Text.isControl c = false := by
    intro d
    rw [Declaration.locationFault?_eq_none_iff, isExportable_iff,
      Text.endsInBlank, Option.any_eq_false, Text.hasControl, List.any_eq_false]
    simp only [Bool.not_eq_true]
  rw [entryFault?_eq_none_iff]
  constructor
  · intro hplaced
    refine ⟨⟨hplaced.distinct, by simp, fun d hd => ?_⟩, fun d hd => ?_⟩
    · exact (hlocation d).mpr
        ⟨hplaced.named d hd, hplaced.unpadded d hd, hplaced.uncontrolled d hd⟩
    · exact (Declaration.enclosingFault?_eq_none_iff hplaced.distinct).mpr
        ⟨hplaced.roots d hd, hplaced.hosted d hd⟩
  · rintro ⟨⟨hdistinct, -, hlocations⟩, henclosing⟩
    have hplace := fun d hd =>
      (Declaration.enclosingFault?_eq_none_iff hdistinct).mp (henclosing d hd)
    exact
      { distinct := hdistinct
        named := fun d hd => ((hlocation d).mp (hlocations d hd)).1
        unpadded := fun d hd => ((hlocation d).mp (hlocations d hd)).2.1
        uncontrolled := fun d hd => ((hlocation d).mp (hlocations d hd)).2.2
        roots := fun d hd => (hplace d hd).1
        hosted := fun d hd => (hplace d hd).2 }

theorem fault?_eq_none_iff_wellFormed {ds : List Declaration} :
    fault? ds = none ↔ WellFormed ds := by
  rw [fault?_eq_none_iff, ← and_assoc, ← wellPlaced_iff]
  constructor
  · rintro ⟨hplaced, hchains, hsupertypes⟩
    exact
      { hplaced with
        ends :=
          fun d hd => (hplaced.chainFault?_eq_none_iff hd).mp (hchains d hd)
        supertypes := fun d hd =>
          (Declaration.supertypeFault?_eq_none_iff hplaced.distinct).mp
            (hsupertypes d hd) }
  · intro hformed
    exact ⟨hformed.toWellPlaced,
      fun d hd => (hformed.chainFault?_eq_none_iff hd).mpr (hformed.ends d hd),
      fun d hd => (Declaration.supertypeFault?_eq_none_iff hformed.distinct).mpr
        (hformed.supertypes d hd)⟩

/-- A cycle is reported when the checks before find nothing, for the first chain
that is cut off. -/
theorem fault?_eq_cycle_iff {ds : List Declaration} {id : DeclId} :
    fault? ds = some (.enclosingCycle id) ↔
      WellPlaced ds ∧
        ds.findSome? (·.chainFault? (indexOf ds) ds.length) =
          some (.enclosingCycle id) := by
  have hentry : entryFault? ∅ ds ≠ some (.enclosingCycle id) := by
    intro hsome
    obtain ⟨_, hfault | hfault | ⟨_, hfault⟩⟩ :=
      entryFault?_eq_some hsome <;> cases hfault
  have henclosing : ds.findSome? (·.enclosingFault? (indexOf ds)) ≠
      some (.enclosingCycle id) := by
    intro hsome
    obtain ⟨d, -, hd⟩ := List.exists_of_findSome?_eq_some hsome
    obtain ⟨-, -, hfault⟩ | ⟨_, hfault⟩ | ⟨_, hfault⟩ :=
      Declaration.enclosingFault?_eq_some hd
      <;> cases hfault
  have hsupertypes : ds.findSome? (·.supertypeFault? (indexOf ds)) ≠
      some (.enclosingCycle id) := by
    intro hsome
    obtain ⟨d, -, hd⟩ := List.exists_of_findSome?_eq_some hsome
    obtain ⟨_, hfault⟩ | ⟨_, hfault⟩ := Declaration.supertypeFault?_eq_some hd
      <;> cases hfault
  rw [wellPlaced_iff, ← List.findSome?_eq_none_iff]
  simp only [fault?, Option.orElse_eq_orElse, Option.orElse_eq_or,
    Option.or_eq_some_iff, hentry, henclosing, hsupertypes, false_or, and_false,
    or_false, and_assoc]

/-- Declarations are accepted exactly when they are well formed.  A cycle is
reported exactly when they are well placed and some chain does not end, and then
for the first declaration of which this is so. -/
theorem build_accepts_iff (ds : List Declaration) :
    ((∃ m, build ds = .ok m) ↔ WellFormed ds) ∧
      ∀ id, build ds = .error (.enclosingCycle id) ↔
        WellPlaced ds ∧
          ∃ before d after, ds = before ++ d :: after ∧ d.id = id ∧
          ¬ d.Ends ds ∧ ∀ e ∈ before, e.Ends ds := by
  constructor
  · simp only [build_eq_ok_iff, fault?_eq_none_iff_wellFormed, exists_and_left,
      exists_eq, and_true]
  · intro id
    have hbuild : build ds = .error (.enclosingCycle id) ↔
        fault? ds = some (.enclosingCycle id) := by
      rw [build]
      cases fault? ds <;> simp
    rw [hbuild, fault?_eq_cycle_iff, List.findSome?_eq_some_iff]
    refine and_congr_right
      (fun hplaced => exists₃_congr (fun before d after => ?_))
    refine and_congr_right (fun hsplit => ?_)
    have hd : d ∈ ds := by simp [hsplit]
    have hbefore : ∀ e ∈ before, e ∈ ds := fun e he => by simp [hsplit, he]
    rw [hplaced.chainFault?_eq_cycle_iff hd, and_assoc]
    refine and_congr_right
      (fun _ => and_congr_right (fun _ => forall₂_congr (fun e he => ?_)))
    exact hplaced.chainFault?_eq_none_iff (hbefore e he)

-- a type inside its own method; the module before them is on no cycle
example :
    fault?
      [{ id := ⟨1⟩, kind := .module, location := "app",
         qualifiedName := "app" },
        { id := ⟨2⟩, kind := .method, enclosing := some ⟨3⟩,
          location := "app.Local.run", qualifiedName := "app.Local.run" },
        { id := ⟨3⟩, kind := .type, enclosing := some ⟨2⟩,
          location := "app.Local", qualifiedName := "app.Local" }] =
            some (.enclosingCycle ⟨2⟩) := by
  decide +kernel

end Model

end ThreadConfinement
