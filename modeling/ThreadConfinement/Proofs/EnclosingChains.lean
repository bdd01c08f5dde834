import ThreadConfinement.Proofs.Subtypes
import ThreadConfinement.Proofs.WellFormed

/-!
The chains of enclosing declarations in an accepted model.

`Model.Chain` follows the links from a declaration to one that stands in
nothing, with no bound on the way.  In an accepted model every declaration has
such a chain, no longer than the list of declarations, and the walk along the
index lists it.  It runs through declarations that are no modules, possibly
none, and then through modules only: `Model.build_chains`.
-/

namespace ThreadConfinement

/-- Going outward from a declaration, one meets the listed declarations, nearest
first, and comes to an end. -/
inductive Model.Chain (m : Model) : Declaration → List Declaration → Prop
  | root {d : Declaration} (hroot : d.enclosing = none) : Chain m d []
  | outward {d outer : Declaration} {above : List Declaration}
      (henc : m.Encloses outer d) (hrest : Chain m outer above) :
      Chain m d (outer :: above)

namespace Model.Accepted

variable {m : Model} (haccepted : m.Accepted) {d : Declaration}
  {above : List Declaration}

include haccepted

theorem wellFormed : WellFormed m.declarations := by
  obtain ⟨ds, hbuild⟩ := haccepted
  obtain ⟨hfault, rfl⟩ := build_eq_ok_iff.mp hbuild
  exact fault?_eq_none_iff_wellFormed.mp hfault

theorem index_eq : m.index = indexOf m.declarations := by
  obtain ⟨ds, hbuild⟩ := haccepted
  obtain ⟨-, rfl⟩ := build_eq_ok_iff.mp hbuild
  rfl

/-! ### The walk and the chain -/

/-- A walk that comes to its end has gone along the chain. -/
theorem chain_of_ascend?_eq_some (hd : d ∈ m.declarations) {steps : Nat}
    (hascend : d.ascend? m.index steps = some above) : m.Chain d above := by
  induction above generalizing d steps with
  | nil =>
      have hbind := Declaration.ascend?_eq_some_nil_iff.mp hascend
      rw [haccepted.index_eq] at hbind
      exact .root (haccepted.wellFormed.enclosing_eq_none hd hbind)
  | cons outer rest ih =>
      obtain ⟨hbind, fewer, -, hrest⟩ :=
        Declaration.ascend?_eq_some_cons_iff.mp hascend
      have henc := haccepted.bind_enclosing_eq_some_iff.mp hbind
      exact .outward henc (ih henc.1 hrest)

theorem chain_enclosers (hd : d ∈ m.declarations) : m.Chain d (m.enclosers d) :=
  haccepted.chain_of_ascend?_eq_some hd (haccepted.ascend?_eq_some hd)

/-- A walk lists the chain as soon as it may take as many steps as the chain
has. -/
theorem ascend?_of_chain (hchain : m.Chain d above) {steps : Nat}
    (hsteps : above.length ≤ steps) :
    d.ascend? m.index steps = some above := by
  induction hchain generalizing steps with
  | root hroot =>
      apply Declaration.ascend?_of_eq_none
      rw [hroot, Option.bind_none]
  | outward henc _ ih =>
      rw [List.length_cons] at hsteps
      obtain ⟨fewer, rfl⟩ : ∃ fewer, steps = fewer + 1 := ⟨steps - 1, by omega⟩
      exact Declaration.ascend?_eq_some_cons_iff.mpr
        ⟨haccepted.bind_enclosing_eq_some_iff.mpr henc, fewer, rfl,
          ih (by omega)⟩

theorem length_enclosers_lt (hd : d ∈ m.declarations) :
    (m.enclosers d).length < m.size := by
  have hascend := haccepted.ascend?_eq_some hd
  have hnodup := Declaration.nodup_of_ascend?_eq_some hascend
  rw [haccepted.index_eq] at hascend
  have hmem := mem_of_ascend?_eq_some haccepted.wellFormed.distinct hd hascend
  exact (hnodup.subperm hmem).length_le

/-! ### The shape of a chain -/

/-- Around a module there are only modules. -/
theorem forall_mem_kind_eq_module (hchain : m.Chain d above)
    (hd : d ∈ m.declarations) (hkind : d.kind = .module) :
    ∀ e ∈ above, e.kind = .module := by
  induction hchain with
  | root _ => simp
  | @outward d outer above henc _ ih =>
      have hmay := haccepted.mayEnclose_of_encloses hd henc
      have houter : outer.kind = .module := by
        simpa [hkind, Kind.mayEnclose] using hmay
      exact List.forall_mem_cons.mpr ⟨houter, ih henc.1 houter⟩

/-- A chain runs through declarations that are no modules, and then through
modules only. -/
theorem exists_chain_eq (hchain : m.Chain d above) (hd : d ∈ m.declarations) :
    ∃ inner home outer, d :: above = inner ++ home :: outer ∧
      (∀ e ∈ inner, e.kind ≠ .module) ∧
      home.kind = .module ∧ ∀ e ∈ outer, e.kind = .module := by
  induction hchain with
  | @root d hroot =>
    exact ⟨[], d, [], rfl, by simp, haccepted.wellFormed.roots d hd hroot,
      by simp⟩
  | @outward d outer above henc hrest ih =>
      by_cases hkind : d.kind = .module
      · exact ⟨[], d, outer :: above, rfl, by simp, hkind,
          haccepted.forall_mem_kind_eq_module (.outward henc hrest) hd hkind⟩
      · obtain ⟨inner, home, modules, hchain, hinner, hhome, hmodules⟩ :=
          ih henc.1
        refine ⟨d :: inner, home, modules, ?_, List.forall_mem_cons.mpr ⟨hkind,
          hinner⟩, hhome, hmodules⟩
        rw [hchain, List.cons_append]

theorem moduleOf?_of_chain (hd : d ∈ m.declarations)
    {inner outer : List Declaration} {home : Declaration}
    (hchain : d :: m.enclosers d = inner ++ home :: outer)
    (hinner : ∀ e ∈ inner, e.kind ≠ .module) (hhome : home.kind = .module) :
    m.moduleOf? d.id = some home := by
  have hnone : inner.find? (fun e => e.kind == .module) = none := by
    rw [List.find?_eq_none]
    intro e he
    simpa using hinner e he
  rw [moduleOf?, haccepted.find?_id hd, Option.bind_some, hchain,
    List.find?_append, hnone]
  simp [hhome]

/-- The type around code or a field stands directly around it, if anywhere. -/
theorem enclosingType?_of_encloses (hd : d ∈ m.declarations)
    (hkind : d.kind ≠ .type) {host : Declaration} (henc : m.Encloses host d) :
    m.enclosingType? d.id = if host.kind = .type then some host else none := by
  have hiff : ∀ type, m.enclosingType? d.id = some type ↔
      m.Encloses type d ∧ type.kind = .type := by
    intro type
    rw [enclosingType?, haccepted.nearest?_eq_some_iff .type hd,
      haccepted.nearest_type_iff hd hkind]
  split
  · next htype => exact (hiff host).mpr ⟨henc, htype⟩
  · next hother =>
      rw [Option.eq_none_iff_forall_ne_some]
      intro type hsome
      obtain ⟨henc', htype⟩ := (hiff type).mp hsome
      rw [haccepted.encloses_unique henc henc'] at hother
      exact hother htype

end Model.Accepted

/-- The end of a chain is a module when declarations are well placed, so looking
at it finds nothing. -/
theorem WellPlaced.chainFault?_ne_missingModule {ds : List Declaration}
    (hplaced : WellPlaced ds) {d : Declaration} (hd : d ∈ ds) (id : DeclId) :
    d.chainFault? (Model.indexOf ds) ds.length ≠ some (.missingModule id) := by
  by_cases hends : d.Ends ds
  · simp [hplaced.chainFault?_of_ends hd hends]
  · simp [hplaced.chainFault?_of_not_ends hd hends]

namespace Model

/-- A missing module is only ever reported for a declaration that stands in
nothing. -/
theorem exists_root_of_fault?_eq_missingModule
    {ds : List Declaration} {id : DeclId}
    (hfault : fault? ds = some (.missingModule id)) :
    ∃ d ∈ ds, d.id = id ∧ d.enclosing = none ∧ d.kind ≠ .module := by
  simp only [fault?, Option.orElse_eq_orElse, Option.orElse_eq_or,
    Option.or_eq_some_iff] at hfault
  rcases hfault with hentry |
    ⟨hentries, henclosing | ⟨henclosed, hchain | ⟨-, hsupertypes⟩⟩⟩
  · obtain ⟨_, heq | heq | ⟨_, heq⟩⟩ := entryFault?_eq_some hentry <;> cases heq
  · obtain ⟨d, hd, hfound⟩ := List.exists_of_findSome?_eq_some henclosing
    obtain ⟨hroot, hkind, heq⟩ | ⟨_, heq⟩ | ⟨_, heq⟩ :=
      Declaration.enclosingFault?_eq_some hfound
    · cases heq
      exact ⟨d, hd, rfl, hroot, hkind⟩
    · cases heq
    · cases heq
  · obtain ⟨d, hd, hfound⟩ := List.exists_of_findSome?_eq_some hchain
    have hplaced :=
      wellPlaced_iff.mpr ⟨hentries, List.findSome?_eq_none_iff.mp henclosed⟩
    exact absurd hfound (hplaced.chainFault?_ne_missingModule hd id)
  · obtain ⟨d, hd, hfound⟩ := List.exists_of_findSome?_eq_some hsupertypes
    obtain ⟨_, heq⟩ | ⟨_, heq⟩ :=
      Declaration.supertypeFault?_eq_some hfound <;> cases heq

/-- In an accepted model the chain from every declaration outward is a run of
declarations that are no modules, possibly empty, and then a run of modules,
with no more declarations than there are.  However many steps beyond that a walk
may take, it lists this chain; so walks end.  The first module of the chain is
the module of the declaration.  The type around code or a field is what stands
directly around it, if that is a type, and members are listed in the order of
the host.  At the end of a chain a missing module is never found: it is only
reported for a declaration that stands in nothing. -/
theorem build_chains (ds : List Declaration) :
    (∀ m, build ds = .ok m →
      (∀ d ∈ ds, ∃ inner home outer,
        m.Chain d (m.enclosers d) ∧
        d :: m.enclosers d = inner ++ home :: outer ∧
        (∀ e ∈ inner, e.kind ≠ .module) ∧ home.kind = .module ∧
        (∀ e ∈ outer, e.kind = .module) ∧
        (d :: m.enclosers d).length ≤ m.size ∧
        (∀ steps, (m.enclosers d).length ≤ steps →
          d.ascend? m.index steps = some (m.enclosers d)) ∧
        m.moduleOf? d.id = some home) ∧
      (∀ d ∈ ds, d.kind.isCallable = true ∨ d.kind = .field →
        ∃ host ∈ ds, d.enclosing = some host.id ∧
          m.enclosingType? d.id =
            if host.kind = .type then some host else none) ∧
      ∀ id, m.membersOf id =
        (ds.filter (fun d => d.enclosing == some id)).map Declaration.id) ∧
    (entryFault? ∅ ds = none →
      (∀ d ∈ ds, d.enclosingFault? (indexOf ds) = none) →
      ∀ d ∈ ds, ∀ id,
        d.chainFault? (indexOf ds) ds.length ≠ some (.missingModule id)) ∧
    ∀ id, build ds = .error (.missingModule id) →
      ∃ d ∈ ds, d.id = id ∧ d.enclosing = none ∧ d.kind ≠ .module := by
  refine ⟨?_, ?_, ?_⟩
  · intro m hbuild
    have haccepted : m.Accepted := ⟨ds, hbuild⟩
    obtain ⟨-, rfl⟩ := build_eq_ok_iff.mp hbuild
    refine ⟨?_, ?_, membersOf_ofDeclarations ds⟩
    · intro d hd
      have hchain := haccepted.chain_enclosers hd
      obtain ⟨inner, home, outer, heq, hinner, hhome, houter⟩ :=
        haccepted.exists_chain_eq hchain hd
      exact ⟨inner, home, outer, hchain, heq, hinner, hhome, houter,
        haccepted.length_enclosers_lt hd,
        fun steps hsteps => haccepted.ascend?_of_chain hchain hsteps,
        haccepted.moduleOf?_of_chain hd heq hinner hhome⟩
    · intro d hd hkind
      have hother : d.kind ≠ .type ∧ d.kind ≠ .module := by
        rcases hkind with hcallable | hfield
        · constructor <;> (intro heq; simp [heq, Kind.isCallable] at hcallable)
        · simp [hfield]
      cases henclosing : d.enclosing with
      | none =>
        exact absurd (haccepted.wellFormed.roots d hd henclosing) hother.2
      | some id =>
          obtain ⟨host, hhost, rfl, -⟩ :=
            haccepted.wellFormed.hosted d hd id henclosing
          exact ⟨host, hhost, rfl,
            haccepted.enclosingType?_of_encloses hd hother.1
              ⟨hhost, henclosing⟩⟩
  · intro hentries henclosing d hd id
    exact (wellPlaced_iff.mpr ⟨hentries,
      henclosing⟩).chainFault?_ne_missingModule hd id
  · intro id hbuild
    exact exists_root_of_fault?_eq_missingModule (build_eq_error_iff.mp hbuild)

def jobRun : Declaration where
  id := ⟨4⟩
  kind := .method
  enclosing := some ⟨3⟩
  location := "lib.gen.Job.run"
  qualifiedName := "lib.gen.Job.run"
  suppressions := ["threadchecker:all"]

def jobTask : Declaration where
  id := ⟨5⟩
  kind := .type
  enclosing := some ⟨4⟩
  location := "lib.gen.Job.run$1"
  qualifiedName := "lib.gen.Job.run$1"

def jobCall : Declaration where
  id := ⟨6⟩
  kind := .method
  enclosing := some ⟨5⟩
  location := "lib.gen.Job.run$1.call"
  qualifiedName := "lib.gen.Job.run$1.call"

/-- A module in a module, a type, and code that holds a type with code and a
field. -/
def jobDeclarations : List Declaration :=
  [jobCall,
    { id := ⟨2⟩, kind := .module, enclosing := some ⟨1⟩, location := "gen",
      qualifiedName := "lib.gen" },
    jobTask,
    { id := ⟨7⟩, kind := .field, enclosing := some ⟨5⟩,
      location := "lib.gen.Job.run$1.count",
      qualifiedName := "lib.gen.Job.run$1.count" },
    { id := ⟨3⟩, kind := .type, enclosing := some ⟨2⟩,
      location := "lib.gen.Job", qualifiedName := "lib.gen.Job" },
    jobRun,
    { id := ⟨1⟩, kind := .module, location := "lib", qualifiedName := "lib" }]

theorem job_build_chains :
    ∃ m, build jobDeclarations = .ok m ∧
      (∃ inner home outer,
        jobCall :: m.enclosers jobCall = inner ++ home :: outer ∧
        (∀ e ∈ inner, e.kind ≠ .module) ∧ (∀ e ∈ outer, e.kind = .module) ∧
        m.moduleOf? ⟨6⟩ = some home) ∧
      m.enclosingType? ⟨6⟩ = some jobTask ∧ m.membersOf ⟨5⟩ = [⟨6⟩, ⟨7⟩] := by
  have hbuild : build jobDeclarations = .ok (ofDeclarations jobDeclarations) :=
    build_eq_ok_iff.mpr ⟨by decide +kernel, rfl⟩
  have hcall : jobCall ∈ jobDeclarations := List.mem_cons_self
  obtain ⟨hchains, htypes, hmembers⟩ :=
    (build_chains jobDeclarations).1 _ hbuild
  obtain ⟨inner, home, outer, -, heq, hinner, -, houter, -, -, hhome⟩ :=
    hchains jobCall hcall
  obtain ⟨host, hhost, henc, htype⟩ := htypes jobCall hcall (Or.inl rfl)
  refine ⟨_, hbuild, ⟨inner, home, outer, heq, hinner, houter, hhome⟩, ?_, ?_⟩
  · have hunique : ∀ e ∈ jobDeclarations, jobCall.enclosing = some e.id →
        e = jobTask := by
      decide +kernel
    obtain rfl := hunique host hhost henc
    exact htype
  · rw [hmembers]
    decide +kernel

end Model

end ThreadConfinement
