import ThreadConfinement.Proofs.EnclosingChains
import ThreadConfinement.Proofs.Resolution
import ThreadConfinement.Scope

/-!
Which declarations are left alone, and that this goes for everything inside
them.

`Model.Suppressed` and `Model.Ignored` say it by what stands around a
declaration and by the texts alone.  No module stands inside anything but a
module, so what is nested in a declaration that is no module has the same
module: `Model.Accepted.skipReason?_covers`.
-/

namespace ThreadConfinement

namespace Text

theorem occurs_iff {needle cs : List Char} :
    occurs needle cs = true ↔ needle <:+: cs := by
  induction cs with
  | nil => rw [occurs, List.isEmpty_iff, List.infix_nil]
  | cons c rest ih =>
      rw [occurs, Bool.or_eq_true, List.isPrefixOf_iff_prefix, ih,
        List.infix_cons_iff]

end Text

namespace Model

/-- The nearest module of a declaration: the declaration itself if it is one, or
else the first one outward. -/
def Home (m : Model) (d home : Declaration) : Prop :=
  if d.kind = .module then home = d else m.Nearest .module d home

/-- The declaration, or one around it at any depth, has a suppression that holds
the token. -/
def Suppressed (m : Model) (s : CheckSettings) (d : Declaration) : Prop :=
  ∃ e, Relation.ReflTransGen m.Encloses e d ∧ ∃ text ∈ e.suppressions,
    (s.suppressionToken?.getD "threadchecker").toList <:+: text.toList

/-- The name of the nearest module begins with one of the ignored beginnings. -/
def Ignored (m : Model) (s : CheckSettings) (d : Declaration) : Prop :=
  ∃ home, m.Home d home ∧
    ∃ stem ∈ s.ignoredModules, stem.toList <+: home.qualifiedName.toList

namespace Accepted

variable {m : Model} (haccepted : m.Accepted) {d : Declaration}

include haccepted

/-- A chain has the declaration itself and whatever stands around it. -/
theorem mem_cons_iff_of_chain {above : List Declaration}
    (hchain : m.Chain d above) {e : Declaration} :
    e ∈ d :: above ↔ Relation.ReflTransGen m.Encloses e d := by
  rw [List.mem_cons, Relation.ReflTransGen.cases_tail_iff, eq_comm]
  apply or_congr_right
  induction hchain with
  | root hroot => simp [Encloses, hroot]
  | @outward d outer above henc _ ih =>
      rw [List.mem_cons, ih, eq_comm, ← Relation.ReflTransGen.cases_tail_iff]
      constructor
      · intro hcovers
        exact ⟨outer, hcovers, henc⟩
      · rintro ⟨middle, hcovers, hmiddle⟩
        rwa [haccepted.encloses_unique henc hmiddle]

theorem suppressed_iff (hd : d ∈ m.declarations) (s : CheckSettings) :
    (d :: m.enclosers d).any (·.isSuppressedBy s.suppressionToken) = true ↔
      m.Suppressed s d := by
  rw [List.any_eq_true]
  simp only [haccepted.mem_cons_iff_of_chain (haccepted.chain_enclosers hd),
    Declaration.isSuppressedBy, List.any_eq_true, Text.holds, Text.occurs_iff]
  rfl

theorem moduleOf?_eq_some_iff (hd : d ∈ m.declarations) {home : Declaration} :
    m.moduleOf? d.id = some home ↔ m.Home d home := by
  by_cases hkind : d.kind = .module
  · rw [Home, if_pos hkind, moduleOf?, haccepted.find?_id hd, Option.bind_some,
      List.find?_cons]
    simp [hkind, eq_comm]
  · rw [Home, if_neg hkind, haccepted.moduleOf?_eq_nearest? hd hkind,
      haccepted.nearest?_eq_some_iff .module hd]

theorem ignored_iff (hd : d ∈ m.declarations) (s : CheckSettings) :
    (m.moduleOf? d.id).any (fun e => s.ignoresModule e.qualifiedName) = true ↔
      m.Ignored s d := by
  rw [Option.any_eq_true]
  simp only [haccepted.moduleOf?_eq_some_iff hd, CheckSettings.ignoresModule,
    List.any_eq_true, Text.beginsWith, List.isPrefixOf_iff_prefix]
  rfl

/-- What stands directly in a declaration that is no module is no module either,
and has the same module. -/
theorem home_iff_of_encloses {outer inner : Declaration}
    (houter : outer.kind ≠ .module) (hinner : inner ∈ m.declarations)
    (henc : m.Encloses outer inner) :
    inner.kind ≠ .module ∧ ∀ home, m.Home inner home ↔ m.Home outer home := by
  have hkind : inner.kind ≠ .module := by
    intro hmodule
    have hmay := haccepted.mayEnclose_of_encloses hinner henc
    rw [hmodule, Kind.mayEnclose, beq_iff_eq] at hmay
    exact houter hmay
  refine ⟨hkind, ?_⟩
  intro home
  rw [Home, if_neg hkind, haccepted.nearest_iff_of_encloses henc, if_neg houter,
    Home, if_neg houter]

/-- The same at any depth. -/
theorem home_iff_of_transGen {outer inner : Declaration}
    (houter : outer.kind ≠ .module) (hinner : inner ∈ m.declarations)
    (hinside : Relation.TransGen m.Encloses outer inner) :
    inner.kind ≠ .module ∧ ∀ home, m.Home inner home ↔ m.Home outer home := by
  induction hinside with
  | single henc => exact haccepted.home_iff_of_encloses houter hinner henc
  | tail _ henc ih =>
      obtain ⟨hmiddle, hhome⟩ := ih henc.1
      obtain ⟨hkind, hsame⟩ :=
        haccepted.home_iff_of_encloses hmiddle hinner henc
      exact ⟨hkind, fun home => (hsame home).trans (hhome home)⟩

open Classical in
theorem skipReason?_eq (hd : d ∈ m.declarations) (s : CheckSettings) :
    m.skipReason? s d =
      if m.Suppressed s d then some .suppressed
      else if m.Ignored s d then some .ignoredModule else none := by
  simp only [skipReason?, haccepted.suppressed_iff hd, haccepted.ignored_iff hd]

theorem skipReason?_eq_none_iff (hd : d ∈ m.declarations) (s : CheckSettings) :
    m.skipReason? s d = none ↔ ¬ m.Suppressed s d ∧ ¬ m.Ignored s d := by
  rw [haccepted.skipReason?_eq hd]
  split_ifs with hsuppressed hignored
  · simp [hsuppressed]
  · simp [hignored]
  · simp [hsuppressed, hignored]

/-- A declaration is skipped as suppressed exactly when it or one around it is
suppressed, otherwise for its module exactly when that is ignored, and otherwise
not at all.  Whatever is nested in a skipped declaration that is no module is
skipped as well. -/
theorem skipReason?_covers (s : CheckSettings) :
    (∀ d ∈ m.declarations,
      (m.skipReason? s d = some .suppressed ↔ m.Suppressed s d) ∧
      (m.skipReason? s d = some .ignoredModule ↔
        ¬ m.Suppressed s d ∧ m.Ignored s d) ∧
      (m.skipReason? s d = none ↔ ¬ m.Suppressed s d ∧ ¬ m.Ignored s d)) ∧
    ∀ d ∈ m.declarations, d.kind ≠ .module → m.skipReason? s d ≠ none →
      ∀ inner ∈ m.declarations, Relation.TransGen m.Encloses d inner →
        m.skipReason? s inner ≠ none := by
  constructor
  · intro d hd
    rw [haccepted.skipReason?_eq hd]
    split_ifs with hsuppressed hignored
    · simp [hsuppressed]
    · simp [hsuppressed, hignored]
    · simp [hsuppressed, hignored]
  · intro d hd hkind hskipped inner hinner hinside
    rw [Ne, haccepted.skipReason?_eq_none_iff hd, not_and_or, Classical.not_not,
      Classical.not_not] at hskipped
    rw [Ne, haccepted.skipReason?_eq_none_iff hinner, not_and_or,
      Classical.not_not, Classical.not_not]
    rcases hskipped with ⟨e, hcovers, htoken⟩ | ⟨home, hhome, hstem⟩
    · exact Or.inl ⟨e, hcovers.trans hinside.to_reflTransGen, htoken⟩
    · exact Or.inr ⟨home,
        ((haccepted.home_iff_of_transGen hkind hinner hinside).2
          home).mpr hhome,
        hstem⟩

end Accepted

theorem job_skipReason?_covers :
    ∃ m, build jobDeclarations = .ok m ∧
      Relation.TransGen m.Encloses jobRun jobCall ∧
      m.skipReason? {} jobRun = some .suppressed ∧
      m.skipReason? {} jobCall ≠ none ∧
      m.skipReason? { suppressionToken? := some "locks",
                      ignoredModules := ["lib.g"] } jobRun =
        some .ignoredModule ∧
      m.skipReason? { suppressionToken? := some "locks",
                      ignoredModules := ["lib.g"] } jobCall ≠
        none := by
  have hbuild : build jobDeclarations = .ok (ofDeclarations jobDeclarations) :=
    build_eq_ok_iff.mpr ⟨by decide +kernel, rfl⟩
  have haccepted : (ofDeclarations jobDeclarations).Accepted :=
    ⟨jobDeclarations, hbuild⟩
  have hrun : jobRun ∈ (ofDeclarations jobDeclarations).declarations := by
    decide +kernel
  have hcall : jobCall ∈ (ofDeclarations jobDeclarations).declarations := by
    decide +kernel
  have hinside :
      Relation.TransGen (ofDeclarations jobDeclarations).Encloses
        jobRun jobCall :=
    .tail (.single ⟨hrun, rfl⟩) (b := jobTask) ⟨by decide +kernel, rfl⟩
  have hsuppressed : (ofDeclarations jobDeclarations).skipReason? {} jobRun =
      some .suppressed := by
    decide +kernel
  have hignored : (ofDeclarations jobDeclarations).skipReason?
      { suppressionToken? := some "locks",
        ignoredModules := ["lib.g"] } jobRun =
        some .ignoredModule := by
    decide +kernel
  refine ⟨_, hbuild, hinside, hsuppressed, ?_, hignored, ?_⟩
  · exact (haccepted.skipReason?_covers {}).2 jobRun hrun (by decide)
      (by simp [hsuppressed]) jobCall hcall hinside
  · exact (haccepted.skipReason?_covers _).2 jobRun hrun (by decide)
      (by simp [hignored]) jobCall hcall hinside

end Model

end ThreadConfinement
