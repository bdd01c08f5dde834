import ThreadConfinement.Proofs.ImpliedOverrides
import ThreadConfinement.Proofs.Resemblance
import ThreadConfinement.Proofs.TagFindings

/-!
Which locks are missing.

`Checker.Owes` says who owes a lock and why, by tags, edges and settings alone.
Overrides, field accesses and the tags of methods ask for locks one after the
other, and each may find a lock asked for already.  Together they ask for
exactly the locks that are owed (`Checker.demand_mem_acts_iff`), and a run
reports each of these once: `Checker.check_missingSynchronization`.
-/

namespace ThreadConfinement

structure Demand where
  actor : DeclId
  location : String
  /-- For the lock of a field, where its tag stands. -/
  place : Option String
  requiredBy : LocatedTag

namespace Demand

/-- Of whom the lock is asked, and for which reason. -/
def lock (d : Demand) : DeclId × Option String :=
  (d.actor, d.place)

def finding (d : Demand) : Finding :=
  .missingSynchronization d.location d.requiredBy

/-- The first demand for each lock that is not known. -/
def fresh (known : DeclId → Option String → Bool) : List Demand → List Demand
  | [] => []
  | d :: rest =>
    if known d.actor d.place then fresh known rest
    else
      d :: fresh (fun id other =>
        decide (d.actor = id ∧ d.place = other) || known id other) rest

theorem mem_fresh_iff {known : DeclId → Option String → Bool}
    {demands : List Demand} {d : Demand} :
    d ∈ fresh known demands ↔
      known d.actor d.place = false ∧
        demands.find? (fun e => e.lock == d.lock) = some d := by
  induction demands generalizing known with
  | nil => simp [fresh]
  | cons e rest ih =>
      rw [fresh]
      by_cases hsame : e.lock = d.lock
      · -- the first demand for the lock of `d` stands here
        obtain ⟨hactor, hplace⟩ := Prod.mk.inj hsame
        rw [List.find?_cons_of_pos (by simpa using hsame), hactor, hplace]
        by_cases hknown : known d.actor d.place = true
        · rw [if_pos hknown, ih]
          simp [hknown]
        · rw [if_neg hknown, List.mem_cons, ih]
          simp [hknown, eq_comm]
      · have hne : d ≠ e := fun heq => hsame (heq ▸ rfl)
        have hother : decide (e.actor = d.actor ∧ e.place = d.place) = false :=
          decide_eq_false (fun h => hsame (Prod.ext h.1 h.2))
        rw [List.find?_cons_of_neg (by simpa using hsame)]
        split
        · exact ih
        · rw [List.mem_cons, ih, hother, Bool.false_or, or_iff_right hne]

theorem find?_lock_eq_none {demands : List Demand}
    {lock : DeclId × Option String} (hother : ∀ d ∈ demands, d.lock ≠ lock) :
    demands.find? (fun e => e.lock == lock) = none :=
  List.find?_eq_none.mpr (fun d hd => by simpa using hother d hd)

/-- Where the lock decides all of a demand, looking for it finds exactly that
demand. -/
theorem find?_lock_eq_some_iff {demands : List Demand}
    {lock : DeclId × Option String}
    (hunique : ∀ d ∈ demands, ∀ e ∈ demands, d.lock = lock → e.lock = lock →
      d = e) {d : Demand} :
    demands.find? (fun e => e.lock == lock) = some d ↔
      d ∈ demands ∧ d.lock = lock := by
  constructor
  · intro hfind
    exact ⟨List.mem_of_find?_eq_some hfind,
      by simpa using List.find?_some hfind⟩
  · rintro ⟨hd, hlock⟩
    cases hfind : demands.find? (fun e => e.lock == lock) with
    | none => exact absurd (List.find?_eq_none.mp hfind d hd) (by simp [hlock])
    | some e =>
        have he : e.lock = lock := by simpa using List.find?_some hfind
        rw [hunique d hd e (List.mem_of_find?_eq_some hfind) hlock he]

theorem nodup_map_lock_fresh (known : DeclId → Option String → Bool)
    (demands : List Demand) :
    ((fresh known demands).map lock).Nodup := by
  induction demands generalizing known with
  | nil => exact List.nodup_nil
  | cons d rest ih =>
      rw [fresh]
      split
      · exact ih known
      · rw [List.map_cons, List.nodup_cons]
        refine ⟨fun hmem => ?_, ih _⟩
        obtain ⟨e, he, hlock⟩ := List.mem_map.mp hmem
        obtain ⟨hactor, hplace⟩ := Prod.mk.inj hlock
        simpa [hactor, hplace] using (mem_fresh_iff.mp he).1

/-- Every lock that is asked for and not known keeps its first demand. -/
theorem exists_mem_fresh (known : DeclId → Option String → Bool)
    {demands : List Demand} {d : Demand}
    (hknown : known d.actor d.place = false) (hd : d ∈ demands) :
    ∃ first ∈ fresh known demands, first.lock = d.lock := by
  cases hfind : demands.find? (fun e => e.lock == d.lock) with
  | none => exact absurd (List.find?_eq_none.mp hfind d hd) (by simp)
  | some first =>
      have hlock : first.lock = d.lock := by simpa using List.find?_some hfind
      obtain ⟨hactor, hplace⟩ := Prod.mk.inj hlock
      refine ⟨first, mem_fresh_iff.mpr ⟨?_, ?_⟩, hlock⟩
      · rw [hactor, hplace]
        exact hknown
      · rw [hlock]
        exact hfind

end Demand

namespace Act

def demand? : Act → Option Demand
  | demand actor location place requiredBy =>
    some ⟨actor, location, place, requiredBy⟩
  | count _ | report .. | mark _ => none

theorem mem_filterMap_demand? {acts : List Act} {d : Demand} :
    d ∈ acts.filterMap demand? ↔
      demand d.actor d.location d.place d.requiredBy ∈ acts := by
  rw [List.mem_filterMap]
  constructor
  · rintro ⟨act, hact, hdemand⟩
    cases act <;> cases hdemand
    exact hact
  · intro hact
    exact ⟨_, hact, rfl⟩

/-- What is heard of missing locks, when reports are about other things. -/
theorem filter_missingSynchronization_heard
    (known : DeclId → Option String → Bool) {acts : List Act}
    (hreports : ∀ actor f, report actor f ∈ acts →
      f.rule ≠ .missingSynchronization) :
    ((heard known acts).map Prod.snd).filter
      (fun f => f.rule == .missingSynchronization) =
      (Demand.fresh known (acts.filterMap demand?)).map Demand.finding := by
  induction acts generalizing known with
  | nil => rfl
  | cons act rest ih =>
      have hrest := fun known =>
        ih known
          (fun actor f hmem => hreports actor f (List.mem_cons_of_mem act hmem))
      cases act with
      | count counter => exact hrest known
      | mark actor => exact hrest known
      | report actor f =>
          have hother := hreports actor f List.mem_cons_self
          rw [heard, List.map_cons,
            List.filter_cons_of_neg (by simpa using hother)]
          exact hrest known
      | demand actor location place requiredBy =>
          simp only [heard, List.filterMap_cons, demand?, Demand.fresh]
          split
          · exact hrest known
          · rw [List.map_cons, List.filter_cons_of_pos (by simp [Finding.rule]),
              hrest]
            rfl

def concernsLock : Act → Bool
  | mark _ | demand .. => true
  | count _ | report .. => false

theorem finding?_of_mem_map_report {actor id : DeclId} {f : Finding}
    {finding? : Option Finding}
    (hmem : report actor f ∈ finding?.toList.map (report id)) :
    finding? = some f := by
  obtain ⟨_, hf, heq⟩ := List.mem_map.mp hmem
  cases heq
  exact Option.mem_toList.mp hf

theorem notMem_map_report {act : Act}
    (hact : act.concernsLock = true) (id : DeclId) (findings : List Finding) :
    act ∉ findings.map (report id) := by
  intro hmem
  obtain ⟨_, -, rfl⟩ := List.mem_map.mp hmem
  cases hact

theorem ne_count {act : Act} (hact : act.concernsLock = true)
    (counter : Counter) :
    act ≠ count counter := by
  rintro rfl
  cases hact

end Act

theorem LocatedTag.lockDemand?_eq_some_iff {tag? : Option LocatedTag}
    {tag : LocatedTag} :
    lockDemand? tag? = some tag ↔
      tag? = some tag ∧ tag.requireSynchronized = true :=
  Option.filter_eq_some_iff

theorem overrideDemand?_eq_some_iff {childTag parentTag : Option LocatedTag}
    {tag : LocatedTag} :
    overrideDemand? childTag parentTag = some tag ↔
      tag.requireSynchronized = true ∧
        (childTag = some tag ∨ childTag = none ∧ parentTag = some tag) := by
  cases childTag with
  | some own =>
    simp [overrideDemand?, LocatedTag.lockDemand?_eq_some_iff, and_comm]
  | none => simp [overrideDemand?, LocatedTag.lockDemand?_eq_some_iff, and_comm]

theorem Declaration.demand_mem_demands {d : Declaration}
    {placeOf : LocatedTag → Option String} {tag? : Option LocatedTag}
    {actor : DeclId} {location : String} {place : Option String}
    {tag : LocatedTag} :
    .demand actor location place tag ∈ d.demands placeOf tag? ↔
      d.lockGuarded = false ∧ tag? = some tag ∧ placeOf tag = place ∧
        d.id = actor ∧ d.location = location := by
  rw [demands]
  split
  case isTrue hguarded => simp [hguarded]
  case isFalse hguarded =>
    simp only [List.mem_map, Option.mem_toList, Act.demand.injEq]
    constructor
    · rintro ⟨_, htag, hactor, hlocation, hplace, rfl⟩
      exact ⟨by simpa using hguarded, htag, hplace, hactor, hlocation⟩
    · rintro ⟨-, htag, hplace, hactor, hlocation⟩
      exact ⟨tag, htag, hactor, hlocation, hplace, rfl⟩

theorem Declaration.notMem_demands {act : Act} (hact : act.demand? = none)
    (d : Declaration) (placeOf : LocatedTag → Option String)
    (tag? : Option LocatedTag) :
    act ∉ d.demands placeOf tag? := by
  intro hmem
  rw [demands] at hmem
  split at hmem
  · simp at hmem
  · obtain ⟨tag, -, rfl⟩ := List.mem_map.mp hmem
    cases hact

/-- Code that is not part of the making of its object is a method. -/
theorem Kind.eq_method {kind : Kind} (hcallable : kind.isCallable = true)
    (hconstruction : kind.isConstruction = false) : kind = .method := by
  cases kind <;> simp_all [isCallable, isConstruction]

namespace Context

/-- What an override decides about the lock of the child. -/
def lockActs (ctx : Context) (child : Declaration)
    (parent : DeclId) : List Act :=
  .mark child.id :: child.demands (fun _ => none)
    (overrideDemand? (ctx.effectiveTag? child.id) (ctx.effectiveTag? parent))

variable {ctx : Context} {patterns : List Glob} {overrides : List OverrideEdge}

theorem demand_mem_lockActs {child : Declaration} {parent actor : DeclId}
    {location : String} {place : Option String} {tag : LocatedTag} :
    .demand actor location place tag ∈ ctx.lockActs child parent ↔
      child.lockGuarded = false ∧
        overrideDemand? (ctx.effectiveTag? child.id)
          (ctx.effectiveTag? parent) = some tag ∧
        none = place ∧ child.id = actor ∧ child.location = location := by
  rw [lockActs, List.mem_cons, or_iff_right (by simp),
    Declaration.demand_mem_demands]

section Locks

variable {act : Act} (hact : act.concernsLock = true)

include hact

theorem mem_acting_iff {d : Declaration} {acts : List Act} :
    act ∈ ctx.acting d acts ↔ ctx.skipReason? d = none ∧ act ∈ acts := by
  rw [acting]
  cases ctx.skipReason? d with
  | none => simp
  | some reason => simp [Act.ne_count hact]

theorem mem_overrideActs_iff {implicit : Bool} {child : Declaration}
    {parent : DeclId} (counter : Counter) :
    act ∈ ctx.overrideActs patterns implicit child parent ++ [.count counter] ↔
      act ∈ ctx.lockActs child parent := by
  simp [overrideActs, lockActs, Act.notMem_map_report hact, Act.ne_count hact]

theorem mem_edgeActs_iff {e : OverrideEdge} :
    act ∈ ctx.edgeActs patterns e ↔
      ∃ child, ctx.model.find? e.child = some child ∧
        ctx.skipReason? child = none ∧
        act ∈ ctx.lockActs child e.parent := by
  rw [edgeActs]
  cases ctx.model.find? e.child with
  | none => simp
  | some child => simp [mem_acting_iff hact, mem_overrideActs_iff hact]

theorem mem_impliedActs_iff {parent child : Declaration} :
    act ∈ ctx.impliedActs patterns parent child ↔
      ctx.skipReason? child = none ∧ act ∈ ctx.lockActs child parent.id := by
  rw [impliedActs, mem_acting_iff hact, mem_overrideActs_iff hact]

theorem notMem_familyActs {family : DeclId × List DeclId} :
    act ∉ ctx.familyActs patterns family :=
  Act.notMem_map_report hact family.1 _

theorem notMem_callActs {e : CallEdge} : act ∉ ctx.callActs overrides e := by
  rw [callActs]
  cases ctx.model.find? e.caller with
  | none => simp
  | some caller =>
      simp [mem_acting_iff hact, Act.notMem_map_report hact, Act.ne_count hact]

/-- An access decides about a lock when the accessor acts and holds none. -/
theorem mem_accessActs_iff {e : FieldAccess} :
    act ∈ ctx.accessActs e ↔
      ∃ accessor field, ctx.model.find? e.accessor = some accessor ∧
        ctx.model.find? e.field = some field ∧
        accessor.kind.isConstruction = false ∧
        ctx.skipReason? accessor = none ∧ e.lockHeld = false ∧
        act ∈ accessor.demands (fun tag => some tag.location)
          (LocatedTag.lockDemand? (ctx.effectiveTag? field.id)) := by
  have hcount := Act.ne_count hact
  have hreport := Act.notMem_map_report hact
  rw [accessActs.eq_def]
  cases ctx.model.find? e.accessor with
  | none => simp
  | some accessor =>
      cases ctx.model.find? e.field with
      | none => simp
      | some field =>
          cases hconstruction : accessor.kind.isConstruction with
          | true => simp [hcount, hconstruction]
          | false =>
              cases hheld : e.lockHeld with
              | true =>
                simp [mem_acting_iff hact, hconstruction, hcount, hreport]
              | false =>
                simp [mem_acting_iff hact, hconstruction, hcount, hreport]

end Locks

theorem mark_notMem_accessActs (ctx : Context) (e : FieldAccess) (id : DeclId) :
    .mark id ∉ ctx.accessActs e := by
  rw [mem_accessActs_iff rfl]
  rintro ⟨accessor, field, -, -, -, -, -, hmem⟩
  exact accessor.notMem_demands rfl _ _ hmem

/-- An access asks for the lock of a field and for no other. -/
theorem place_of_demand_mem_accessActs {e : FieldAccess} {actor : DeclId}
    {location : String} {place : Option String} {tag : LocatedTag}
    (hmem : .demand actor location place tag ∈ ctx.accessActs e) :
    place ≠ none := by
  obtain ⟨accessor, field, -, -, -, -, -, hmem⟩ :=
    (mem_accessActs_iff rfl).mp hmem
  rw [← (Declaration.demand_mem_demands.mp hmem).2.2.1]
  simp

theorem mem_guardActs_iff {marked : DeclId → Bool}
    {d : Declaration} {act : Act} :
    act ∈ ctx.guardActs marked d ↔
      d.kind = .method ∧ marked d.id = false ∧ ctx.skipReason? d = none ∧
        act ∈ d.demands (fun _ => none)
          (LocatedTag.lockDemand? (ctx.effectiveTag? d.id)) := by
  rw [guardActs]
  by_cases hkind : d.kind = .method
  · cases marked d.id <;> cases ctx.skipReason? d <;> simp [hkind]
  · simp [hkind]

section Reports

variable {actor : DeclId} {f : Finding}

theorem mem_of_report_mem_acting {d : Declaration} {acts : List Act}
    (hmem : .report actor f ∈ ctx.acting d acts) : .report actor f ∈ acts := by
  rw [acting] at hmem
  split at hmem
  · simp at hmem
  · exact hmem

theorem rule_of_report_mem_overrideActs {implicit : Bool} {child : Declaration}
    {parent : DeclId} (counter : Counter)
    (hmem : .report actor f ∈ ctx.overrideActs patterns implicit child parent ++
      [.count counter]) :
    f.rule = .overrideConflict := by
  simp only [overrideActs, List.mem_append, List.mem_singleton, reduceCtorEq,
    or_false] at hmem
  have hmem := hmem.resolve_right (child.notMem_demands rfl _ _)
  exact rule_of_overrideFinding? (Act.finding?_of_mem_map_report hmem)

theorem rule_of_report_mem_edgeActs {e : OverrideEdge}
    (hmem : .report actor f ∈ ctx.edgeActs patterns e) :
    f.rule = .overrideConflict := by
  rw [edgeActs] at hmem
  split at hmem
  · simp at hmem
  · exact rule_of_report_mem_overrideActs _ (mem_of_report_mem_acting hmem)

theorem rule_of_report_mem_callActs {e : CallEdge}
    (hmem : .report actor f ∈ ctx.callActs overrides e) :
    f.rule = .callSiteViolation := by
  rw [callActs] at hmem
  split at hmem
  · simp at hmem
  · have hmem := mem_of_report_mem_acting hmem
    rw [List.mem_cons, or_iff_right (by simp)] at hmem
    exact rule_of_callFinding? (Act.finding?_of_mem_map_report hmem)

theorem rule_of_report_mem_accessActs {e : FieldAccess}
    (hmem : .report actor f ∈ ctx.accessActs e) :
    f.rule = .fieldAccessViolation := by
  rw [accessActs.eq_def] at hmem
  split at hmem
  · rename_i accessor field _ _
    split at hmem
    · simp at hmem
    · have hmem := mem_of_report_mem_acting hmem
      have hlock :
          .report actor f ∉
            (if e.lockHeld then []
              else accessor.demands (fun tag => some tag.location)
                (LocatedTag.lockDemand? (ctx.effectiveTag? field.id))) := by
        split
        · simp
        · exact accessor.notMem_demands rfl _ _
      rw [List.cons_append, List.mem_cons, or_iff_right (by simp),
        List.mem_append, or_iff_left hlock] at hmem
      exact rule_of_accessFinding? (Act.finding?_of_mem_map_report hmem)
  · simp at hmem

end Reports

end Context

namespace Checker

/-- The child overrides the parent: by an edge, or by a tag for all subclasses
where these count. -/
def Overrides (c : Checker) (u : SourceUnit)
    (parent child : Declaration) : Prop :=
  ⟨child.id, parent.id⟩ ∈ u.overrides ∨
    c.settings.subclassPropagation = true ∧
      (c.context u).Implies u.overrides parent child

/-- Why a declaration must hold a lock: its own, or that of a field whose tag
stands at the given place.  The tag is the one that asks for it. -/
inductive LockReason (c : Checker) (u : SourceUnit) (d : Declaration) :
    Option String → LocatedTag → Prop
  | own {tag : LocatedTag} (htag : (c.context u).effectiveTag? d.id = some tag)
      (hlock : tag.requireSynchronized = true)
      (hasked : d.kind = .method ∨ ∃ e ∈ u.overrides, e.child = d.id) :
      LockReason c u d none tag
  | inherited {parent : Declaration} {tag : LocatedTag}
      (huntagged : (c.context u).effectiveTag? d.id = none)
      (hparent : parent ∈ u.model.declarations)
      (hoverrides : c.Overrides u parent d)
      (htag : (c.context u).effectiveTag? parent.id = some tag)
      (hlock : tag.requireSynchronized = true) : LockReason c u d none tag
  | access {e : FieldAccess} {tag : LocatedTag}
      (hchecked : c.settings.checkFieldAccess = true)
      (hmethod : d.kind = .method) (he : e ∈ u.fieldAccesses)
      (haccessor : e.accessor = d.id) (hheld : e.lockHeld = false)
      (htag : (c.context u).effectiveTag? e.field = some tag)
      (hlock : tag.requireSynchronized = true) :
      LockReason c u d (some tag.location) tag

/-- The declaration is checked, has no lock and must hold one. -/
structure Owes (c : Checker) (u : SourceUnit) (d : Declaration)
    (place : Option String) (tag : LocatedTag) : Prop where
  mem : d ∈ u.model.declarations
  acts : (c.context u).skipReason? d = none
  unguarded : d.lockGuarded = false
  reason : c.LockReason u d place tag

variable {c : Checker} {u : SourceUnit}

theorem mem_edgeActs_iff (haccepted : u.model.Accepted) {act : Act} :
    act ∈ c.edgeActs u ↔
      (∃ e ∈ u.overrides,
        act ∈ (c.context u).edgeActs c.settings.exemptPatterns e) ∨
      (c.settings.subclassPropagation = true ∧ ∃ parent child,
        (c.context u).Implies u.overrides parent child ∧
          act ∈ (c.context u).impliedActs c.settings.exemptPatterns
            parent child) ∨
      (∃ family ∈ ((c.context u).parentsByChild u.overrides).toList,
        act ∈ (c.context u).familyActs c.settings.exemptPatterns family) ∨
      (∃ e ∈ u.calls, act ∈ (c.context u).callActs u.overrides e) ∨
      (c.settings.checkFieldAccess = true ∧
        ∃ e ∈ u.fieldAccesses, act ∈ (c.context u).accessActs e) := by
  have himplied : (∃ parent ∈ u.model.declarations,
      act ∈ (c.context u).impliedByActs c.settings.exemptPatterns
        u.overrides parent) ↔
      ∃ parent child, (c.context u).Implies u.overrides parent child ∧
        act ∈ (c.context u).impliedActs c.settings.exemptPatterns
          parent child := by
    simp only [Context.impliedByActs_eq, List.mem_flatMap]
    constructor
    · rintro ⟨parent, hparent, child, hchild, hact⟩
      exact ⟨parent, child,
        (Context.mem_impliedBy_iff haccepted hparent).mp hchild, hact⟩
    · rintro ⟨parent, child, himplies, hact⟩
      exact ⟨parent, himplies.parent_mem, child,
        (Context.mem_impliedBy_iff haccepted himplies.parent_mem).mpr himplies,
        hact⟩
  rw [← himplied]
  simp only [edgeActs, Context.overridesActs, List.mem_append,
    List.mem_flatMap, or_assoc, List.mem_ite_nil_right]
  rfl

/-- What a run reports apart from locks is about tags. -/
theorem rule_of_report_mem_acts (haccepted : u.model.Accepted)
    {actor : DeclId} {f : Finding} (hmem : .report actor f ∈ c.acts u) :
    f.rule ≠ .missingSynchronization := by
  rcases List.mem_append.mp hmem with hmem | hmem
  · rcases (mem_edgeActs_iff haccepted).mp hmem with ⟨e, -, hmem⟩ |
      ⟨-, parent, child, -, hmem⟩ | ⟨family, -, hmem⟩ | ⟨e, -, hmem⟩ |
      ⟨-, e, -, hmem⟩
    · rw [Context.rule_of_report_mem_edgeActs hmem]
      decide
    · rw [Context.rule_of_report_mem_overrideActs _
        (Context.mem_of_report_mem_acting hmem)]
      decide
    · rw [Context.rule_of_inheritanceFinding?
        (Act.finding?_of_mem_map_report hmem)]
      decide
    · rw [Context.rule_of_report_mem_callActs hmem]
      decide
    · rw [Context.rule_of_report_mem_accessActs hmem]
      decide
  · obtain ⟨d, -, hmem⟩ := List.mem_flatMap.mp hmem
    exact absurd (Context.mem_guardActs_iff.mp hmem).2.2.2
      (d.notMem_demands rfl _ _)

/-- Edges decide about a lock by an override or by a field access. -/
theorem mem_edgeActs_iff_of_concernsLock (haccepted : u.Accepted) {act : Act}
    (hact : act.concernsLock = true) :
    act ∈ c.edgeActs u ↔
      (∃ parent ∈ u.model.declarations, ∃ child ∈ u.model.declarations,
        c.Overrides u parent child ∧ (c.context u).skipReason? child = none ∧
          act ∈ (c.context u).lockActs child parent.id) ∨
      (c.settings.checkFieldAccess = true ∧
        ∃ e ∈ u.fieldAccesses, act ∈ (c.context u).accessActs e) := by
  simp only [mem_edgeActs_iff haccepted.model, Context.notMem_familyActs hact,
    Context.notMem_callActs hact, and_false, exists_false, false_or, ← or_assoc]
  refine or_congr_left ?_
  constructor
  · rintro (⟨e, he, hmem⟩ | ⟨hon, parent, child, himplies, hmem⟩)
    · obtain ⟨child, hchild, hskip, hmem⟩ :=
        (Context.mem_edgeActs_iff hact).mp hmem
      obtain ⟨hchild, hchildId⟩ := haccepted.model.find?_eq_some_iff.mp hchild
      obtain ⟨parent, hparent, -⟩ := (haccepted.exists_ends he).2
      obtain ⟨hparent, hparentId⟩ :=
        haccepted.model.find?_eq_some_iff.mp hparent
      rw [← hparentId] at hmem
      refine ⟨parent, hparent, child, hchild, Or.inl ?_, hskip, hmem⟩
      rw [hchildId, hparentId]
      exact he
    · obtain ⟨hskip, hmem⟩ := (Context.mem_impliedActs_iff hact).mp hmem
      exact ⟨parent, himplies.parent_mem, child, himplies.child_mem,
        Or.inr ⟨hon, himplies⟩, hskip, hmem⟩
  · rintro ⟨parent, hparent, child, hchild,
      hedge | ⟨hon, himplies⟩, hskip, hmem⟩
    · exact Or.inl ⟨_, hedge, (Context.mem_edgeActs_iff hact).mpr
        ⟨child, haccepted.model.find?_id hchild, hskip, hmem⟩⟩
    · exact Or.inr ⟨hon, parent, child, himplies,
        (Context.mem_impliedActs_iff hact).mpr ⟨hskip, hmem⟩⟩

/-- An override decides about the lock of every child that is checked. -/
theorem mark_mem_edgeActs_iff (haccepted : u.Accepted) {id : DeclId} :
    .mark id ∈ c.edgeActs u ↔
      ∃ parent ∈ u.model.declarations, ∃ child ∈ u.model.declarations,
        c.Overrides u parent child ∧ (c.context u).skipReason? child = none ∧
          id = child.id := by
  rw [mem_edgeActs_iff_of_concernsLock haccepted rfl]
  have hdemands : (Act.mark id).demand? = none := rfl
  simp [Context.mark_notMem_accessActs, Context.lockActs,
    Declaration.notMem_demands hdemands]

/-- A tag that an override makes a child answer for is a reason for its lock. -/
theorem Overrides.lockReason {parent child : Declaration} {tag : LocatedTag}
    (hoverrides : c.Overrides u parent child)
    (hparent : parent ∈ u.model.declarations)
    (hdemand : overrideDemand? ((c.context u).effectiveTag? child.id)
      ((c.context u).effectiveTag? parent.id) = some tag) :
    c.LockReason u child none tag := by
  obtain ⟨hlock, htag | ⟨huntagged, htag⟩⟩ :=
    overrideDemand?_eq_some_iff.mp hdemand
  · refine .own htag hlock ?_
    rcases hoverrides with hedge | ⟨-, himplies⟩
    · exact Or.inr ⟨_, hedge, rfl⟩
    · exact Or.inl himplies.child_method
  · exact .inherited huntagged hparent hoverrides htag hlock

theorem owes_of_demand_mem_edgeActs (haccepted : u.Accepted) {actor : DeclId}
    {location : String} {place : Option String} {tag : LocatedTag}
    (hmem : .demand actor location place tag ∈ c.edgeActs u) :
    ∃ d, c.Owes u d place tag ∧ d.id = actor ∧ d.location = location := by
  rcases (mem_edgeActs_iff_of_concernsLock haccepted rfl).mp hmem with
    ⟨parent, hparent, child, hchild, hoverrides, hskip, hmem⟩ |
      ⟨hchecked, e, he, hmem⟩
  · obtain ⟨hguarded, hdemand, rfl, hactor, hlocation⟩ :=
      Context.demand_mem_lockActs.mp hmem
    exact ⟨child,
      ⟨hchild, hskip, hguarded, hoverrides.lockReason hparent hdemand⟩,
      hactor, hlocation⟩
  · obtain ⟨accessor, field, haccessor, hfield, hconstruction, hskip,
        hheld, hmem⟩ :=
      (Context.mem_accessActs_iff rfl).mp hmem
    obtain ⟨hguarded, hdemand, rfl, hactor, hlocation⟩ :=
      Declaration.demand_mem_demands.mp hmem
    obtain ⟨htag, hlock⟩ := LocatedTag.lockDemand?_eq_some_iff.mp hdemand
    obtain ⟨accessor', field', haccessor', hcallable, -, -⟩ :=
      haccepted.exists_access he
    cases haccessor.symm.trans haccessor'
    obtain ⟨hmem, haccessorId⟩ := haccepted.model.find?_eq_some_iff.mp haccessor
    rw [(haccepted.model.find?_eq_some_iff.mp hfield).2] at htag
    exact ⟨accessor, ⟨hmem, hskip, hguarded, .access hchecked
      (Kind.eq_method hcallable hconstruction) he haccessorId.symm hheld htag
      hlock⟩, hactor, hlocation⟩

section Owing

variable (haccepted : u.Accepted) {d : Declaration} {tag : LocatedTag}
  (hd : d ∈ u.model.declarations) (hskip : (c.context u).skipReason? d = none)
  (hguarded : d.lockGuarded = false)

include haccepted hd hskip hguarded

theorem demand_mem_edgeActs_of_overrides {parent : Declaration}
    (hparent : parent ∈ u.model.declarations)
    (hoverrides : c.Overrides u parent d)
    (hdemand : overrideDemand? ((c.context u).effectiveTag? d.id)
      ((c.context u).effectiveTag? parent.id) = some tag) :
    .demand d.id d.location none tag ∈ c.edgeActs u := by
  have hmem :
      .demand d.id d.location none tag ∈ (c.context u).lockActs d parent.id :=
    Context.demand_mem_lockActs.mpr ⟨hguarded, hdemand, rfl, rfl, rfl⟩
  exact (mem_edgeActs_iff_of_concernsLock haccepted rfl).mpr
    (Or.inl ⟨parent, hparent, d, hd, hoverrides, hskip, hmem⟩)

theorem demand_mem_edgeActs_of_access {e : FieldAccess}
    (hchecked : c.settings.checkFieldAccess = true) (hmethod : d.kind = .method)
    (he : e ∈ u.fieldAccesses) (haccessor : e.accessor = d.id)
    (hheld : e.lockHeld = false)
    (htag : (c.context u).effectiveTag? e.field = some tag)
    (hlock : tag.requireSynchronized = true) :
    .demand d.id d.location (some tag.location) tag ∈ c.edgeActs u := by
  obtain ⟨-, field, -, -, hfield, -⟩ := haccepted.exists_access he
  rw [← (haccepted.model.find?_eq_some_iff.mp hfield).2] at htag
  have hfind : u.model.find? e.accessor = some d := by
    rw [haccessor]
    exact haccepted.model.find?_id hd
  have hdemand : .demand d.id d.location (some tag.location) tag ∈
      d.demands (fun tag => some tag.location)
        (LocatedTag.lockDemand? ((c.context u).effectiveTag? field.id)) :=
    Declaration.demand_mem_demands.mpr
      ⟨hguarded, LocatedTag.lockDemand?_eq_some_iff.mpr ⟨htag, hlock⟩,
        rfl, rfl, rfl⟩
  have hconstruction : d.kind.isConstruction = false := by
    rw [hmethod]
    rfl
  exact (mem_edgeActs_iff_of_concernsLock haccepted rfl).mpr
    (Or.inr ⟨hchecked, e, he, (Context.mem_accessActs_iff rfl).mpr
      ⟨d, field, hfind, hfield, hconstruction, hskip, hheld, hdemand⟩⟩)

/-- A method that an override has decided on is not asked again: where its own
tag wants a lock, the override has already asked for it. -/
theorem demand_mem_acts_of_own
    (htag : (c.context u).effectiveTag? d.id = some tag)
    (hlock : tag.requireSynchronized = true)
    (hasked : d.kind = .method ∨ ∃ e ∈ u.overrides, e.child = d.id) :
    .demand d.id d.location none tag ∈ c.acts u := by
  rw [acts, List.mem_append]
  by_cases hmark : .mark d.id ∈ c.edgeActs u
  · obtain ⟨parent, hparent, child, hchild, hoverrides, -, hid⟩ :=
      (mark_mem_edgeActs_iff haccepted).mp hmark
    cases haccepted.model.eq_of_id_eq hd hchild hid
    exact Or.inl (demand_mem_edgeActs_of_overrides haccepted hd hskip hguarded
      hparent hoverrides (overrideDemand?_eq_some_iff.mpr ⟨hlock, Or.inl htag⟩))
  · have hkind : d.kind = .method := by
      refine hasked.resolve_right ?_
      rintro ⟨e, he, hchild⟩
      obtain ⟨parent, hparent, -⟩ := (haccepted.exists_ends he).2
      obtain ⟨hparent, hparentId⟩ :=
        haccepted.model.find?_eq_some_iff.mp hparent
      have hedge : ⟨d.id, parent.id⟩ ∈ u.overrides := by
        rw [← hchild, hparentId]
        exact he
      exact hmark ((mark_mem_edgeActs_iff haccepted).mpr
        ⟨parent, hparent, d, hd, Or.inl hedge, hskip, rfl⟩)
    have hdemand : .demand d.id d.location none tag ∈ d.demands (fun _ => none)
        (LocatedTag.lockDemand? ((c.context u).effectiveTag? d.id)) :=
      Declaration.demand_mem_demands.mpr
        ⟨hguarded, LocatedTag.lockDemand?_eq_some_iff.mpr ⟨htag, hlock⟩,
          rfl, rfl, rfl⟩
    exact Or.inr (List.mem_flatMap.mpr ⟨d, hd, Context.mem_guardActs_iff.mpr
      ⟨hkind, by simpa using hmark, hskip, hdemand⟩⟩)

end Owing

/-- A run asks for exactly the locks that are owed. -/
theorem demand_mem_acts_iff (haccepted : u.Accepted) {actor : DeclId}
    {location : String} {place : Option String} {tag : LocatedTag} :
    .demand actor location place tag ∈ c.acts u ↔
      ∃ d, c.Owes u d place tag ∧ d.id = actor ∧ d.location = location := by
  constructor
  · intro hmem
    rcases List.mem_append.mp hmem with hmem | hmem
    · exact owes_of_demand_mem_edgeActs haccepted hmem
    · obtain ⟨d, hd, hmem⟩ := List.mem_flatMap.mp hmem
      obtain ⟨hkind, -, hskip, hmem⟩ := Context.mem_guardActs_iff.mp hmem
      obtain ⟨hguarded, hdemand, rfl, hactor, hlocation⟩ :=
        Declaration.demand_mem_demands.mp hmem
      obtain ⟨htag, hlock⟩ := LocatedTag.lockDemand?_eq_some_iff.mp hdemand
      exact ⟨d, ⟨hd, hskip, hguarded, .own htag hlock (Or.inl hkind)⟩,
        hactor, hlocation⟩
  · rintro ⟨d, ⟨hd, hskip, hguarded, hreason⟩, rfl, rfl⟩
    cases hreason with
    | own htag hlock hasked =>
        exact demand_mem_acts_of_own haccepted hd hskip hguarded
          htag hlock hasked
    | inherited huntagged hparent hoverrides htag hlock =>
        exact List.mem_append_left _
          (demand_mem_edgeActs_of_overrides haccepted hd hskip hguarded hparent
            hoverrides (overrideDemand?_eq_some_iff.mpr ⟨hlock,
              Or.inr ⟨huntagged, htag⟩⟩))
    | access hchecked hmethod he haccessor hheld htag hlock =>
        exact List.mem_append_left _
          (demand_mem_edgeActs_of_access haccepted hd hskip hguarded hchecked
            hmethod he haccessor hheld htag hlock)

def demands (c : Checker) (u : SourceUnit) : List Demand :=
  (c.acts u).filterMap Act.demand?

/-- The findings on locks are those of the first demand for each lock. -/
theorem findingsOf_missingSynchronization (c : Checker)
    (haccepted : u.model.Accepted) (registry : Registry) :
    (c.check u registry).1.findingsOf .missingSynchronization =
      (Demand.fresh (fun _ _ => false) (c.demands u)).map Demand.finding := by
  have hopening : (c.opening u registry).journal.findings.filter
      (fun f => f.rule == .missingSynchronization) = [] := by
    rw [List.filter_eq_nil_iff]
    intro f hf
    rw [c.rule_of_mem_findings_opening haccepted registry hf]
    decide
  have hrun : (c.check u registry).1.findings =
      (c.run u registry).journal.findings := rfl
  rw [Report.findingsOf, hrun, c.findings_run haccepted,
    List.filter_append, hopening, List.nil_append,
    Act.filter_missingSynchronization_heard _
      (fun _ _ => rule_of_report_mem_acts haccepted)]
  rfl

theorem mem_demands_iff (haccepted : u.Accepted) {demand : Demand} :
    demand ∈ c.demands u ↔
      ∃ d, c.Owes u d demand.place demand.requiredBy ∧
        d.id = demand.actor ∧ d.location = demand.location := by
  rw [demands, Act.mem_filterMap_demand?, demand_mem_acts_iff haccepted]

/-- Each lock that is owed is reported once, and nothing else is reported under
this rule. -/
theorem check_missingSynchronization (c : Checker) {u : SourceUnit}
    (haccepted : u.Accepted) (registry : Registry) :
    ∃ owed : List (Declaration × Option String × LocatedTag),
      (c.check u registry).1.findingsOf .missingSynchronization =
        owed.map
          (fun debt => .missingSynchronization debt.1.location debt.2.2) ∧
      (owed.map (fun debt => (debt.1, debt.2.1))).Nodup ∧
      (∀ debt ∈ owed, c.Owes u debt.1 debt.2.1 debt.2.2) ∧
      ∀ d place tag, c.Owes u d place tag →
        ∃ first, (d, place, first) ∈ owed := by
  have hfresh : ∀ demand ∈ Demand.fresh (fun _ _ => false) (c.demands u),
      ∃ debt : Declaration × Option String × LocatedTag,
        c.Owes u debt.1 debt.2.1 debt.2.2 ∧
          Demand.mk debt.1.id debt.1.location debt.2.1 debt.2.2 = demand := by
    intro demand hdemand
    obtain ⟨d, howes, hactor, hlocation⟩ := (mem_demands_iff haccepted).mp
      (List.mem_of_find?_eq_some (Demand.mem_fresh_iff.mp hdemand).2)
    exact ⟨(d, demand.place, demand.requiredBy), howes,
      by rw [hactor, hlocation]⟩
  obtain ⟨owed, howed, howes⟩ := exists_map_eq hfresh
  have hnodup := Demand.nodup_map_lock_fresh (fun _ _ => false) (c.demands u)
  rw [← howed, List.map_map] at hnodup
  refine ⟨owed, ?_, ?_, howes, ?_⟩
  · rw [c.findingsOf_missingSynchronization haccepted.model,
      ← howed, List.map_map]
    rfl
  · refine List.Nodup.of_map (fun debtor : Declaration × Option String =>
      (debtor.1.id, debtor.2)) ?_
    rw [List.map_map]
    exact hnodup
  · intro d place tag hd
    have hdemand : ⟨d.id, d.location, place, tag⟩ ∈ c.demands u :=
      (mem_demands_iff haccepted).mpr ⟨d, hd, rfl, rfl⟩
    obtain ⟨first, hmem, hlock⟩ :=
      Demand.exists_mem_fresh (fun _ _ => false) rfl hdemand
    rw [← howed] at hmem
    obtain ⟨debt, hdebt, rfl⟩ := List.mem_map.mp hmem
    have hid : debt.1.id = d.id := congrArg Prod.fst hlock
    have hplace : debt.2.1 = place := congrArg Prod.snd hlock
    have hdebtor :=
      haccepted.model.eq_of_id_eq (howes debt hdebt).mem hd.mem hid
    refine ⟨debt.2.2, ?_⟩
    rw [← hdebtor, ← hplace]
    exact hdebt

/-- A tank that is filled under its lock, and a cask that fills another way and
says so twice.  The level is read by a method twice, by a method that holds its
lock, and while the tank is made. -/
def tankFacts : UnitFacts where
  name := "tanks"
  declarations :=
    [{ id := ⟨1⟩, kind := .module, location := "app", qualifiedName := "app" },
      { id := ⟨2⟩, kind := .type, enclosing := some ⟨1⟩, location := "app.Tank",
        qualifiedName := "app.Tank" },
      { id := ⟨3⟩, kind := .method, enclosing := some ⟨2⟩,
        location := "app.Tank.fill", qualifiedName := "app.Tank.fill",
        signature := some "fill",
        markers := [{ tag := .worker, requireSynchronized := true }] },
      { id := ⟨4⟩, kind := .field, enclosing := some ⟨2⟩,
        location := "app.Tank.level", qualifiedName := "app.Tank.level",
        markers := [{ tag := .worker, requireSynchronized := true }] },
      { id := ⟨5⟩, kind := .method, enclosing := some ⟨2⟩,
        location := "app.Tank.drain", qualifiedName := "app.Tank.drain" },
      { id := ⟨6⟩, kind := .method, enclosing := some ⟨2⟩,
        location := "app.Tank.peek", qualifiedName := "app.Tank.peek",
        lockGuarded := true },
      { id := ⟨7⟩, kind := .constructor, enclosing := some ⟨2⟩,
        location := "app.Tank.new", qualifiedName := "app.Tank.new" },
      { id := ⟨8⟩, kind := .type, enclosing := some ⟨1⟩, location := "app.Cask",
        qualifiedName := "app.Cask", supertypes := [⟨2⟩] },
      { id := ⟨9⟩, kind := .method, enclosing := some ⟨8⟩,
        location := "app.Cask.fill", qualifiedName := "app.Cask.fill",
        signature := some "fill" }]
  overrides := [⟨⟨9⟩, ⟨3⟩⟩, ⟨⟨9⟩, ⟨3⟩⟩]
  fieldAccesses :=
    [⟨⟨5⟩, ⟨4⟩, false⟩, ⟨⟨5⟩, ⟨4⟩, false⟩, ⟨⟨6⟩, ⟨4⟩, false⟩, ⟨⟨7⟩, ⟨4⟩, false⟩]

theorem tank_check_missingSynchronization :
    ∃ u, SourceUnit.build tankFacts = .ok u ∧
      let c := Checker.ofSettings {}
      ∃ owed : List (Declaration × Option String × LocatedTag),
        owed.map
          (fun debt => .missingSynchronization debt.1.location debt.2.2) =
          (c.check u .empty).1.findingsOf .missingSynchronization ∧
        (owed.map (fun debt => (debt.1, debt.2.1))).Nodup ∧
        (∀ debt ∈ owed, c.Owes u debt.1 debt.2.1 debt.2.2) ∧
        ((c.check u .empty).1.findingsOf .missingSynchronization).map
          Finding.location =
          ["app.Cask.fill", "app.Tank.drain", "app.Tank.fill"] := by
  have hbuild : SourceUnit.build tankFacts = .ok (.ofFacts tankFacts) :=
    SourceUnit.build_ofFacts (by decide +kernel)
  refine ⟨_, hbuild, ?_⟩
  intro c
  obtain ⟨owed, hfindings, hnodup, howes, -⟩ :=
    c.check_missingSynchronization ⟨tankFacts, hbuild⟩ .empty
  exact ⟨owed, hfindings.symm, hnodup, howes, by decide +kernel⟩

end Checker

end ThreadConfinement
