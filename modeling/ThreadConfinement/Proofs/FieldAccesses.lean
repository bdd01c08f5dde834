import ThreadConfinement.Proofs.Propagation

/-!
What field accesses add to a report.

Accesses and methods on their own both ask for locks, and what the first ask for
is known to the second.  The two never ask for the same one: an access asks for
the lock of a field, a method for its own.  So the findings at accesses stand
together, and without them the others are as before:
`Checker.check_fieldAccesses`.
-/

namespace ThreadConfinement

namespace Act

/-- The locks that are known when the acts were heard. -/
def knownAfter (known : DeclId → Option String → Bool)
    (acts : List Act) (id : DeclId) (place : Option String) : Bool :=
  (acts.filterMap demand?).any (fun d => d.lock == (id, place)) ||
    known id place

theorem knownAfter_demand (known : DeclId → Option String → Bool)
    (actor : DeclId) (location : String) (place : Option String)
    (requiredBy : LocatedTag) (rest : List Act) :
    knownAfter known (demand actor location place requiredBy :: rest) =
      knownAfter (fun id other =>
        decide (actor = id ∧ place = other) || known id other) rest := by
  funext id other
  have hlock : ((actor, place) == (id, other)) =
      decide (actor = id ∧ place = other) := by
    rw [Bool.eq_iff_iff]
    simp
  simp only [knownAfter, List.filterMap_cons, demand?, List.any_cons,
    Demand.lock, hlock]
  cases decide (actor = id ∧ place = other) <;> simp

theorem knownAfter_eq {known : DeclId → Option String → Bool}
    {acts : List Act} {id : DeclId} {place : Option String}
    (hother : ∀ d ∈ acts.filterMap demand?, d.place ≠ place) :
    knownAfter known acts id place = known id place := by
  have hnone : (acts.filterMap demand?).any (fun d => d.lock == (id, place)) =
      false := by
    rw [List.any_eq_false]
    intro d hd hlock
    exact hother d hd (congrArg Prod.snd (beq_iff_eq.mp hlock))
  rw [knownAfter, hnone, Bool.false_or]

/-- What the first acts ask for is known to those that follow. -/
theorem heard_append (known : DeclId → Option String → Bool)
    (acts more : List Act) :
    heard known (acts ++ more) =
      heard known acts ++ heard (knownAfter known acts) more := by
  induction acts generalizing known with
  | nil => rfl
  | cons act rest ih =>
      cases act with
      | count counter => exact ih known
      | report actor finding => exact congrArg (List.cons _) (ih known)
      | mark actor => exact ih known
      | demand actor location place requiredBy =>
          rw [knownAfter_demand, List.cons_append, heard, heard]
          split
          case isTrue hknown =>
            have hsame : (fun id other =>
                decide (actor = id ∧ place = other) || known id other) =
                known := by
              funext id other
              by_cases hlock : actor = id ∧ place = other
              · obtain ⟨rfl, rfl⟩ := hlock
                simp [hknown]
              · simp [hlock]
            rw [hsame]
            exact ih known
          case isFalse =>
            rw [ih]
            rfl

/-- Acts are heard alike where the locks that they ask for are known alike. -/
theorem heard_congr {known known' : DeclId → Option String → Bool}
    {acts : List Act}
    (hknown : ∀ d ∈ acts.filterMap demand?,
      known' d.actor d.place = known d.actor d.place) :
    heard known' acts = heard known acts := by
  induction acts generalizing known known' with
  | nil => rfl
  | cons act rest ih =>
      cases act with
      | count counter => exact ih hknown
      | report actor finding => exact congrArg (List.cons _) (ih hknown)
      | mark actor => exact ih hknown
      | demand actor location place requiredBy =>
          have hfirst :=
            hknown ⟨actor, location, place, requiredBy⟩ List.mem_cons_self
          have hrest : ∀ d ∈ rest.filterMap demand?,
              known' d.actor d.place = known d.actor d.place :=
            fun d hd => hknown d (List.mem_cons_of_mem _ hd)
          simp only at hfirst
          rw [heard, heard, hfirst, ih hrest]
          congr 2
          apply ih
          intro d hd
          rw [hrest d hd]

end Act

/-- A field access with both of its ends. -/
structure Access where
  accessor : Declaration
  field : Declaration
  lockHeld : Bool

def Access.edge (a : Access) : FieldAccess :=
  ⟨a.accessor.id, a.field.id, a.lockHeld⟩

/-- Every field access of an accepted unit has its two ends among the
declarations. -/
theorem SourceUnit.Accepted.exists_accesses {u : SourceUnit}
    (haccepted : u.Accepted) :
    ∃ accesses : List Access, accesses.map Access.edge = u.fieldAccesses ∧
      ∀ a ∈ accesses, a.accessor ∈ u.model.declarations ∧
      a.field ∈ u.model.declarations := by
  apply exists_map_eq
  intro e he
  obtain ⟨accessor, field, haccessor, -, hfield, -⟩ :=
    haccepted.exists_access he
  obtain ⟨haccessor, haccessorId⟩ :=
    haccepted.model.find?_eq_some_iff.mp haccessor
  obtain ⟨hfield, hfieldId⟩ := haccepted.model.find?_eq_some_iff.mp hfield
  exact ⟨⟨accessor, field, e.lockHeld⟩, ⟨haccessor, hfield⟩, by
    rw [Access.edge, haccessorId, hfieldId]⟩

namespace Context

/-- The accessor acts, and its object is made already. -/
def Watches (ctx : Context) (a : Access) : Prop :=
  a.accessor.kind ≠ .constructor ∧ a.accessor.kind ≠ .initializer ∧
    ctx.skipReason? a.accessor = none

instance (ctx : Context) (a : Access) : Decidable (ctx.Watches a) :=
  inferInstanceAs (Decidable (_ ∧ _ ∧ _))

/-- With its tag the accessor may not touch the field. -/
def Forbids (ctx : Context) (a : Access) : Prop :=
  ctx.Watches a ∧
    callAllowed ((ctx.effectiveTag? a.accessor.id).map (·.tag))
      ((ctx.effectiveTag? a.field.id).map (·.tag)) true = false

instance (ctx : Context) (a : Access) : Decidable (ctx.Forbids a) :=
  inferInstanceAs (Decidable (_ ∧ _))

def trespass (ctx : Context) (a : Access) : Finding :=
  .fieldAccessViolation a.accessor.location a.field.location
    (ctx.effectiveTag? a.accessor.id) (ctx.effectiveTag? a.field.id)

/-- The tag of the field, if it wants a lock that the accessor does not hold. -/
def wantedLock? (ctx : Context) (a : Access) : Option LocatedTag :=
  if ctx.Watches a ∧ a.lockHeld = false ∧ a.accessor.lockGuarded = false then
    (ctx.effectiveTag? a.field.id).filter (·.requireSynchronized)
  else none

/-- One of the accesses has wanted the lock at this place from the
declaration. -/
def wanted (ctx : Context) (accesses : List Access) (accessor : DeclId)
    (place : String) : Bool :=
  accesses.any (fun a =>
    a.accessor.id == accessor && (ctx.wantedLock? a).any (·.location == place))

/-- The findings at accesses, one access after the other.  A lock that an
earlier access has wanted from the same accessor is not reported again. -/
def accessFindings (ctx : Context) (earlier : List Access) :
    List Access → List Finding
  | [] => []
  | a :: later =>
    (if ctx.Forbids a then [ctx.trespass a] else [])
      ++ (((ctx.wantedLock? a).filter
          (fun tag => !ctx.wanted earlier a.accessor.id tag.location)).map
            (.missingSynchronization a.accessor.location)).toList
      ++ ctx.accessFindings (earlier ++ [a]) later

variable {ctx : Context}

theorem watches_iff {a : Access} :
    ctx.Watches a ↔
      a.accessor.kind.isConstruction = false ∧
        (ctx.skipReason? a.accessor).isSome = false := by
  rw [Watches]
  cases a.accessor.kind <;> simp [Kind.isConstruction]

section Ends

variable (haccepted : ctx.model.Accepted) {a : Access}
  (haccessor : a.accessor ∈ ctx.model.declarations)
  (hfield : a.field ∈ ctx.model.declarations)

include haccepted haccessor hfield

theorem accessFinding?_edge :
    ctx.accessFinding? a.edge =
      if ctx.Forbids a then some (ctx.trespass a) else none := by
  have haccessor : ctx.model.find? a.edge.accessor = some a.accessor :=
    haccepted.find?_id haccessor
  have hfield : ctx.model.find? a.edge.field = some a.field :=
    haccepted.find?_id hfield
  simp only [accessFinding?, haccessor, hfield, Forbids, watches_iff, trespass]
  cases a.accessor.kind.isConstruction <;>
    cases (ctx.skipReason? a.accessor).isSome <;>
    simp [← Bool.not_eq_true, ite_not]

/-- An access is counted, and then reported or asked for a lock, or both. -/
theorem exists_accessActs_edge :
    ∃ counter, ctx.accessActs a.edge =
      .count counter ::
        ((if ctx.Forbids a then [.report a.accessor.id (ctx.trespass a)]
          else [])
          ++ (ctx.wantedLock? a).toList.map
            (fun tag => .demand a.accessor.id a.accessor.location
              (some tag.location) tag)) := by
  have hfinding := accessFinding?_edge haccepted haccessor hfield
  have haccessor : ctx.model.find? a.edge.accessor = some a.accessor :=
    haccepted.find?_id haccessor
  have hfield : ctx.model.find? a.edge.field = some a.field :=
    haccepted.find?_id hfield
  have hheld : a.edge.lockHeld = a.lockHeld := rfl
  simp only [accessActs, haccessor, hfield, hfinding, hheld]
  by_cases hwatches : ctx.Watches a
  · obtain ⟨hkind, hskip⟩ := watches_iff.mp hwatches
    have hreport :
        ((if ctx.Forbids a then some (ctx.trespass a) else none).toList.map
          (Act.report a.accessor.id)) =
        if ctx.Forbids a then [.report a.accessor.id (ctx.trespass a)]
        else [] := by
      split <;> rfl
    refine ⟨.fieldAccesses, ?_⟩
    simp only [hreport, hkind, acting, hskip, wantedLock?, hwatches,
      Declaration.demands, LocatedTag.lockDemand?]
    cases a.lockHeld <;> cases a.accessor.lockGuarded <;> simp
  · have hforbids : ¬ ctx.Forbids a := fun h => hwatches h.1
    refine ⟨.skipped, ?_⟩
    simp only [wantedLock?, hwatches, hforbids]
    rw [watches_iff] at hwatches
    cases hkind : a.accessor.kind.isConstruction with
    | true => simp
    | false =>
        have hskip : (ctx.skipReason? a.accessor).isSome = true :=
          eq_true_of_ne_false (fun hacts => hwatches ⟨hkind, hacts⟩)
        simp [acting, hskip]

theorem heard_accessActs_edge (known : DeclId → Option String → Bool) :
    (Act.heard known (ctx.accessActs a.edge)).map Prod.snd =
      (if ctx.Forbids a then [ctx.trespass a] else [])
        ++ (((ctx.wantedLock? a).filter
            (fun tag => !known a.accessor.id (some tag.location))).map
              (.missingSynchronization a.accessor.location)).toList := by
  obtain ⟨counter, hacts⟩ := exists_accessActs_edge haccepted haccessor hfield
  rw [hacts, Act.heard]
  cases ctx.wantedLock? a with
  | none => by_cases hforbids : ctx.Forbids a <;> simp [hforbids, Act.heard]
  | some tag =>
      cases hknown : known a.accessor.id (some tag.location) <;>
        by_cases hforbids : ctx.Forbids a <;> simp [hforbids, hknown, Act.heard,
          Option.filter]

theorem demands_accessActs_edge :
    (ctx.accessActs a.edge).filterMap Act.demand? =
      (ctx.wantedLock? a).toList.map
        (fun tag => ⟨a.accessor.id, a.accessor.location,
          some tag.location, tag⟩) := by
  obtain ⟨counter, hacts⟩ := exists_accessActs_edge haccepted haccessor hfield
  rw [hacts]
  cases ctx.wantedLock? a <;> split <;> rfl

end Ends

/-- Where the known locks of fields are those that earlier accesses have wanted,
the accesses that follow lead to the findings listed for them. -/
theorem heard_accesses (haccepted : ctx.model.Accepted)
    {known : DeclId → Option String → Bool} {earlier accesses : List Access}
    (hends : ∀ a ∈ accesses,
      a.accessor ∈ ctx.model.declarations ∧ a.field ∈ ctx.model.declarations)
    (hknown : ∀ accessor place,
      known accessor (some place) = ctx.wanted earlier accessor place) :
    (Act.heard known ((accesses.map Access.edge).flatMap ctx.accessActs)).map
      Prod.snd =
      ctx.accessFindings earlier accesses := by
  induction accesses generalizing known earlier with
  | nil => rfl
  | cons a later ih =>
      obtain ⟨haccessor, hfield⟩ := hends a List.mem_cons_self
      rw [List.map_cons, List.flatMap_cons, Act.heard_append, List.map_append,
        heard_accessActs_edge haccepted haccessor hfield, accessFindings]
      simp only [hknown]
      congr 1
      apply ih
      · intro b hb
        exact hends b (List.mem_cons_of_mem a hb)
      · intro accessor place
        rw [Act.knownAfter, demands_accessActs_edge haccepted haccessor hfield,
          hknown, wanted, wanted, List.any_append, Bool.or_comm]
        congr 1
        cases hwanted : ctx.wantedLock? a with
        | none => simp [hwanted]
        | some tag =>
            rw [Bool.eq_iff_iff]
            simp [hwanted, Demand.lock]

/-- What is reported about the tags of accesses, given their ends. -/
theorem flatMap_accessFinding? (haccepted : ctx.model.Accepted)
    {accesses : List Access} (hends : ∀ a ∈ accesses,
      a.accessor ∈ ctx.model.declarations ∧ a.field ∈ ctx.model.declarations) :
    (accesses.map Access.edge).flatMap
      (fun e => (ctx.accessFinding? e).toList) =
      (accesses.filter (fun a => ctx.Forbids a)).map ctx.trespass := by
  rw [List.flatMap_map, ← flatMap_toList_ite]
  apply List.flatMap_congr
  intro a ha
  rw [accessFinding?_edge haccepted (hends a ha).1 (hends a ha).2]

end Context

namespace Checker

def withoutAccesses (c : Checker) : Checker :=
  { c with settings := { c.settings with checkFieldAccess? := some false } }

variable (c : Checker) (u : SourceUnit)

/-- What a run does before it comes to field accesses. -/
def earlyActs : List Act :=
  (c.context u).overridesActs u.overrides ++ u.calls.flatMap
    ((c.context u).callActs u.overrides)

def accessActs : List Act :=
  u.fieldAccesses.flatMap (c.context u).accessActs

/-- What a run does after field accesses: methods are asked for their own
locks. -/
def lateActs : List Act :=
  u.model.declarations.flatMap
    ((c.context u).guardActs (fun id => .mark id ∈ c.earlyActs u))

theorem acts_withoutAccesses :
    c.withoutAccesses.acts u = c.earlyActs u ++ c.lateActs u := by
  have hedges : c.withoutAccesses.edgeActs u = c.earlyActs u :=
    List.append_nil _
  rw [acts, hedges]
  rfl

/-- An access marks nothing, so which methods are asked for their own locks does
not hang on accesses. -/
theorem acts_eq_of_checkFieldAccess (hon : c.settings.checkFieldAccess = true) :
    c.acts u = c.earlyActs u ++ c.accessActs u ++ c.lateActs u := by
  have hedges : c.edgeActs u = c.earlyActs u ++ c.accessActs u := by
    rw [edgeActs, if_pos hon]
    rfl
  have hmarks (id : DeclId) : .mark id ∉ c.accessActs u := by
    intro hmem
    obtain ⟨e, -, hmem⟩ := List.mem_flatMap.mp hmem
    exact Context.mark_notMem_accessActs _ e id hmem
  simp only [acts, hedges, lateActs, List.mem_append, hmarks, or_false]

variable {c u}

theorem place_of_mem_demands_accessActs {d : Demand}
    (hd : d ∈ (c.accessActs u).filterMap Act.demand?) : d.place ≠ none := by
  obtain ⟨e, -, hmem⟩ := List.mem_flatMap.mp (Act.mem_filterMap_demand?.mp hd)
  exact Context.place_of_demand_mem_accessActs hmem

theorem Overrides.of_withoutAccesses {parent child : Declaration}
    (hoverrides : c.withoutAccesses.Overrides u parent child) :
    c.Overrides u parent child := by
  rcases hoverrides with hedge | ⟨hon, himplies⟩
  · exact Or.inl hedge
  · exact Or.inr ⟨hon, himplies.parent_mem, himplies.child_mem,
      himplies.parent_method, himplies.child_method, himplies.signature,
      himplies.covers, himplies.below, himplies.unstated⟩

/-- Without accesses only own locks are owed, and these for the same reasons. -/
theorem Owes.of_withoutAccesses {d : Declaration} {place : Option String}
    {tag : LocatedTag} (howes : c.withoutAccesses.Owes u d place tag) :
    place = none ∧ c.Owes u d none tag := by
  obtain ⟨hmem, hacts, hguarded, hreason⟩ := howes
  cases hreason with
  | own htag hlock hasked =>
    exact ⟨rfl, hmem, hacts, hguarded, .own htag hlock hasked⟩
  | inherited huntagged hparent hoverrides htag hlock =>
      exact ⟨rfl, hmem, hacts, hguarded,
        .inherited huntagged hparent hoverrides.of_withoutAccesses htag hlock⟩
  | access hchecked _ _ _ _ _ _ => cases hchecked

theorem place_of_mem_demands_withoutAccesses
    (haccepted : u.Accepted) {d : Demand}
    (hd : d ∈ c.withoutAccesses.demands u) : d.place = none := by
  obtain ⟨debtor, howes, -, -⟩ := (mem_demands_iff haccepted).mp hd
  exact howes.of_withoutAccesses.1

/-- Accesses find no lock of a field known, and make no lock of a declaration
itself known. -/
theorem heard_acts_eq_append (haccepted : u.Accepted)
    (hon : c.settings.checkFieldAccess = true) :
    Act.heard (fun _ _ => false) (c.acts u) =
      Act.heard (fun _ _ => false) (c.earlyActs u)
        ++ (Act.heard (fun _ _ => false) (c.accessActs u)
          ++ Act.heard (Act.knownAfter (fun _ _ => false) (c.earlyActs u))
          (c.lateActs u)) := by
  have hown : ∀ d ∈ (c.earlyActs u).filterMap Act.demand? ++
      (c.lateActs u).filterMap Act.demand?, d.place = none := by
    rw [← List.filterMap_append, ← acts_withoutAccesses]
    exact fun d hd => place_of_mem_demands_withoutAccesses haccepted hd
  have haccesses : Act.heard (Act.knownAfter (fun _ _ => false) (c.earlyActs u))
      (c.accessActs u) = Act.heard (fun _ _ => false) (c.accessActs u) := by
    refine Act.heard_congr (fun d hd => Act.knownAfter_eq (fun e he => ?_))
    rw [hown e (List.mem_append_left _ he)]
    exact (place_of_mem_demands_accessActs hd).symm
  have hlate :
      Act.heard
          (Act.knownAfter (Act.knownAfter (fun _ _ => false) (c.earlyActs u))
            (c.accessActs u)) (c.lateActs u) =
        Act.heard (Act.knownAfter (fun _ _ => false) (c.earlyActs u))
          (c.lateActs u) := by
    refine Act.heard_congr (fun d hd => Act.knownAfter_eq (fun e he => ?_))
    rw [hown d (List.mem_append_right _ hd)]
    exact place_of_mem_demands_accessActs he
  rw [acts_eq_of_checkFieldAccess c u hon, List.append_assoc, Act.heard_append,
    Act.heard_append, haccesses, hlate]

theorem findingsOf_fieldAccessViolation (c : Checker)
    (haccepted : u.model.Accepted) (registry : Registry)
    (hon : c.settings.checkFieldAccess = true) {accesses : List Access}
    (hedges : accesses.map Access.edge = u.fieldAccesses)
    (hends : ∀ a ∈ accesses, a.accessor ∈ u.model.declarations ∧
      a.field ∈ u.model.declarations) :
    (c.check u registry).1.findingsOf .fieldAccessViolation =
      (accesses.filter (fun a => (c.context u).Forbids a)).map
        (c.context u).trespass := by
  rw [c.findingsOf_check haccepted registry (by decide) (by decide),
    filter_edgeFindings, edgeFindingsOf, if_pos hon, ← hedges]
  exact Context.flatMap_accessFinding? haccepted hends

theorem rule_of_mem_findings_withoutAccesses (c : Checker)
    (haccepted : u.model.Accepted) (registry : Registry) {f : Finding}
    (hf : f ∈ (c.withoutAccesses.check u registry).1.findings) :
    f.rule ≠ .fieldAccessViolation := by
  intro hrule
  have hmem :
      f ∈ (c.withoutAccesses.check u registry).1.findingsOf
        .fieldAccessViolation :=
    List.mem_filter.mpr ⟨hf, by simp [hrule]⟩
  rw [findingsOf_check _ haccepted registry (by decide) (by decide),
    filter_edgeFindings] at hmem
  cases hmem

/-- A finding on a lock, where accesses are left out, is about the own lock of a
declaration. -/
theorem owes_of_mem_findings_withoutAccesses (c : Checker)
    (haccepted : u.Accepted) (registry : Registry) {f : Finding}
    (hf : f ∈ (c.withoutAccesses.check u registry).1.findings)
    (hrule : f.rule = .missingSynchronization) :
    ∃ d tag, c.Owes u d none tag ∧
      f = .missingSynchronization d.location tag := by
  have hmem :
      f ∈ (c.withoutAccesses.check u registry).1.findingsOf
        .missingSynchronization :=
    List.mem_filter.mpr ⟨hf, by simp [hrule]⟩
  rw [findingsOf_missingSynchronization _ haccepted.model registry] at hmem
  obtain ⟨demand, hdemand, rfl⟩ := List.mem_map.mp hmem
  obtain ⟨d, howes, -, hlocation⟩ := (mem_demands_iff haccepted).mp
    (List.mem_of_find?_eq_some (Demand.mem_fresh_iff.mp hdemand).2)
  refine ⟨d, demand.requiredBy, howes.of_withoutAccesses.2, ?_⟩
  rw [hlocation]
  rfl

/-- Where field accesses count, the findings on them are those of the accesses
that are forbidden, in the order of the edges.  They stand in one block with the
locks that are missing at accesses; without accesses the report is the same but
for this block, where nothing is about an access. -/
theorem check_fieldAccesses (c : Checker) {u : SourceUnit}
    (haccepted : u.Accepted) (hon : c.settings.checkFieldAccess = true)
    (registry : Registry) :
    ∃ accesses : List Access, accesses.map Access.edge = u.fieldAccesses ∧
      (∀ a ∈ accesses, a.accessor ∈ u.model.declarations ∧
        a.field ∈ u.model.declarations) ∧
      (c.check u registry).1.findingsOf .fieldAccessViolation =
        (accesses.filter (fun a => (c.context u).Forbids a)).map
          (c.context u).trespass ∧
      ∃ before after : List Finding,
        (c.check u registry).1.findings =
          before ++ (c.context u).accessFindings [] accesses ++ after ∧
        (c.withoutAccesses.check u registry).1.findings = before ++ after ∧
        ∀ f ∈ before ++ after, f.rule ≠ .fieldAccessViolation ∧
          (f.rule = .missingSynchronization →
            ∃ d tag, c.Owes u d none tag ∧
              f = .missingSynchronization d.location tag) := by
  obtain ⟨accesses, hedges, hends⟩ := haccepted.exists_accesses
  have hblock : (Act.heard (fun _ _ => false) (c.accessActs u)).map Prod.snd =
      (c.context u).accessFindings [] accesses := by
    rw [accessActs, ← hedges]
    exact Context.heard_accesses haccepted.model hends (fun _ _ => rfl)
  have hfindings : (c.check u registry).1.findings = _ :=
    c.findings_run haccepted.model registry
  have hwithout : (c.withoutAccesses.check u registry).1.findings = _ :=
    c.withoutAccesses.findings_run haccepted.model registry
  have hopening :
      c.withoutAccesses.opening u registry = c.opening u registry := by
    have hlibrary : c.withoutAccesses.library = c.library := rfl
    exact opening_congr hlibrary u registry
  rw [heard_acts_eq_append haccepted hon, List.map_append,
    List.map_append, hblock, ← List.append_assoc,
    ← List.append_assoc] at hfindings
  rw [acts_withoutAccesses, Act.heard_append, List.map_append, hopening,
    ← List.append_assoc]
    at hwithout
  refine ⟨accesses, hedges, hends,
    c.findingsOf_fieldAccessViolation haccepted.model registry hon hedges hends,
    _, _, hfindings, hwithout, ?_⟩
  intro f hf
  rw [← hwithout] at hf
  exact ⟨c.rule_of_mem_findings_withoutAccesses haccepted.model registry hf,
    c.owes_of_mem_findings_withoutAccesses haccepted registry hf⟩

/-- A kettle with a display, a heat that wants a lock, and a sound for every
thread.  What boils it runs on a worker under a lock of its own, and touches all
three; what makes it and what is suppressed touch the display as well. -/
def kettleFacts : UnitFacts where
  name := "kettle"
  declarations :=
    [{ id := ⟨1⟩, kind := .module, location := "app", qualifiedName := "app" },
      { id := ⟨2⟩, kind := .type, enclosing := some ⟨1⟩,
        location := "app.Kettle", qualifiedName := "app.Kettle",
        markers := [{ tag := .uiEventThread }] },
      { id := ⟨3⟩, kind := .field, enclosing := some ⟨2⟩,
        location := "app.Kettle.display",
        qualifiedName := "app.Kettle.display" },
      { id := ⟨4⟩, kind := .field, enclosing := some ⟨2⟩,
        location := "app.Kettle.heat", qualifiedName := "app.Kettle.heat",
        markers := [{ tag := .worker, requireSynchronized := true }] },
      { id := ⟨5⟩, kind := .field, enclosing := some ⟨2⟩,
        location := "app.Kettle.sound", qualifiedName := "app.Kettle.sound",
        threadSafe := true },
      { id := ⟨6⟩, kind := .method, enclosing := some ⟨2⟩,
        location := "app.Kettle.boil", qualifiedName := "app.Kettle.boil",
        markers := [{ tag := .worker, requireSynchronized := true }] },
      { id := ⟨7⟩, kind := .constructor, enclosing := some ⟨2⟩,
        location := "app.Kettle.new", qualifiedName := "app.Kettle.new",
        markers := [{ tag := .worker }] },
      { id := ⟨8⟩, kind := .method, enclosing := some ⟨2⟩,
        location := "app.Kettle.test", qualifiedName := "app.Kettle.test",
        markers := [{ tag := .worker }], suppressions := ["threadchecker"] }]
  calls := [⟨⟨6⟩, ⟨8⟩, true⟩]
  fieldAccesses :=
    [⟨⟨6⟩, ⟨3⟩, false⟩, ⟨⟨6⟩, ⟨4⟩, false⟩, ⟨⟨7⟩, ⟨3⟩, false⟩, ⟨⟨6⟩, ⟨3⟩, true⟩,
      ⟨⟨8⟩, ⟨3⟩, false⟩, ⟨⟨6⟩, ⟨4⟩, false⟩, ⟨⟨6⟩, ⟨5⟩, false⟩]

/-- The lock for the heat is asked for once, and the lock of the method itself
after it, as without accesses. -/
theorem kettle_check_fieldAccesses :
    ∃ u, SourceUnit.build kettleFacts = .ok u ∧
      let c := Checker.ofSettings {}
      c.settings.checkFieldAccess = true ∧
      (∃ (accesses : List Access) (before after : List Finding),
        accesses.map Access.edge = u.fieldAccesses ∧
        (c.check u .empty).1.findings =
          before ++ (c.context u).accessFindings [] accesses ++ after ∧
        (c.withoutAccesses.check u .empty).1.findings = before ++ after) ∧
      (c.check u .empty).1.findings.map
        (fun f => (f.rule, f.location, f.related)) =
        [(.fieldAccessViolation, "app.Kettle.boil", ["app.Kettle.display"]),
          (.missingSynchronization, "app.Kettle.boil", ["app.Kettle.heat"]),
          (.fieldAccessViolation, "app.Kettle.boil", ["app.Kettle.display"]),
          (.missingSynchronization, "app.Kettle.boil", ["app.Kettle.boil"])] ∧
      (c.withoutAccesses.check u .empty).1.findings.map
          (fun f => (f.rule, f.location, f.related)) =
        [(.missingSynchronization, "app.Kettle.boil",
          ["app.Kettle.boil"])] := by
  have hbuild : SourceUnit.build kettleFacts = .ok (.ofFacts kettleFacts) :=
    SourceUnit.build_ofFacts (by decide +kernel)
  refine ⟨_, hbuild, ?_⟩
  intro c
  obtain ⟨accesses, hedges, -, -, before, after, hfindings, hwithout, -⟩ :=
    c.check_fieldAccesses ⟨kettleFacts, hbuild⟩ rfl .empty
  exact ⟨rfl, ⟨accesses, before, after, hedges, hfindings, hwithout⟩,
    by decide +kernel, by decide +kernel⟩

end Checker

end ThreadConfinement
