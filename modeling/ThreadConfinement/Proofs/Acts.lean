import ThreadConfinement.Checker
import ThreadConfinement.Proofs.Families
import ThreadConfinement.Proofs.Resolution

/-!
What a settled pass does, listed without running it.

Once every declaration is resolved, the tags that hold decide everything that
follows.  So the rest of a run is a list of acts, each on behalf of one
declaration: `Checker.acts` lists them and `Checker.run_performs` says that the
run performs them.  Only two acts look at what was done before: a lock is
demanded once for each reason, and a method that an override has decided on is
not asked again.
-/

namespace ThreadConfinement

namespace Context

def overrideFinding? (ctx : Context) (patterns : List Glob) (implicit : Bool)
    (child : Declaration) (parent : DeclId) : Option Finding :=
  let childTag := ctx.effectiveTag? child.id
  let parentTag := ctx.effectiveTag? parent
  if overrideConflicts (ctx.model.isExempt patterns parent)
      childTag parentTag then
    some (.overrideConflict child.location (ctx.model.locationOf parent)
      childTag parentTag implicit)
  else none

/-- The declarations among `ids` that have a tag, with their tags. -/
def tagsOf (ctx : Context) (ids : List DeclId) : List (DeclId × LocatedTag) :=
  ids.filterMap (fun id => (ctx.effectiveTag? id).map (fun tag => (id, tag)))

def inheritanceFinding? (ctx : Context) (patterns : List Glob)
    (family : DeclId × List DeclId) : Option Finding :=
  let tagged :=
    (ctx.tagsOf
      (family.2.filter (fun id => !ctx.model.isExempt patterns id))).map
    (fun (id, tag) => (⟨ctx.model.locationOf id, tag⟩ : ParentTag))
  if family.2.length < 2 || (ctx.effectiveTag? family.1).isSome then none
  else if tagsDiffer tagged then
    some (.inheritanceConflict (ctx.model.locationOf family.1) none tagged)
  else none

/-- The tag with which a declaration calls. -/
def callingTag? (ctx : Context) (overrides : List OverrideEdge)
    (caller : DeclId) : Option LocatedTag :=
  match ctx.effectiveTag? caller with
  | some tag => some tag
  | none =>
    if ctx.settings.inheritFromOverridden then
      agreedTag? ((ctx.tagsOf (parentsOf overrides caller)).map Prod.snd)
    else none

def callFinding? (ctx : Context) (overrides : List OverrideEdge)
    (e : CallEdge) : Option Finding :=
  match ctx.model.find? e.caller with
  | none => none
  | some caller =>
    let callerTag := ctx.callingTag? overrides e.caller
    let calleeTag := ctx.effectiveTag? e.callee
    if (ctx.skipReason? caller).isSome then none
    else if callAllowed (callerTag.map (·.tag)) (calleeTag.map (·.tag))
        e.sameInstance then
      none
    else
      some (.callSiteViolation caller.location (ctx.model.locationOf e.callee)
        callerTag calleeTag e.sameInstance)

def accessFinding? (ctx : Context) (e : FieldAccess) : Option Finding :=
  match ctx.model.find? e.accessor, ctx.model.find? e.field with
  | some accessor, some field =>
    let accessorTag := ctx.effectiveTag? accessor.id
    let fieldTag := ctx.effectiveTag? field.id
    if accessor.kind.isConstruction ||
        (ctx.skipReason? accessor).isSome then
      none
    else if callAllowed (accessorTag.map (·.tag)) (fieldTag.map (·.tag))
        true then
      none
    else
      some (.fieldAccessViolation accessor.location field.location
        accessorTag fieldTag)
  | _, _ => none

end Context

/-! ### Acts and what they leave behind -/

inductive Counter where
  | overrides
  | implicitOverrides
  | calls
  | fieldAccesses
  | skipped
deriving DecidableEq

def Stats.bump (s : Stats) : Counter → Stats
  | .overrides => { s with overridesChecked := s.overridesChecked + 1 }
  | .implicitOverrides =>
    { s with implicitOverridesChecked := s.implicitOverridesChecked + 1 }
  | .calls => { s with callsChecked := s.callsChecked + 1 }
  | .fieldAccesses =>
    { s with fieldAccessesChecked := s.fieldAccessesChecked + 1 }
  | .skipped => { s with skippedEdges := s.skippedEdges + 1 }

/-- One thing that a settled pass does. -/
inductive Act where
  | count (counter : Counter)
  | report (actor : DeclId) (finding : Finding)
  /-- An override has decided whether `actor` needs a lock. -/
  | mark (actor : DeclId)
  /-- `actor` must hold a lock and does not: its own, or that of a field whose
  tag stands at `place`. -/
  | demand (actor : DeclId) (location : String) (place : Option String)
      (requiredBy : LocatedTag)
deriving DecidableEq

/-- The part of a pass that acts change. -/
@[ext] structure Ledger where
  marked : DeclId → Bool
  demanded : DeclId → Option String → Bool
  stats : Stats
  findings : List Finding
  count : Nat

namespace Ledger

def report (l : Ledger) (finding : Finding) : Ledger :=
  { l with findings := l.findings ++ [finding], count := l.count + 1 }

@[simp] theorem marked_report (l : Ledger) (finding : Finding) :
    (l.report finding).marked = l.marked := rfl

@[simp] theorem demanded_report (l : Ledger) (finding : Finding) :
    (l.report finding).demanded = l.demanded := rfl

@[simp] theorem findings_report (l : Ledger) (finding : Finding) :
    (l.report finding).findings = l.findings ++ [finding] := rfl

/-- A lock is demanded in vain when it was demanded before. -/
def perform (l : Ledger) : Act → Ledger
  | .count counter => { l with stats := l.stats.bump counter }
  | .report _ finding => l.report finding
  | .mark actor =>
    { l with marked := fun id => decide (actor = id) || l.marked id }
  | .demand actor location place requiredBy =>
    if l.demanded actor place then l
    else
      { l with
        demanded := fun id other => decide (actor = id ∧ place = other) ||
          l.demanded id other
      }.report (.missingSynchronization location requiredBy)

/-- A declaration is marked when it was before or an act marks it. -/
theorem marked_foldl_perform (l : Ledger) (acts : List Act) (id : DeclId) :
    (acts.foldl perform l).marked id =
      (l.marked id || decide (.mark id ∈ acts)) := by
  induction acts generalizing l with
  | nil => simp
  | cons act rest ih =>
      rw [List.foldl_cons, ih]
      cases act with
      | count counter => simp [perform]
      | report actor finding => simp [perform]
      | mark actor =>
          simp only [perform, List.mem_cons, Act.mark.injEq, Bool.decide_or,
            eq_comm (a := id)]
          cases decide (actor = id) <;> simp
      | demand actor location place requiredBy =>
          rw [perform]
          split <;> simp

end Ledger

namespace Act

/-- The findings that acts lead to, each with its actor.  A lock that was
demanded before leads to none. -/
def heard (known : DeclId → Option String → Bool) :
    List Act → List (DeclId × Finding)
  | [] => []
  | .count _ :: rest => heard known rest
  | .report actor finding :: rest => (actor, finding) :: heard known rest
  | .mark _ :: rest => heard known rest
  | .demand actor location place requiredBy :: rest =>
    if known actor place then heard known rest
    else
      (actor, .missingSynchronization location requiredBy)
        :: heard (fun id other =>
          decide (actor = id ∧ place = other) || known id other) rest

def counter? : Act → Option Counter
  | count counter => some counter
  | report .. | mark _ | demand .. => none

end Act

namespace Ledger

/-- The counter shows how many findings there are. -/
def Balanced (l : Ledger) : Prop :=
  l.count = l.findings.length

theorem Balanced.report {l : Ledger} (hl : l.Balanced) (finding : Finding) :
    (l.report finding).Balanced := by
  unfold Balanced at hl ⊢
  rw [Ledger.report, hl, List.length_append, List.length_singleton]

theorem Balanced.perform {l : Ledger} (hl : l.Balanced) (act : Act) :
    (l.perform act).Balanced := by
  cases act with
  | count counter => exact hl
  | report actor finding => exact hl.report finding
  | mark actor => exact hl
  | demand actor location place requiredBy =>
      rw [Ledger.perform]
      split
      · exact hl
      · exact Balanced.report hl _

theorem Balanced.foldl_perform {l : Ledger} (hl : l.Balanced)
    (acts : List Act) :
    (acts.foldl Ledger.perform l).Balanced := by
  induction acts generalizing l with
  | nil => exact hl
  | cons act rest ih => exact ih (hl.perform act)

theorem findings_foldl_perform (l : Ledger) (acts : List Act) :
    (acts.foldl perform l).findings =
      l.findings ++ (Act.heard l.demanded acts).map Prod.snd := by
  induction acts generalizing l with
  | nil => simp [Act.heard]
  | cons act rest ih =>
      rw [List.foldl_cons, ih]
      cases act with
      | count counter => rfl
      | report actor finding => simp [perform, Act.heard]
      | mark actor => rfl
      | demand actor location place requiredBy =>
          rw [perform, Act.heard]
          split <;> simp

theorem stats_foldl_perform (l : Ledger) (acts : List Act) :
    (acts.foldl perform l).stats =
      (acts.filterMap Act.counter?).foldl Stats.bump l.stats := by
  induction acts generalizing l with
  | nil => rfl
  | cons act rest ih =>
      rw [List.foldl_cons, ih]
      cases act with
      | count counter => rfl
      | report actor finding => rfl
      | mark actor => rfl
      | demand actor location place requiredBy =>
          rw [perform]
          split <;> rfl

end Ledger

namespace Pass

/-- A lock was demanded of the declaration before: its own, or that of a
field. -/
def isDemanded (p : Pass) (id : DeclId) (place : Option String) : Bool :=
  p.reported.contains (id, place)

def ledger (p : Pass) : Ledger where
  marked := p.isEvaluated
  demanded := p.isDemanded
  stats := p.stats
  findings := p.journal.findings
  count := p.findingCount

/-- From `p` to `q` exactly these acts were performed, no answer has changed,
and no markers were found to disagree. -/
structure Performs (p : Pass) (acts : List Act) (q : Pass) : Prop where
  own : q.own = p.own
  effective : q.effective = p.effective
  conflicts : q.conflicts = p.conflicts
  registry : q.registry = p.registry
  ledger : q.ledger = acts.foldl Ledger.perform p.ledger

namespace Performs

variable {p q r : Pass} {acts more : List Act}

theorem refl (p : Pass) : p.Performs [] p :=
  ⟨rfl, rfl, rfl, rfl, rfl⟩

theorem trans (hfirst : p.Performs acts q) (hsecond : q.Performs more r) :
    p.Performs (acts ++ more) r := by
  refine ⟨hsecond.own.trans hfirst.own,
    hsecond.effective.trans hfirst.effective,
    hsecond.conflicts.trans hfirst.conflicts,
    hsecond.registry.trans hfirst.registry, ?_⟩
  rw [hsecond.ledger, hfirst.ledger, List.foldl_append]

theorem settled {ctx : Context} (hperforms : p.Performs acts q)
    (hp : p.Settled ctx) :
    q.Settled ctx :=
  hp.of_eq hperforms.effective

end Performs

@[simp] theorem findings_report (j : Journal) (f : Finding) :
    (j.report f).findings = j.findings ++ [f] := by
  simp [Journal.report, Journal.findings, Entry.finding?]

@[simp] theorem findings_note (j : Journal) (e : Event) :
    (j.note e).findings = j.findings := by
  simp [Journal.note, Journal.findings, Entry.finding?]

@[simp] theorem ledger_note (p : Pass) (e : Event) :
    (p.note e).ledger = p.ledger := by
  have hfindings : (p.note e).journal.findings = p.journal.findings :=
    findings_note p.journal e
  simp only [ledger, hfindings]
  rfl

theorem performs_note (p : Pass) (e : Event) : p.Performs [] (p.note e) :=
  ⟨rfl, rfl, rfl, rfl, ledger_note p e⟩

theorem performs_count (p : Pass) (counter : Counter) :
    p.Performs [.count counter] { p with stats := p.stats.bump counter } :=
  ⟨rfl, rfl, rfl, rfl, rfl⟩

theorem performs_skipEdge (p : Pass) (message role : String)
    (acting : Declaration) (reason : SkipReason) :
    p.Performs [.count .skipped] (p.skipEdge message role acting reason) :=
  (performs_note p _).trans (performs_count _ .skipped)

theorem ledger_report (p : Pass) (f : Finding) :
    (p.report f).ledger = p.ledger.report f := by
  have hfindings : (p.report f).journal.findings = p.journal.findings ++ [f] :=
    findings_report p.journal f
  simp only [ledger, hfindings]
  rfl

theorem performs_report (p : Pass) (actor : DeclId) (f : Finding) :
    p.Performs [.report actor f] (p.report f) :=
  ⟨rfl, rfl, rfl, rfl, ledger_report p f⟩

theorem performs_markEvaluated (p : Pass) (actor : DeclId) :
    p.Performs [.mark actor] (p.markEvaluated actor) := by
  refine ⟨rfl, rfl, rfl, rfl, ?_⟩
  ext id other
  · simp [ledger, isEvaluated, markEvaluated, Ledger.perform, Bool.decide_or]
  · rfl
  · rfl
  · rfl
  · rfl

theorem ledger_reportLock (p : Pass) (d : Declaration) (place : Option String)
    (tag : LocatedTag) :
    (p.reportLock d place tag).ledger =
      p.ledger.perform (.demand d.id d.location place tag) := by
  rw [reportLock, Ledger.perform]
  by_cases hknown : (d.id, place) ∈ p.reported
  · rw [if_pos hknown, if_pos (by simpa [ledger, isDemanded] using hknown)]
  · rw [if_neg hknown, if_neg (by simpa [ledger, isDemanded] using hknown),
      ledger_report]
    congr 1
    ext id other
    · rfl
    · simp [ledger, isDemanded, eq_comm (a := d.id), eq_comm (a := place)]
    · rfl
    · rfl
    · rfl

/-- A missing lock is demanded in whatever way it is missing. -/
theorem performs_reportLock (p : Pass) (d : Declaration) (place : Option String)
    (tag : LocatedTag) :
    p.Performs [.demand d.id d.location place tag]
      (p.reportLock d place tag) := by
  refine ⟨?_, ?_, ?_, ?_, ledger_reportLock p d place tag⟩
  all_goals
    unfold reportLock
    split <;> rfl

end Pass

/-! ### The acts that the edges and declarations of a unit call for -/

/-- What comes of a tag that may ask `d` for a lock. -/
def Declaration.demands (d : Declaration) (place : LocatedTag → Option String)
    (tag? : Option LocatedTag) : List Act :=
  if d.lockGuarded then []
  else tag?.toList.map (fun tag => .demand d.id d.location (place tag) tag)

namespace Context

/-- The acts of an acting side, unless it is left alone. -/
def acting (ctx : Context) (d : Declaration) (acts : List Act) : List Act :=
  if (ctx.skipReason? d).isSome then [.count .skipped] else acts

def overrideActs (ctx : Context) (patterns : List Glob) (implicit : Bool)
    (child : Declaration) (parent : DeclId) : List Act :=
  (ctx.overrideFinding? patterns implicit child parent).toList.map
    (.report child.id) ++ [.mark child.id]
    ++ child.demands (fun _ => none)
      (overrideDemand? (ctx.effectiveTag? child.id) (ctx.effectiveTag? parent))

def edgeActs (ctx : Context) (patterns : List Glob)
    (e : OverrideEdge) : List Act :=
  match ctx.model.find? e.child with
  | none => []
  | some child =>
    ctx.acting child (ctx.overrideActs patterns false child e.parent ++
      [.count .overrides])

def impliedActs (ctx : Context) (patterns : List Glob)
    (parent child : Declaration) : List Act :=
  ctx.acting child (ctx.overrideActs patterns true child parent.id ++
    [.count .implicitOverrides])

/-- The overrides that a declaration implies are checked. -/
def impliedByActs (ctx : Context) (patterns : List Glob)
    (overrides : List OverrideEdge) (parent : Declaration) : List Act :=
  if parent.kind ≠ .method || parent.signature.isNone then []
  else if (ctx.effectiveTag? parent.id).any (·.coversSubclasses) then
    (ctx.model.impliedChildren overrides parent).flatMap
      (ctx.impliedActs patterns parent)
  else []

/-- A child with several parents is checked. -/
def familyActs (ctx : Context) (patterns : List Glob)
    (family : DeclId × List DeclId) : List Act :=
  (ctx.inheritanceFinding? patterns family).toList.map (.report family.1)

def overridesActs (ctx : Context) (overrides : List OverrideEdge) : List Act :=
  let patterns := ctx.settings.exemptPatterns
  overrides.flatMap (ctx.edgeActs patterns)
    ++ (if ctx.settings.subclassPropagation then
        ctx.model.declarations.flatMap (ctx.impliedByActs patterns overrides)
      else [])
    ++ (ctx.parentsByChild overrides).toList.flatMap (ctx.familyActs patterns)

def callActs (ctx : Context) (overrides : List OverrideEdge)
    (e : CallEdge) : List Act :=
  match ctx.model.find? e.caller with
  | none => []
  | some caller =>
    ctx.acting caller
      (.count .calls :: (ctx.callFinding? overrides e).toList.map
        (.report caller.id))

def accessActs (ctx : Context) (e : FieldAccess) : List Act :=
  match ctx.model.find? e.accessor, ctx.model.find? e.field with
  | some accessor, some field =>
    if accessor.kind.isConstruction then [.count .skipped]
    else
      ctx.acting accessor
        (.count .fieldAccesses :: (ctx.accessFinding? e).toList.map
          (.report accessor.id) ++ if e.lockHeld then []
            else accessor.demands (fun tag => some tag.location)
              (LocatedTag.lockDemand? (ctx.effectiveTag? field.id)))
  | _, _ => []

/-- A method is asked for its own lock, unless an override has decided. -/
def guardActs (ctx : Context) (marked : DeclId → Bool)
    (d : Declaration) : List Act :=
  if d.kind ≠ .method || marked d.id || (ctx.skipReason? d).isSome then []
  else d.demands (fun _ => none)
    (LocatedTag.lockDemand? (ctx.effectiveTag? d.id))

theorem mark_notMem_guardActs (ctx : Context) (marked : DeclId → Bool)
    (d : Declaration) (id : DeclId) : .mark id ∉ ctx.guardActs marked d := by
  unfold guardActs Declaration.demands
  split
  · simp
  · split <;> simp

end Context

namespace Checker

def edgeActs (c : Checker) (u : SourceUnit) : List Act :=
  (c.context u).overridesActs u.overrides
    ++ u.calls.flatMap ((c.context u).callActs u.overrides)
    ++ (if c.settings.checkFieldAccess then
      u.fieldAccesses.flatMap (c.context u).accessActs
      else [])

/-- All acts of a run after its first round. -/
def acts (c : Checker) (u : SourceUnit) : List Act :=
  c.edgeActs u
    ++ u.model.declarations.flatMap
      ((c.context u).guardActs (fun id => .mark id ∈ c.edgeActs u))

end Checker

namespace Pass

section Settled

variable {ctx : Context} {p : Pass}

/-- When each step from a settled pass performs the acts of its item, a walk
over a list performs the acts of all items, in their order. -/
theorem Settled.performs_foldl {α : Type} {step : Pass → α → Pass}
    {acts : α → List Act}
    (hstep : ∀ (q : Pass) (a : α), q.Settled ctx →
      q.Performs (acts a) (step q a))
    (hp : p.Settled ctx) (items : List α) :
    p.Performs (items.flatMap acts) (items.foldl step p) := by
  induction items generalizing p with
  | nil => exact .refl p
  | cons a rest ih =>
      have hhead := hstep p a hp
      rw [List.flatMap_cons, List.foldl_cons]
      exact hhead.trans (ih (hhead.settled hp))

theorem performs_require (p : Pass) (d : Declaration)
    (tag? : Option LocatedTag) :
    p.Performs (d.demands (fun _ => none) tag?)
      (match tag? with
      | some tag => p.require d tag
      | none => p) := by
  cases tag? with
  | none => simpa [Declaration.demands] using Performs.refl p
  | some tag =>
      simp only [Declaration.demands, require]
      split
      · exact .refl p
      · exact p.performs_reportLock d none tag

theorem performs_requireAtAccess (p : Pass) (d : Declaration) (lockHeld : Bool)
    (tag? : Option LocatedTag) :
    p.Performs
      (if lockHeld then [] else d.demands (fun tag => some tag.location) tag?)
      (match tag? with
      | some tag => p.requireAtAccess d lockHeld tag
      | none => p) := by
  cases tag? with
  | none => simpa [Declaration.demands] using Performs.refl p
  | some tag =>
      cases lockHeld with
      | true => exact .refl p
      | false =>
          simp only [Declaration.demands, requireAtAccess, Bool.false_or,
            Bool.false_eq_true, ↓reduceIte]
          split
          · exact .refl p
          · exact p.performs_reportLock d (some tag.location) tag

/-- A finding that may be there is reported, if it is. -/
theorem performs_reportIf (p : Pass) (actor : DeclId) (bad : Bool)
    (f : Finding) :
    p.Performs ((if bad then some f else none).toList.map (.report actor))
      (if bad then p.report f else p) := by
  cases bad with
  | true => exact p.performs_report actor f
  | false => exact .refl p

theorem Settled.resolveTags (hp : p.Settled ctx) (ids : List DeclId) :
    p.resolveTags ctx ids = (ctx.tagsOf ids, p) := by
  induction ids with
  | nil => rfl
  | cons id ids ih =>
      simp only [Pass.resolveTags, hp.resolve, ih, Context.tagsOf,
        List.filterMap_cons]
      cases ctx.effectiveTag? id <;> rfl

theorem Settled.performs_checkOverride (hp : p.Settled ctx)
    (patterns : List Glob) (implicit : Bool) (child : Declaration)
    (parent : DeclId) :
    p.Performs (ctx.overrideActs patterns implicit child parent)
      (p.checkOverride ctx patterns implicit child parent) := by
  simp only [checkOverride, hp.resolve]
  exact ((performs_reportIf p child.id _ _).trans
    (performs_markEvaluated _ child.id)).trans (performs_require _ child _)

theorem Settled.performs_checkOverrideEdge (hp : p.Settled ctx)
    (patterns : List Glob) (e : OverrideEdge) :
    p.Performs (ctx.edgeActs patterns e)
      (p.checkOverrideEdge ctx patterns e) := by
  rw [checkOverrideEdge, Context.edgeActs]
  cases hchild : ctx.model.find? e.child with
  | none => exact .refl p
  | some child =>
      cases hskip : ctx.skipReason? child with
      | some reason =>
        simpa [Context.acting, hskip] using p.performs_skipEdge _ _ child reason
      | none =>
          simp only [Context.acting, hskip, Option.isSome_none,
            Bool.false_eq_true, ↓reduceIte]
          exact (hp.performs_checkOverride patterns false child e.parent).trans
            (performs_count _ .overrides)

theorem Settled.performs_checkImplied (hp : p.Settled ctx)
    (patterns : List Glob) (parent child : Declaration) :
    p.Performs (ctx.impliedActs patterns parent child)
      (p.checkImplied ctx patterns parent child) := by
  rw [checkImplied, Context.impliedActs]
  cases hskip : ctx.skipReason? child with
  | some reason =>
    simpa [Context.acting, hskip] using p.performs_skipEdge _ _ child reason
  | none =>
      simp only [Context.acting, hskip, Option.isSome_none,
        Bool.false_eq_true, ↓reduceIte]
      exact (hp.performs_checkOverride patterns true child parent.id).trans
        (performs_count _ .implicitOverrides)

theorem Settled.performs_checkImpliedBy (hp : p.Settled ctx)
    (patterns : List Glob) (overrides : List OverrideEdge)
    (parent : Declaration) :
    p.Performs (ctx.impliedByActs patterns overrides parent)
      (p.checkImpliedBy ctx patterns overrides parent) := by
  rw [checkImpliedBy, Context.impliedByActs, hp.resolve]
  split
  · exact .refl p
  · dsimp only
    split
    · exact hp.performs_foldl
        (fun q child hq => hq.performs_checkImplied patterns parent child) _
    · exact .refl p

theorem Settled.performs_checkInheritance (hp : p.Settled ctx)
    (patterns : List Glob) (family : DeclId × List DeclId) :
    p.Performs (ctx.familyActs patterns family)
      (p.checkInheritance ctx patterns family) := by
  obtain ⟨child, parents⟩ := family
  simp only [checkInheritance, Context.familyActs,
    Context.inheritanceFinding?, hp.resolve]
  by_cases hfew : parents.length < 2
  · simpa [hfew] using Performs.refl p
  · cases htag : ctx.effectiveTag? child with
    | some tag => simpa [hfew] using Performs.refl p
    | none =>
        simp only [hfew, decide_false, Option.isSome_none, Bool.or_self,
          Bool.false_eq_true, ↓reduceIte, hp.resolveTags]
        exact performs_reportIf p child _ _

/-- The check of all overrides performs the acts that they call for. -/
theorem Settled.performs_checkOverrides (hp : p.Settled ctx)
    (overrides : List OverrideEdge) :
    p.Performs (ctx.overridesActs overrides)
      (p.checkOverrides ctx overrides) := by
  have hnoted : p.Performs (ctx.settings.exemptEvents.flatMap (fun _ => []))
      (ctx.settings.exemptEvents.foldl note p) :=
    hp.performs_foldl (fun q e _ => q.performs_note e) _
  rw [List.flatMap_eq_nil_iff.mpr (fun _ _ => rfl)] at hnoted
  have hexplicit :=
      hnoted.trans ((hnoted.settled hp).performs_foldl (fun q e hq =>
    hq.performs_checkOverrideEdge ctx.settings.exemptPatterns e) overrides)
  simp only [checkOverrides, Context.overridesActs]
  by_cases hon : ctx.settings.subclassPropagation = true
  · simp only [hon, ↓reduceIte]
    have himplied := hexplicit.trans
        ((hexplicit.settled hp).performs_foldl (fun q parent hq =>
      hq.performs_checkImpliedBy ctx.settings.exemptPatterns overrides parent)
      ctx.model.declarations)
    exact himplied.trans
        ((himplied.settled hp).performs_foldl (fun q family hq =>
      hq.performs_checkInheritance ctx.settings.exemptPatterns family) _)
  · simp only [hon, Bool.false_eq_true, ↓reduceIte, List.append_nil]
    exact hexplicit.trans
        ((hexplicit.settled hp).performs_foldl (fun q family hq =>
      hq.performs_checkInheritance ctx.settings.exemptPatterns family) _)

/-- A settled pass looks at the parents without changing, and finds the tags
that hold for them. -/
theorem Settled.foldl_consult (hp : p.Settled ctx) (a : Agreement)
    (parents : List DeclId) :
    parents.foldl (consult ctx) (a, p) =
      (((ctx.tagsOf parents).map Prod.snd).foldl Agreement.add a, p) := by
  induction parents generalizing a with
  | nil => rfl
  | cons parent rest ih =>
      rw [List.foldl_cons, consult, hp.resolve, ih, Context.tagsOf,
        Context.tagsOf, List.filterMap_cons]
      cases ctx.effectiveTag? parent <;> rfl

theorem Settled.overriddenTag (hp : p.Settled ctx)
    (overrides : List OverrideEdge) (child : DeclId) :
    p.overriddenTag ctx (parentIndex overrides) child =
      (agreedTag? ((ctx.tagsOf (parentsOf overrides child)).map Prod.snd),
        p) := by
  rw [Pass.overriddenTag, getD_parentIndex, hp.foldl_consult]
  simp only [Agreement.tag?_foldl_add]

theorem Settled.callerTag (hp : p.Settled ctx) (overrides : List OverrideEdge)
    (caller : DeclId) :
    p.callerTag ctx
        (if ctx.settings.inheritFromOverridden then parentIndex overrides
          else ∅) caller =
      (ctx.callingTag? overrides caller, p) := by
  simp only [Pass.callerTag, Context.callingTag?, hp.resolve]
  cases htag : ctx.effectiveTag? caller with
  | some tag => rfl
  | none =>
      by_cases hinherit : ctx.settings.inheritFromOverridden = true
      · simp only [hinherit, ↓reduceIte, hp.overriddenTag]
      · simp only [hinherit, Bool.false_eq_true, ↓reduceIte, Pass.overriddenTag,
          Std.ExtTreeMap.getD_empty]
        rfl

theorem Settled.performs_checkCall (hp : p.Settled ctx)
    (overrides : List OverrideEdge) (e : CallEdge) :
    p.Performs (ctx.callActs overrides e)
      (p.checkCall ctx
        (if ctx.settings.inheritFromOverridden then parentIndex overrides
          else ∅) e) := by
  rw [checkCall, Context.callActs, Context.callFinding?]
  cases hcaller : ctx.model.find? e.caller with
  | none => exact .refl p
  | some caller =>
      cases hskip : ctx.skipReason? caller with
      | some reason =>
        simpa [Context.acting, hskip]
          using p.performs_skipEdge _ _ caller reason
      | none =>
          have hcounted := p.performs_count .calls
          have hsettled := hcounted.settled hp
          simp only [Stats.bump] at hcounted hsettled
          simp only [Context.acting, hskip, Option.isSome_none,
            Bool.false_eq_true, ↓reduceIte, hsettled.callerTag,
            hsettled.resolve]
          split
          · exact hcounted
          · exact hcounted.trans (performs_report _ caller.id _)

theorem Settled.performs_checkFieldAccess (hp : p.Settled ctx)
    (e : FieldAccess) :
    p.Performs (ctx.accessActs e) (p.checkFieldAccess ctx e) := by
  rw [checkFieldAccess.eq_def, Context.accessActs.eq_def,
    Context.accessFinding?.eq_def]
  cases haccessor : ctx.model.find? e.accessor with
  | none => exact .refl p
  | some accessor =>
      cases hfield : ctx.model.find? e.field with
      | none => exact .refl p
      | some field =>
          by_cases hconstruction : accessor.kind.isConstruction = true
          · simp only [hconstruction, ↓reduceIte]
            exact p.performs_count .skipped
          · cases hskip : ctx.skipReason? accessor with
            | some reason =>
                simpa [Context.acting, hskip, hconstruction] using
                  p.performs_skipEdge _ _ accessor reason
            | none =>
                have hcounted := p.performs_count .fieldAccesses
                have hsettled := hcounted.settled hp
                simp only [Stats.bump] at hcounted hsettled
                simp only [Context.acting, hskip, hconstruction,
                  Option.isSome_none, Bool.or_self, Bool.false_eq_true,
                  ↓reduceIte, hsettled.resolve]
                refine (hcounted.trans ?_).trans
                  (performs_requireAtAccess _ accessor e.lockHeld _)
                split
                · exact .refl _
                · exact performs_report _ accessor.id _

theorem Settled.performs_checkGuard (hp : p.Settled ctx) (d : Declaration) :
    p.Performs (ctx.guardActs p.isEvaluated d) (p.checkGuard ctx d) := by
  rw [checkGuard, Context.guardActs, Context.skipReason?, hp.resolve]
  by_cases hleft : (d.kind ≠ .method || p.isEvaluated d.id
      || (ctx.model.skipReason? ctx.settings d).isSome) = true
  · rw [if_pos hleft, if_pos hleft]
    exact .refl p
  · rw [if_neg hleft, if_neg hleft]
    exact performs_require p d _

/-- The check of locks goes by the marks that it finds; it sets none itself. -/
theorem Settled.performs_checkGuards (hp : p.Settled ctx)
    (ds : List Declaration) :
    p.Performs (ds.flatMap (ctx.guardActs p.isEvaluated))
      (ds.foldl (checkGuard ctx) p) := by
  induction ds generalizing p with
  | nil => exact .refl p
  | cons d rest ih =>
      have hhead := hp.performs_checkGuard d
      have hmarks : (p.checkGuard ctx d).isEvaluated = p.isEvaluated := by
        funext id
        have hmarked := congrArg (fun l => l.marked id) hhead.ledger
        simpa [Ledger.marked_foldl_perform, ctx.mark_notMem_guardActs,
          ledger] using hmarked
      have hrest := ih (hhead.settled hp)
      rw [hmarks] at hrest
      rw [List.flatMap_cons, List.foldl_cons]
      exact hhead.trans hrest

/-- The checks of a run, from a settled pass that has marked nothing yet,
perform its acts. -/
theorem Settled.performs_acts {c : Checker} {u : SourceUnit}
    (hp : p.Settled (c.context u))
    (hunmarked : ∀ id, p.isEvaluated id = false) :
    p.Performs (c.acts u)
      ((if c.settings.checkFieldAccess then
          ((p.checkOverrides (c.context u) u.overrides).checkCalls
            (c.context u) u).checkFieldAccesses (c.context u) u.fieldAccesses
        else
          (p.checkOverrides (c.context u) u.overrides).checkCalls
            (c.context u) u).checkGuards (c.context u)) := by
  have hoverrides := hp.performs_checkOverrides u.overrides
  have hcalls := hoverrides.trans ((hoverrides.settled hp).performs_foldl
    (fun _ e hq => hq.performs_checkCall u.overrides e) u.calls)
  have hedges : p.Performs (c.edgeActs u)
      (if c.settings.checkFieldAccess then
        ((p.checkOverrides (c.context u) u.overrides).checkCalls
          (c.context u) u).checkFieldAccesses (c.context u) u.fieldAccesses
      else
        (p.checkOverrides (c.context u) u.overrides).checkCalls
          (c.context u) u) := by
    rw [Checker.edgeActs]
    by_cases hon : c.settings.checkFieldAccess = true
    · rw [if_pos hon, if_pos hon]
      exact hcalls.trans ((hcalls.settled hp).performs_foldl
        (fun _ e hq => hq.performs_checkFieldAccess e) u.fieldAccesses)
    · rw [if_neg hon, if_neg hon, List.append_nil]
      exact hcalls
  have hguards := (hedges.settled hp).performs_checkGuards u.model.declarations
  have hmarks : ∀ id, _ = decide (Act.mark id ∈ c.edgeActs u) := fun id => by
    have hmarked := congrArg (fun l => l.marked id) hedges.ledger
    simpa [Ledger.marked_foldl_perform, ledger, hunmarked] using hmarked
  rw [funext hmarks] at hguards
  exact hedges.trans hguards

end Settled

end Pass

end ThreadConfinement
