import ThreadConfinement.Proofs.Acts

/-!
The first round of a run, in which every declaration is resolved.

It records the tags that hold, in the order of the host, and reports each
declaration whose markers disagree once, whichever declaration asks first.  With
the acts of the rounds that follow this gives the whole outcome of a run:
`Checker.registry_run`, `Checker.findings_run` and `Checker.stats_run`.
-/

namespace ThreadConfinement

/-- The tags that hold for declarations, those without one left out. -/
def Context.heldTags (ctx : Context) (ds : List Declaration) :
    List LocatedTag :=
  ds.filterMap (fun d => ctx.effectiveTag? d.id)

/-- The finding on a declaration, if its markers disagree. -/
def Library.conflict? (l : Library) (d : Declaration) : Option Finding :=
  match l.ownTag d with
  | .conflicted tags => some (d.conflictFinding tags)
  | .absent | .tagged _ => none

namespace Model.Accepted

variable {m : Model}

theorem nodup_declarations (haccepted : m.Accepted) : m.declarations.Nodup := by
  obtain ⟨ds, hbuild⟩ := haccepted
  obtain ⟨hfault, rfl⟩ := build_eq_ok_iff.mp hbuild
  exact List.Pairwise.of_map Declaration.id
    (fun _ _ hne heq => hne (congrArg _ heq)) (nodup_of_fault?_eq_none hfault)

theorem eq_of_id_eq (haccepted : m.Accepted) {d e : Declaration}
    (hd : d ∈ m.declarations) (he : e ∈ m.declarations)
    (hid : d.id = e.id) : d = e := by
  have hfind := haccepted.find?_id hd
  rw [hid, haccepted.find?_id he] at hfind
  exact (Option.some.inj hfind).symm

end Model.Accepted

namespace Pass

/-! ### What resolving leaves alone -/

/-- From `p` to `q` nothing was recorded, and no act was performed. -/
structure Keeps (p q : Pass) : Prop where
  registry : q.registry = p.registry
  ledger : q.ledger = p.ledger

namespace Keeps

variable {p q r : Pass}

theorem refl (p : Pass) : p.Keeps p :=
  ⟨rfl, rfl⟩

theorem trans (hfirst : p.Keeps q) (hsecond : q.Keeps r) : p.Keeps r :=
  ⟨hsecond.registry.trans hfirst.registry, hsecond.ledger.trans hfirst.ledger⟩

end Keeps

theorem keeps_ownTag (ctx : Context) (p : Pass) (d : Declaration) :
    p.Keeps (p.ownTag ctx d).2 := by
  unfold ownTag
  split
  · exact .refl p
  · dsimp only
    split
    · exact ⟨rfl, ledger_note p _⟩
    · exact ⟨rfl, rfl⟩
    · exact ⟨rfl, rfl⟩

theorem keeps_firstTagged (ctx : Context) (p : Pass) (ds : List Declaration) :
    p.Keeps (p.firstTagged ctx ds).2 := by
  induction ds generalizing p with
  | nil => exact .refl p
  | cons d ds ih =>
      have hhead := keeps_ownTag ctx p d
      rw [firstTagged]
      cases hasked : p.ownTag ctx d with
      | mk own q =>
          rw [hasked] at hhead
          cases own with
          | tagged tag => exact hhead
          | absent => exact hhead.trans (ih q)
          | conflicted tags => exact hhead.trans (ih q)

theorem keeps_resolveFresh (ctx : Context) (p : Pass) (d : Declaration) :
    p.Keeps (p.resolveFresh ctx d).2 := by
  have hown := keeps_ownTag ctx p d
  rw [resolveFresh]
  cases hasked : p.ownTag ctx d with
  | mk own q =>
      rw [hasked] at hown
      cases own with
      | tagged tag => exact hown
      | conflicted tags => exact hown
      | absent =>
          simp only [inheritedTag]
          split
          · exact hown
          · exact hown.trans (keeps_firstTagged ctx q _)

theorem registry_record (p : Pass) (tag : LocatedTag) :
    (p.record tag).registry = p.registry.record tag := by
  unfold record
  dsimp only
  split <;> rfl

theorem ledger_record (p : Pass) (tag : LocatedTag) :
    (p.record tag).ledger = p.ledger := by
  unfold record
  dsimp only
  split
  · rfl
  · exact ledger_note _ _

/-- A declaration that is asked for the first time has its tag recorded, if it
has one. -/
theorem keeps_resolve_of_fresh {ctx : Context} {p : Pass} {id : DeclId}
    {d : Declaration} (hfresh : p.effective[id]? = none)
    (hfind : ctx.model.find? id = some d) :
    (p.resolve ctx id).2.registry =
      p.registry.recordAll (p.resolve ctx id).1.toList ∧
      (p.resolve ctx id).2.ledger = p.ledger := by
  have hkeeps := keeps_resolveFresh ctx p d
  simp only [resolve, hfresh, hfind]
  cases hresult : (p.resolveFresh ctx d).1 with
  | none => exact ⟨hkeeps.registry, hkeeps.ledger⟩
  | some tag =>
      constructor
      · exact (registry_record _ tag).trans (by rw [hkeeps.registry]; rfl)
      · exact (ledger_record _ tag).trans hkeeps.ledger

/-! ### Markers that disagree -/

/-- The findings that wait are those of the declarations asked about themselves,
each once, and a declaration that has its answer was asked. -/
structure Waits (ctx : Context) (p : Pass) : Prop where
  conflicts : p.conflicts.Perm
    ((ctx.model.declarations.filter (fun d => d.id ∈ p.own)).filterMap
      ctx.library.conflict?)
  asked : ∀ id ∈ p.effective, id ∈ p.own

theorem waits_start (ctx : Context) (registry : Registry) :
    (start registry).Waits ctx where
  conflicts := by simp [start]
  asked id hid := by simp [start] at hid

section Waiting

variable {ctx : Context} {p : Pass}

/-- A declaration that is asked about itself for the first time is kept, and its
finding waits. -/
theorem ownTag_of_fresh (ctx : Context) {d : Declaration}
    (hfresh : p.own[d.id]? = none) :
    (p.ownTag ctx d).2.own = p.own.insert d.id (ctx.library.ownTag d) ∧
      (p.ownTag ctx d).2.conflicts =
        p.conflicts ++ (ctx.library.conflict? d).toList := by
  simp only [ownTag, hfresh, Library.conflict?]
  cases ctx.library.ownTag d with
  | conflicted tags => exact ⟨rfl, rfl⟩
  | absent => exact ⟨rfl, (List.append_nil _).symm⟩
  | tagged tag => exact ⟨rfl, (List.append_nil _).symm⟩

theorem mem_own_ownTag (ctx : Context) (p : Pass) (d : Declaration)
    {id : DeclId} :
    id ∈ (p.ownTag ctx d).2.own ↔ id = d.id ∨ id ∈ p.own := by
  cases hcached : p.own[d.id]? with
  | some own =>
      have hmem : d.id ∈ p.own := by
        rw [Std.ExtTreeMap.mem_iff_isSome_getElem?, hcached]
        rfl
      simp only [ownTag, hcached, iff_or_self]
      rintro rfl
      exact hmem
  | none =>
      rw [(ownTag_of_fresh ctx hcached).1, Std.ExtTreeMap.mem_insert,
        Std.LawfulEqCmp.compare_eq_iff_eq, eq_comm]

/-- A declaration that is asked for the first time joins those that were
asked. -/
theorem perm_filter_insert (haccepted : ctx.model.Accepted) {d : Declaration}
    (hd : d ∈ ctx.model.declarations) {asked : IdMap OwnTag}
    (hfresh : d.id ∉ asked) (own : OwnTag) :
    (ctx.model.declarations.filter (fun e => e.id ∈ asked.insert d.id own)).Perm
      (d :: ctx.model.declarations.filter (fun e => e.id ∈ asked)) := by
  have hnodup := haccepted.nodup_declarations
  rw [List.perm_ext_iff_of_nodup (hnodup.filter _)
    (List.nodup_cons.mpr ⟨by simp [hfresh], hnodup.filter _⟩)]
  intro e
  simp only [List.mem_filter, List.mem_cons, decide_eq_true_eq,
    Std.ExtTreeMap.mem_insert, Std.LawfulEqCmp.compare_eq_iff_eq]
  constructor
  · rintro ⟨he, hid | hasked⟩
    · exact Or.inl (haccepted.eq_of_id_eq he hd hid.symm)
    · exact Or.inr ⟨he, hasked⟩
  · rintro (rfl | ⟨he, hasked⟩)
    · exact ⟨hd, Or.inl rfl⟩
    · exact ⟨he, Or.inr hasked⟩

theorem Waits.ownTag (haccepted : ctx.model.Accepted) (hp : p.Waits ctx)
    {d : Declaration} (hd : d ∈ ctx.model.declarations) :
    (p.ownTag ctx d).2.Waits ctx := by
  constructor
  · cases hcached : p.own[d.id]? with
    | some own => simpa only [Pass.ownTag, hcached] using hp.conflicts
    | none =>
        have hfresh : d.id ∉ p.own := by
          rw [Std.ExtTreeMap.mem_iff_isSome_getElem?, hcached]
          simp
        obtain ⟨hown, hconflicts⟩ := ownTag_of_fresh ctx hcached
        rw [hown, hconflicts]
        have hjoined :=
          (perm_filter_insert haccepted hd hfresh
            (ctx.library.ownTag d)).filterMap
          ctx.library.conflict?
        refine List.Perm.trans ?_ hjoined.symm
        rw [List.filterMap_cons]
        cases ctx.library.conflict? d with
        | none => simpa using hp.conflicts
        | some f => exact List.perm_append_comm.trans (hp.conflicts.cons f)
  · intro id hid
    rw [effective_ownTag] at hid
    exact (mem_own_ownTag ctx p d).mpr (Or.inr (hp.asked id hid))

theorem Waits.firstTagged (haccepted : ctx.model.Accepted) (hp : p.Waits ctx)
    {ds : List Declaration} (hds : ∀ d ∈ ds, d ∈ ctx.model.declarations) :
    (p.firstTagged ctx ds).2.Waits ctx ∧
      ∀ id ∈ p.own, id ∈ (p.firstTagged ctx ds).2.own := by
  induction ds generalizing p with
  | nil => exact ⟨hp, fun _ hid => hid⟩
  | cons d ds ih =>
      have hhead := hp.ownTag haccepted (hds d List.mem_cons_self)
      have hmono : ∀ id ∈ p.own, id ∈ (p.ownTag ctx d).2.own := fun id hid =>
        (mem_own_ownTag ctx p d).mpr (Or.inr hid)
      obtain ⟨hrest, hrestMono⟩ :=
        ih hhead (fun e he => hds e (List.mem_cons_of_mem d he))
      rw [Pass.firstTagged]
      cases hasked : p.ownTag ctx d with
      | mk own q =>
          rw [hasked] at hhead hmono hrest hrestMono
          cases own with
          | tagged tag => exact ⟨hhead, hmono⟩
          | absent => exact ⟨hrest, fun id hid => hrestMono id (hmono id hid)⟩
          | conflicted tags =>
            exact ⟨hrest, fun id hid => hrestMono id (hmono id hid)⟩

/-- Resolving a declaration afresh asks it about itself. -/
theorem Waits.resolveFresh (haccepted : ctx.model.Accepted) (hp : p.Waits ctx)
    {d : Declaration} (hd : d ∈ ctx.model.declarations) :
    (p.resolveFresh ctx d).2.Waits ctx ∧
      d.id ∈ (p.resolveFresh ctx d).2.own := by
  have hown := hp.ownTag haccepted hd
  have hself := (mem_own_ownTag ctx p d).mpr (Or.inl rfl)
  rw [Pass.resolveFresh]
  cases hasked : p.ownTag ctx d with
  | mk own q =>
      rw [hasked] at hown hself
      cases own with
      | tagged tag => exact ⟨hown, hself⟩
      | conflicted tags => exact ⟨hown, hself⟩
      | absent =>
          simp only [inheritedTag]
          split
          · exact ⟨hown, hself⟩
          · obtain ⟨hrest, hmono⟩ := hown.firstTagged haccepted
              (fun e he => haccepted.mem_of_mem_tagSources hd he)
            exact ⟨hrest, hmono d.id hself⟩

@[simp] theorem conflicts_record (tag : LocatedTag) :
    (p.record tag).conflicts = p.conflicts := by
  unfold record
  dsimp only
  split <;> rfl

theorem Waits.resolve (haccepted : ctx.model.Accepted) (hp : p.Waits ctx)
    (id : DeclId) :
    (p.resolve ctx id).2.Waits ctx := by
  cases hcached : p.effective[id]? with
  | some tag => simpa only [Pass.resolve, hcached] using hp
  | none =>
      cases hfind : ctx.model.find? id with
      | none => simpa only [Pass.resolve, hcached, hfind] using hp
      | some d =>
          obtain ⟨hd, rfl⟩ := haccepted.find?_eq_some_iff.mp hfind
          obtain ⟨hfresh, hself⟩ := hp.resolveFresh haccepted hd
          obtain ⟨-, hown, heffective⟩ := resolve_of_fresh hcached hfind
          have hconflicts : (p.resolve ctx d.id).2.conflicts =
              (p.resolveFresh ctx d).2.conflicts := by
            simp only [Pass.resolve, hcached, hfind]
            split
            · exact conflicts_record _
            · rfl
          constructor
          · rw [hown, hconflicts]
            exact hfresh.conflicts
          · intro key hkey
            rw [heffective, Std.ExtTreeMap.mem_insert,
              Std.LawfulEqCmp.compare_eq_iff_eq] at hkey
            rw [hown]
            rcases hkey with rfl | hkey
            · exact hself
            · exact hfresh.asked key (by rwa [effective_resolveFresh])

end Waiting

/-! ### The whole round -/

section Round

variable {ctx : Context} {p : Pass}

theorem Waits.foldl_resolveDeclaration (haccepted : ctx.model.Accepted)
    (hp : p.Waits ctx) (ds : List Declaration) :
    (ds.foldl (resolveDeclaration ctx) p).Waits ctx := by
  induction ds generalizing p with
  | nil => exact hp
  | cons d ds ih =>
      have hhead := hp.resolve haccepted d.id
      exact ih ⟨hhead.conflicts, hhead.asked⟩

/-- A declaration that was not asked before is counted, and its tag is
recorded. -/
theorem Remembers.records_resolveDeclaration (haccepted : ctx.model.Accepted)
    (hp : p.Remembers ctx) {d : Declaration} (hd : d ∈ ctx.model.declarations)
    (hfresh : d.id ∉ p.effective) :
    (p.resolveDeclaration ctx d).registry =
      p.registry.recordAll (ctx.heldTags [d]) ∧
      (p.resolveDeclaration ctx d).ledger =
        { p.ledger with
          stats :=
            { p.stats with
              declarations := p.stats.declarations + 1
              taggedDeclarations := p.stats.taggedDeclarations + (ctx.heldTags
                  [d]).length } } := by
  have hfind := haccepted.find?_id hd
  have hnone : p.effective[d.id]? = none := by simpa using hfresh
  have hanswer := (hp.resolve haccepted d.id).1
  obtain ⟨hregistry, hledger⟩ := keeps_resolve_of_fresh hnone hfind
  have hstats : (p.resolve ctx d.id).2.stats = p.stats :=
    congrArg Ledger.stats hledger
  have hheld : (p.resolve ctx d.id).1.toList = ctx.heldTags [d] := by
    rw [hanswer, Context.heldTags, List.filterMap_cons]
    cases ctx.effectiveTag? d.id <;> rfl
  have hcount : (if (p.resolve ctx d.id).1.isSome then 1 else 0) =
      (ctx.heldTags [d]).length := by
    rw [← hheld]
    cases (p.resolve ctx d.id).1 <;> rfl
  constructor
  · rw [← hheld]
    exact hregistry
  · rw [← hcount, ← hledger, ← hstats]
    rfl

/-- Distinct declarations that were not asked before are counted, and their tags
are recorded in turn. -/
theorem Remembers.records_foldl (haccepted : ctx.model.Accepted)
    (hp : p.Remembers ctx) {ds : List Declaration}
    (hds : ∀ d ∈ ds, d ∈ ctx.model.declarations) (hnodup : ds.Nodup)
    (hfresh : ∀ d ∈ ds, d.id ∉ p.effective) :
    (ds.foldl (Pass.resolveDeclaration ctx) p).registry =
      p.registry.recordAll (ctx.heldTags ds) ∧
      (ds.foldl (Pass.resolveDeclaration ctx) p).ledger =
        { p.ledger with
          stats :=
            { p.stats with
              declarations := p.stats.declarations + ds.length
              taggedDeclarations :=
                p.stats.taggedDeclarations + (ctx.heldTags ds).length } } := by
  induction ds generalizing p with
  | nil => exact ⟨rfl, rfl⟩
  | cons d ds ih =>
      obtain ⟨hnotMem, hnodup⟩ := List.nodup_cons.mp hnodup
      have hd := hds d List.mem_cons_self
      have hfind := haccepted.find?_id hd
      have hnew := hfresh d List.mem_cons_self
      obtain ⟨hregistry, hledger⟩ :=
        hp.records_resolveDeclaration haccepted hd hnew
      have heffective : (p.resolveDeclaration ctx d).effective =
          p.effective.insert d.id (p.resolveFresh ctx d).1 :=
        (resolve_of_fresh (by simpa using hnew) hfind).2.2
      have hrestFresh : ∀ e ∈ ds,
          e.id ∉ (p.resolveDeclaration ctx d).effective := by
        intro e he hmem
        rw [heffective, Std.ExtTreeMap.mem_insert,
          Std.LawfulEqCmp.compare_eq_iff_eq] at hmem
        rcases hmem with hid | hmem
        · have heq :=
            haccepted.eq_of_id_eq hd (hds e (List.mem_cons_of_mem d he)) hid
          exact hnotMem (heq ▸ he)
        · exact hfresh e (List.mem_cons_of_mem d he) hmem
      obtain ⟨hrestRegistry, hrestLedger⟩ :=
        ih (hp.resolveDeclaration haccepted d)
          (fun e he => hds e (List.mem_cons_of_mem d he)) hnodup hrestFresh
      have hstats : (p.resolveDeclaration ctx d).stats = _ :=
        congrArg Ledger.stats hledger
      have hheld :
          ctx.heldTags (d :: ds) = ctx.heldTags [d] ++ ctx.heldTags ds :=
        List.filterMap_append (l := [d])
      simp only [List.foldl_cons]
      constructor
      · rw [hrestRegistry, hregistry, hheld]
        exact (List.foldl_append).symm
      · rw [hrestLedger, hledger, hstats, hheld]
        simp only [List.length_append, List.length_cons, Nat.add_assoc,
          Nat.add_comm 1]

theorem ledger_start (registry : Registry) :
    (start registry).ledger = ⟨fun _ => false, fun _ _ => false,
      {}, [], 0⟩ := by
  ext id other
  · simp [ledger, isEvaluated, start]
  · simp [ledger, isDemanded, start]
  · rfl
  · simp [ledger, start, Journal.findings, Journal.empty]
  · rfl

theorem ledger_reportAll (p : Pass) (fs : List Finding) :
    (p.reportAll fs).ledger =
      { p.ledger with
        findings := p.ledger.findings ++ fs
        count := p.ledger.count + fs.length } := by
  induction fs generalizing p with
  | nil => simp [reportAll]
  | cons f fs ih =>
      have hrest := ih (p.report f)
      rw [ledger_report, Ledger.report] at hrest
      simp only [List.append_assoc, List.singleton_append, Nat.add_assoc,
        Nat.add_comm 1] at hrest
      exact hrest

@[simp] theorem registry_reportAll (fs : List Finding) :
    (p.reportAll fs).registry = p.registry := by
  induction fs generalizing p with
  | nil => rfl
  | cons f fs ih => exact ih (p := p.report f)

/-- The first round from a fresh pass: the tags that hold are recorded in the
order of the host, nothing is marked or demanded, and what is reported is each
disagreement of markers once. -/
theorem resolveAll_start (ctx : Context) (haccepted : ctx.model.Accepted)
    (registry : Registry) :
    ((start registry).resolveAll ctx).registry =
        registry.recordAll (ctx.heldTags ctx.model.declarations) ∧
      ∃ conflicts : List Finding,
        conflicts.Perm
          (ctx.model.declarations.filterMap ctx.library.conflict?) ∧
        ((start registry).resolveAll ctx).ledger =
          { marked := fun _ => false
            demanded := fun _ _ => false
            stats :=
              { declarations := ctx.model.size
                taggedDeclarations := (ctx.heldTags
                  ctx.model.declarations).length }
            findings := conflicts
            count := conflicts.length } := by
  have hremembers := remembers_start ctx registry
  have hmem : ∀ d ∈ ctx.model.declarations, d ∈ ctx.model.declarations :=
    fun _ hd => hd
  obtain ⟨hregistry, hledger⟩ := hremembers.records_foldl haccepted hmem
    haccepted.nodup_declarations (fun d _ => by simp [start])
  have hwaits := (waits_start ctx registry).foldl_resolveDeclaration haccepted
    ctx.model.declarations
  obtain ⟨-, -, hadded⟩ := hremembers.foldl_resolveDeclaration haccepted hmem
  have hasked :
      ctx.model.declarations.filter (fun d =>
        d.id ∈ (ctx.model.declarations.foldl (resolveDeclaration ctx)
          (start registry)).own) = ctx.model.declarations :=
    List.filter_eq_self.mpr
      (fun d hd => by simpa using hwaits.asked d.id (hadded d hd))
  have hconflicts := hwaits.conflicts
  rw [hasked] at hconflicts
  simp only [resolveAll, takeConflicts]
  refine ⟨by rw [registry_reportAll]; exact hregistry, _, hconflicts, ?_⟩
  rw [ledger_reportAll]
  have htaken (q : Pass) : ({ q with conflicts := [] } : Pass).ledger =
      q.ledger := rfl
  rw [htaken, hledger, ledger_start]
  simp [start, Model.size]

end Round

end Pass

namespace Checker

/-- The pass of a run after its first round. -/
def opening (c : Checker) (u : SourceUnit) (registry : Registry) : Pass :=
  (Pass.start registry).resolveAll (c.context u)

section Outcome

variable (c : Checker) {u : SourceUnit} (haccepted : u.model.Accepted)
  (registry : Registry)

include haccepted

/-- After its first round a run performs its acts, and closes the counters. -/
theorem run_performs :
    ∃ p, (c.opening u registry).Performs (c.acts u) p ∧
      (c.run u registry).registry = p.registry ∧
      (c.run u registry).journal.findings = p.journal.findings ∧
      (c.run u registry).stats = { p.stats with findings := p.findingCount } ∧
      (c.run u registry).own = p.own ∧ (c.run u registry).conflicts =
        p.conflicts := by
  have hsettled : (c.opening u registry).Settled (c.context u) :=
    Pass.settled_resolveAll haccepted (Pass.remembers_start _ registry)
  obtain ⟨-, conflicts, -, hledger⟩ :=
    Pass.resolveAll_start (c.context u) haccepted registry
  have hunmarked : ∀ id, (c.opening u registry).isEvaluated id =
      false := fun id =>
    congrArg (fun l => l.marked id) hledger
  exact ⟨_, hsettled.performs_acts hunmarked, rfl, Pass.findings_note _ _,
    rfl, rfl, rfl⟩

/-- A run records the tags that hold, in the order of the host. -/
theorem registry_run :
    (c.run u registry).registry =
      registry.recordAll ((c.context u).heldTags u.model.declarations) := by
  obtain ⟨p, hperforms, hregistry, -, -⟩ := c.run_performs haccepted registry
  rw [hregistry, hperforms.registry]
  exact (Pass.resolveAll_start (c.context u) haccepted registry).1

/-- A run reports what its first round reports, and then what its acts lead
to. -/
theorem findings_run :
    (c.run u registry).journal.findings =
      (c.opening u registry).journal.findings
        ++ (Act.heard (fun _ _ => false) (c.acts u)).map Prod.snd := by
  obtain ⟨p, hperforms, -, hfindings, -⟩ := c.run_performs haccepted registry
  obtain ⟨-, conflicts, -, hledger⟩ :=
    Pass.resolveAll_start (c.context u) haccepted registry
  have hp : p.journal.findings = _ := congrArg Ledger.findings hperforms.ledger
  have hdemanded : (c.opening u registry).ledger.demanded = fun _ _ => false :=
    congrArg Ledger.demanded hledger
  rw [hfindings, hp, Ledger.findings_foldl_perform, hdemanded]
  rfl

/-- A run counts declarations in its first round, then edges by its acts, and
findings last. -/
theorem stats_run :
    (c.run u registry).stats =
      { ((c.acts u).filterMap Act.counter?).foldl Stats.bump
          { declarations := u.model.size
            taggedDeclarations := ((c.context u).heldTags
              u.model.declarations).length } with
        findings := (c.run u registry).journal.findings.length } := by
  obtain ⟨p, hperforms, -, hfindings, hstats, -⟩ :=
    c.run_performs haccepted registry
  obtain ⟨-, conflicts, -, hledger⟩ :=
    Pass.resolveAll_start (c.context u) haccepted registry
  have hp : p.stats = _ := congrArg Ledger.stats hperforms.ledger
  have hopening : (c.opening u registry).ledger.stats = _ :=
    congrArg Ledger.stats hledger
  have hbalanced : (c.opening u registry).ledger.Balanced :=
    (congrArg Ledger.Balanced hledger).mpr rfl
  have hcount : p.findingCount = p.journal.findings.length := by
    have hend := hbalanced.foldl_perform (c.acts u)
    rwa [← hperforms.ledger] at hend
  rw [hfindings, hstats, hp, Ledger.stats_foldl_perform, hopening, hcount]
  rfl

/-- The first round reports each declaration whose markers disagree once. -/
theorem perm_findings_opening :
    (c.opening u registry).journal.findings.Perm
      (u.model.declarations.filterMap c.library.conflict?) := by
  obtain ⟨-, conflicts, hperm, hledger⟩ :=
    Pass.resolveAll_start (c.context u) haccepted registry
  have hfindings : (c.opening u registry).journal.findings = conflicts :=
    congrArg Ledger.findings hledger
  rw [hfindings]
  exact hperm

/-- The first round reports nothing but markers that disagree. -/
theorem rule_of_mem_findings_opening {f : Finding}
    (hf : f ∈ (c.opening u registry).journal.findings) :
    f.rule = .unresolvableTag := by
  obtain ⟨d, -, hconflict⟩ :=
    List.mem_filterMap.mp
      ((c.perm_findings_opening haccepted registry).mem_iff.mp hf)
  unfold Library.conflict? at hconflict
  split at hconflict
  · cases hconflict
    rfl
  · simp at hconflict
  · simp at hconflict

end Outcome

end Checker

end ThreadConfinement
