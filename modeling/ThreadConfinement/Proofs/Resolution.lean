import ThreadConfinement.Pass.Resolve
import ThreadConfinement.Proofs.Acceptance

/-!
The memory of a pass: every answer that it keeps is the one that a fresh look
would give.

`Pass.Remembers` is the invariant, and `Pass.Remembers.resolve` says that one
resolution keeps it and answers with `Context.effectiveTag?`.  Once every
declaration has been resolved the pass is settled: from then on resolving
changes nothing.
-/

namespace ThreadConfinement

/-- The tag that holds for a declaration, found without a memory. -/
def Context.effectiveTag? (ctx : Context) (id : DeclId) : Option LocatedTag :=
  ctx.model.effectiveTag? ctx.library id

namespace Model.Accepted

variable {m : Model}

theorem mem_of_enclosingType?_eq_some (haccepted : m.Accepted)
    {d outer : Declaration} (hd : d ∈ m.declarations)
    (houter : m.enclosingType? d.id = some outer) :
    outer ∈ m.declarations :=
  ((haccepted.nearest?_eq_some_iff .type hd).mp houter).mem_declarations

/-- A declaration that is no module stands in the nearest module around it. -/
theorem moduleOf?_eq_nearest? (haccepted : m.Accepted) {d : Declaration}
    (hd : d ∈ m.declarations) (hkind : d.kind ≠ .module) :
    m.moduleOf? d.id = m.nearest? d.id .module := by
  have hfalse : (d.kind == Kind.module) = false := by simp [hkind]
  rw [moduleOf?, nearest?, haccepted.find?_id hd, Option.bind_some,
    Option.bind_some, List.find?_cons, hfalse]

theorem mem_of_moduleOf?_eq_some (haccepted : m.Accepted)
    {d outer : Declaration} (hd : d ∈ m.declarations) (hkind : d.kind ≠ .module)
    (houter : m.moduleOf? d.id = some outer) :
    outer ∈ m.declarations := by
  rw [haccepted.moduleOf?_eq_nearest? hd hkind] at houter
  exact ((haccepted.nearest?_eq_some_iff .module hd).mp houter).mem_declarations

/-- Tags are taken from declarations of the model only. -/
theorem mem_of_mem_tagSources (haccepted : m.Accepted) {d source : Declaration}
    (hd : d ∈ m.declarations) (hsource : source ∈ m.tagSources d) :
    source ∈ m.declarations := by
  have hcode : d.kind ≠ .module →
      source ∈ (m.enclosingType? d.id).toList ++ (m.moduleOf? d.id).toList →
      source ∈ m.declarations := by
    intro hkind hsource
    rcases List.mem_append.mp hsource with htype | hmodule
    · exact haccepted.mem_of_enclosingType?_eq_some hd
        (Option.mem_toList.mp htype)
    · exact haccepted.mem_of_moduleOf?_eq_some hd hkind
        (Option.mem_toList.mp hmodule)
  cases hkind : d.kind <;> simp only [tagSources, hkind] at hsource
  case module => simp at hsource
  case type =>
    exact haccepted.mem_of_moduleOf?_eq_some hd (by simp [hkind])
      (Option.mem_toList.mp hsource)
  all_goals exact hcode (by simp [hkind]) hsource

end Model.Accepted

namespace Pass

/-- What the pass keeps about a declaration is what the declaration says and
what holds for it. -/
structure Remembers (ctx : Context) (p : Pass) : Prop where
  own : ∀ d ∈ ctx.model.declarations, ∀ own, p.own[d.id]? = some own →
    own = ctx.library.ownTag d
  effective : ∀ id tag, p.effective[id]? = some tag →
    (∃ d ∈ ctx.model.declarations, d.id = id) ∧ tag = ctx.effectiveTag? id

theorem remembers_start (ctx : Context) (registry : Registry) :
    (start registry).Remembers ctx where
  own d _ own hown := by simp [start] at hown
  effective id tag htag := by simp [start] at htag

/-- Only the two tables of answers count. -/
theorem Remembers.of_eq {ctx : Context} {p q : Pass} (hp : p.Remembers ctx)
    (hown : q.own = p.own) (heffective : q.effective = p.effective) :
    q.Remembers ctx where
  own := by
    rw [hown]
    exact hp.own
  effective := by
    rw [heffective]
    exact hp.effective

section Steps

variable {ctx : Context} {p : Pass}

@[simp] theorem effective_ownTag (ctx : Context) (p : Pass) (d : Declaration) :
    (p.ownTag ctx d).2.effective = p.effective := by
  unfold ownTag
  split
  · rfl
  · dsimp only
    split <;> rfl

theorem Remembers.ownTag (haccepted : ctx.model.Accepted) (hp : p.Remembers ctx)
    {d : Declaration} (hd : d ∈ ctx.model.declarations) :
    (p.ownTag ctx d).1 = ctx.library.ownTag d ∧
      (p.ownTag ctx d).2.Remembers ctx := by
  cases hown : p.own[d.id]? with
  | some own =>
      simp only [Pass.ownTag, hown]
      exact ⟨hp.own d hd own hown, hp⟩
  | none =>
      have hkept :
          ({ p with own := p.own.insert d.id (ctx.library.ownTag d) } :
            Pass).Remembers
          ctx := by
        refine ⟨?_, hp.effective⟩
        intro e he own hget
        rw [Std.ExtTreeMap.getElem?_insert] at hget
        by_cases hsame : compare d.id e.id = .eq
        · have hid : d.id = e.id := Std.LawfulEqOrd.eq_of_compare hsame
          have heq := haccepted.find?_id he
          rw [← hid, haccepted.find?_id hd] at heq
          cases heq
          simpa [hsame] using hget.symm
        · rw [if_neg hsame] at hget
          exact hp.own e he own hget
      simp only [Pass.ownTag, hown]
      split
      · exact ⟨rfl, hkept.of_eq rfl rfl⟩
      · exact ⟨rfl, hkept⟩
      · exact ⟨rfl, hkept⟩

@[simp] theorem effective_firstTagged (ctx : Context) (p : Pass)
    (ds : List Declaration) :
    (p.firstTagged ctx ds).2.effective = p.effective := by
  induction ds generalizing p with
  | nil => rfl
  | cons d ds ih =>
      have hhead := effective_ownTag ctx p d
      rw [firstTagged]
      split
      · rename_i hown
        rw [hown] at hhead
        exact hhead
      all_goals
        rename_i hown
        rw [hown] at hhead
        rw [ih]
        exact hhead

/-- Going through candidates, each one is asked about itself and no answer
spoils the memory. -/
theorem Remembers.firstTagged (haccepted : ctx.model.Accepted)
    (hp : p.Remembers ctx) {ds : List Declaration}
    (hds : ∀ d ∈ ds, d ∈ ctx.model.declarations) :
    (p.firstTagged ctx ds).1 =
      ds.findSome? (fun d => (ctx.library.ownTag d).tag?) ∧
      (p.firstTagged ctx ds).2.Remembers ctx := by
  induction ds generalizing p with
  | nil => exact ⟨rfl, hp⟩
  | cons d ds ih =>
      obtain ⟨hown, hkept⟩ := hp.ownTag haccepted (hds d List.mem_cons_self)
      have hrest := ih hkept (fun e he => hds e (List.mem_cons_of_mem d he))
      rw [Pass.firstTagged, List.findSome?_cons, ← hown]
      cases hasked : p.ownTag ctx d with
      | mk own q =>
          rw [hasked] at hkept hrest
          cases own with
          | tagged tag => exact ⟨rfl, hkept⟩
          | absent => exact hrest
          | conflicted tags => exact hrest

theorem Remembers.inheritedTag (haccepted : ctx.model.Accepted)
    (hp : p.Remembers ctx) {d : Declaration} (hd : d ∈ ctx.model.declarations) :
    (p.inheritedTag ctx d).1 =
        (if d.kind = .field ∧ d.threadSafe then some d.threadSafeTag
          else (ctx.model.tagSources d).findSome?
            (fun e => (ctx.library.ownTag e).tag?)) ∧
      (p.inheritedTag ctx d).2.Remembers ctx := by
  rw [Pass.inheritedTag]
  by_cases hsafe : d.kind = .field ∧ d.threadSafe
  · rw [if_pos hsafe, if_pos hsafe]
    exact ⟨rfl, hp⟩
  · rw [if_neg hsafe, if_neg hsafe]
    exact hp.firstTagged haccepted
      (fun e he => haccepted.mem_of_mem_tagSources hd he)

theorem Remembers.resolveFresh (haccepted : ctx.model.Accepted)
    (hp : p.Remembers ctx) {d : Declaration} (hd : d ∈ ctx.model.declarations) :
    (p.resolveFresh ctx d).1 = ctx.effectiveTag? d.id ∧
      (p.resolveFresh ctx d).2.Remembers ctx := by
  obtain ⟨hown, hkept⟩ := hp.ownTag haccepted hd
  have hinherited := hkept.inheritedTag haccepted hd
  rw [Context.effectiveTag?, Model.effectiveTag?, haccepted.find?_id hd,
    Option.bind_some, ← hown, Pass.resolveFresh]
  cases hasked : p.ownTag ctx d with
  | mk own q =>
      rw [hasked] at hkept hinherited
      cases own with
      | tagged tag => exact ⟨rfl, hkept⟩
      | conflicted tags => exact ⟨rfl, hkept⟩
      | absent => exact hinherited

@[simp] theorem own_record (tag : LocatedTag) : (p.record tag).own = p.own := by
  unfold record
  dsimp only
  split <;> rfl

@[simp] theorem effective_record (tag : LocatedTag) :
    (p.record tag).effective = p.effective := by
  unfold record
  dsimp only
  split <;> rfl

@[simp] theorem effective_resolveFresh (ctx : Context) (p : Pass)
    (d : Declaration) :
    (p.resolveFresh ctx d).2.effective = p.effective := by
  have hown := effective_ownTag ctx p d
  rw [resolveFresh]
  split
  · rename_i hasked
    rw [hasked] at hown
    exact hown
  · rename_i hasked
    rw [hasked] at hown
    exact hown
  · rename_i hasked
    rw [hasked] at hown
    rw [inheritedTag]
    split
    · exact hown
    · rw [effective_firstTagged]
      exact hown

/-- A declaration that is asked for the first time is looked up afresh, recorded
and kept. -/
theorem resolve_of_fresh {id : DeclId} {d : Declaration}
    (hfresh : p.effective[id]? = none) (hfind : ctx.model.find? id = some d) :
    (p.resolve ctx id).1 = (p.resolveFresh ctx d).1 ∧
      (p.resolve ctx id).2.own = (p.resolveFresh ctx d).2.own ∧
      (p.resolve ctx id).2.effective =
        p.effective.insert id (p.resolveFresh ctx d).1 := by
  have heffective := effective_resolveFresh ctx p d
  simp only [resolve, hfresh, hfind]
  cases hresult : (p.resolveFresh ctx d).1 with
  | none => exact ⟨trivial, rfl, by rw [heffective]⟩
  | some tag =>
    exact ⟨trivial, own_record tag, by rw [effective_record, heffective]⟩

/-- One resolution answers as without a memory, and keeps the memory right. -/
theorem Remembers.resolve (haccepted : ctx.model.Accepted)
    (hp : p.Remembers ctx) (id : DeclId) :
    (p.resolve ctx id).1 = ctx.effectiveTag? id ∧
      (p.resolve ctx id).2.Remembers ctx := by
  cases hcached : p.effective[id]? with
  | some tag =>
      simp only [Pass.resolve, hcached]
      exact ⟨(hp.effective id tag hcached).2, hp⟩
  | none =>
      cases hfind : ctx.model.find? id with
      | none =>
          simp only [Pass.resolve, hcached, hfind]
          refine ⟨?_, hp⟩
          simp [Context.effectiveTag?, Model.effectiveTag?, hfind]
      | some d =>
          obtain ⟨hd, rfl⟩ := haccepted.find?_eq_some_iff.mp hfind
          obtain ⟨hanswer, hkept⟩ := hp.resolveFresh haccepted hd
          obtain ⟨hfst, hown, heffective⟩ := resolve_of_fresh hcached hfind
          refine ⟨hfst.trans hanswer, ?_, ?_⟩
          · rw [hown]
            exact hkept.own
          · intro key tag hget
            rw [heffective, Std.ExtTreeMap.getElem?_insert] at hget
            by_cases hsame : compare d.id key = .eq
            · rw [if_pos hsame] at hget
              cases Std.LawfulEqOrd.eq_of_compare hsame
              exact ⟨⟨d, hd, rfl⟩, (Option.some.inj hget).symm.trans hanswer⟩
            · rw [if_neg hsame] at hget
              exact hp.effective key tag hget

/-- Answers are never forgotten. -/
theorem mem_effective_resolve {id key : DeclId} (hkey : key ∈ p.effective) :
    key ∈ (p.resolve ctx id).2.effective := by
  cases hcached : p.effective[id]? with
  | some tag => simpa only [resolve, hcached] using hkey
  | none =>
      cases hfind : ctx.model.find? id with
      | none => simpa only [resolve, hcached, hfind] using hkey
      | some d =>
          rw [(resolve_of_fresh hcached hfind).2.2, Std.ExtTreeMap.mem_insert]
          exact Or.inr hkey

/-- A declaration of the model has its answer kept. -/
theorem mem_effective_resolve_self {id : DeclId} {d : Declaration}
    (hfind : ctx.model.find? id = some d) :
    id ∈ (p.resolve ctx id).2.effective := by
  cases hcached : p.effective[id]? with
  | some tag =>
      simp only [resolve, hcached]
      rw [Std.ExtTreeMap.mem_iff_isSome_getElem?, hcached]
      rfl
  | none =>
      rw [(resolve_of_fresh hcached hfind).2.2]
      exact Std.ExtTreeMap.mem_insert_self

end Steps

/-- Every declaration of the model has its answer, and nothing else has one. -/
def Settled (ctx : Context) (p : Pass) : Prop :=
  ∀ id,
    p.effective[id]? = (ctx.model.find? id).map (fun _ => ctx.effectiveTag? id)

section Settling

variable {ctx : Context} {p : Pass}

/-- A settled pass answers from its memory and stays as it is. -/
theorem Settled.resolve (hp : p.Settled ctx) (id : DeclId) :
    p.resolve ctx id = (ctx.effectiveTag? id, p) := by
  have hcached := hp id
  cases hfind : ctx.model.find? id with
  | none =>
      rw [hfind, Option.map_none] at hcached
      simp only [Pass.resolve, hcached, hfind]
      simp [Context.effectiveTag?, Model.effectiveTag?, hfind]
  | some d =>
      rw [hfind, Option.map_some] at hcached
      simp only [Pass.resolve, hcached]

theorem Settled.of_eq {q : Pass} (hp : p.Settled ctx)
    (heffective : q.effective = p.effective) :
    q.Settled ctx := by
  intro id
  rw [heffective]
  exact hp id

theorem Remembers.settled (haccepted : ctx.model.Accepted)
    (hp : p.Remembers ctx)
    (hall : ∀ d ∈ ctx.model.declarations, d.id ∈ p.effective) :
    p.Settled ctx := by
  intro id
  cases hfind : ctx.model.find? id with
  | none =>
      rw [Option.map_none]
      cases hcached : p.effective[id]? with
      | none => rfl
      | some tag =>
          obtain ⟨⟨d, hd, heq⟩, -⟩ := hp.effective id tag hcached
          exact absurd heq (haccepted.find?_eq_none_iff.mp hfind d hd)
  | some d =>
      obtain ⟨hd, rfl⟩ := haccepted.find?_eq_some_iff.mp hfind
      have hkept := hall d hd
      rw [Std.ExtTreeMap.mem_iff_isSome_getElem?] at hkept
      obtain ⟨tag, hcached⟩ := Option.isSome_iff_exists.mp hkept
      rw [hcached, (hp.effective d.id tag hcached).2, Option.map_some]

theorem Remembers.resolveDeclaration (haccepted : ctx.model.Accepted)
    (hp : p.Remembers ctx) (d : Declaration) :
    (p.resolveDeclaration ctx d).Remembers ctx :=
  (hp.resolve haccepted d.id).2.of_eq rfl rfl

/-- Resolving declarations one after another keeps the memory right, loses no
answer and adds one for each of them. -/
theorem Remembers.foldl_resolveDeclaration (haccepted : ctx.model.Accepted)
    (hp : p.Remembers ctx) {ds : List Declaration}
    (hds : ∀ d ∈ ds, d ∈ ctx.model.declarations) :
    (ds.foldl (Pass.resolveDeclaration ctx) p).Remembers ctx ∧
      (∀ key ∈ p.effective,
        key ∈ (ds.foldl (Pass.resolveDeclaration ctx) p).effective) ∧
      ∀ d ∈ ds,
        d.id ∈ (ds.foldl (Pass.resolveDeclaration ctx) p).effective := by
  induction ds generalizing p with
  | nil => exact ⟨hp, fun key hkey => hkey, by simp⟩
  | cons d ds ih =>
      obtain ⟨hkept, hmono, hadded⟩ := ih (hp.resolveDeclaration haccepted d)
        (fun e he => hds e (List.mem_cons_of_mem d he))
      have hhead : d.id ∈ (p.resolveDeclaration ctx d).effective :=
        mem_effective_resolve_self
          (haccepted.find?_id (hds d List.mem_cons_self))
      refine ⟨hkept, ?_, ?_⟩
      · intro key hkey
        exact hmono key (mem_effective_resolve hkey)
      · intro e he
        rcases List.mem_cons.mp he with rfl | he
        · exact hmono e.id hhead
        · exact hadded e he

@[simp] theorem effective_reportAll (fs : List Finding) :
    (p.reportAll fs).effective = p.effective := by
  induction fs generalizing p with
  | nil => rfl
  | cons f fs ih => exact ih (p := p.report f)

/-- After the first round every declaration is settled. -/
theorem settled_resolveAll (haccepted : ctx.model.Accepted)
    (hp : p.Remembers ctx) :
    (p.resolveAll ctx).Settled ctx := by
  obtain ⟨hkept, -, hadded⟩ :=
    hp.foldl_resolveDeclaration haccepted (fun d hd => hd)
  apply (hkept.settled haccepted hadded).of_eq
  simp [resolveAll, takeConflicts]

end Settling

end Pass

end ThreadConfinement
