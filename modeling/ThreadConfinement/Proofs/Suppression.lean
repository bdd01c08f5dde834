import ThreadConfinement.Proofs.Actors
import ThreadConfinement.Proofs.FirstRound
import ThreadConfinement.Proofs.Resemblance
import Mathlib.Data.List.Nodup

/-!
Suppression filters what is reported, and does nothing else.

Further suppressions on declarations and further ignored modules take away the
findings at the declarations that they reach, and leave all others as they are
and where they are: `Checker.check_mute`.  The argument is about acts: a
declaration that is left alone does not act, and nobody else acts differently
for it.
-/

namespace ThreadConfinement

def UnitFacts.mute (more : DeclId → List String)
    (facts : UnitFacts) : UnitFacts :=
  { facts with declarations := facts.declarations.map (Declaration.mute more) }

theorem UnitFacts.varies_mute (more : DeclId → List String)
    (facts : UnitFacts) :
    facts.Varies more (facts.mute more) :=
  ⟨.refl _, .refl _, .refl _, .refl _⟩

def CheckSettings.mute (stems : List String) (s : CheckSettings) :
    CheckSettings :=
  { s with ignoredModules := s.ignoredModules ++ stems }

def Checker.mute (stems : List String) (c : Checker) : Checker :=
  { c with settings := c.settings.mute stems }

/-! ### The acts of some declarations among those of all -/

namespace Act

/-- Who acts; a count is nobody's. -/
def actor? : Act → Option DeclId
  | count _ => none
  | report actor _ | mark actor | demand actor _ _ _ => some actor

/-- The act is on behalf of one that `keep` holds of. -/
def isFor (keep : DeclId → Bool) (act : Act) : Bool :=
  act.actor?.any keep

theorem BelongsTo.actor?_eq {d : Declaration} {act : Act}
    (hact : act.BelongsTo d) :
    act.actor? = none ∨ act.actor? = some d.id := by
  cases act with
  | count counter => exact Or.inl rfl
  | report actor finding => exact Or.inr (congrArg some hact.1)
  | mark actor => exact Or.inr (congrArg some hact)
  | demand actor location place requiredBy =>
    exact Or.inr (congrArg some hact.1)

/-- Of the acts of one declaration all are kept or none is. -/
theorem filter_isFor_of_belongsTo {d : Declaration} {acts : List Act}
    (hacts : ∀ act ∈ acts, act.BelongsTo d) (keep : DeclId → Bool) :
    acts.filter (isFor keep) =
      if keep d.id then acts.filter (isFor fun _ => true) else [] := by
  by_cases hkeep : keep d.id = true
  · rw [if_pos hkeep]
    apply List.filter_congr
    intro act hact
    rcases (hacts act hact).actor?_eq with hnone | hsome
    · simp [isFor, hnone]
    · simp [isFor, hsome, hkeep]
  · rw [if_neg hkeep, List.filter_eq_nil_iff]
    intro act hact
    rcases (hacts act hact).actor?_eq with hnone | hsome
    · simp [isFor, hnone]
    · simp [isFor, hsome, hkeep]

/-- Whether a lock was demanded before is asked of one declaration at a time.
So from the acts of some declarations one hears what one hears of them among the
acts of all. -/
theorem heard_filter_isFor (keep : DeclId → Bool)
    (known known' : DeclId → Option String → Bool)
    (hknown : ∀ id place, keep id = true → known' id place = known id place)
    (acts : List Act) :
    heard known' (acts.filter (isFor keep)) =
      (heard known acts).filter (fun item => keep item.1) := by
  induction acts generalizing known known' with
  | nil => rfl
  | cons act rest ih =>
      cases act with
      | count counter => exact ih known known' hknown
      | report actor finding =>
          by_cases hkeep : keep actor = true
          · simp [isFor, actor?, hkeep, heard, ih known known' hknown]
          · simp [isFor, actor?, hkeep, heard, ih known known' hknown]
      | mark actor =>
          by_cases hkeep : keep actor = true
          · simp [isFor, actor?, hkeep, heard, ih known known' hknown]
          · simp [isFor, actor?, hkeep, heard, ih known known' hknown]
      | demand actor location place requiredBy =>
          by_cases hkeep : keep actor = true
          · by_cases hseen : known actor place = true
            · simp [isFor, actor?, hkeep, heard, hknown actor place hkeep,
                hseen, ih known known' hknown]
            · have hrest :=
                ih (fun id other =>
                  decide (actor = id ∧ place = other) || known id other)
                (fun id other =>
                  decide (actor = id ∧ place = other) || known' id other)
                (fun id other hid => by rw [hknown id other hid])
              simpa [isFor, actor?, hkeep, heard, hknown actor place hkeep,
                hseen] using hrest
          · have hdropped :
                (demand actor location place requiredBy :: rest).filter
                  (isFor keep) =
                  rest.filter (isFor keep) := by
              simp [isFor, actor?, hkeep]
            rw [hdropped, heard]
            split
            · exact ih known known' hknown
            · rw [List.filter_cons_of_neg (by simpa using hkeep)]
              refine ih _ known' ?_
              -- the demand is of one that is not kept, so it is news to nobody
              -- who is
              intro id other hid
              have hother : actor ≠ id := fun heq => hkeep (heq ▸ hid)
              simp [hother, hknown id other hid]

end Act

/-- What is left out of a list may as well contribute nothing. -/
theorem flatMap_filter_eq {α β : Type} {keep : α → Bool}
    {f g : α → List β} {l : List α}
    (hg : ∀ a ∈ l, g a = if keep a then f a else []) :
    (l.filter keep).flatMap f = l.flatMap g := by
  induction l with
  | nil => rfl
  | cons a rest ih =>
      have hrest := ih (fun b hb => hg b (List.mem_cons_of_mem a hb))
      rw [List.flatMap_cons, hg a List.mem_cons_self, ← hrest]
      by_cases hkeep : keep a = true
      · simp [hkeep]
      · simp [hkeep]

/-! ### Two contexts, the second with more to leave alone -/

/-- The second context has further suppressions and further ignored modules, and
is otherwise the first. -/
structure Context.Mutes (more : DeclId → List String) (stems : List String)
    (ctx ctx' : Context) : Prop extends ctx.Resembles more ctx' where
  declarations : ctx'.model.declarations =
    ctx.model.declarations.map (Declaration.mute more)
  members : ctx'.model.members = ctx.model.members
  hierarchy : ctx'.model.hierarchy = ctx.model.hierarchy
  settings : ctx'.settings = ctx.settings.mute stems

section FirstRound

variable {more : DeclId → List String} {ctx ctx' : Context}
  (hctx : ctx.Resembles more ctx')

include hctx

theorem Pass.ownTag_mute (p : Pass) (d : Declaration) :
    p.ownTag ctx' (d.mute more) = p.ownTag ctx d := by
  rw [Pass.ownTag, hctx.library]
  rfl

theorem Pass.firstTagged_mute (p : Pass) (ds : List Declaration) :
    p.firstTagged ctx' (ds.map (Declaration.mute more)) =
      p.firstTagged ctx ds := by
  induction ds generalizing p with
  | nil => rfl
  | cons d ds ih =>
      simp only [List.map_cons, Pass.firstTagged, Pass.ownTag_mute hctx, ih]

theorem Pass.resolveFresh_mute (p : Pass) (d : Declaration) :
    p.resolveFresh ctx' (d.mute more) = p.resolveFresh ctx d := by
  have hinherited (p : Pass) :
      p.inheritedTag ctx' (d.mute more) = p.inheritedTag ctx d := by
    simp only [Pass.inheritedTag, hctx.model.tagSources_mute,
      Pass.firstTagged_mute hctx]
    rfl
  simp only [Pass.resolveFresh, Pass.ownTag_mute hctx, hinherited]

theorem Pass.resolve_mute (p : Pass) (id : DeclId) :
    p.resolve ctx' id = p.resolve ctx id := by
  rw [Pass.resolve, hctx.model.find?, Pass.resolve]
  cases ctx.model.find? id with
  | none => rfl
  | some d => simp only [Option.map_some, Pass.resolveFresh_mute hctx]

end FirstRound

namespace Context.Mutes

variable {more : DeclId → List String} {stems : List String}
  {ctx ctx' : Context} (hctx : ctx.Mutes more stems ctx')

include hctx

/-- The first round does not know about suppression. -/
theorem resolveAll_eq (p : Pass) : p.resolveAll ctx' = p.resolveAll ctx := by
  have hstep :
      (fun (q : Pass) (d : Declaration) => q.resolveDeclaration ctx'
        (d.mute more)) =
        Pass.resolveDeclaration ctx := by
    funext q d
    rw [Pass.resolveDeclaration, Pass.resolve_mute hctx.toResembles]
    rfl
  rw [Pass.resolveAll, hctx.declarations, List.foldl_map, hstep]
  rfl

/-- What was left alone is left alone still. -/
theorem skipReason?_eq_none {d : Declaration}
    (hskip' : ctx'.skipReason? (d.mute more) = none) :
    ctx.skipReason? d = none := by
  rw [← Option.not_isSome_iff_eq_none, skipReason?,
    Model.isSome_skipReason?_iff] at hskip' ⊢
  refine fun hskip => hskip' ?_
  rw [hctx.model.enclosers_mute, hctx.settings]
  rcases hskip with ⟨e, he, hsuppressed⟩ | ⟨e, he, hignored⟩
  · refine Or.inl ⟨e.mute more, List.mem_map_of_mem he, ?_⟩
    obtain ⟨text, htext, hholds⟩ := List.any_eq_true.mp hsuppressed
    exact List.any_eq_true.mpr ⟨text, List.mem_append_left _ htext, hholds⟩
  · refine Or.inr ⟨e.mute more, ?_, ?_⟩
    · exact (hctx.model.moduleOf?_eq d.id).trans
        (Option.map_eq_some_iff.mpr ⟨e, he, rfl⟩)
    · obtain ⟨stem, hstem, hbegins⟩ := List.any_eq_true.mp hignored
      exact List.any_eq_true.mpr ⟨stem, List.mem_append_left _ hstem, hbegins⟩

theorem checks_eq {d : Declaration} (hfind : ctx.model.find? d.id = some d) :
    ctx'.checks d.id = (ctx'.skipReason? (d.mute more)).isNone := by
  rw [checks, hctx.model.find?, hfind]
  rfl

/-- A declaration acts in the second context as in the first, unless it is left
alone there. -/
theorem filter_acting {d : Declaration} (hfind : ctx.model.find? d.id = some d)
    {acts acts' : List Act} (hacts : ∀ act ∈ acts, act.BelongsTo d)
    (hsame : ctx'.skipReason? (d.mute more) = none → acts' = acts) :
    (ctx'.acting (d.mute more) acts').filter (Act.isFor fun _ => true) =
      (ctx.acting d acts).filter (Act.isFor ctx'.checks) := by
  rw [Act.filter_isFor_of_belongsTo (ctx.belongsTo_acting hacts),
    hctx.checks_eq hfind]
  cases hskip' : ctx'.skipReason? (d.mute more) with
  | some reason => simp [acting, hskip', Act.isFor, Act.actor?]
  | none =>
      simp [acting, hskip', hctx.skipReason?_eq_none hskip', hsame hskip']

theorem callingTag?_eq (overrides : List OverrideEdge) (caller : DeclId) :
    ctx'.callingTag? overrides caller = ctx.callingTag? overrides caller := by
  simp only [callingTag?, hctx.effectiveTag?_eq, hctx.tagsOf_eq, hctx.settings]
  rfl

theorem impliedChildren_mute (overrides : List OverrideEdge)
    (parent : Declaration) :
    ctx'.model.impliedChildren overrides (parent.mute more) =
      (ctx.model.impliedChildren overrides parent).map
        (Declaration.mute more) := by
  have hmembers : ctx'.model.membersOf = ctx.model.membersOf := by
    funext id
    rw [Model.membersOf, hctx.members, Model.membersOf]
  have hmember (id : DeclId) :
      (ctx'.model.find? id).filter (fun member =>
        member.kind == .method &&
          member.signature == (parent.mute more).signature &&
          (⟨member.id, (parent.mute more).id⟩ : OverrideEdge) ∉ overrides) =
      ((ctx.model.find? id).filter (fun member =>
        member.kind == .method && member.signature == parent.signature
          && (⟨member.id, parent.id⟩ : OverrideEdge) ∉ overrides)).map
          (Declaration.mute more) := by
    rw [hctx.model.find?, Option.filter_map]
    rfl
  rw [Model.impliedChildren, Model.enclosingType?, hctx.model.nearest?_eq,
    Model.impliedChildren, Model.enclosingType?]
  cases hnearest : ctx.model.nearest? parent.id .type with
  | none =>
      have hnone : ctx.model.nearest? (parent.mute more).id .type =
          none := hnearest
      simp [hnone]
  | some owner =>
      have hsome : ctx.model.nearest? (parent.mute more).id .type =
          some owner := hnearest
      simp only [hsome, Option.map_some, hctx.hierarchy, hmembers, hmember]
      rw [List.map_filterMap]
      rfl

section Accepted

variable (haccepted : ctx.model.Accepted)

include haccepted

theorem filter_edgeActs (patterns : List Glob) (e : OverrideEdge) :
    (ctx'.edgeActs patterns e).filter (Act.isFor fun _ => true) =
      (ctx.edgeActs patterns e).filter (Act.isFor ctx'.checks) := by
  rw [edgeActs, hctx.model.find?, edgeActs]
  cases hchild : ctx.model.find? e.child with
  | none => rfl
  | some child =>
      refine hctx.filter_acting
        (haccepted.find?_id (haccepted.find?_eq_some_iff.mp hchild).1)
        (ctx.belongsTo_overrideActs_count patterns false child e.parent
          .overrides) (fun _ => ?_)
      rw [hctx.overrideActs_mute]

theorem filter_impliedByActs (patterns : List Glob)
    (overrides : List OverrideEdge) (parent : Declaration) :
    (ctx'.impliedByActs patterns overrides (parent.mute more)).filter
      (Act.isFor fun _ => true) =
      (ctx.impliedByActs patterns overrides parent).filter
        (Act.isFor ctx'.checks) := by
  have hkind : (parent.mute more).kind = parent.kind := rfl
  have hsignature : (parent.mute more).signature = parent.signature := rfl
  have hid : (parent.mute more).id = parent.id := rfl
  rw [impliedByActs, impliedByActs, hkind, hsignature, hid,
    hctx.effectiveTag?_eq]
  split
  · rfl
  · split
    · rw [hctx.impliedChildren_mute, List.flatMap_map, List.filter_flatMap,
        List.filter_flatMap]
      apply List.flatMap_congr
      intro child hchild
      refine hctx.filter_acting
        (haccepted.find?_id (haccepted.mem_of_mem_impliedChildren hchild))
        (ctx.belongsTo_overrideActs_count patterns true child parent.id
          .implicitOverrides)
        (fun _ => ?_)
      rw [hctx.overrideActs_mute, hid]
    · rfl

omit haccepted in
theorem checks_of_checks {id : DeclId} (hchecks : ctx'.checks id = true) :
    ctx.checks id = true := by
  obtain ⟨d', hfind', hskip'⟩ := checks_eq_true_iff.mp hchecks
  rw [hctx.model.find?, Option.map_eq_some_iff] at hfind'
  obtain ⟨d, hfind, rfl⟩ := hfind'
  exact checks_eq_true_iff.mpr ⟨d, hfind, hctx.skipReason?_eq_none hskip'⟩

omit haccepted in
/-- The table of the second context has the children that are left in it, with
the same parents. -/
theorem parentsByChild_eq (overrides : List OverrideEdge) :
    ctx'.parentsByChild overrides =
      (ctx.parentsByChild overrides).filter (fun id _ => ctx'.checks id) := by
  apply Std.ExtTreeMap.ext_getElem?
  intro id
  rw [Std.ExtTreeMap.getElem?_filter', getElem?_parentsByChild,
    getElem?_parentsByChild]
  by_cases hchecks : ctx'.checks id = true
  · have hfirst := hctx.checks_of_checks hchecks
    by_cases hparents : parentsOf overrides id = []
    · simp [hparents]
    · simp [hchecks, hfirst, hparents, Option.filter_some]
  · simp [hchecks]

theorem filter_familyActs (patterns : List Glob)
    (overrides : List OverrideEdge) :
    ((ctx'.parentsByChild overrides).toList.flatMap
      (ctx'.familyActs patterns)).filter
        (Act.isFor fun _ => true) =
      ((ctx.parentsByChild overrides).toList.flatMap
        (ctx.familyActs patterns)).filter (Act.isFor ctx'.checks) := by
  rw [hctx.parentsByChild_eq, Std.ExtTreeMap.toList_filter, List.filter_flatMap,
    List.filter_flatMap]
  apply flatMap_filter_eq
  intro family hfamily
  obtain ⟨child, hchild, -, rfl⟩ :=
    exists_of_mem_parentsByChild ctx haccepted hfamily
  rw [hctx.familyActs_eq]
  exact Act.filter_isFor_of_belongsTo
    (belongsTo_familyActs patterns haccepted hchild _) _

/-- All acts for overrides are as before, for those who are left to act. -/
theorem filter_overridesActs (overrides : List OverrideEdge) :
    (ctx'.overridesActs overrides).filter (Act.isFor fun _ => true) =
      (ctx.overridesActs overrides).filter (Act.isFor ctx'.checks) := by
  have hpatterns :
      ctx'.settings.exemptPatterns = ctx.settings.exemptPatterns := by
    rw [hctx.settings]
    rfl
  have hpropagation :
      ctx'.settings.subclassPropagation = ctx.settings.subclassPropagation := by
    rw [hctx.settings]
    rfl
  simp only [overridesActs, hpatterns, hpropagation, hctx.declarations,
    List.flatMap_map, List.filter_append, hctx.filter_familyActs haccepted]
  congr 1
  congr 1
  · simp only [List.filter_flatMap, hctx.filter_edgeActs haccepted]
  · split
    · simp only [List.filter_flatMap, hctx.filter_impliedByActs haccepted]
    · rfl

theorem filter_callActs (overrides : List OverrideEdge) (e : CallEdge) :
    (ctx'.callActs overrides e).filter (Act.isFor fun _ => true) =
      (ctx.callActs overrides e).filter (Act.isFor ctx'.checks) := by
  rw [callActs, hctx.model.find?, callActs]
  cases hcaller : ctx.model.find? e.caller with
  | none => rfl
  | some caller =>
      refine hctx.filter_acting
        (haccepted.find?_id (haccepted.find?_eq_some_iff.mp hcaller).1)
        (ctx.belongsTo_callActs hcaller) (fun hskip' => ?_)
      have hfinding :
          ctx'.callFinding? overrides e = ctx.callFinding? overrides e := by
        simp only [callFinding?, hctx.model.find?, hcaller,
          Option.map_some, hskip', hctx.skipReason?_eq_none hskip',
          hctx.callingTag?_eq, hctx.effectiveTag?_eq, hctx.model.locationOf_eq]
        rfl
      rw [hfinding]
      rfl

theorem filter_accessActs (e : FieldAccess) :
    (ctx'.accessActs e).filter (Act.isFor fun _ => true) =
      (ctx.accessActs e).filter (Act.isFor ctx'.checks) := by
  rw [accessActs.eq_def, hctx.model.find?, hctx.model.find?, accessActs.eq_def]
  cases haccessor : ctx.model.find? e.accessor with
  | none => rfl
  | some accessor =>
      cases hfield : ctx.model.find? e.field with
      | none => rfl
      | some field =>
          have hkind : (accessor.mute more).kind = accessor.kind := rfl
          simp only [Option.map_some, hkind]
          split
          · rfl
          · refine hctx.filter_acting
              (haccepted.find?_id (haccepted.find?_eq_some_iff.mp haccessor).1)
              (ctx.belongsTo_accessActs haccessor hfield) (fun hskip' => ?_)
            have hfinding : ctx'.accessFinding? e = ctx.accessFinding? e := by
              simp only [accessFinding?, hctx.model.find?, haccessor, hfield,
                Option.map_some, hskip', hctx.skipReason?_eq_none hskip',
                hctx.effectiveTag?_eq]
              rfl
            rw [hfinding, hctx.effectiveTag?_eq]
            rfl

theorem filter_guardActs {marked marked' : DeclId → Bool} {d : Declaration}
    (hd : d ∈ ctx.model.declarations)
    (hmarked : ctx'.checks d.id = true → marked' d.id = marked d.id) :
    (ctx'.guardActs marked' (d.mute more)).filter (Act.isFor fun _ => true) =
      (ctx.guardActs marked d).filter (Act.isFor ctx'.checks) := by
  have hchecks := hctx.checks_eq (haccepted.find?_id hd)
  rw [Act.filter_isFor_of_belongsTo (ctx.belongsTo_guardActs marked d), hchecks]
  cases hskip' : ctx'.skipReason? (d.mute more) with
  | some reason => simp [guardActs, hskip']
  | none =>
      have hsame : marked' (d.mute more).id = marked d.id :=
        hmarked (by rw [hchecks, hskip']; rfl)
      rw [guardActs, guardActs, hskip', hctx.skipReason?_eq_none hskip', hsame,
        hctx.effectiveTag?_eq]
      rfl

end Accepted

end Context.Mutes

namespace Checker

section Acts

variable {c c' : Checker} {u u' : SourceUnit} {more : DeclId → List String}
  {stems : List String}
  (hctx : (c.context u).Mutes more stems (c'.context u'))
  (haccepted : u.model.Accepted) (hoverrides : u'.overrides = u.overrides)
  (hcalls : u'.calls = u.calls) (haccesses : u'.fieldAccesses = u.fieldAccesses)

include hctx haccepted hoverrides hcalls haccesses

theorem filter_edgeActs :
    (c'.edgeActs u').filter (Act.isFor fun _ => true) =
      (c.edgeActs u).filter (Act.isFor (c'.context u').checks) := by
  have hsettings : c'.settings = c.settings.mute stems := hctx.settings
  have hsetting :
      c'.settings.checkFieldAccess = c.settings.checkFieldAccess := by
    rw [hsettings]
    rfl
  simp only [edgeActs, hoverrides, hcalls, haccesses, hsetting,
    List.filter_append, List.filter_flatMap, apply_ite (List.filter _),
    hctx.filter_overridesActs haccepted, hctx.filter_callActs haccepted,
    hctx.filter_accessActs haccepted, List.filter_nil]

/-- With more to leave alone, those who are left act as before. -/
theorem filter_acts :
    (c'.acts u').filter (Act.isFor fun _ => true) =
      (c.acts u).filter (Act.isFor (c'.context u').checks) := by
  have hedges := filter_edgeActs hctx haccepted hoverrides hcalls haccesses
  have hmarked (id : DeclId) (hchecks : (c'.context u').checks id = true) :
      (Act.mark id ∈ c'.edgeActs u') = (Act.mark id ∈ c.edgeActs u) := by
    have hmem := congrArg (Act.mark id ∈ ·) hedges
    simpa [List.mem_filter, Act.isFor, Act.actor?, hchecks] using hmem
  have hdeclarations : u'.model.declarations =
      u.model.declarations.map (Declaration.mute more) :=
    hctx.declarations
  rw [acts, acts, List.filter_append, List.filter_append, hedges, hdeclarations,
    List.flatMap_map, List.filter_flatMap, List.filter_flatMap]
  congr 1
  apply List.flatMap_congr
  intro d hd
  refine hctx.filter_guardActs haccepted hd (fun hchecks => ?_)
  simp only [hmarked d.id hchecks]

/-- What is heard is what was heard, less what those did who are left alone
now. -/
theorem heard_acts :
    Act.heard (fun _ _ => false) (c'.acts u') =
      (Act.heard (fun _ _ => false) (c.acts u)).filter
        (fun item => (c'.context u').checks item.1) := by
  have hall :=
    Act.heard_filter_isFor (fun _ => true) (fun _ _ => false) (fun _ _ => false)
      (fun _ _ _ => rfl) (c'.acts u')
  rw [List.filter_true] at hall
  rw [← hall, filter_acts hctx haccepted hoverrides hcalls haccesses]
  exact Act.heard_filter_isFor _ _ _ (fun _ _ _ => rfl) _

end Acts

/-- The finding stands at a declaration that is left alone.  Markers that
disagree are reported all the same. -/
def silences (c : Checker) (u : SourceUnit) (f : Finding) : Bool :=
  f.rule != .unresolvableTag
    && u.model.declarations.any (fun d =>
      ((c.context u).skipReason? d).isSome && d.location == f.location)

theorem mutes_ofFacts (c : Checker) (more : DeclId → List String)
    (stems : List String) {facts : UnitFacts}
    (hbuild : SourceUnit.build facts = .ok (.ofFacts facts)) :
    (c.context (.ofFacts facts)).Mutes more stems
      ((c.mute stems).context (.ofFacts (facts.mute more))) where
  model := (SourceUnit.build_of_varies (facts.varies_mute more) hbuild).2
  library := rfl
  declarations := rfl
  members := List.foldl_map
  hierarchy := List.foldl_map
  settings := rfl

/-- With distinct locations, a finding stands at a declaration that is left
alone exactly when its actor is. -/
theorem silences_eq {c c' : Checker} {u u' : SourceUnit}
    {more : DeclId → List String} {stems : List String}
    (hctx : (c.context u).Mutes more stems (c'.context u'))
    (haccepted : u.model.Accepted)
    (hdistinct : (u.model.declarations.map Declaration.location).Nodup)
    {d : Declaration} (hd : d ∈ u.model.declarations)
    {actor : DeclId} {f : Finding}
    (hbelongs : (Act.report actor f).BelongsTo d) :
    c'.silences u' f = !(c'.context u').checks actor := by
  obtain ⟨rfl, hlocation, hrule⟩ := hbelongs
  have hdeclarations : u'.model.declarations =
      u.model.declarations.map (Declaration.mute more) :=
    hctx.declarations
  rw [hctx.checks_eq (haccepted.find?_id hd), Option.not_isNone, silences,
    hdeclarations, List.any_map]
  have hany : u.model.declarations.any (fun e =>
      ((c'.context u').skipReason? (e.mute more)).isSome &&
        e.location == f.location) =
      ((c'.context u').skipReason? (d.mute more)).isSome := by
    rw [Bool.eq_iff_iff, List.any_eq_true]
    constructor
    · rintro ⟨e, he, hskip⟩
      rw [Bool.and_eq_true, beq_iff_eq, hlocation] at hskip
      have heq := List.inj_on_of_nodup_map hdistinct he hd hskip.2
      exact heq ▸ hskip.1
    · intro hskip
      exact ⟨d, hd, by simp [hskip, hlocation]⟩
  simp only [bne_iff_ne.mpr hrule, Bool.true_and]
  exact hany

/-- Suppression is a filter on the acting side.  With further suppressions and
further ignored modules, a unit whose declarations have distinct locations is
accepted as before and leaves the same registry, and its findings are the old
ones, in the old order, less those at declarations that are left alone now. -/
theorem check_mute (c : Checker) {facts : UnitFacts} {u : SourceUnit}
    (hbuild : SourceUnit.build facts = .ok u)
    (hdistinct : (facts.declarations.map Declaration.location).Nodup)
    (more : DeclId → List String) (stems : List String) (registry : Registry) :
    ∃ u', SourceUnit.build (facts.mute more) = .ok u' ∧
      ((c.mute stems).check u' registry).1.findings =
        (c.check u registry).1.findings.filter
          (fun f => !(c.mute stems).silences u' f) ∧
      ((c.mute stems).check u' registry).2 = (c.check u registry).2 := by
  obtain ⟨-, -, rfl⟩ := SourceUnit.build_eq_ok_iff_ofFacts.mp hbuild
  have hbuild' := (SourceUnit.build_of_varies (facts.varies_mute more) hbuild).1
  have haccepted := SourceUnit.Accepted.model ⟨facts, hbuild⟩
  have haccepted' := SourceUnit.Accepted.model ⟨facts.mute more, hbuild'⟩
  have hctx := mutes_ofFacts c more stems hbuild
  refine ⟨_, hbuild', ?_, ?_⟩
  · have hopening :
        (c.mute stems).opening (.ofFacts (facts.mute more)) registry =
          c.opening (.ofFacts facts) registry := hctx.resolveAll_eq _
    have hheard := heard_acts hctx haccepted rfl rfl rfl
    simp only [check, Pass.toReport, findings_run _ haccepted,
      findings_run _ haccepted', hopening, hheard, List.filter_append,
      List.filter_map]
    congr 1
    · symm
      rw [List.filter_eq_self]
      intro f hf
      simp [silences, c.rule_of_mem_findings_opening haccepted registry hf]
    · congr 1
      apply List.filter_congr
      intro item hitem
      obtain ⟨d, hd, hbelongs⟩ :=
        Act.heard_belongsTo _ (c.exists_belongsTo haccepted) item hitem
      simp [silences_eq hctx haccepted hdistinct hd hbelongs]
  · have hheld : ((c.mute stems).context (.ofFacts (facts.mute more))).heldTags
        (facts.declarations.map (Declaration.mute more)) =
        (c.context (.ofFacts facts)).heldTags facts.declarations := by
      rw [Context.heldTags, List.filterMap_map, Context.heldTags]
      exact List.filterMap_congr (fun d _ => hctx.effectiveTag?_eq d.id)
    have hregistry := (c.mute stems).registry_run haccepted' registry
    have hdeclarations :
        (SourceUnit.ofFacts (facts.mute more)).model.declarations =
          facts.declarations.map (Declaration.mute more) := rfl
    rw [hdeclarations, hheld] at hregistry
    exact hregistry.trans (c.registry_run haccepted registry).symm

/-- A meter that is drawn and polled on two threads, neither of which is that of
the engine it reads. -/
def meterFacts : UnitFacts where
  name := "meter"
  declarations :=
    [{ id := ⟨1⟩, kind := .module, location := "sim", qualifiedName := "sim" },
      { id := ⟨2⟩, kind := .module, location := "ui", qualifiedName := "ui" },
      { id := ⟨3⟩, kind := .type, enclosing := some ⟨1⟩,
        location := "sim.Engine", qualifiedName := "sim.Engine" },
      { id := ⟨4⟩, kind := .method, enclosing := some ⟨3⟩,
        location := "sim.Engine.step", qualifiedName := "sim.Engine.step",
        markers := [{ tag := .simulationThread,
                      requireSynchronized := true }] },
      { id := ⟨5⟩, kind := .type, enclosing := some ⟨2⟩, location := "ui.Meter",
        qualifiedName := "ui.Meter" },
      { id := ⟨6⟩, kind := .method, enclosing := some ⟨5⟩,
        location := "ui.Meter.draw", qualifiedName := "ui.Meter.draw",
        markers := [{ tag := .uiEventThread }] },
      { id := ⟨7⟩, kind := .method, enclosing := some ⟨5⟩,
        location := "ui.Meter.poll", qualifiedName := "ui.Meter.poll",
        markers := [{ tag := .worker }] }]
  calls := [⟨⟨6⟩, ⟨4⟩, false⟩, ⟨⟨7⟩, ⟨4⟩, false⟩]

/-- Drawing is suppressed, and the module of the engine is ignored. -/
theorem meter_check_mute :
    ((ofSettings {}).check (.ofFacts meterFacts) .empty).1.findings.map
      Finding.location =
        ["ui.Meter.draw", "ui.Meter.poll", "sim.Engine.step"] ∧
      ∃ u', SourceUnit.build (meterFacts.mute fun id =>
            if id = ⟨6⟩ then ["threadchecker"] else []) =
          .ok u' ∧
        (((ofSettings {}).mute ["sim"]).check u' .empty).1.findings.map
          Finding.location =
          ["ui.Meter.poll"] ∧
        (((ofSettings {}).mute ["sim"]).check u' .empty).2 =
          ((ofSettings {}).check (.ofFacts meterFacts) .empty).2 := by
  have hbuild : SourceUnit.build meterFacts = .ok (.ofFacts meterFacts) :=
    SourceUnit.build_ofFacts (by decide +kernel)
  obtain ⟨u', hbuild', hfindings, hregistry⟩ :=
    check_mute (ofSettings {}) hbuild (by decide)
      (fun id => if id = ⟨6⟩ then ["threadchecker"] else []) ["sim"] .empty
  refine ⟨by decide +kernel, u', hbuild', ?_, hregistry⟩
  rw [hfindings, (SourceUnit.build_eq_ok_iff_ofFacts.mp hbuild').2.2]
  decide +kernel

end Checker

end ThreadConfinement
