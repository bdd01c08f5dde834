import ThreadConfinement.Proofs.FirstRound
import ThreadConfinement.Proofs.Precedence
import ThreadConfinement.Proofs.Resemblance
import ThreadConfinement.Proofs.SharedRegistry
import ThreadConfinement.Proofs.WellFormed
import Mathlib.Data.List.Nodup

/-!
What a check leaves in the registry.

A check records the tags that hold, in the order of the host, and nothing else.
A tag comes from markers, from a library rule or from a field that is safe on
every thread (`Model.Origin`), and its location tells which.  So
`Checker.check_records` says what stands at each location after a check and
which tags are left out.  The location of a rule names its path but not its
level, so two rules for one path may overwrite each other, and
`Checker.check_keeps_iff` says that nothing else can be lost.
-/

namespace ThreadConfinement

namespace Registry

/-- Of the tags recorded at a location, the last one stands there. -/
theorem get?_recordAll (r : Registry) (tags : List LocatedTag)
    (location : String) :
    (r.recordAll tags).get? location =
      if isExportable location then
        (tags.reverse.find? (fun tag => tag.location == location)).or
          (r.get? location)
      else r.get? location := by
  rw [recordAll, List.foldl_eq_foldr_reverse]
  induction tags.reverse with
  | nil => simp
  | cons tag earlier ih =>
      rw [List.foldr_cons, get?_record, ih, List.find?_cons]
      by_cases hlocation : tag.location = location
      · subst hlocation
        cases hexportable : isExportable tag.location <;> simp
      · have hother : (tag.location == location) = false := by
          simpa using hlocation
        simp [hlocation, hother]

/-- Every tag stands where it was recorded exactly when no two tags share a
location. -/
theorem get?_recordAll_empty_iff (tags : List LocatedTag) :
    (∀ tag ∈ tags, isExportable tag.location = true →
        (empty.recordAll tags).get? tag.location = some tag) ↔
      ∀ s ∈ tags, ∀ t ∈ tags, isExportable s.location = true →
        s.location = t.location → s = t := by
  constructor
  · intro hkept s hs t ht hexportable hlocation
    have hfirst := hkept s hs hexportable
    rw [hlocation, hkept t ht (hlocation ▸ hexportable)] at hfirst
    exact (Option.some.inj hfirst).symm
  · intro hagree tag htag hexportable
    rw [get?_recordAll, if_pos hexportable, get?_empty, Option.or_none]
    cases hfind : tags.reverse.find? (fun other => other.location ==
        tag.location) with
    | none =>
        have hnot := List.find?_eq_none.mp hfind tag (List.mem_reverse.mpr htag)
        simp at hnot
    | some other =>
        have hlocation : other.location = tag.location := by
          simpa using List.find?_some hfind
        have hother := List.mem_reverse.mp (List.mem_of_find?_eq_some hfind)
        rw [hagree tag htag other hother hexportable hlocation.symm]

end Registry

/-! ### Locations that are no place in the source -/

/-- A name in brackets has no blank at its end, so only a control character in
it is in the way. -/
theorem isExportable_bracketed {stem : String}
    (hstem : Text.hasControl stem = false) (name : String) :
    isExportable (stem ++ name ++ ">") = !Text.hasControl name := by
  have hcontrol :
      Text.hasControl (stem ++ name ++ ">") = Text.hasControl name := by
    have hbracket : Text.isControl '>' = false := by decide
    rw [Text.hasControl] at hstem
    simp [Text.hasControl, String.toList_append, hstem, hbracket]
  have hblank : Text.endsInBlank (stem ++ name ++ ">") = false := by
    have hbracket : Text.isBlank '>' = false := by decide
    simp [Text.endsInBlank, String.toList_append, hbracket]
  have hempty : (stem ++ name ++ ">").isEmpty = false := by
    simp
  rw [isExportable, hcontrol, hblank, hempty]
  simp

namespace LibraryRule

theorem isExportable_location (r : LibraryRule) :
    isExportable r.location = !Text.hasControl r.path :=
  isExportable_bracketed (by decide +kernel) r.path

theorem beginsWith_location (r : LibraryRule) :
    Text.beginsWith r.location "<" = true := by
  simp [Text.beginsWith, location, String.toList_append]

theorem location_inj {r r' : LibraryRule} :
    r.location = r'.location ↔ r.path = r'.path := by
  simp [location, ← String.toList_inj, String.toList_append]

end LibraryRule

theorem Declaration.isExportable_threadSafeTag (d : Declaration) :
    isExportable d.threadSafeTag.location = !Text.hasControl d.qualifiedName :=
  isExportable_bracketed (by decide +kernel) d.qualifiedName

theorem Declaration.beginsWith_threadSafeTag (d : Declaration) :
    Text.beginsWith d.threadSafeTag.location "<" = true := by
  simp [Text.beginsWith, threadSafeTag, Marker.located, String.toList_append]

theorem Declaration.location_threadSafeTag_ne (d : Declaration)
    (r : LibraryRule) :
    d.threadSafeTag.location ≠ r.location := by
  intro heq
  have hletters := congrArg (fun location => location.toList[1]?) heq
  simp [threadSafeTag, Marker.located, LibraryRule.location,
    String.toList_append] at hletters

/-! ### Where a tag comes from -/

namespace Model

/-- The sources of a tag that holds for `d`: the markers of a declaration, a
library rule, or that `d` is safe on every thread. -/
inductive Origin (m : Model) (rules : List LibraryRule) (d : Declaration)
    (tag : LocatedTag) : Prop
  | marked {e : Declaration} (he : e ∈ m.declarations)
      (hstated : e.statedTag rules = .tagged tag)
      (hlocation : tag.location = e.location)
  | ruled {r : LibraryRule} (hr : r ∈ rules) (htag : tag = r.locatedTag)
  | safe (hfield : d.kind = .field) (hsafe : d.threadSafe = true)
      (htag : tag = d.threadSafeTag)

theorem origin_of_statedTag {m : Model} {rules : List LibraryRule}
    {d e : Declaration} {tag : LocatedTag} (he : e ∈ m.declarations)
    (hstated : e.statedTag rules = .tagged tag) :
    m.Origin rules d tag := by
  have hunfolded := hstated
  unfold Declaration.statedTag at hunfolded
  split at hunfolded
  · split at hunfolded
    · cases hunfolded
    · next r hfind =>
        cases hunfolded
        exact .ruled (List.mem_reverse.mp (List.mem_of_find?_eq_some hfind)) rfl
  · split at hunfolded
    · cases hunfolded
      exact .marked he hstated rfl
    · cases hunfolded

namespace Accepted

variable {m : Model} (haccepted : m.Accepted) {rules : List LibraryRule}
  {d : Declaration} {tag : LocatedTag}

include haccepted

theorem origin (hd : d ∈ m.declarations)
    (htag : m.effectiveTag? (.ofRules rules) d.id = some tag) :
    m.Origin rules d tag := by
  have hstated : ∀ e ∈ m.declarations, (e.statedTag rules).tag? = some tag →
      m.Origin rules d tag := by
    intro e he hsome
    cases hown : e.statedTag rules with
    | tagged other =>
        rw [hown] at hsome
        cases hsome
        exact origin_of_statedTag he hown
    | absent => simp [hown, OwnTag.tag?] at hsome
    | conflicted tags => simp [hown, OwnTag.tag?] at hsome
  obtain ⟨held, hholds⟩ := haccepted.exists_tagHolds rules hd
  rw [haccepted.effectiveTag?_of_tagHolds hd hholds] at htag
  cases hholds with
  | own hown => exact hstated d hd (by rw [hown]; exact htag)
  | conflicted hown => cases htag
  | module hown hkind => cases htag
  | type hown hkind houter => exact hstated _ houter.mem_declarations htag
  | safeField hown hkind hsafe =>
      cases htag
      exact .safe hkind hsafe rfl
  | fromType hown hlooks houter hother =>
      exact hstated _ houter.mem_declarations (by rw [hother]; exact htag)
  | fromModule hown hlooks hnone houter =>
    exact hstated _ houter.mem_declarations htag

theorem isExportable_location (hd : d ∈ m.declarations) :
    isExportable d.location = true := by
  obtain ⟨ds, hbuild⟩ := haccepted
  obtain ⟨hfault, rfl⟩ := build_eq_ok_iff.mp hbuild
  have hentries :=
    (entryFault?_eq_none_iff.mp (fault?_eq_none_iff.mp hfault).1).2.2
  exact Declaration.locationFault?_eq_none_iff.mp (hentries d hd)

/-- The tags that are left out come from a rule or a field whose name has a
control character. -/
theorem isExportable_eq_false_iff (hd : d ∈ m.declarations)
    (htag : m.effectiveTag? (.ofRules rules) d.id = some tag) :
    isExportable tag.location = false ↔
      (∃ r ∈ rules, tag = r.locatedTag ∧ Text.hasControl r.path = true) ∨
        d.kind = .field ∧ d.threadSafe = true ∧ tag = d.threadSafeTag ∧
          Text.hasControl d.qualifiedName = true := by
  constructor
  · intro hleft
    cases haccepted.origin hd htag with
    | marked he _ hlocation =>
        rw [hlocation, haccepted.isExportable_location he] at hleft
        cases hleft
    | @ruled r hr htag =>
        subst htag
        exact Or.inl ⟨r, hr, rfl,
          by simpa using r.isExportable_location.symm.trans hleft⟩
    | safe hfield hsafe htag =>
        subst htag
        exact Or.inr ⟨hfield, hsafe, rfl,
          by simpa using d.isExportable_threadSafeTag.symm.trans hleft⟩
  · rintro (⟨r, -, rfl, hcontrol⟩ | ⟨-, -, rfl, hcontrol⟩)
    · exact r.isExportable_location.trans (by rw [hcontrol]; rfl)
    · rw [d.isExportable_threadSafeTag, hcontrol]
      rfl

end Accepted

end Model

namespace Model.Origin

variable {m : Model} {rules : List LibraryRule} {d d' : Declaration}
  {tag tag' : LocatedTag}

/-- Where the places in the source are distinct and look like no others, tags at
one location are one tag, unless they come from two rules for one path. -/
theorem eq_or_rules (hfirst : m.Origin rules d tag)
    (hsecond : m.Origin rules d' tag')
    (hdistinct : (m.declarations.map Declaration.location).Nodup)
    (hplain : ∀ e ∈ m.declarations, Text.beginsWith e.location "<" = false)
    (hlocation : tag.location = tag'.location) :
    tag = tag' ∨ ∃ r ∈ rules, ∃ r' ∈ rules,
      r.path = r'.path ∧ tag = r.locatedTag ∧ tag' = r'.locatedTag := by
  have hplace : ∀ e ∈ m.declarations, ∀ location,
      Text.beginsWith location "<" = true →
      location ≠ e.location := by
    rintro e he location hbracket rfl
    rw [hplain e he] at hbracket
    cases hbracket
  cases hfirst with
  | @marked e he hstated hplaced =>
      cases hsecond with
      | @marked e' he' hstated' hplaced' =>
          have heq : e = e' := List.inj_on_of_nodup_map hdistinct he he'
            (hplaced.symm.trans (hlocation.trans hplaced'))
          rw [heq, hstated'] at hstated
          exact Or.inl (OwnTag.tagged.inj hstated).symm
      | @ruled r' _ htag' =>
          subst htag'
          exact absurd (hlocation.symm.trans hplaced)
            (hplace e he _ r'.beginsWith_location)
      | safe _ _ htag' =>
          subst htag'
          exact absurd (hlocation.symm.trans hplaced)
            (hplace e he _ d'.beginsWith_threadSafeTag)
  | @ruled r hr htag =>
      subst htag
      cases hsecond with
      | @marked e' he' _ hplaced' =>
          exact absurd (hlocation.trans hplaced')
            (hplace e' he' _ r.beginsWith_location)
      | @ruled r' hr' htag' =>
          subst htag'
          exact Or.inr ⟨r, hr, r', hr', LibraryRule.location_inj.mp hlocation,
            rfl, rfl⟩
      | safe _ _ htag' =>
          subst htag'
          exact absurd hlocation.symm (d'.location_threadSafeTag_ne r)
  | safe _ _ htag =>
      subst htag
      cases hsecond with
      | @marked e' he' _ hplaced' =>
          exact absurd (hlocation.trans hplaced')
            (hplace e' he' _ d.beginsWith_threadSafeTag)
      | @ruled r' _ htag' =>
          subst htag'
          exact absurd hlocation (d.location_threadSafeTag_ne r')
      | safe _ _ htag' =>
          subst htag'
          exact Or.inl (congrArg (Marker.located { tag := .any }) hlocation)

end Model.Origin

/-- The tag of the last declaration, in the order of the host, whose tag stands
at the location. -/
def Context.lastTagAt? (ctx : Context) (location : String) :
    Option LocatedTag :=
  (ctx.model.declarations.reverse.find? (fun d =>
    (ctx.effectiveTag? d.id).any (fun tag => tag.location == location))).bind
      (fun d => ctx.effectiveTag? d.id)

theorem Context.lastTagAt?_eq (ctx : Context) (location : String) :
    ctx.lastTagAt? location =
      (ctx.heldTags ctx.model.declarations).reverse.find?
        (fun tag => tag.location == location) := by
  rw [heldTags, ← List.filterMap_reverse, List.find?_filterMap]
  rfl

def Context.Uses (ctx : Context) (r : LibraryRule) : Prop :=
  ∃ d ∈ ctx.model.declarations, ctx.effectiveTag? d.id = some r.locatedTag

namespace Checker

/-- What a check does to the registry it starts from.  At a location that the
table can carry, the last declaration whose tag stands there decides, and every
other record stays.  A tag is left out only for a control character in the path
of a rule or in the name of a safe field.  And what is reported does not depend
on the registry. -/
theorem check_records (s : Settings) {u : SourceUnit} (haccepted : u.Accepted)
    (registry : Registry) :
    let c := ofSettings s
    let ctx := c.context u
    (∀ location, (c.check u registry).2.get? location =
        if isExportable location then
          (ctx.lastTagAt? location).or (registry.get? location)
        else registry.get? location) ∧
      (∀ d ∈ u.model.declarations, ∀ tag, ctx.effectiveTag? d.id = some tag →
        (isExportable tag.location = false ↔
          (∃ r ∈ s.library, tag = r.locatedTag ∧
            Text.hasControl r.path = true) ∨
            d.kind = .field ∧ d.threadSafe = true ∧ tag = d.threadSafeTag ∧
              Text.hasControl d.qualifiedName = true)) ∧
      ∀ other, (c.check u other).1 = (c.check u registry).1 := by
  intro c ctx
  refine ⟨fun location => ?_, fun d hd tag htag => ?_, fun other => ?_⟩
  · have hrun : (c.check u registry).2 = _ :=
      c.registry_run haccepted.model registry
    rw [hrun, Registry.get?_recordAll, ctx.lastTagAt?_eq]
    rfl
  · exact haccepted.model.isExportable_eq_false_iff hd htag
  · rw [c.check_eq_merge u other, c.check_eq_merge u registry]

/-- A field that is safe on every thread, with a tab in its name. -/
def gaugeNeedle : Declaration where
  id := ⟨4⟩
  kind := .field
  enclosing := some ⟨2⟩
  location := "app.Gauge.needle"
  qualifiedName := "app.Gauge.\tneedle"
  threadSafe := true

/-- A rule with a tab in its path. -/
def dialRule : LibraryRule :=
  { scope := .type, path := "app.\tDial", tag := .worker }

def gaugeDial : Declaration where
  id := ⟨5⟩
  kind := .type
  enclosing := some ⟨1⟩
  location := "app.Dial"
  qualifiedName := "app.\tDial"

/-- A gauge whose type and method stand at one place. -/
def gaugeFacts : UnitFacts where
  name := "gauge"
  declarations :=
    [{ id := ⟨1⟩, kind := .module, location := "app", qualifiedName := "app" },
      { id := ⟨2⟩, kind := .type, enclosing := some ⟨1⟩,
        location := "app.Gauge", qualifiedName := "app.Gauge",
        markers := [{ tag := .worker }] },
      { id := ⟨3⟩, kind := .method, enclosing := some ⟨2⟩,
        location := "app.Gauge", qualifiedName := "app.Gauge.read",
        markers := [{ tag := .uiEventThread }] },
      gaugeNeedle, gaugeDial]

/-- What was recorded of the gauge and of another unit before. -/
def gaugeRegistry : Registry :=
  .recordAll .empty
    [{ tag := .any, location := "app.Gauge" },
      { tag := .worker, location := "app.Old" }]

/-- The method takes over the record at the shared place, the other unit keeps
its own, and the tags of the needle and of the dial are left out. -/
theorem gauge_check_records :
    ∃ u, SourceUnit.build gaugeFacts = .ok u ∧
      let c := ofSettings { library := [dialRule] }
      (c.check u gaugeRegistry).2.get? "app.Gauge" =
          some { tag := .uiEventThread, location := "app.Gauge" } ∧
        (c.check u gaugeRegistry).2.get? "app.Old" =
          some { tag := .worker, location := "app.Old" } ∧
        isExportable gaugeNeedle.threadSafeTag.location = false ∧
        isExportable dialRule.locatedTag.location = false ∧
        (c.check u .empty).1 = (c.check u gaugeRegistry).1 := by
  have hbuild : SourceUnit.build gaugeFacts = .ok (.ofFacts gaugeFacts) :=
    SourceUnit.build_ofFacts (by decide +kernel)
  obtain ⟨hget, hleft, hreport⟩ :=
    check_records { library := [dialRule] } ⟨gaugeFacts, hbuild⟩ gaugeRegistry
  have hneedle :=
    hleft gaugeNeedle (by decide +kernel) gaugeNeedle.threadSafeTag
      (by decide +kernel)
  have hdial :=
    hleft gaugeDial (by decide +kernel) dialRule.locatedTag (by decide +kernel)
  refine ⟨_, hbuild, ?_⟩
  intro c
  refine ⟨(hget _).trans ?_, (hget _).trans ?_, hneedle.mpr (Or.inr ?_),
    hdial.mpr (Or.inl ?_), hreport .empty⟩
  · decide +kernel
  · decide +kernel
  · exact ⟨rfl, rfl, rfl, by decide +kernel⟩
  · exact ⟨dialRule, List.mem_singleton_self _, rfl, by decide +kernel⟩

/-- The tag of every declaration can be found in the registry exactly when rules
for one path say the same, as far as the unit uses them. -/
theorem check_keeps_iff (s : Settings) {u : SourceUnit} (haccepted : u.Accepted)
    (hdistinct : (u.model.declarations.map Declaration.location).Nodup)
    (hplain : ∀ d ∈ u.model.declarations,
      Text.beginsWith d.location "<" = false) :
    let c := ofSettings s
    let ctx := c.context u
    (∀ d ∈ u.model.declarations, ∀ tag, ctx.effectiveTag? d.id = some tag →
        isExportable tag.location = true →
        (c.check u .empty).2.get? tag.location = some tag) ↔
      ∀ r ∈ s.library, ∀ r' ∈ s.library, r.path = r'.path →
        Text.hasControl r.path = false →
        ctx.Uses r → ctx.Uses r' → r.toMarker = r'.toMarker := by
  intro c ctx
  have hheld : ∀ tag, tag ∈ ctx.heldTags u.model.declarations ↔
      ∃ d ∈ u.model.declarations,
        ctx.effectiveTag? d.id = some tag := fun tag =>
    List.mem_filterMap
  have hrun : (c.check u .empty).2 = _ := c.registry_run haccepted.model .empty
  have hkept :=
    Registry.get?_recordAll_empty_iff (ctx.heldTags u.model.declarations)
  simp only [hheld] at hkept
  rw [hrun]
  constructor
  · intro hall r hr r' hr' hpath hcontrol huses huses'
    have heq :=
      hkept.mp (fun tag ⟨d, hd, htag⟩ => hall d hd tag htag) r.locatedTag huses
        r'.locatedTag huses'
        (r.isExportable_location.trans (by rw [hcontrol]; rfl))
      (LibraryRule.location_inj.mpr hpath)
    exact congrArg LocatedTag.toMarker heq
  · intro hrules d hd tag htag hexportable
    refine hkept.mpr ?_ tag ⟨d, hd, htag⟩ hexportable
    rintro first ⟨e, he, hfirst⟩ second ⟨e', he', hsecond⟩ hcarried hlocation
    have horigin := haccepted.model.origin he hfirst
    have horigin' := haccepted.model.origin he' hsecond
    rcases horigin.eq_or_rules horigin' hdistinct hplain hlocation with
      heq | ⟨r, hr, r', hr', hpath, rfl, rfl⟩
    · exact heq
    · have hcontrol : Text.hasControl r.path = false := by
        simpa using r.isExportable_location.symm.trans hcarried
      have hmarker :=
        hrules r hr r' hr' hpath hcontrol ⟨e, he, hfirst⟩ ⟨e', he', hsecond⟩
      rw [LibraryRule.locatedTag, LibraryRule.locatedTag, hmarker,
        LibraryRule.location_inj.mpr hpath]

/-- A timer and its constructor, which has the name of its type. -/
def timerFacts : UnitFacts where
  name := "timer"
  declarations :=
    [{ id := ⟨1⟩, kind := .module, location := "timer.x:1",
       qualifiedName := "app" },
      { id := ⟨2⟩, kind := .type, enclosing := some ⟨1⟩,
        location := "timer.x:2", qualifiedName := "app.Timer" },
      { id := ⟨3⟩, kind := .constructor, enclosing := some ⟨2⟩,
        location := "timer.x:3", qualifiedName := "app.Timer" }]

def timerRules (type constructor : Tag) : List LibraryRule :=
  [{ scope := .type, path := "app.Timer", tag := type },
    { scope := .method, path := "app.Timer", tag := constructor }]

theorem build_timerFacts :
    SourceUnit.build timerFacts = .ok (.ofFacts timerFacts) :=
  SourceUnit.build_ofFacts (by decide +kernel)

/-- Rules that say the same do each other no harm. -/
theorem timer_check_keeps :
    ∃ u, SourceUnit.build timerFacts = .ok u ∧
      let c := ofSettings { library := timerRules .worker .worker }
      ∀ d ∈ u.model.declarations, ∀ tag,
        (c.context u).effectiveTag? d.id = some tag →
        isExportable tag.location = true →
        (c.check u .empty).2.get? tag.location = some tag := by
  refine ⟨_, build_timerFacts, ?_⟩
  refine (check_keeps_iff { library := timerRules .worker .worker } ⟨_,
    build_timerFacts⟩ (by decide +kernel) (by decide +kernel)).mpr ?_
  have hsame : ∀ r ∈ timerRules .worker .worker,
      ∀ r' ∈ timerRules .worker .worker, r.toMarker = r'.toMarker := by decide
  intro r hr r' hr' _ _ _ _
  exact hsame r hr r' hr'

/-- Rules that differ do: the record of the type is lost to the constructor. -/
theorem timer_check_loses :
    ∃ s u, Settings.fault? s = none ∧ SourceUnit.build timerFacts = .ok u ∧
      (u.model.declarations.map Declaration.location).Nodup ∧
      (∀ d ∈ u.model.declarations, Text.beginsWith d.location "<" = false) ∧
      ∃ d ∈ u.model.declarations, ∃ tag,
        ((ofSettings s).context u).effectiveTag? d.id = some tag ∧
        isExportable tag.location = true ∧
        ((ofSettings s).check u .empty).2.get? tag.location ≠ some tag := by
  refine ⟨{ library := timerRules .uiEventThread .worker }, _, ?_,
    build_timerFacts, ?_, ?_, ?_⟩
  · decide +kernel
  · decide +kernel
  · decide +kernel
  · refine ⟨_, List.mem_cons_of_mem _ List.mem_cons_self,
      { tag := .uiEventThread, location := "<library: app.Timer>" }, ?_⟩
    decide +kernel

end Checker

end ThreadConfinement
