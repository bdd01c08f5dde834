import Mathlib.Data.List.Forall2
import ThreadConfinement.Proofs.Families
import ThreadConfinement.Proofs.Resolution

/-!
Which tag takes precedence, as rules over declarations and library rules.

`Model.HoldsFor` states what a resolution has to answer: it looks at the markers
of a declaration, at the list of library rules and at the declarations around
it, and knows no memory, no index and no table of rules.
`Pass.resolveEach_eq_iff` says that a pass answers so for every sequence of
questions.
-/

namespace ThreadConfinement

/-- The rule is for the name and the level of the declaration; all code is on
the level of methods, and no rule is for fields. -/
def LibraryRule.appliesTo (r : LibraryRule) (d : Declaration) : Bool :=
  r.path == d.qualifiedName &&
    match d.kind with
    | .module => r.scope == .module
    | .type => r.scope == .type
    | .method | .constructor | .initializer => r.scope == .method
    | .field => false

namespace Library

theorem lookup?_empty (d : Declaration) : empty.lookup? d = none := by
  cases hkind : d.kind <;> simp [lookup?, RuleScope.ofKind?,
    hkind, level, empty]

/-- A rule that is added decides for the declarations that it applies to, and
for no other. -/
theorem lookup?_insert (l : Library) (r : LibraryRule) (d : Declaration) :
    (l.insert r).lookup? d =
      if r.appliesTo d then some r.locatedTag else l.lookup? d := by
  by_cases hpath : r.path = d.qualifiedName
  · cases hkind : d.kind <;> cases hscope : r.scope <;>
      simp [lookup?, insert, level, RuleScope.ofKind?, LibraryRule.appliesTo,
        hkind, hscope, hpath]
  · have hne : compare r.path d.qualifiedName ≠ .eq := by
      intro heq
      exact hpath (Std.LawfulEqOrd.eq_of_compare heq)
    cases hkind : d.kind <;> cases hscope : r.scope <;>
      simp [lookup?, insert, level, RuleScope.ofKind?, LibraryRule.appliesTo,
        hkind, hscope, hpath, Std.ExtTreeMap.getElem?_insert, hne]

/-- Of the rules that apply to a declaration, the last one decides. -/
theorem lookup?_ofRules (rules : List LibraryRule) (d : Declaration) :
    (ofRules rules).lookup? d =
      (rules.reverse.find? (·.appliesTo d)).map LibraryRule.locatedTag := by
  rw [ofRules, List.foldl_eq_foldr_reverse]
  induction rules.reverse with
  | nil => exact lookup?_empty d
  | cons r rules ih =>
      rw [List.foldr_cons, lookup?_insert, ih, List.find?_cons]
      cases r.appliesTo d <;> rfl

end Library

namespace Marker

/-- Joining markers keeps the tag of the first one and sets a flag when one of
them does. -/
theorem foldl_union (first : Marker) (rest : List Marker) :
    rest.foldl union first =
      { tag := first.tag
        ignoreParent := (first :: rest).any (·.ignoreParent)
        requireSynchronized := (first :: rest).any (·.requireSynchronized)
        coversSubclasses := (first :: rest).any (·.coversSubclasses) } := by
  induction rest generalizing first with
  | nil => simp
  | cons second rest ih =>
      rw [List.foldl_cons, ih (first.union second)]
      simp [union, Bool.or_assoc]

end Marker

namespace Declaration

/-- The tags that the markers name are one tag exactly when all markers have the
tag of the first. -/
theorem length_distinctTags_le_one_iff {d : Declaration} {first : Marker}
    {rest : List Marker} (hmarkers : d.markers = first :: rest) :
    d.distinctTags.length ≤ 1 ↔
      ∀ marker ∈ d.markers, marker.tag = first.tag := by
  have hone : d.distinctTags.length ≤ 1 ↔ d.distinctTags.length = 1 := by
    rw [distinctTags, hmarkers, List.map_cons, List.eraseDups_cons,
      List.length_cons]
    omega
  rw [hone, distinctTags, hmarkers, List.map_cons,
    length_eraseDups_cons_eq_one_iff, List.forall_mem_map, List.forall_mem_cons]
  simp

/-- What a declaration says about itself: the tag of its markers with all their
flags, and without markers the last library rule for it. -/
def statedTag (rules : List LibraryRule) (d : Declaration) : OwnTag :=
  match d.markers with
  | [] =>
    match rules.reverse.find? (·.appliesTo d) with
    | none => .absent
    | some r =>
      .tagged
        { tag := r.tag
          ignoreParent := r.ignoreParent
          requireSynchronized := r.requireSynchronized
          coversSubclasses := r.coversSubclasses
          location := "<library: " ++ r.path ++ ">" }
  | first :: _ =>
    if ∀ marker ∈ d.markers, marker.tag = first.tag then
      .tagged
        { tag := first.tag
          ignoreParent := d.markers.any (·.ignoreParent)
          requireSynchronized := d.markers.any (·.requireSynchronized)
          coversSubclasses := d.markers.any (·.coversSubclasses)
          location := d.location }
    else .conflicted d.distinctTags

end Declaration

/-- The table of rules and the joining of markers say the same as the plain
reading. -/
theorem Library.ownTag_ofRules (rules : List LibraryRule) (d : Declaration) :
    (ofRules rules).ownTag d = d.statedTag rules := by
  cases hmarkers : d.markers with
  | nil =>
      simp only [ownTag, Declaration.statedTag, hmarkers, lookup?_ofRules]
      cases rules.reverse.find? (·.appliesTo d) <;> rfl
  | cons first rest =>
      have hone := Declaration.length_distinctTags_le_one_iff hmarkers
      simp only [ownTag, Declaration.statedTag, hmarkers, Marker.foldl_union]
      rw [hmarkers] at hone
      by_cases hall : ∀ marker ∈ first :: rest, marker.tag = first.tag
      · rw [if_pos hall, if_pos (hone.mpr hall)]
        rfl
      · rw [if_neg hall, if_neg (fun hle => hall (hone.mp hle))]

/-- Code, and fields that are not safe on every thread, take a tag from the type
around them first. -/
def Declaration.LooksToType (d : Declaration) : Prop :=
  d.kind.isCallable = true ∨ d.kind = .field ∧ d.threadSafe = false

namespace Model

/-- The tag that holds for a declaration of the model. -/
inductive TagHolds (m : Model) (rules : List LibraryRule) (d : Declaration) :
    Option LocatedTag → Prop
  | own {tag : LocatedTag} (hown : d.statedTag rules = .tagged tag) :
      TagHolds m rules d (some tag)
  | conflicted {tags : List Tag} (hown : d.statedTag rules = .conflicted tags) :
      TagHolds m rules d none
  | module (hown : d.statedTag rules = .absent) (hkind : d.kind = .module) :
      TagHolds m rules d none
  | type {outer : Declaration} (hown : d.statedTag rules = .absent)
      (hkind : d.kind = .type) (houter : m.Nearest .module d outer) :
      TagHolds m rules d (outer.statedTag rules).tag?
  | safeField (hown : d.statedTag rules = .absent) (hkind : d.kind = .field)
      (hsafe : d.threadSafe = true) :
      TagHolds m rules d
        (some { tag := .any,
                location := "<thread-safe field: " ++ d.qualifiedName ++ ">" })
  | fromType {outer : Declaration} {tag : LocatedTag}
      (hown : d.statedTag rules = .absent) (hlooks : d.LooksToType)
      (houter : m.Nearest .type d outer)
      (htag : outer.statedTag rules = .tagged tag) :
      TagHolds m rules d (some tag)
  | fromModule {outer : Declaration} (hown : d.statedTag rules = .absent)
      (hlooks : d.LooksToType)
      (hnone : ∀ type, m.Nearest .type d type →
        (type.statedTag rules).tag? = none)
      (houter : m.Nearest .module d outer) :
      TagHolds m rules d (outer.statedTag rules).tag?

/-- What a resolution has to answer; a number that no declaration has holds no
tag. -/
def HoldsFor (m : Model) (rules : List LibraryRule) (id : DeclId)
    (tag : Option LocatedTag) : Prop :=
  (∃ d ∈ m.declarations, d.id = id ∧ m.TagHolds rules d tag) ∨
    (∀ d ∈ m.declarations, d.id ≠ id) ∧ tag = none

namespace Accepted

variable {m : Model} {rules : List LibraryRule} {d : Declaration}

/-- Some tag, or none, holds for every declaration. -/
theorem exists_tagHolds (haccepted : m.Accepted) (rules : List LibraryRule)
    (hd : d ∈ m.declarations) : ∃ tag, m.TagHolds rules d tag := by
  cases hown : d.statedTag rules with
  | tagged tag => exact ⟨_, .own hown⟩
  | conflicted tags => exact ⟨_, .conflicted hown⟩
  | absent =>
      have hlooking : d.kind ≠ .module → d.LooksToType →
          ∃ tag, m.TagHolds rules d tag := by
        intro hkind hlooks
        obtain ⟨outer, houter⟩ := haccepted.exists_nearest_module hd hkind
        by_cases hnone : ∀ type, m.Nearest .type d type →
          (type.statedTag rules).tag? = none
        · exact ⟨_, .fromModule hown hlooks hnone houter⟩
        · obtain ⟨type, htype⟩ := Classical.not_forall.mp hnone
          obtain ⟨hnearest, hsome⟩ := Classical.not_imp.mp htype
          cases hstated : type.statedTag rules with
          | tagged tag => exact ⟨_, .fromType hown hlooks hnearest hstated⟩
          | absent => simp [hstated, OwnTag.tag?] at hsome
          | conflicted tags => simp [hstated, OwnTag.tag?] at hsome
      cases hkind : d.kind with
      | module => exact ⟨_, .module hown hkind⟩
      | type =>
          obtain ⟨outer, houter⟩ :=
            haccepted.exists_nearest_module hd (by simp [hkind])
          exact ⟨_, .type hown hkind houter⟩
      | field =>
          cases hsafe : d.threadSafe with
          | true => exact ⟨_, .safeField hown hkind hsafe⟩
          | false => exact hlooking (by simp [hkind]) (Or.inr ⟨hkind, hsafe⟩)
      | _ =>
        exact hlooking (by simp [hkind])
          (Or.inl (by simp [hkind, Kind.isCallable]))

theorem tagSources_of_looksToType (haccepted : m.Accepted)
    (hd : d ∈ m.declarations) (hlooks : d.LooksToType) :
    m.tagSources d = (m.nearest? d.id .type).toList ++
      (m.nearest? d.id .module).toList := by
  have hkind : d.kind ≠ .module := by
    rcases hlooks with hcallable | ⟨hfield, -⟩
    · intro heq
      simp [heq, Kind.isCallable] at hcallable
    · simp [hfield]
  rw [← haccepted.moduleOf?_eq_nearest? hd hkind]
  rcases hlooks with hcallable | ⟨hfield, -⟩
  · cases hkind : d.kind <;> simp [hkind, Kind.isCallable] at hcallable <;>
      simp [tagSources, hkind, enclosingType?]
  · simp [tagSources, hfield, enclosingType?]

/-- The executable answer is the one that holds. -/
theorem effectiveTag?_of_tagHolds (haccepted : m.Accepted)
    (hd : d ∈ m.declarations) {tag : Option LocatedTag}
    (hholds : m.TagHolds rules d tag) :
    m.effectiveTag? (.ofRules rules) d.id = tag := by
  rw [effectiveTag?, haccepted.find?_id hd, Option.bind_some]
  simp only [Library.ownTag_ofRules]
  have hnotSafe : d.LooksToType →
      ¬ (d.kind = .field ∧ d.threadSafe = true) := by
    rintro (hcallable | ⟨-, hsafe⟩) ⟨hfield, hsafe'⟩
    · simp [hfield, Kind.isCallable] at hcallable
    · simp [hsafe] at hsafe'
  cases hholds with
  | own hown => simp [hown]
  | conflicted hown => simp [hown]
  | module hown hkind => simp [hown, hkind, tagSources]
  | type hown hkind houter =>
      have hnearest := (haccepted.nearest?_eq_some_iff .module hd).mpr houter
      rw [← haccepted.moduleOf?_eq_nearest? hd (by simp [hkind])] at hnearest
      simp [hown, hkind, tagSources, hnearest]
  | safeField hown hkind hsafe =>
      simp [hown, hkind, hsafe, Declaration.threadSafeTag, Marker.located]
  | fromType hown hlooks houter htag =>
      have hnearest := (haccepted.nearest?_eq_some_iff .type hd).mpr houter
      simp only [hown, if_neg (hnotSafe hlooks)]
      rw [haccepted.tagSources_of_looksToType hd hlooks, hnearest]
      simp [htag, OwnTag.tag?]
  | @fromModule outer hown hlooks hnone houter =>
      have hnearest := (haccepted.nearest?_eq_some_iff .module hd).mpr houter
      simp only [hown, if_neg (hnotSafe hlooks)]
      rw [haccepted.tagSources_of_looksToType hd hlooks, hnearest]
      cases htype : m.nearest? d.id .type with
      | none => simp
      | some type =>
          have hsilent :=
            hnone type ((haccepted.nearest?_eq_some_iff .type hd).mp htype)
          simp [hsilent]

theorem effectiveTag?_eq_iff (haccepted : m.Accepted)
    (rules : List LibraryRule) (id : DeclId) (tag : Option LocatedTag) :
    m.effectiveTag? (.ofRules rules) id = tag ↔ m.HoldsFor rules id tag := by
  cases hfind : m.find? id with
  | none =>
      have hunknown := haccepted.find?_eq_none_iff.mp hfind
      have hnone : m.effectiveTag? (.ofRules rules) id = none := by
        simp [effectiveTag?, hfind]
      rw [hnone]
      constructor
      · intro heq
        exact Or.inr ⟨hunknown, heq.symm⟩
      · rintro (⟨d, hd, heq, -⟩ | ⟨-, heq⟩)
        · exact absurd heq (hunknown d hd)
        · exact heq.symm
  | some d =>
      obtain ⟨hd, rfl⟩ := haccepted.find?_eq_some_iff.mp hfind
      constructor
      · intro heq
        obtain ⟨held, hholds⟩ := haccepted.exists_tagHolds rules hd
        rw [haccepted.effectiveTag?_of_tagHolds hd hholds] at heq
        exact Or.inl ⟨d, hd, rfl, heq ▸ hholds⟩
      · rintro (⟨e, he, heq, hholds⟩ | ⟨hunknown, -⟩)
        · rw [← heq]
          exact haccepted.effectiveTag?_of_tagHolds he hholds
        · exact absurd rfl (hunknown d hd)

end Accepted

end Model

namespace Pass

def resolveEach (ctx : Context) (p : Pass) :
    List DeclId → List (Option LocatedTag) × Pass
  | [] => ([], p)
  | id :: ids =>
    let (tag, p) := p.resolve ctx id
    let (tags, p) := resolveEach ctx p ids
    (tag :: tags, p)

/-- No question changes the answer to a later one. -/
theorem Remembers.resolveEach {ctx : Context} {p : Pass}
    (haccepted : ctx.model.Accepted) (hp : p.Remembers ctx)
    (ids : List DeclId) :
    (p.resolveEach ctx ids).1 = ids.map ctx.effectiveTag? := by
  induction ids generalizing p with
  | nil => rfl
  | cons id ids ih =>
      obtain ⟨hanswer, hkept⟩ := hp.resolve haccepted id
      rw [List.map_cons, ← hanswer, ← ih hkept]
      rfl

/-- The answers of a pass to any sequence of questions are exactly the tags that
hold. -/
theorem resolveEach_eq_iff {m : Model} (haccepted : m.Accepted)
    (rules : List LibraryRule) (settings : CheckSettings) (registry : Registry)
    (ids : List DeclId) (tags : List (Option LocatedTag)) :
    ((start registry).resolveEach ⟨m, .ofRules rules, settings⟩ ids).1 = tags ↔
      List.Forall₂ (m.HoldsFor rules) ids tags := by
  have hanswers : (fun id tag => m.effectiveTag? (.ofRules rules) id = tag) =
      m.HoldsFor rules := by
    funext id tag
    exact propext (haccepted.effectiveTag?_eq_iff rules id tag)
  rw [(remembers_start _ registry).resolveEach haccepted, ← hanswers]
  constructor
  · rintro rfl
    exact List.forall₂_map_right_iff.mpr
      (List.forall₂_same.mpr (fun id _ => rfl))
  · intro hall
    have heq := List.forall₂_map_left_iff.mpr hall
    rwa [List.forall₂_eq_eq_eq] at heq

/-- A clock: its type has two tags at once, one method has one tag twice, and a
field is safe. -/
def clockDeclarations : List Declaration :=
  [{ id := ⟨1⟩, kind := .module, location := "app", qualifiedName := "app" },
    { id := ⟨2⟩, kind := .type, enclosing := some ⟨1⟩, location := "app.Clock",
      qualifiedName := "app.Clock",
      markers := [{ tag := .worker }, { tag := .any }] },
    { id := ⟨3⟩, kind := .method, enclosing := some ⟨2⟩,
      location := "app.Clock.read", qualifiedName := "app.Clock.read" },
    { id := ⟨4⟩, kind := .field, enclosing := some ⟨2⟩,
      location := "app.Clock.ticks", qualifiedName := "app.Clock.ticks",
      threadSafe := true },
    { id := ⟨5⟩, kind := .method, enclosing := some ⟨2⟩,
      location := "app.Clock.run", qualifiedName := "app.Clock.run",
      markers := [{ tag := .worker },
        { tag := .worker, ignoreParent := true }] }]

def clockRules : List LibraryRule :=
  [{ tag := .worker, scope := .module, path := "app" },
    { tag := .simulationThread, requireSynchronized := true, scope := .module,
      path := "app" }]

theorem clock_resolveEach :
    List.Forall₂ ((Model.ofDeclarations clockDeclarations).HoldsFor clockRules)
      [⟨3⟩, ⟨9⟩, ⟨4⟩, ⟨2⟩, ⟨3⟩, ⟨5⟩]
      [some { tag := .simulationThread, requireSynchronized := true,
              location := "<library: app>" },
        none,
        some { tag := .any,
               location := "<thread-safe field: app.Clock.ticks>" },
        none,
        some { tag := .simulationThread, requireSynchronized := true,
               location := "<library: app>" },
        some { tag := .worker, ignoreParent := true,
               location := "app.Clock.run" }] := by
  have hfault : Model.fault? clockDeclarations = none := by decide +kernel
  have haccepted : (Model.ofDeclarations clockDeclarations).Accepted :=
    ⟨clockDeclarations, Model.build_eq_ok_iff.mpr ⟨hfault, rfl⟩⟩
  exact (resolveEach_eq_iff haccepted clockRules {} .empty _ _).mp
    (by decide +kernel)

end Pass

end ThreadConfinement
