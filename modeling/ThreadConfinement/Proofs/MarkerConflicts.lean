import ThreadConfinement.Proofs.InheritanceConflicts
import ThreadConfinement.Proofs.Precedence
import Mathlib.Data.List.Perm.Basic

/-!
Markers that disagree, each reported once.

A declaration may be asked about its markers by itself or by anything inside it,
in whatever order the host hands them in.  The findings wait until every
declaration was asked, and are then taken at once, so they stand before all
others; what is resolved later finds every answer kept:
`Checker.check_unresolvableTags`.
-/

namespace ThreadConfinement

namespace Declaration

/-- The markers of the declaration name two tags at least. -/
def Disputed (d : Declaration) : Prop :=
  ∃ first ∈ d.markers, ∃ second ∈ d.markers, first.tag ≠ second.tag

instance (d : Declaration) : Decidable d.Disputed :=
  inferInstanceAs (Decidable (∃ first ∈ _, ∃ second ∈ _, _))

theorem disputed_iff_of_cons {d : Declaration} {first : Marker}
    {rest : List Marker} (hmarkers : d.markers = first :: rest) :
    d.Disputed ↔ ¬ d.distinctTags.length ≤ 1 := by
  rw [length_distinctTags_le_one_iff hmarkers]
  constructor
  · rintro ⟨one, hone, other, hother, hdiffer⟩ hsame
    exact hdiffer ((hsame one hone).trans (hsame other hother).symm)
  · intro hnot
    obtain ⟨marker, hmarker, hdiffer⟩ : ∃ marker ∈ d.markers,
        marker.tag ≠ first.tag := by
      simpa using hnot
    exact ⟨marker, hmarker, first, by simp [hmarkers], hdiffer⟩

theorem mem_distinctTags {d : Declaration} {tag : Tag} :
    tag ∈ d.distinctTags ↔ ∃ marker ∈ d.markers, marker.tag = tag := by
  rw [distinctTags, List.mem_eraseDups, List.mem_map]

end Declaration

/-- A declaration is reported for its markers exactly when these are disputed,
whatever the library says. -/
theorem Library.conflict?_eq (l : Library) (d : Declaration) :
    l.conflict? d =
      if d.Disputed then some (.unresolvableTag d.location d.distinctTags)
      else none := by
  cases hmarkers : d.markers with
  | nil =>
      have hquiet : ¬ d.Disputed := by simp [Declaration.Disputed, hmarkers]
      rw [if_neg hquiet, conflict?, ownTag, hmarkers]
      cases l.lookup? d <;> rfl
  | cons first rest =>
      rw [conflict?, ownTag, hmarkers]
      by_cases hfew : d.distinctTags.length ≤ 1
      · rw [if_neg (fun hdisputed => (d.disputed_iff_of_cons hmarkers).mp
          hdisputed hfew)]
        simp [hfew]
      · rw [if_pos ((d.disputed_iff_of_cons hmarkers).mpr hfew)]
        simp [hfew, Declaration.conflictFinding]

/-- A rearrangement of a mapped list is the map of a rearrangement. -/
theorem exists_map_eq_of_perm {α β : Type} {f : α → β} {l : List α}
    {mapped : List β} (hperm : mapped.Perm (l.map f)) :
    ∃ l' : List α, l'.Perm l ∧ mapped = l'.map f := by
  have hcomp : Relation.Comp (· = List.map f ·) List.Perm mapped l := by
    rw [List.eq_map_comp_perm]
    exact hperm
  obtain ⟨l', hmapped, hl'⟩ := hcomp
  exact ⟨l', hl', hmapped⟩

namespace Pass

@[simp] theorem conflicts_reportAll {p : Pass} (fs : List Finding) :
    (p.reportAll fs).conflicts = p.conflicts := by
  induction fs generalizing p with
  | nil => rfl
  | cons f fs ih => exact ih (p := p.report f)

@[simp] theorem own_reportAll {p : Pass} (fs : List Finding) :
    (p.reportAll fs).own = p.own := by
  induction fs generalizing p with
  | nil => rfl
  | cons f fs ih => exact ih (p := p.report f)

theorem conflicts_resolveAll (ctx : Context) (p : Pass) :
    (p.resolveAll ctx).conflicts = [] := by
  simp [resolveAll, takeConflicts]

/-- After the first round every declaration was asked about itself. -/
theorem mem_own_resolveAll (ctx : Context) (haccepted : ctx.model.Accepted)
    (registry : Registry) {d : Declaration} (hd : d ∈ ctx.model.declarations) :
    d.id ∈ ((start registry).resolveAll ctx).own := by
  have hwaits := (waits_start ctx registry).foldl_resolveDeclaration haccepted
    ctx.model.declarations
  obtain ⟨-, -, hadded⟩ :=
    (remembers_start ctx registry).foldl_resolveDeclaration haccepted
      (fun _ hd => hd)
  simpa [resolveAll, takeConflicts] using hwaits.asked d.id (hadded d hd)

end Pass

namespace Checker

variable (c : Checker) {u : SourceUnit}

/-- The acts of a run lead to no finding on markers. -/
theorem rule_of_mem_heard {f : Finding}
    (hf : f ∈ (Act.heard (fun _ _ => false) (c.acts u)).map Prod.snd) :
    f.rule ≠ .unresolvableTag := by
  intro hrule
  have htags : f ∈ c.edgeFindings u := by
    rw [← tagFindings_acts, ← Act.filter_concernsTags_heard (fun _ _ => false)]
    exact List.mem_filter.mpr ⟨hf, by simp [Finding.concernsTags, hrule]⟩
  have hnone : f ∈ c.edgeFindingsOf u .unresolvableTag := by
    rw [← filter_edgeFindings]
    exact List.mem_filter.mpr ⟨htags, by simp [hrule]⟩
  simp [edgeFindingsOf] at hnone

variable (haccepted : u.model.Accepted) (registry : Registry)

include haccepted

/-- The rounds after the first ask no declaration about itself any more. -/
theorem own_run : (c.run u registry).own = (c.opening u registry).own := by
  obtain ⟨p, hperforms, -, -, -, hown, -⟩ := c.run_performs haccepted registry
  rw [hown, hperforms.own]

theorem conflicts_run : (c.run u registry).conflicts = [] := by
  obtain ⟨p, hperforms, -, -, -, -, hconflicts⟩ :=
    c.run_performs haccepted registry
  rw [hconflicts, hperforms.conflicts]
  exact Pass.conflicts_resolveAll _ _

/-- The first round reports the declarations whose markers are disputed, in some
order. -/
theorem exists_findings_opening :
    ∃ disputed : List Declaration,
      disputed.Perm (u.model.declarations.filter (fun d => d.Disputed)) ∧
      (c.opening u registry).journal.findings =
        disputed.map (fun d => .unresolvableTag d.location d.distinctTags) := by
  apply exists_map_eq_of_perm
  have hfindings := c.perm_findings_opening haccepted registry
  have hlist : u.model.declarations.filterMap c.library.conflict? =
      (u.model.declarations.filter (fun d => d.Disputed)).map
        (fun d => .unresolvableTag d.location d.distinctTags) := by
    rw [List.filterMap_eq_flatMap_toList, ← flatMap_toList_ite]
    simp only [Library.conflict?_eq]
  rwa [hlist] at hfindings

end Checker

namespace Checker

/-- The findings on markers come first, one for each declaration whose markers
name two tags, with all of its tags in the order in which they come up.  When
they are reported, every declaration was asked about itself; the rest of the run
asks none, and finds no other disagreement. -/
theorem check_unresolvableTags (c : Checker) {u : SourceUnit}
    (haccepted : u.Accepted) (registry : Registry) :
    ∃ (disputed : List Declaration) (tags : Declaration → List Tag)
      (rest : List Finding),
      (c.check u registry).1.findings =
        disputed.map (fun d => .unresolvableTag d.location (tags d)) ++ rest ∧
      (∀ f ∈ rest, f.rule ≠ .unresolvableTag) ∧
      disputed.Nodup ∧
      (∀ d, d ∈ disputed ↔ d ∈ u.model.declarations ∧
        ∃ first ∈ d.markers, ∃ second ∈ d.markers, first.tag ≠ second.tag) ∧
      (∀ d, (∀ tag, tag ∈ tags d ↔ ∃ marker ∈ d.markers, marker.tag = tag) ∧
        (tags d).Pairwise (fun first second =>
          (d.markers.map Marker.tag).idxOf first <
            (d.markers.map Marker.tag).idxOf second)) ∧
      (∀ d ∈ u.model.declarations, d.id ∈ (c.opening u registry).own) ∧
      (c.run u registry).own = (c.opening u registry).own ∧
      (c.opening u registry).conflicts = [] ∧
      (c.run u registry).conflicts = [] := by
  obtain ⟨disputed, hperm, hfindings⟩ :=
    c.exists_findings_opening haccepted.model registry
  have hrun := c.findings_run haccepted.model registry
  rw [hfindings] at hrun
  refine ⟨disputed, Declaration.distinctTags, _, hrun, ?_, ?_, ?_, ?_, ?_,
    c.own_run haccepted.model registry, Pass.conflicts_resolveAll _ _,
    c.conflicts_run haccepted.model registry⟩
  · intro f hf
    exact c.rule_of_mem_heard hf
  · exact hperm.nodup_iff.mpr (haccepted.model.nodup_declarations.filter _)
  · intro d
    rw [hperm.mem_iff, List.mem_filter, decide_eq_true_eq]
    rfl
  · intro d
    exact ⟨fun tag => Declaration.mem_distinctTags, pairwise_idxOf_eraseDups _⟩
  · intro d hd
    exact Pass.mem_own_resolveAll (c.context u) haccepted.model registry hd

/-- A unit whose methods are handed in before what they stand in.  The valve is
first asked for the sake of its method, the pump is suppressed, and the old
module is ignored. -/
def valveFacts : UnitFacts where
  name := "valve"
  declarations :=
    [{ id := ⟨4⟩, kind := .method, enclosing := some ⟨3⟩,
       location := "app.Valve.turn",
        qualifiedName := "app.Valve.turn" },
      { id := ⟨1⟩, kind := .module, location := "app", qualifiedName := "app" },
      { id := ⟨3⟩, kind := .type, enclosing := some ⟨1⟩,
        location := "app.Valve", qualifiedName := "app.Valve",
        markers := [{ tag := .worker }, { tag := .uiEventThread },
          { tag := .worker }] },
      { id := ⟨5⟩, kind := .field, enclosing := some ⟨3⟩,
        location := "app.Valve.state", qualifiedName := "app.Valve.state",
        markers := [{ tag := .worker },
          { tag := .worker, requireSynchronized := true }] },
      { id := ⟨6⟩, kind := .type, enclosing := some ⟨1⟩, location := "app.Pump",
        qualifiedName := "app.Pump", suppressions := ["threadchecker"],
        markers := [{ tag := .any }, { tag := .simulationThread },
          { tag := .worker }] },
      { id := ⟨8⟩, kind := .type, enclosing := some ⟨7⟩, location := "old.Flow",
        qualifiedName := "old.Flow", markers := [{ tag := .uiEventThread },
          { tag := .any }] },
      { id := ⟨7⟩, kind := .module, location := "old", qualifiedName := "old",
        markers := [{ tag := .any }, { tag := .worker }] }]
  calls := [⟨⟨4⟩, ⟨4⟩, true⟩]

/-- The type comes up first, for its method; two markers with one tag are no
dispute. -/
theorem valve_check_unresolvableTags :
    ∃ u, SourceUnit.build valveFacts = .ok u ∧
      let c := Checker.ofSettings { check := { ignoredModules := ["old"] } }
      (c.run u .empty).conflicts = [] ∧
      (∀ d ∈ u.model.declarations, d.id ∈ (c.opening u .empty).own) ∧
      (c.check u .empty).1.findings =
        [.unresolvableTag "app.Valve" [.worker, .uiEventThread],
          .unresolvableTag "app.Pump" [.any, .simulationThread, .worker],
          .unresolvableTag "old.Flow" [.uiEventThread, .any],
          .unresolvableTag "old" [.any, .worker]] := by
  have hbuild : SourceUnit.build valveFacts = .ok (.ofFacts valveFacts) :=
    SourceUnit.build_ofFacts (by decide +kernel)
  refine ⟨_, hbuild, ?_⟩
  intro c
  obtain ⟨disputed, tags, rest, -, -, -, -, -, hasked, -, -, hconflicts⟩ :=
    c.check_unresolvableTags ⟨valveFacts, hbuild⟩ .empty
  exact ⟨hconflicts, hasked, by decide +kernel⟩

end Checker

end ThreadConfinement
