import ThreadConfinement.Proofs.Locks
import ThreadConfinement.Proofs.OverrideConflicts
import ThreadConfinement.Proofs.Suppression
import Mathlib.Data.List.Perm.Subperm

/-!
What tags for all subclasses add to a report.

The same unit is checked twice, with such tags standing in for override edges
and without.  A lock that is demanded for an implied override may be demanded
later for another reason; `Checker.find?_demands_propagate` says that this never
changes who asks for it, so the report only grows: `Checker.check_propagate`.
-/

namespace ThreadConfinement

namespace Checker

def propagate (c : Checker) (on : Bool) : Checker :=
  { c with settings := { c.settings with subclassPropagation? := some on } }

variable (c : Checker) (u : SourceUnit)

def statedDemands : List Demand :=
  (u.overrides.flatMap
    ((c.context u).edgeActs c.settings.exemptPatterns)).filterMap Act.demand?

def impliedDemands : List Demand :=
  (u.model.declarations.flatMap
    ((c.context u).impliedByActs c.settings.exemptPatterns
      u.overrides)).filterMap Act.demand?

def accessDemands : List Demand :=
  if c.settings.checkFieldAccess then
    (u.fieldAccesses.flatMap (c.context u).accessActs).filterMap Act.demand?
  else []

def guardDemands : List Demand :=
  (u.model.declarations.flatMap
    ((c.context u).guardActs (fun id => .mark id ∈ c.edgeActs u))).filterMap
    Act.demand?

theorem demands_eq :
    c.demands u =
      c.statedDemands u ++
        (if c.settings.subclassPropagation then c.impliedDemands u else []) ++
        c.accessDemands u ++ c.guardDemands u := by
  -- families and calls decide about no lock
  have hnone {acts : List Act} (hacts : ∀ act : Act,
      act.concernsLock = true → act ∉ acts) :
      acts.filterMap Act.demand? = [] := by
    rw [List.eq_nil_iff_forall_not_mem]
    intro d hd
    exact hacts _ rfl (Act.mem_filterMap_demand?.mp hd)
  have hfamilies : (((c.context u).parentsByChild u.overrides).toList.flatMap
      ((c.context u).familyActs
        (c.context u).settings.exemptPatterns)).filterMap Act.demand? =
      [] := by
    refine hnone (fun act hact hmem => ?_)
    obtain ⟨family, -, hmem⟩ := List.mem_flatMap.mp hmem
    exact Context.notMem_familyActs hact hmem
  have hcalls :
      (u.calls.flatMap ((c.context u).callActs u.overrides)).filterMap
        Act.demand? = [] := by
    refine hnone (fun act hact hmem => ?_)
    obtain ⟨e, -, hmem⟩ := List.mem_flatMap.mp hmem
    exact Context.notMem_callActs hact hmem
  have hedges : (c.edgeActs u).filterMap Act.demand? =
      c.statedDemands u ++
        (if c.settings.subclassPropagation then c.impliedDemands u else []) ++
        c.accessDemands u := by
    simp only [edgeActs, Context.overridesActs, List.filterMap_append,
      hfamilies, hcalls, List.append_nil,
      apply_ite (List.filterMap Act.demand?), List.filterMap_nil]
    rfl
  rw [demands, acts, List.filterMap_append, hedges]
  rfl

theorem demands_propagate_true :
    (c.propagate true).demands u =
      c.statedDemands u ++ c.impliedDemands u ++ c.accessDemands u ++
        (c.propagate true).guardDemands u :=
  demands_eq (c.propagate true) u

theorem demands_propagate_false :
    (c.propagate false).demands u =
      c.statedDemands u ++ c.accessDemands u ++
        (c.propagate false).guardDemands u := by
  have hdemands : (c.propagate false).demands u =
      c.statedDemands u ++ [] ++ c.accessDemands u ++
        (c.propagate false).guardDemands u :=
    demands_eq (c.propagate false) u
  rw [hdemands, List.append_nil]

variable {c u}

theorem place_of_mem_statedDemands {d : Demand} (hd : d ∈ c.statedDemands u) :
    d.place = none := by
  obtain ⟨e, -, hmem⟩ := List.mem_flatMap.mp (Act.mem_filterMap_demand?.mp hd)
  obtain ⟨child, -, -, hmem⟩ := (Context.mem_edgeActs_iff rfl).mp hmem
  exact (Context.demand_mem_lockActs.mp hmem).2.2.1.symm

theorem implies_of_mem_impliedDemands
    (haccepted : u.model.Accepted) {d : Demand} (hd : d ∈ c.impliedDemands u) :
    d.place = none ∧
      ∃ parent child, (c.context u).Implies u.overrides parent child ∧
      child.id = d.actor ∧ child.location = d.location ∧
      overrideDemand? ((c.context u).effectiveTag? child.id)
        ((c.context u).effectiveTag? parent.id) = some d.requiredBy := by
  obtain ⟨parent, hparent, hmem⟩ :=
    List.mem_flatMap.mp (Act.mem_filterMap_demand?.mp hd)
  rw [Context.impliedByActs_eq] at hmem
  obtain ⟨child, hchild, hmem⟩ := List.mem_flatMap.mp hmem
  have himplies : (c.context u).Implies u.overrides parent child :=
    (Context.mem_impliedBy_iff haccepted hparent).mp hchild
  obtain ⟨-, hmem⟩ := (Context.mem_impliedActs_iff rfl).mp hmem
  obtain ⟨-, hdemand, hplace, hactor, hlocation⟩ :=
    Context.demand_mem_lockActs.mp hmem
  exact ⟨hplace.symm, parent, child, himplies, hactor, hlocation, hdemand⟩

theorem place_of_mem_accessDemands {d : Demand} (hd : d ∈ c.accessDemands u) :
    d.place ≠ none := by
  rw [accessDemands, List.mem_ite_nil_right] at hd
  obtain ⟨e, -, hmem⟩ := List.mem_flatMap.mp (Act.mem_filterMap_demand?.mp hd.2)
  exact Context.place_of_demand_mem_accessActs hmem

theorem tagged_of_mem_guardDemands {d : Demand} (hd : d ∈ c.guardDemands u) :
    d.place = none ∧ (c.context u).effectiveTag? d.actor ≠ none := by
  obtain ⟨decl, -, hmem⟩ :=
    List.mem_flatMap.mp (Act.mem_filterMap_demand?.mp hd)
  obtain ⟨-, -, -, hmem⟩ := Context.mem_guardActs_iff.mp hmem
  obtain ⟨-, hdemand, hplace, hactor, -⟩ :=
    Declaration.demand_mem_demands.mp hmem
  obtain ⟨htag, -⟩ := LocatedTag.lockDemand?_eq_some_iff.mp hdemand
  rw [← hactor, htag]
  exact ⟨hplace.symm, by simp⟩

section Tagged

variable (haccepted : u.Accepted) {id : DeclId} {own : LocatedTag}
  (htag : (c.context u).effectiveTag? id = some own)

include haccepted htag

/-- The lock of a declaration with a tag is demanded by that tag or not at all,
and the setting does not matter. -/
theorem mem_demands_propagate {on : Bool} {d : Demand}
    (hd : d ∈ (c.propagate on).demands u) (hlock : d.lock = (id, none))
    (on' : Bool) :
    d.requiredBy = own ∧ d ∈ (c.propagate on').demands u := by
  obtain ⟨actor, location, place, requiredBy⟩ := d
  cases hlock
  obtain ⟨e, ⟨he, hskip, hguarded, hreason⟩, hid, hlocation⟩ :=
    (mem_demands_iff haccepted).mp hd
  cases hid
  cases hreason with
  | own htag' hsync hasked =>
      exact ⟨Option.some.inj (htag'.symm.trans htag),
        (mem_demands_iff haccepted).mpr ⟨e,
          ⟨he, hskip, hguarded, .own htag' hsync hasked⟩, rfl, hlocation⟩⟩
  | inherited huntagged _ _ _ _ => cases huntagged.symm.trans htag

theorem find?_demands_of_tagged (on on' : Bool) :
    ((c.propagate on).demands u).find? (fun e => e.lock == (id, none)) =
      ((c.propagate on').demands u).find? (fun e => e.lock == (id, none)) := by
  have hunique (on : Bool) : ∀ d ∈ (c.propagate on).demands u,
      ∀ e ∈ (c.propagate on).demands u, d.lock = (id, none) →
        e.lock = (id, none) → d = e := by
    intro d hd e he hlock hlock'
    obtain ⟨hrequired, -⟩ := mem_demands_propagate haccepted htag hd hlock on
    obtain ⟨hrequired', -⟩ := mem_demands_propagate haccepted htag he hlock' on
    obtain ⟨first, hfirst, hid, hlocation⟩ := (mem_demands_iff haccepted).mp hd
    obtain ⟨second, hsecond, hid', hlocation'⟩ :=
      (mem_demands_iff haccepted).mp he
    obtain ⟨hactor, hplace⟩ := Prod.mk.inj (hlock.trans hlock'.symm)
    cases haccepted.model.eq_of_id_eq hfirst.mem hsecond.mem
      (by rw [hid, hid', hactor])
    cases d
    cases e
    simp_all
  ext d
  rw [Demand.find?_lock_eq_some_iff (hunique on),
    Demand.find?_lock_eq_some_iff (hunique on')]
  constructor
  · rintro ⟨hd, hlock⟩
    exact ⟨(mem_demands_propagate haccepted htag hd hlock on').2, hlock⟩
  · rintro ⟨hd, hlock⟩
    exact ⟨(mem_demands_propagate haccepted htag hd hlock on).2, hlock⟩

end Tagged

/-- Only field accesses ask for the lock of a field. -/
theorem find?_demands_of_place (haccepted : u.model.Accepted) (id : DeclId)
    (place : String) :
    ((c.propagate true).demands u).find? (fun e => e.lock == (id, some place)) =
      ((c.propagate false).demands u).find?
        (fun e => e.lock == (id, some place)) := by
  have hnone {demands : List Demand} (hplace : ∀ d ∈ demands, d.place = none) :
      demands.find? (fun e => e.lock == (id, some place)) = none := by
    refine Demand.find?_lock_eq_none (fun d hd hlock => ?_)
    have hsome : d.place = some place := congrArg Prod.snd hlock
    cases hsome.symm.trans (hplace d hd)
  have hstated :=
    hnone (fun _ hd => place_of_mem_statedDemands (c := c) (u := u) hd)
  have himplied :=
    hnone (fun _ hd => (implies_of_mem_impliedDemands (c := c) haccepted hd).1)
  have hguards (on : Bool) :=
    hnone (fun _ hd => (tagged_of_mem_guardDemands (c := c.propagate on)
      (u := u) hd).1)
  simp only [demands_propagate_true, demands_propagate_false, List.find?_append,
    hstated, himplied, hguards, Option.none_or]

/-- Only overrides ask a declaration without a tag for its own lock, and edges
ask before implied overrides do. -/
theorem find?_demands_of_untagged {id : DeclId}
    (huntagged : (c.context u).effectiveTag? id = none) :
    ((c.propagate true).demands u).find? (fun e => e.lock == (id, none)) =
        ((c.statedDemands u).find? (fun e => e.lock == (id, none))).or
          ((c.impliedDemands u).find? (fun e => e.lock == (id, none))) ∧
      ((c.propagate false).demands u).find? (fun e => e.lock == (id, none)) =
        (c.statedDemands u).find? (fun e => e.lock == (id, none)) := by
  have haccess :
      (c.accessDemands u).find? (fun e => e.lock == (id, none)) = none :=
    Demand.find?_lock_eq_none (fun _ hd hlock =>
      place_of_mem_accessDemands hd (congrArg Prod.snd hlock))
  have hguards (on : Bool) :
      ((c.propagate on).guardDemands u).find? (fun e => e.lock == (id, none)) =
        none := by
    refine Demand.find?_lock_eq_none
      (fun d hd hlock => (tagged_of_mem_guardDemands hd).2 ?_)
    have hactor : d.actor = id := congrArg Prod.fst hlock
    rw [hactor]
    exact huntagged
  simp only [demands_propagate_true, demands_propagate_false, List.find?_append,
    haccess, hguards, Option.or_none, and_self]

/-- Who asks first for a lock is the same with implied overrides as without,
except where nobody asks without them. -/
theorem find?_demands_propagate (haccepted : u.Accepted)
    (lock : DeclId × Option String) :
    ((c.propagate true).demands u).find? (fun e => e.lock == lock) =
        ((c.propagate false).demands u).find? (fun e => e.lock == lock) ∨
      (c.context u).effectiveTag? lock.1 = none ∧
        ((c.propagate false).demands u).find? (fun e => e.lock == lock) = none ∧
        ∃ d ∈ c.impliedDemands u,
          ((c.propagate true).demands u).find? (fun e => e.lock == lock) =
            some d := by
  rcases lock with ⟨id, _ | place⟩
  · cases htag : (c.context u).effectiveTag? id with
    | some own =>
      exact Or.inl (find?_demands_of_tagged haccepted htag true false)
    | none =>
        obtain ⟨hon, hoff⟩ := find?_demands_of_untagged htag
        rw [hon, hoff]
        cases (c.statedDemands u).find? (fun e => e.lock == (id, none)) with
        | some d => exact Or.inl rfl
        | none =>
            cases himplied : (c.impliedDemands u).find?
                (fun e => e.lock == (id, none)) with
            | none => exact Or.inl rfl
            | some d =>
              exact Or.inr ⟨rfl, rfl, d,
                List.mem_of_find?_eq_some himplied, rfl⟩
  · exact Or.inl (find?_demands_of_place haccepted.model id place)

/-- The locks that are reported with implied overrides are those without, and
further ones of methods without a tag. -/
theorem perm_fresh_demands_propagate (haccepted : u.Accepted) :
    ∃ extra : List Demand,
      (Demand.fresh (fun _ _ => false) ((c.propagate true).demands u)).Perm
        (Demand.fresh (fun _ _ => false)
          ((c.propagate false).demands u) ++ extra) ∧
      ∀ d ∈ extra, d ∈ c.impliedDemands u ∧
      (c.context u).effectiveTag? d.actor = none := by
  have hnodup (on : Bool) :
      (Demand.fresh (fun _ _ => false) ((c.propagate on).demands u)).Nodup :=
    (Demand.nodup_map_lock_fresh _ _).of_map _
  have hsubset :
      Demand.fresh (fun _ _ => false) ((c.propagate false).demands u) ⊆
        Demand.fresh (fun _ _ => false) ((c.propagate true).demands u) := by
    intro d hd
    obtain ⟨hknown, hfind⟩ := Demand.mem_fresh_iff.mp hd
    refine Demand.mem_fresh_iff.mpr ⟨hknown, ?_⟩
    rcases find?_demands_propagate haccepted d.lock with hsame | ⟨-, hnone, -⟩
    · rw [hsame]
      exact hfind
    · cases hnone.symm.trans hfind
  obtain ⟨kept, hkept, hsublist⟩ :=
    List.subperm_of_subset (hnodup false) hsubset
  obtain ⟨extra, hextra⟩ := hsublist.exists_perm_append
  have hperm := hextra.trans (hkept.append_right extra)
  refine ⟨extra, hperm, ?_⟩
  intro d hd
  have hon :=
    (Demand.mem_fresh_iff.mp (hperm.mem_iff.mpr (List.mem_append_right _ hd))).2
  have hdisjoint :=
    List.disjoint_of_nodup_append (hperm.nodup_iff.mp (hnodup true))
  rcases find?_demands_propagate haccepted d.lock with hsame |
    ⟨huntagged, -, e, he, hfind⟩
  · exact absurd hd
      (hdisjoint (Demand.mem_fresh_iff.mpr ⟨rfl, hsame.symm.trans hon⟩))
  · cases hfind.symm.trans hon
    exact ⟨he, huntagged⟩

/-- All that a run reports: markers that disagree, tags on edges, and locks. -/
theorem perm_findings_check (c : Checker) (haccepted : u.model.Accepted)
    (registry : Registry) :
    (c.check u registry).1.findings.Perm
      (u.model.declarations.filterMap c.library.conflict? ++
        (c.edgeFindings u ++
          (Demand.fresh (fun _ _ => false) (c.demands u)).map
            Demand.finding)) := by
  have hrun : (c.check u registry).1.findings =
      (c.run u registry).journal.findings := rfl
  rw [hrun, c.findings_run haccepted]
  refine (c.perm_findings_opening haccepted registry).append ?_
  refine (List.filter_append_perm Finding.concernsTags _).symm.trans ?_
  rw [Act.filter_concernsTags_heard, tagFindings_acts]
  have hlocks : (fun f : Finding => !f.concernsTags) =
      fun f => f.rule == .missingSynchronization := by
    funext f
    exact Bool.not_not _
  rw [hlocks, Act.filter_missingSynchronization_heard _
    (fun _ _ => rule_of_report_mem_acts haccepted)]
  exact .refl _

/-- What is reported about tags with implied overrides and without. -/
theorem perm_edgeFindings_propagate (c : Checker) (u : SourceUnit) :
    ((c.propagate true).edgeFindings u).Perm
      ((c.propagate false).edgeFindings u ++ u.model.declarations.flatMap
        ((c.context u).impliedFindings c.settings.exemptPatterns
          u.overrides)) := by
  have hmove (stated implied families calls accesses : List Finding) :
      (stated ++ implied ++ families ++ calls ++ accesses).Perm
        (stated ++ [] ++ families ++ calls ++ accesses ++ implied) := by
    simp only [List.append_nil, List.append_assoc]
    have hcomm : (implied ++ (families ++ calls ++ accesses)).Perm
        (families ++ calls ++ accesses ++ implied) := List.perm_append_comm
    simp only [List.append_assoc] at hcomm
    exact hcomm.append_left stated
  exact hmove _ _ _ _ _

/-- The first round goes by the library alone. -/
theorem opening_congr {c c' : Checker} (hlibrary : c'.library = c.library)
    (u : SourceUnit) (registry : Registry) :
    c'.opening u registry = c.opening u registry := by
  have hctx : (c.context u).Resembles (fun _ => []) (c'.context u) :=
    ⟨⟨rfl, fun id => by simp [Declaration.mute_nothing]; rfl⟩, hlibrary⟩
  have hstep : Pass.resolveDeclaration (c'.context u) =
      Pass.resolveDeclaration (c.context u) := by
    funext p d
    rw [Pass.resolveDeclaration, Pass.resolve_mute hctx]
    rfl
  rw [opening, Pass.resolveAll, hstep]
  rfl

theorem opening_propagate (c : Checker) (u : SourceUnit)
    (registry : Registry) (on : Bool) :
    (c.propagate on).opening u registry = c.opening u registry := by
  have hlibrary : (c.propagate on).library = c.library := rfl
  exact opening_congr hlibrary u registry

/-- A report is made of the first round and of the acts that follow. -/
theorem check_congr {c c' : Checker} (haccepted : u.model.Accepted)
    {registry : Registry}
    (hopening : c'.opening u registry = c.opening u registry)
    (hacts : c'.acts u = c.acts u) :
    c'.check u registry = c.check u registry := by
  obtain ⟨p, hp, hregistry, hfindings, hstats, -⟩ :=
    c.run_performs haccepted registry
  obtain ⟨p', hp', hregistry', hfindings', hstats', -⟩ :=
    c'.run_performs haccepted registry
  rw [hopening, hacts] at hp'
  have hledger : p'.ledger = p.ledger := hp'.ledger.trans hp.ledger.symm
  have hsame : p'.journal.findings = p.journal.findings :=
    congrArg Ledger.findings hledger
  have hcounts : p'.stats = p.stats := congrArg Ledger.stats hledger
  have htotal : p'.findingCount = p.findingCount :=
    congrArg Ledger.count hledger
  simp only [check, Pass.toReport, hregistry, hregistry', hfindings, hfindings',
    hstats, hstats', hsame, hcounts, htotal, hp.registry, hp'.registry]

/-- Where no tag is for all subclasses, nothing is implied. -/
theorem acts_propagate {c : Checker} {u : SourceUnit}
    (hcovers : ∀ d ∈ u.model.declarations,
      ∀ tag ∈ (c.context u).effectiveTag? d.id, tag.coversSubclasses = false) :
    (c.propagate true).acts u = (c.propagate false).acts u := by
  have himplied : u.model.declarations.flatMap
      ((c.context u).impliedByActs c.settings.exemptPatterns u.overrides) =
        [] := by
    refine List.flatMap_eq_nil_iff.mpr (fun d hd => ?_)
    have hnone :
        ((c.context u).effectiveTag? d.id).any (·.coversSubclasses) = false :=
      by simpa [Option.any_eq_false] using hcovers d hd
    rw [Context.impliedByActs, hnone]
    simp
  have hedges :
      (c.propagate true).edgeActs u = (c.propagate false).edgeActs u := by
    have hdrop (stated families calls accesses : List Act) {implied : List Act}
        (hnothing : implied = []) : stated ++ implied ++ families ++
          calls ++ accesses =
          stated ++ [] ++ families ++ calls ++ accesses := by rw [hnothing]
    exact hdrop _ _ _ _ himplied
  rw [acts, hedges, acts]
  rfl

/-- The finding comes from an override that is implied: the tags clash, or a
child without a tag must hold the lock that its parent asks for. -/
def FromImplied (c : Checker) (u : SourceUnit) (f : Finding) : Prop :=
  ∃ parent child, (c.context u).Implies u.overrides parent child ∧
    (f = (c.context u).conflict true (parent, child) ∨
      (c.context u).effectiveTag? child.id = none ∧
        ∃ tag ∈ (c.context u).effectiveTag? parent.id,
          f = .missingSynchronization child.location tag)

theorem fromImplied_of_mem_impliedFindings
    (haccepted : u.model.Accepted) {f : Finding}
    (hf : f ∈ u.model.declarations.flatMap
      ((c.context u).impliedFindings c.settings.exemptPatterns u.overrides)) :
    c.FromImplied u f := by
  have hmodel : (c.context u).model.Accepted := haccepted
  have himplied : u.model.declarations.flatMap
      ((c.context u).impliedFindings c.settings.exemptPatterns u.overrides) =
        _ :=
    Context.flatMap_impliedFindings hmodel u.overrides
  rw [himplied] at hf
  obtain ⟨⟨parent, child⟩, hpair, rfl⟩ := List.mem_map.mp hf
  exact ⟨parent, child,
    (Context.mem_impliedPairs_iff hmodel).mp (List.mem_filter.mp hpair).1,
    Or.inl rfl⟩

theorem fromImplied_finding (haccepted : u.model.Accepted) {d : Demand}
    (hd : d ∈ c.impliedDemands u)
    (huntagged : (c.context u).effectiveTag? d.actor = none) :
    c.FromImplied u d.finding := by
  obtain ⟨-, parent, child, himplies, hid, hlocation, hdemand⟩ :=
    implies_of_mem_impliedDemands haccepted hd
  rw [← hid] at huntagged
  obtain ⟨-, htag | ⟨-, htag⟩⟩ := overrideDemand?_eq_some_iff.mp hdemand
  · cases huntagged.symm.trans htag
  · refine ⟨parent, child, himplies, Or.inr ⟨huntagged, d.requiredBy, htag, ?_⟩⟩
    rw [hlocation]
    rfl

/-- Whether the setting was made or is the one that holds by default does not
matter. -/
theorem check_propagate_self (c : Checker) (haccepted : u.model.Accepted)
    (registry : Registry) :
    (c.propagate c.settings.subclassPropagation).check u registry =
      c.check u registry :=
  check_congr haccepted (c.opening_propagate u registry _) rfl

/-- With implied overrides a run reports all that it reports without them, and
besides only what comes from implied overrides; where no tag is for all
subclasses, the two runs agree. -/
theorem check_propagate (c : Checker) {u : SourceUnit} (haccepted : u.Accepted)
    (hon : c.settings.subclassPropagation = true) (registry : Registry) :
    (∃ extra : List Finding,
      (c.check u registry).1.findings.Perm
        (((c.propagate false).check u registry).1.findings ++ extra) ∧
      ∀ f ∈ extra, c.FromImplied u f) ∧
    ((∀ d ∈ u.model.declarations, ∀ tag ∈ (c.context u).effectiveTag? d.id,
        tag.coversSubclasses = false) →
      c.check u registry = (c.propagate false).check u registry) := by
  rw [← c.check_propagate_self haccepted.model, hon]
  constructor
  · obtain ⟨demands, hdemands, hextra⟩ :=
      perm_fresh_demands_propagate haccepted (c := c)
    have hwith :=
      (c.propagate true).perm_findings_check haccepted.model registry
    have hwithout :=
      (c.propagate false).perm_findings_check haccepted.model registry
    have htags := c.perm_edgeFindings_propagate u
    have hlocks := hdemands.map Demand.finding
    rw [List.map_append] at hlocks
    have hgroup (markers tags implied locks more : List Finding) :
        (markers ++ (tags ++ implied ++ (locks ++ more))).Perm
          (markers ++ (tags ++ locks) ++ (implied ++ more)) := by
      simp only [List.append_assoc]
      exact ((List.perm_append_comm_assoc implied locks more).append_left
        tags).append_left markers
    refine ⟨u.model.declarations.flatMap
      ((c.context u).impliedFindings c.settings.exemptPatterns u.overrides) ++
        demands.map Demand.finding, ?_, ?_⟩
    · refine hwith.trans (((htags.append hlocks).append_left _).trans ?_)
      exact (hgroup _ _ _ _ _).trans (hwithout.append_right _).symm
    · intro f hf
      rcases List.mem_append.mp hf with hf | hf
      · exact fromImplied_of_mem_impliedFindings haccepted.model hf
      · obtain ⟨d, hd, rfl⟩ := List.mem_map.mp hf
        exact fromImplied_finding haccepted.model (hextra d hd).1
          (hextra d hd).2
  · intro hcovers
    refine check_congr haccepted.model ?_ (acts_propagate hcovers)
    rw [opening_propagate, opening_propagate]

/-- A lamp that glows under its lock, a torch that says nothing about its glow,
and a spot that glows on a worker and under a lock of its own. -/
def lampFacts : UnitFacts where
  name := "lamps"
  declarations :=
    [{ id := ⟨1⟩, kind := .module, location := "app", qualifiedName := "app" },
      { id := ⟨2⟩, kind := .type, enclosing := some ⟨1⟩, location := "app.Lamp",
        qualifiedName := "app.Lamp" },
      { id := ⟨3⟩, kind := .method, enclosing := some ⟨2⟩,
        location := "app.Lamp.glow", qualifiedName := "app.Lamp.glow",
        signature := some "glow" },
      { id := ⟨4⟩, kind := .type, enclosing := some ⟨1⟩,
        location := "app.Torch", qualifiedName := "app.Torch",
        supertypes := [⟨2⟩] },
      { id := ⟨5⟩, kind := .method, enclosing := some ⟨4⟩,
        location := "app.Torch.glow", qualifiedName := "app.Torch.glow",
        signature := some "glow" },
      { id := ⟨6⟩, kind := .type, enclosing := some ⟨1⟩, location := "app.Spot",
        qualifiedName := "app.Spot", supertypes := [⟨4⟩] },
      { id := ⟨7⟩, kind := .method, enclosing := some ⟨6⟩,
        location := "app.Spot.glow", qualifiedName := "app.Spot.glow",
        signature := some "glow",
        markers := [{ tag := .worker, requireSynchronized := true }] }]

def lampRules : List LibraryRule :=
  [{ scope := .method, path := "app.Lamp.glow", tag := .uiEventThread,
     requireSynchronized := true, coversSubclasses := true }]

/-- The lock of the spot is asked for by an implied override, and without that
by its own tag. -/
theorem lamp_check_propagate :
    ∃ u, SourceUnit.build lampFacts = .ok u ∧
      let c := Checker.ofSettings { library := lampRules }
      c.settings.subclassPropagation = true ∧
      (c.check u .empty).1.findings.map Finding.location =
        ["app.Torch.glow", "app.Spot.glow", "app.Spot.glow", "app.Lamp.glow"] ∧
      ((c.propagate false).check u .empty).1.findings.map Finding.location =
        ["app.Lamp.glow", "app.Spot.glow"] ∧
      ∃ extra : List Finding, extra.length = 2 ∧
        (c.check u .empty).1.findings.Perm
          (((c.propagate false).check u .empty).1.findings ++ extra) ∧
        ∀ f ∈ extra, c.FromImplied u f := by
  have hbuild : SourceUnit.build lampFacts = .ok (.ofFacts lampFacts) :=
    SourceUnit.build_ofFacts (by decide +kernel)
  refine ⟨_, hbuild, ?_⟩
  intro c
  have hwith :
      (c.check (.ofFacts lampFacts) .empty).1.findings.map Finding.location =
        ["app.Torch.glow", "app.Spot.glow", "app.Spot.glow",
          "app.Lamp.glow"] := by decide +kernel
  have hwithout :
      ((c.propagate false).check (.ofFacts lampFacts) .empty).1.findings.map
        Finding.location = ["app.Lamp.glow", "app.Spot.glow"] := by
    decide +kernel
  obtain ⟨extra, hperm, hextra⟩ :=
    (c.check_propagate ⟨lampFacts, hbuild⟩ rfl .empty).1
  have hlength := (hperm.map Finding.location).length_eq
  rw [List.map_append, hwith, hwithout] at hlength
  refine ⟨rfl, hwith, hwithout, extra, ?_, hperm, hextra⟩
  simpa using hlength.symm

end Checker

end ThreadConfinement
