import ThreadConfinement.Proofs.CallViolations
import ThreadConfinement.Proofs.Propagation

/-!
What inheriting the calling context takes from a report.

The same unit is checked twice, with callers without a tag on their own and with
the tags of what they override.  Code without a tag may call the least, so a
caller that inherits a tag may call more: `Checker.check_inheriting` says that
findings on calls go and that nothing else changes.
-/

namespace ThreadConfinement

/-! ### Acts that differ in reports only -/

namespace Act

def reportsUnder (rules : Rule → Bool) : Act → Bool
  | report _ finding => rules finding.rule
  | count _ | mark _ | demand .. => false

def lessReports (rules : Rule → Bool) (acts : List Act) : List Act :=
  acts.filter (fun act => !act.reportsUnder rules)

variable {rules : Rule → Bool}

theorem lessReports_append (acts more : List Act) :
    lessReports rules (acts ++ more) =
      lessReports rules acts ++ lessReports rules more :=
  List.filter_append ..

theorem lessReports_flatMap {α : Type} (items : List α) (acts : α → List Act) :
    lessReports rules (items.flatMap acts) =
      items.flatMap (fun a => lessReports rules (acts a)) :=
  List.filter_flatMap ..

/-- Reports decide about no lock, so without some of them all else is heard as
before. -/
theorem heard_lessReports (hlocks : rules .missingSynchronization = false)
    (known : DeclId → Option String → Bool) (acts : List Act) :
    heard known (lessReports rules acts) =
      (heard known acts).filter (fun item => !rules item.2.rule) := by
  induction acts generalizing known with
  | nil => rfl
  | cons act rest ih =>
      cases act with
      | count counter => exact ih known
      | mark actor => exact ih known
      | report actor finding =>
          by_cases hrule : rules finding.rule = true
          · simpa [lessReports, reportsUnder, heard, hrule] using ih known
          · simpa [lessReports, reportsUnder, heard, hrule] using ih known
      | demand actor location place requiredBy =>
          have hkept :
              lessReports rules
                (demand actor location place requiredBy :: rest) =
                demand actor location place requiredBy ::
                  lessReports rules rest := rfl
          rw [hkept, heard, heard]
          split
          · exact ih known
          · rw [List.filter_cons_of_pos (by simp [Finding.rule, hlocks]), ih]

theorem counters_lessReports (acts : List Act) :
    (lessReports rules acts).filterMap counter? = acts.filterMap counter? := by
  rw [lessReports, List.filterMap_filter]
  apply List.filterMap_congr
  intro act _
  cases act <;> simp [reportsUnder, counter?]

theorem mark_mem_lessReports {acts : List Act} {id : DeclId} :
    mark id ∈ lessReports rules acts ↔ mark id ∈ acts := by
  simp [lessReports, reportsUnder]

end Act

namespace Checker

variable {c c' : Checker} {u : SourceUnit} {rules : Rule → Bool}

/-- Methods are asked for their own locks by marks, and no report sets one. -/
theorem lessReports_acts
    (hedges : Act.lessReports rules (c'.edgeActs u) =
      Act.lessReports rules (c.edgeActs u))
    (hguards : (c'.context u).guardActs = (c.context u).guardActs) :
    Act.lessReports rules (c'.acts u) = Act.lessReports rules (c.acts u) := by
  have hmarked : (fun id => decide (.mark id ∈ c'.edgeActs u)) =
      fun id => decide (.mark id ∈ c.edgeActs u) := by
    funext id
    rw [decide_eq_decide, ← @Act.mark_mem_lessReports rules, hedges,
      Act.mark_mem_lessReports]
  rw [acts, acts, hguards, hmarked, Act.lessReports_append,
    Act.lessReports_append, hedges]

/-- Runs whose acts differ in reports under some rules have the same counters,
apart from that of findings, and the same findings under all other rules. -/
theorem check_of_lessReports (haccepted : u.model.Accepted)
    (registry : Registry) (hlocks : rules .missingSynchronization = false)
    (hlibrary : c'.library = c.library)
    (hacts : Act.lessReports rules (c'.acts u) =
      Act.lessReports rules (c.acts u)) :
    (c'.check u registry).2 = (c.check u registry).2 ∧
      { (c'.check u registry).1.stats with findings := (c.check u
        registry).1.stats.findings } =
        (c.check u registry).1.stats ∧
      (c'.check u registry).1.findings.filter (fun f => !rules f.rule) =
        (c.check u registry).1.findings.filter (fun f => !rules f.rule) := by
  have heffective :
      (c'.context u).effectiveTag? = (c.context u).effectiveTag? := by
    funext id
    simp only [Context.effectiveTag?, context, hlibrary]
  have hheld : (c'.context u).heldTags = (c.context u).heldTags := by
    funext ds
    simp only [Context.heldTags, heffective]
  have hregistry (c : Checker) :
      (c.check u registry).2 = (c.run u registry).registry := rfl
  have hstats (c : Checker) :
      (c.check u registry).1.stats = (c.run u registry).stats := rfl
  have hfindings (c : Checker) :
      (c.check u registry).1.findings =
        (c.run u registry).journal.findings := rfl
  refine ⟨?_, ?_, ?_⟩
  · rw [hregistry, hregistry, c'.registry_run haccepted,
      c.registry_run haccepted, hheld]
  · rw [hstats, hstats, c'.stats_run haccepted, c.stats_run haccepted, hheld,
      ← Act.counters_lessReports (c'.acts u), hacts, Act.counters_lessReports]
  · rw [hfindings, hfindings, c'.findings_run haccepted,
      c.findings_run haccepted, opening_congr hlibrary, List.filter_append,
      List.filter_append, List.filter_map, List.filter_map]
    have hheard := Act.heard_lessReports hlocks (fun _ _ => false) (c'.acts u)
    rw [hacts, Act.heard_lessReports hlocks] at hheard
    exact congrArg (fun items => _ ++ items.map Prod.snd) hheard.symm

end Checker

/-! ### Callers that inherit a tag -/

/-- Who calls whom, where the finding is on a call. -/
def Finding.call? : Finding → Option (String × String × Bool)
  | callSiteViolation caller callee _ _ sameInstance =>
    some (caller, callee, sameInstance)
  | _ => none

theorem Report.filterMap_call? (r : Report) :
    r.findings.filterMap Finding.call? =
      (r.findingsOf .callSiteViolation).filterMap Finding.call? := by
  rw [findingsOf, List.filterMap_filter]
  apply List.filterMap_congr
  intro f _
  cases f <;> rfl

theorem Context.filterMap_call?_violation (ctx : Context)
    (overrides : List OverrideEdge) (calls : List Call) :
    (calls.map (ctx.violation overrides)).filterMap Finding.call? =
      calls.map (fun call => (call.caller.location, call.callee.location,
        call.sameInstance)) := by
  rw [List.filterMap_map, ← List.filterMap_eq_map]
  rfl

/-- Without its report, what is left of a call is its count. -/
theorem Context.lessReports_callActs (ctx : Context)
    (overrides : List OverrideEdge) (e : CallEdge) :
    Act.lessReports (· == .callSiteViolation) (ctx.callActs overrides e) =
      (ctx.model.find? e.caller).elim []
        (fun caller => ctx.acting caller [.count .calls]) := by
  rw [callActs]
  cases ctx.model.find? e.caller with
  | none => rfl
  | some caller =>
      simp only [acting, Option.elim_some]
      split
      · rfl
      · cases hfinding : ctx.callFinding? overrides e with
        | none => rfl
        | some f =>
            simp [Act.lessReports, Act.reportsUnder,
              rule_of_callFinding? hfinding]

/-- What code without a tag may call, all code may call. -/
theorem callAllowed_of_untagged {callee : Option Tag} {sameInstance : Bool}
    (hcall : callAllowed none callee sameInstance = true)
    (caller : Option Tag) :
    callAllowed caller callee sameInstance = true := by
  rw [callAllowed_iff] at hcall ⊢
  rcases hcall with hnone | hany | hsame | ⟨hcaller, -⟩ | ⟨-, hcaller, -⟩
  · exact Or.inl hnone
  · exact Or.inr (Or.inl hany)
  · exact Or.inl hsame.symm
  · cases hcaller
  · exact absurd rfl hcaller

namespace Checker

def inheriting (c : Checker) : Checker :=
  { c with settings := { c.settings with inheritFromOverridden? := some true } }

variable {c : Checker} {u : SourceUnit}

/-- With the setting off, a call is judged by the tags of its two ends. -/
theorem violates_iff_of_off (hoff : c.settings.inheritFromOverridden = false)
    {overrides : List OverrideEdge} {call : Call} :
    (c.context u).Violates overrides call ↔
      (c.context u).skipReason? call.caller = none ∧
        callAllowed (((c.context u).effectiveTag? call.caller.id).map (·.tag))
          (((c.context u).effectiveTag? call.callee.id).map (·.tag))
          call.sameInstance = false := by
  rw [Context.Violates, (c.context u).callingTag?_eq_effectiveTag? hoff]

/-- A call that is reported with the setting on is also reported with it off. -/
theorem violates_of_inheriting (hoff : c.settings.inheritFromOverridden = false)
    {overrides : List OverrideEdge} {call : Call}
    (hviolates : (c.inheriting.context u).Violates overrides call) :
    (c.context u).Violates overrides call := by
  obtain ⟨hskip, hforbidden⟩ := hviolates
  refine (violates_iff_of_off hoff).mpr ⟨hskip, ?_⟩
  cases htag : (c.context u).effectiveTag? call.caller.id with
  | some tag =>
      have hcalling :
          (c.inheriting.context u).callingTag? overrides call.caller.id =
            some tag :=
        Context.callingTag?_of_tagged htag
      rw [hcalling] at hforbidden
      exact hforbidden
  | none =>
      rw [← Bool.not_eq_true] at hforbidden ⊢
      exact fun hallowed => hforbidden (callAllowed_of_untagged hallowed _)

/-- A call that is reported with the setting off only has a caller that inherits
a tag. -/
theorem inherits_of_not_violates_inheriting
    (hoff : c.settings.inheritFromOverridden = false)
    {overrides : List OverrideEdge} {call : Call}
    (hviolates : (c.context u).Violates overrides call)
    (hgone : ¬ (c.inheriting.context u).Violates overrides call) :
    (c.context u).effectiveTag? call.caller.id = none ∧
      ∃ tag, (c.context u).Inherits overrides call.caller.id tag := by
  obtain ⟨hskip, hforbidden⟩ := (violates_iff_of_off hoff).mp hviolates
  -- with the same tag as before, the call would be judged as before
  have hchanged :
      (c.inheriting.context u).callingTag? overrides call.caller.id ≠
        (c.context u).effectiveTag? call.caller.id := by
    intro hsame
    refine hgone ⟨hskip, ?_⟩
    rw [hsame]
    exact hforbidden
  cases htag : (c.context u).effectiveTag? call.caller.id with
  | some own =>
      have hcalling :
          (c.inheriting.context u).callingTag? overrides call.caller.id =
            some own :=
        Context.callingTag?_of_tagged htag
      exact absurd (hcalling.trans htag.symm) hchanged
  | none =>
      cases hcalling : (c.inheriting.context u).callingTag? overrides
          call.caller.id with
      | none => exact absurd (hcalling.trans htag.symm) hchanged
      | some tag =>
          rcases Context.callingTag?_eq_some_iff.mp hcalling with hown |
            ⟨-, -, hinherits⟩
          · cases htag.symm.trans hown
          · exact ⟨rfl, tag, hinherits.first, hinherits.agree⟩

/-- The two runs act alike, but for what they report on calls. -/
theorem lessReports_acts_inheriting (c : Checker) (u : SourceUnit) :
    Act.lessReports (· == .callSiteViolation) (c.inheriting.acts u) =
      Act.lessReports (· == .callSiteViolation) (c.acts u) := by
  apply lessReports_acts
  · simp only [edgeActs, Act.lessReports_append, Act.lessReports_flatMap,
      Context.lessReports_callActs]
    rfl
  · rfl

/-- With inherited calling contexts a run records and counts as without them,
and reports the same, except that findings on calls may be missing.  Each of
these belongs to a caller without a tag that overrides methods with tags, all
for the same thread. -/
theorem check_inheriting (c : Checker) {u : SourceUnit} (haccepted : u.Accepted)
    (hoff : c.settings.inheritFromOverridden = false) (registry : Registry) :
    (c.inheriting.check u registry).2 = (c.check u registry).2 ∧
    { (c.inheriting.check u registry).1.stats with
      findings :=
        (c.check u registry).1.stats.findings } = (c.check u registry).1.stats ∧
    (c.inheriting.check u registry).1.findings.filter
      (fun f => f.rule != .callSiteViolation) =
      (c.check u registry).1.findings.filter
        (fun f => f.rule != .callSiteViolation) ∧
    ((c.inheriting.check u registry).1.findings.filterMap Finding.call?).Sublist
      ((c.check u registry).1.findings.filterMap Finding.call?) ∧
    ∃ calls : List Call, (calls.map Call.edge).Sublist u.calls ∧
      (∀ call ∈ calls, call.caller ∈ u.model.declarations ∧
        call.callee ∈ u.model.declarations) ∧
      (c.check u registry).1.findingsOf .callSiteViolation =
        calls.map ((c.context u).violation u.overrides) ∧
      (c.inheriting.check u registry).1.findingsOf .callSiteViolation =
        (calls.filter
          (fun call => (c.inheriting.context u).Violates u.overrides call)).map
          ((c.inheriting.context u).violation u.overrides) ∧
      ∀ call ∈ calls, ¬ (c.inheriting.context u).Violates u.overrides call →
        (c.context u).effectiveTag? call.caller.id = none ∧
          ∃ tag, (c.context u).Inherits u.overrides call.caller.id tag := by
  have hlibrary : c.inheriting.library = c.library := rfl
  obtain ⟨hregistry, hstats, hfindings⟩ :=
    check_of_lessReports haccepted.model registry rfl hlibrary
      (c.lessReports_acts_inheriting u)
  obtain ⟨calls, hedges, hends⟩ := haccepted.exists_calls
  have hwithout :=
    c.findingsOf_callSiteViolation haccepted.model registry hedges hends
  have hwith : (c.inheriting.check u registry).1.findingsOf .callSiteViolation =
      ((calls.filter
        (fun call => (c.context u).Violates u.overrides call)).filter
        (fun call => (c.inheriting.context u).Violates u.overrides call)).map
        ((c.inheriting.context u).violation u.overrides) := by
    rw [c.inheriting.findingsOf_callSiteViolation haccepted.model
      registry hedges hends, List.filter_filter]
    congr 1
    apply List.filter_congr
    intro call _
    by_cases hviolates : (c.inheriting.context u).Violates u.overrides call
    · simp [hviolates, violates_of_inheriting hoff hviolates]
    · simp [hviolates]
  refine ⟨hregistry, hstats, hfindings, ?_, _, ?_, ?_, hwithout, hwith, ?_⟩
  · rw [Report.filterMap_call?, Report.filterMap_call?, hwithout, hwith,
      Context.filterMap_call?_violation, Context.filterMap_call?_violation]
    exact List.filter_sublist.map _
  · rw [← hedges]
    exact List.filter_sublist.map _
  · intro call hcall
    exact hends call (List.mem_filter.mp hcall).1
  · intro call hcall hgone
    exact inherits_of_not_violates_inheriting hoff
      (by simpa using (List.mem_filter.mp hcall).2) hgone

/-- A menu that draws as its parent does may paint, but still not run a task;
where its parents are of two threads, nothing changes. -/
theorem menu_check_inheriting :
    ∃ u, SourceUnit.build menuFacts = .ok u ∧
      let c := Checker.ofSettings {}
      c.settings.inheritFromOverridden = false ∧
      (c.inheriting.check u .empty).2 = (c.check u .empty).2 ∧
      ((c.inheriting.check u .empty).1.findings.filterMap Finding.call?).Sublist
        ((c.check u .empty).1.findings.filterMap Finding.call?) ∧
      (c.check u .empty).1.findings.filterMap Finding.call? =
        [("app.Menu.draw", "app.View.paint", true),
          ("app.Menu.draw", "app.Task.run", false),
          ("app.Menu.run", "app.View.paint", false),
          ("app.Menu.draw", "app.View.paint", false)] ∧
      (c.inheriting.check u .empty).1.findings.filterMap Finding.call? =
        [("app.Menu.draw", "app.Task.run", false),
          ("app.Menu.run", "app.View.paint", false)] := by
  refine ⟨_, build_menuFacts, ?_⟩
  intro c
  obtain ⟨hregistry, -, -, hsublist, -⟩ :=
    c.check_inheriting ⟨menuFacts, build_menuFacts⟩ rfl .empty
  exact ⟨rfl, hregistry, hsublist, by decide +kernel, by decide +kernel⟩

end Checker

end ThreadConfinement
