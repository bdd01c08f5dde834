import ThreadConfinement.Proofs.SharedRegistry
import ThreadConfinement.Proofs.TableFormat

/-!
Exports one over another, and exports of merged registries.

A registry that comes from recording and merging holds only locations that a
line can carry.  So the table that it writes is read back as it was, and a
second export over the first one starts from exactly the rows of the first: it
gives what the merged registry would have given at once.  Hence the order of two
exports shows in the table exactly where the registries disagree:
`Registry.exportText_comm_iff`.
-/

namespace ThreadConfinement

/-- The names of tags stand in a line without loss. -/
theorem Tag.legibleRow_name {location : String}
    (hlocation : isExportable location = true) (t : Tag) :
    LegibleRow location t.name := by
  obtain ⟨hne, hend, hcontrol⟩ := isExportable_iff.mp hlocation
  have hfeed : '\n' ∉ location.toList := by
    intro hmem
    have hnone := List.any_eq_false.mp hcontrol '\n' hmem
    exact hnone (by decide)
  refine ⟨hne, hend, hfeed, ?_, ?_, ?_, ?_, ?_⟩
  all_goals cases t <;> decide

theorem Tag.name_injective {s t : Tag} (hname : s.name = t.name) : s = t := by
  have hfound := congrArg ofName? hname
  rw [ofName?_name, ofName?_name] at hfound
  exact Option.some.inj hfound

namespace Registry

/-- The registries that come from the empty one by recording and merging. -/
inductive Reachable : Registry → Prop
  | empty : Reachable empty
  | record {r : Registry} (hr : Reachable r) (tag : LocatedTag) :
      Reachable (r.record tag)
  | merge {r other : Registry} (hr : Reachable r) (hother : Reachable other) :
      Reachable (r.merge other)

/-- What such a registry holds, it holds at a location that the table can
carry. -/
theorem Reachable.isExportable {r : Registry} (hr : r.Reachable)
    {location : String} {tag : LocatedTag} (hget : r.get? location = some tag) :
    isExportable location = true := by
  induction hr generalizing tag with
  | empty => simp [get?_empty] at hget
  | record _ new ih =>
      rw [get?_record] at hget
      split at hget
      · next hnew => exact hnew.2 ▸ hnew.1
      · exact ih hget
  | merge _ _ ih ihother =>
      rw [get?_merge] at hget
      rcases Option.or_eq_some_iff.mp hget with hother | ⟨-, hfirst⟩
      · exact ihother hother
      · exact ih hfirst

theorem getElem?_rows_overwrite (r : Registry) (t : Table) (location : String) :
    (r.overwrite t).rows[location]? =
      ((r.get? location).map (·.tag.name)).or t.rows[location]? := by
  have hrows : (r.overwrite t).rows = t.rows ∪ r.tagNames := rfl
  rw [hrows, Std.ExtTreeMap.getElem?_union, tagNames,
    Std.ExtTreeMap.getElem?_map]
  rfl

/-- Overwriting twice is overwriting once with the merged registry. -/
theorem overwrite_overwrite (a b : Registry) (t : Table) :
    b.overwrite (a.overwrite t) = (a.merge b).overwrite t := by
  have hrows :
      (b.overwrite (a.overwrite t)).rows = ((a.merge b).overwrite t).rows := by
    apply Std.ExtTreeMap.ext_getElem?
    intro location
    rw [getElem?_rows_overwrite, getElem?_rows_overwrite,
      getElem?_rows_overwrite, get?_merge]
    cases b.get? location with
    | none => rfl
    | some tag => rfl
  exact congrArg Table.mk hrows

theorem merge_self (r : Registry) : r.merge r = r := by
  apply ext_get?
  intro location
  rw [get?_merge, Option.or_self]

/-- Rows of such a registry over legible ones are legible. -/
theorem Reachable.legible_overwrite {r : Registry}
    (hr : r.Reachable) {t : Table} (ht : t.Legible) :
    (r.overwrite t).Legible := by
  intro location name hname
  rw [getElem?_rows_overwrite] at hname
  rcases Option.or_eq_some_iff.mp hname with hown | ⟨-, hprior⟩
  · obtain ⟨tag, hget, rfl⟩ := Option.map_eq_some_iff.mp hown
    exact tag.tag.legibleRow_name (hr.isExportable hget)
  · exact ht location name hprior

end Registry

theorem Table.legible_of_ofPrior {prior : Option ByteArray} {t : Table}
    (hprior : ofPrior prior = .ok t) : t.Legible := by
  cases prior with
  | none =>
      obtain rfl := Except.ok.inj hprior
      intro location tag hget
      simp [Table.empty] at hget
  | some bytes => exact legible_of_parse hprior

theorem Table.exists_ofPrior_eq_ok_iff {prior : Option ByteArray} :
    (∃ t, ofPrior prior = .ok t) ↔ ∀ bytes, prior = some bytes →
      ∃ t, parse bytes = .ok t := by
  cases prior with
  | none => simp [ofPrior]
  | some bytes => simp [ofPrior]

namespace Registry

/-- An export starts from the rows of the prior table, when these can be
read. -/
theorem exportText_of_ofPrior (r : Registry)
    {prior : Option ByteArray} {t : Table}
    (hprior : Table.ofPrior prior = .ok t) :
    r.exportText prior = .ok (r.overwrite t).render := by
  rw [exportText, hprior]
  rfl

/-- What is written is read back with all its rows. -/
theorem Reachable.ofPrior_render {r : Registry} (hr : r.Reachable)
    {prior : Option ByteArray} {t : Table}
    (hprior : Table.ofPrior prior = .ok t) :
    Table.ofPrior (some (r.overwrite t).render.toUTF8) = .ok (r.overwrite t) :=
  (hr.legible_overwrite (Table.legible_of_ofPrior hprior)).parse_render

/-- Exporting `b` over the export of `a` gives what the merged registry exports,
and exporting `a` over its own export changes nothing.  When the prior table
cannot be read, the merged registry fails as `a` does. -/
theorem exportText_chain {a : Registry} (ha : a.Reachable) (b : Registry)
    (prior : Option ByteArray) :
    (∀ text, a.exportText prior = .ok text →
      (∃ chained, b.exportText (some text.toUTF8) = .ok chained ∧
        (a.merge b).exportText prior = .ok chained) ∧
      a.exportText (some text.toUTF8) = .ok text) ∧
    ∀ fault, a.exportText prior = .error fault →
      (a.merge b).exportText prior = .error fault := by
  cases hprior : Table.ofPrior prior with
  | error fault =>
      have hfails : ∀ r : Registry, r.exportText prior = .error fault := by
        intro r
        rw [exportText, hprior]
        rfl
      rw [hfails a, hfails (a.merge b)]
      exact ⟨fun text htext => (nomatch htext), fun other hother => hother⟩
  | ok t =>
      have hread := ha.ofPrior_render hprior
      rw [a.exportText_of_ofPrior hprior]
      refine ⟨?_, fun fault hfault => nomatch hfault⟩
      intro text htext
      obtain rfl := Except.ok.inj htext
      refine ⟨⟨_, b.exportText_of_ofPrior hread, ?_⟩, ?_⟩
      · rw [overwrite_overwrite]
        exact (a.merge b).exportText_of_ofPrior hprior
      · rw [a.exportText_of_ofPrior hread, overwrite_overwrite, merge_self]

def viewRegistry (tag : Tag) : Registry :=
  empty.record (({ tag := tag } : Marker).located "app.View")

theorem viewRegistry_exportText_chain :
    ∃ text, (viewRegistry .worker).exportText
      (some "old\t Gone\r\napp.View\tAny\n".toUTF8) =
        .ok text ∧
      (∃ chained,
        (viewRegistry .any).exportText (some text.toUTF8) = .ok chained ∧
        ((viewRegistry .worker).merge (viewRegistry .any)).exportText
          (some "old\t Gone\r\napp.View\tAny\n".toUTF8) = .ok chained) ∧
      (viewRegistry .worker).exportText (some text.toUTF8) = .ok text := by
  have hreachable : (viewRegistry .worker).Reachable := .record .empty _
  have hreads : (Table.addLines ∅ 1
      (Text.lines "old\t Gone\r\napp.View\tAny\n".toList)).toOption.isSome =
        true := by
    decide +kernel
  cases hrows : Table.addLines ∅ 1
      (Text.lines "old\t Gone\r\napp.View\tAny\n".toList) with
  | error fault =>
      rw [hrows] at hreads
      exact nomatch hreads
  | ok rows =>
      have hprior :
          Table.ofPrior (some "old\t Gone\r\napp.View\tAny\n".toUTF8) =
            .ok ⟨rows⟩ := by
        rw [Table.ofPrior, Table.parse_toUTF8, Table.ofText, hrows]
        rfl
      have htext := (viewRegistry .worker).exportText_of_ofPrior hprior
      exact ⟨_, htext,
        (exportText_chain hreachable (viewRegistry .any) _).1 _ htext⟩

/-! ### The order of two exports -/

/-- Both registries name the same tag wherever both have one. -/
def Agrees (a b : Registry) : Prop :=
  ∀ location x y, a.get? location = some x →
    b.get? location = some y → x.tag = y.tag

/-- Where two registries disagree, the table of both shows which of them came
last. -/
theorem overwrite_merge_comm_iff (a b : Registry) (t : Table) :
    (a.merge b).overwrite t = (b.merge a).overwrite t ↔ a.Agrees b := by
  constructor
  · intro hsame location x y hx hy
    have hrow : ((a.merge b).overwrite t).rows[location]? =
        ((b.merge a).overwrite t).rows[location]? := by
      rw [hsame]
    rw [getElem?_rows_overwrite, getElem?_rows_overwrite, get?_merge,
      get?_merge, hx, hy] at hrow
    exact (Tag.name_injective (Option.some.inj hrow)).symm
  · intro hagrees
    apply congrArg Table.mk
    apply Std.ExtTreeMap.ext_getElem?
    intro location
    show ((a.merge b).overwrite t).rows[location]? =
        ((b.merge a).overwrite t).rows[location]?
    rw [getElem?_rows_overwrite, getElem?_rows_overwrite,
      get?_merge, get?_merge]
    cases ha : a.get? location with
    | none => simp
    | some x =>
        cases hb : b.get? location with
        | none => simp
        | some y => simp [hagrees location x y ha hb]

/-- An export over an export writes the rows of the merged registry, and they
can be read back. -/
theorem Reachable.exists_exportText_over {a b : Registry} (ha : a.Reachable)
    (hb : b.Reachable) {prior : Option ByteArray} {t : Table}
    (hprior : Table.ofPrior prior = .ok t) :
    ∃ text last, a.exportText prior = .ok text ∧
      b.exportText (some text.toUTF8) = .ok last ∧
      last = ((a.merge b).overwrite t).render ∧
      Table.parse last.toUTF8 = .ok ((a.merge b).overwrite t) := by
  have hread := ha.ofPrior_render hprior
  have hlast := b.exportText_of_ofPrior hread
  rw [overwrite_overwrite] at hlast
  exact ⟨_, _, a.exportText_of_ofPrior hprior, hlast, rfl,
    (ha.merge hb).ofPrior_render hprior⟩

/-- Two exports one over the other give the same bytes in either order exactly
when the registries name the same tag wherever both have one.  Both orders
succeed over every prior file that can be read, and when there is none. -/
theorem exportText_comm_iff {a b : Registry} (ha : a.Reachable)
    (hb : b.Reachable) {prior : Option ByteArray}
    (hprior : ∀ bytes, prior = some bytes → ∃ t, Table.parse bytes = .ok t) :
    ∃ textA textB lastB lastA,
      a.exportText prior = .ok textA ∧
      b.exportText (some textA.toUTF8) = .ok lastB ∧
      b.exportText prior = .ok textB ∧
      a.exportText (some textB.toUTF8) = .ok lastA ∧
      (lastB.toUTF8 = lastA.toUTF8 ↔ a.Agrees b) := by
  obtain ⟨t, ht⟩ := Table.exists_ofPrior_eq_ok_iff.mpr hprior
  obtain ⟨textA, lastB, htextA, hlastB, hrenderB, hreadB⟩ :=
    ha.exists_exportText_over hb ht
  obtain ⟨textB, lastA, htextB, hlastA, hrenderA, hreadA⟩ :=
    hb.exists_exportText_over ha ht
  refine ⟨textA, textB, lastB, lastA, htextA, hlastB, htextB, hlastA, ?_⟩
  rw [← overwrite_merge_comm_iff a b t]
  constructor
  · -- equal bytes are read as equal tables
    intro hbytes
    rw [hbytes, hreadA] at hreadB
    exact (Except.ok.inj hreadB).symm
  · intro hsame
    rw [hrenderB, hrenderA, hsame]

/-- A registry with the same view and a panel of its own. -/
def panelRegistry (tag : Tag) : Registry :=
  (viewRegistry tag).record (({ tag := .any } : Marker).located "app.Panel")

theorem panelRegistry_exportText_comm :
    (∃ textA textB lastB lastA,
      (viewRegistry .worker).exportText (some "\r\nold\t Gone".toUTF8) =
        .ok textA ∧
      (panelRegistry .worker).exportText (some textA.toUTF8) = .ok lastB ∧
      (panelRegistry .worker).exportText (some "\r\nold\t Gone".toUTF8) =
        .ok textB ∧
      (viewRegistry .worker).exportText (some textB.toUTF8) = .ok lastA ∧
      lastB.toUTF8 = lastA.toUTF8) ∧
    ∃ textA textB lastB lastA,
      (viewRegistry .worker).exportText (some "\r\nold\t Gone".toUTF8) =
        .ok textA ∧
      (panelRegistry .any).exportText (some textA.toUTF8) = .ok lastB ∧
      (panelRegistry .any).exportText (some "\r\nold\t Gone".toUTF8) =
        .ok textB ∧
      (viewRegistry .worker).exportText (some textB.toUTF8) = .ok lastA ∧
      lastB.toUTF8 ≠ lastA.toUTF8 := by
  have hview : ∀ tag, (viewRegistry tag).Reachable :=
    fun tag => .record .empty _
  have hpanel : ∀ tag, (panelRegistry tag).Reachable :=
    fun tag => .record (hview tag) _
  have hprior : ∀ bytes, some "\r\nold\t Gone".toUTF8 = some bytes →
      ∃ t, Table.parse bytes = .ok t := by
    rintro _ ⟨rfl⟩
    have hreads : (Table.ofText "\r\nold\t Gone").toOption.isSome = true := by
      decide +kernel
    rw [Table.parse_toUTF8]
    cases hread : Table.ofText "\r\nold\t Gone" with
    | error fault =>
        rw [hread] at hreads
        cases hreads
    | ok t => exact ⟨t, rfl⟩
  have hget : ∀ location x, (viewRegistry .worker).get? location = some x →
      location = "app.View" ∧ x.tag = .worker := by
    intro location x hx
    rw [viewRegistry, get?_record, get?_empty] at hx
    split at hx
    · next hplace =>
        obtain rfl := Option.some.inj hx
        exact ⟨hplace.2.symm, rfl⟩
    · cases hx
  constructor
  · obtain ⟨textA, textB, lastB, lastA, htextA, hlastB, htextB, hlastA, hiff⟩ :=
      exportText_comm_iff (hview .worker) (hpanel .worker) hprior
    refine ⟨textA, textB, lastB, lastA, htextA, hlastB, htextB,
      hlastA, hiff.mpr ?_⟩
    intro location x y hx hy
    obtain ⟨rfl, htag⟩ := hget location x hx
    have hsame : (panelRegistry .worker).get? "app.View" =
        some (({ tag := .worker } : Marker).located "app.View") := by
      decide +kernel
    rw [hsame] at hy
    obtain rfl := Option.some.inj hy
    exact htag
  · obtain ⟨textA, textB, lastB, lastA, htextA, hlastB, htextB, hlastA, hiff⟩ :=
      exportText_comm_iff (hview .worker) (hpanel .any) hprior
    refine ⟨textA, textB, lastB, lastA, htextA, hlastB, htextB, hlastA, ?_⟩
    intro hbytes
    have htags :=
      hiff.mp hbytes "app.View"
        (({ tag := .worker } : Marker).located "app.View")
      (({ tag := .any } : Marker).located "app.View") (by decide +kernel)
      (by decide +kernel)
    cases htags

end Registry

end ThreadConfinement
