import ThreadConfinement.Proofs.TableContent
import ThreadConfinement.Proofs.TableFile
import Mathlib.Data.List.TakeWhile

/-!
What an export to a file reports, and what it leaves behind.

`Table.Spoiled` says by the characters of a line alone why it cannot be read,
and `Table.FirstSpoiled` which line of a file is the first of this kind.  An
export that succeeds has written what it reports, and one that fails has left
the table alone; which of the two happens is decided by the lock and by the
lines of the table: `Registry.exportToFile_accounts`.
-/

namespace ThreadConfinement

namespace Text

/-! ### Texts as bytes -/

theorem toUTF8_of_fromUTF8? {bytes : ByteArray} {text : String}
    (hutf8 : String.fromUTF8? bytes = some text) : text.toUTF8 = bytes := by
  unfold String.fromUTF8? at hutf8
  split at hutf8
  · obtain rfl := Option.some.inj hutf8
    rfl
  · cases hutf8

theorem ofNat_eq_lineFeed_iff {n : Nat} (hn : n < 256) :
    UInt8.ofNat n = 10 ↔ n = 10 := by
  rw [← UInt8.toNat_inj, UInt8.toNat_ofNat', Nat.mod_eq_of_lt hn]
  rfl

/-- Only the bytes of a line feed hold the byte of a line feed: all bytes of
longer characters are above those of ASCII. -/
theorem count_utf8EncodeChar (c : Char) :
    (String.utf8EncodeChar c).count 10 = if c = '\n' then 1 else 0 := by
  have hcode : c = '\n' ↔ c.val.toNat = 10 := by
    rw [← Char.val_inj, ← UInt32.toNat_inj]
    rfl
  simp only [hcode]
  rw [String.utf8EncodeChar]
  generalize c.val.toNat = n
  split_ifs
  all_goals simp (disch := omega) only [List.count_cons,
    List.count_nil, beq_iff_eq, ofNat_eq_lineFeed_iff]
  all_goals split_ifs <;> omega

theorem count_toUTF8 (text : String) :
    text.toUTF8.data.toList.count 10 = text.toList.count '\n' := by
  rw [toList_toUTF8]
  induction text.toList with
  | nil => rfl
  | cons c rest ih =>
      rw [List.flatMap_cons, List.count_append, ih, count_utf8EncodeChar,
        List.count_cons]
      simp only [beq_iff_eq]
      omega

/-! ### Nothing but blanks -/

theorem dropBlanks_eq_nil_iff {cs : List Char} :
    dropBlanks cs = [] ↔ cs.all isBlank = true := by
  rw [dropBlanks, List.dropWhile_eq_nil_iff, List.all_eq_true]

theorem dropBlanksRight_eq_nil_iff {cs : List Char} :
    dropBlanksRight cs = [] ↔ cs.all isBlank = true := by
  rw [dropBlanksRight_eq, List.reverse_eq_nil_iff, dropBlanks_eq_nil_iff,
    List.all_reverse]

theorem trimChars_eq_nil_iff {cs : List Char} :
    trimChars cs = [] ↔ cs.all isBlank = true := by
  constructor
  · intro hnil
    obtain ⟨left, right, hcs, hleft, hright⟩ := exists_append_trimChars cs
    rw [← hcs, hnil, List.append_nil, List.all_append, hleft, hright]
    rfl
  · intro hblank
    rw [trimChars, dropBlanks_eq_nil_iff.mpr hblank]
    rfl

end Text

namespace Table

open Text

/-! ### Lines that cannot be read -/

/-- What is wrong with a line that is not blank: it has no tab, or only blanks
on one side of its last tab. -/
inductive Spoiled (line : List Char) : LineFault → Prop
  | missingTab (hfilled : line.all isBlank = false) (htab : '\t' ∉ line) :
      Spoiled line .missingTab
  | emptyPart {before after : List Char} (hfilled : line.all isBlank = false)
      (hline : line = before ++ '\t' :: after) (hafter : '\t' ∉ after)
      (hempty : before.all isBlank = true ∨ after.all isBlank = true) :
      Spoiled line .emptyPart

variable {line : List Char} {rest : List (List Char)} {fault : LineFault}

theorem parseLine_eq_error_iff (hfilled : line.all isBlank = false) :
    parseLine line = .error fault ↔ Spoiled line fault := by
  constructor
  · intro hparse
    unfold parseLine at hparse
    cases hsplit : splitAtLast? '\t' line with
    | none =>
        rw [hsplit] at hparse
        obtain rfl := Except.error.inj hparse
        exact .missingTab hfilled (splitAtLast?_eq_none_iff.mp hsplit)
    | some parts =>
        obtain ⟨before, after⟩ := parts
        obtain ⟨hline, hafter⟩ := eq_append_of_splitAtLast? hsplit
        simp only [hsplit] at hparse
        split at hparse
        · next hempty =>
            obtain rfl := Except.error.inj hparse
            rw [Bool.or_eq_true, List.isEmpty_iff, List.isEmpty_iff,
              dropBlanksRight_eq_nil_iff, trimChars_eq_nil_iff] at hempty
            exact .emptyPart hfilled hline hafter hempty
        · cases hparse
  · intro hspoiled
    cases hspoiled with
    | missingTab _ htab => rw [parseLine, splitAtLast?_eq_none_iff.mpr htab]
    | emptyPart _ hline hafter hempty =>
        rw [← dropBlanksRight_eq_nil_iff, ← trimChars_eq_nil_iff,
          ← List.isEmpty_iff, ← List.isEmpty_iff, ← Bool.or_eq_true] at hempty
        rw [hline, parseLine, splitAtLast?_append hafter]
        exact if_pos hempty

theorem Spoiled.filled (hspoiled : Spoiled line fault) :
    line.all isBlank = false := by
  cases hspoiled with
  | missingTab hfilled _ => exact hfilled
  | emptyPart hfilled _ _ _ => exact hfilled

/-- A line has one fault at most. -/
theorem Spoiled.unique {other : LineFault} (hspoiled : Spoiled line fault)
    (hother : Spoiled line other) : other = fault := by
  have hparse := (parseLine_eq_error_iff hother.filled).mpr hother
  rw [(parseLine_eq_error_iff hspoiled.filled).mpr hspoiled] at hparse
  exact (Except.error.inj hparse).symm

/-- The first line that cannot be read has this number, counted from one, and
this fault. -/
def FirstSpoiled (lines : List (List Char)) (number : Nat)
    (fault : LineFault) : Prop :=
  ∃ earlier line later, lines = earlier ++ line :: later ∧
    number = earlier.length + 1 ∧
    Spoiled line fault ∧ ∀ other ∈ earlier, ∀ fault, ¬ Spoiled other fault

theorem firstSpoiled_cons {number : Nat} :
    FirstSpoiled (line :: rest) number fault ↔
      number = 1 ∧ Spoiled line fault ∨
        (∀ fault, ¬ Spoiled line fault) ∧ ∃ next, number = next + 1 ∧
          FirstSpoiled rest next fault := by
  constructor
  · rintro ⟨earlier, first, later, hsplit, hnumber, hspoiled, hearlier⟩
    cases earlier with
    | nil =>
        cases hsplit
        exact Or.inl ⟨hnumber, hspoiled⟩
    | cons head earlier =>
        cases hsplit
        rw [List.forall_mem_cons] at hearlier
        exact Or.inr ⟨hearlier.1, _, hnumber, earlier, first, later, rfl, rfl,
          hspoiled, hearlier.2⟩
  · rintro (⟨rfl, hspoiled⟩ | ⟨hline, next, rfl, earlier, first, later, rfl,
      rfl, hspoiled, hearlier⟩)
    · exact ⟨[], line, rest, rfl, rfl, hspoiled, by simp⟩
    · exact ⟨line :: earlier, first, later, rfl, rfl, hspoiled,
        List.forall_mem_cons.mpr ⟨hline, hearlier⟩⟩

/-- Some line cannot be read exactly when there is a first one. -/
theorem exists_firstSpoiled_iff {lines : List (List Char)} :
    (∃ number fault, FirstSpoiled lines number fault) ↔
      ∃ line ∈ lines, ∃ fault, Spoiled line fault := by
  constructor
  · rintro ⟨number, fault, earlier, line, later, rfl, -, hspoiled, -⟩
    exact ⟨line, by simp, fault, hspoiled⟩
  · intro hexists
    induction lines with
    | nil => simp at hexists
    | cons line rest ih =>
        by_cases hline : ∃ fault, Spoiled line fault
        · obtain ⟨fault, hspoiled⟩ := hline
          exact ⟨1, fault, firstSpoiled_cons.mpr (Or.inl ⟨rfl, hspoiled⟩)⟩
        · rw [not_exists] at hline
          obtain ⟨spoiled, hmem, fault, hspoiled⟩ := hexists
          rcases List.mem_cons.mp hmem with rfl | hmem
          · exact absurd hspoiled (hline fault)
          · obtain ⟨number, other, hfirst⟩ :=
              ih ⟨spoiled, hmem, fault, hspoiled⟩
            exact ⟨number + 1, other,
              firstSpoiled_cons.mpr (Or.inr ⟨hline, number, rfl, hfirst⟩)⟩

/-! ### Files that cannot be read -/

theorem addLines_of_spoiled (hspoiled : Spoiled line fault)
    (known : TextMap String) (number : Nat) :
    addLines known number (line :: rest) =
      .error (.malformed number fault) := by
  rw [addLines, hspoiled.filled,
    (parseLine_eq_error_iff hspoiled.filled).mpr hspoiled]
  rfl

/-- A line that can be read leads to the lines after it. -/
theorem exists_addLines_eq (hline : ∀ fault, ¬ Spoiled line fault)
    (known : TextMap String) (number : Nat) :
    ∃ known', addLines known number (line :: rest) =
      addLines known' (number + 1) rest := by
  rw [addLines]
  split
  · exact ⟨known, rfl⟩
  · next hfilled =>
      rw [Bool.not_eq_true] at hfilled
      cases hparse : parseLine line with
      | error fault =>
        exact absurd ((parseLine_eq_error_iff hfilled).mp hparse) (hline fault)
      | ok row => exact ⟨known.insert row.1 row.2, rfl⟩

/-- Reading stops at the first line that cannot be read, whatever is known by
then. -/
theorem addLines_eq_error_iff {lines : List (List Char)} {error : TableFault}
    (known : TextMap String) (start : Nat) :
    addLines known (start + 1) lines = .error error ↔
      ∃ number fault, FirstSpoiled lines number fault ∧
        error = .malformed (start + number) fault := by
  -- A line that is read adds a row and moves the number on, so the induction is
  -- over any rows and any start.
  induction lines generalizing known start with
  | nil => simp [addLines, FirstSpoiled]
  | cons line rest ih =>
      by_cases hline : ∃ fault, Spoiled line fault
      · obtain ⟨fault, hspoiled⟩ := hline
        rw [addLines_of_spoiled hspoiled]
        constructor
        · rintro ⟨rfl⟩
          exact ⟨1, fault, firstSpoiled_cons.mpr (Or.inl ⟨rfl, hspoiled⟩), rfl⟩
        · rintro ⟨number, other, hfirst, rfl⟩
          rcases firstSpoiled_cons.mp hfirst with ⟨rfl, hother⟩ | ⟨hnone, -⟩
          · rw [hspoiled.unique hother]
          · exact absurd hspoiled (hnone fault)
      · rw [not_exists] at hline
        obtain ⟨known', hstep⟩ := exists_addLines_eq hline known (start + 1)
        rw [hstep, ih]
        constructor
        · rintro ⟨number, fault, hfirst, rfl⟩
          refine ⟨number + 1, fault,
            firstSpoiled_cons.mpr (Or.inr ⟨hline, number, rfl, hfirst⟩), ?_⟩
          rw [Nat.add_right_comm, Nat.add_assoc]
        · rintro ⟨number, fault, hfirst, rfl⟩
          rcases firstSpoiled_cons.mp hfirst with ⟨-, hspoiled⟩ |
            ⟨-, next, rfl, hnext⟩
          · exact absurd hspoiled (hline fault)
          · exact ⟨next, fault, hnext,
              by rw [Nat.add_right_comm, Nat.add_assoc]⟩

theorem ofText_eq_error_iff {text : String} {error : TableFault} :
    ofText text = .error error ↔
      ∃ number fault, FirstSpoiled (lines text.toList) number fault ∧
        error = .malformed number fault := by
  have hadd := @addLines_eq_error_iff (lines text.toList) error ∅ 0
  simp only [Nat.zero_add] at hadd
  rw [← hadd, ofText]
  cases addLines ∅ 1 (lines text.toList) <;> simp [Except.map]

theorem parse_eq_notUtf8_iff {bytes : ByteArray} :
    parse bytes = .error .notUtf8 ↔ ∀ text : String, text.toUTF8 ≠ bytes := by
  constructor
  · rintro hparse text rfl
    rw [parse_toUTF8, ofText_eq_error_iff] at hparse
    obtain ⟨number, fault, -, hfault⟩ := hparse
    cases hfault
  · intro hbytes
    rw [parse]
    cases hutf8 : String.fromUTF8? bytes with
    | none => rfl
    | some text => exact absurd (toUTF8_of_fromUTF8? hutf8) (hbytes text)

theorem exists_toUTF8_of_parse {bytes : ByteArray}
    (hparse : parse bytes ≠ .error .notUtf8) :
    ∃ text : String, text.toUTF8 = bytes := by
  rw [Ne, parse_eq_notUtf8_iff, not_forall] at hparse
  obtain ⟨text, htext⟩ := hparse
  exact ⟨text, not_not.mp htext⟩

theorem parse_eq_malformed_iff {bytes : ByteArray} {number : Nat} :
    parse bytes = .error (.malformed number fault) ↔
      ∃ text : String, text.toUTF8 = bytes ∧
        FirstSpoiled (lines text.toList) number fault := by
  constructor
  · intro hparse
    have hutf8 : parse bytes ≠ .error .notUtf8 := by simp [hparse]
    obtain ⟨text, rfl⟩ := exists_toUTF8_of_parse hutf8
    rw [parse_toUTF8, ofText_eq_error_iff] at hparse
    obtain ⟨number, fault, hfirst, ⟨rfl, rfl⟩⟩ := hparse
    exact ⟨text, rfl, hfirst⟩
  · rintro ⟨text, rfl, hfirst⟩
    rw [parse_toUTF8, ofText_eq_error_iff]
    exact ⟨number, fault, hfirst, rfl⟩

theorem ofPrior_eq_notUtf8_iff {prior : Option ByteArray} :
    ofPrior prior = .error .notUtf8 ↔
      ∃ bytes, prior = some bytes ∧ ∀ text : String, text.toUTF8 ≠ bytes := by
  cases prior with
  | none => simp [ofPrior]
  | some bytes =>
      rw [ofPrior, parse_eq_notUtf8_iff]
      simp only [Option.some.injEq, exists_eq_left']

theorem ofPrior_eq_malformed_iff {prior : Option ByteArray} {number : Nat} :
    ofPrior prior = .error (.malformed number fault) ↔
      ∃ text : String, prior = some text.toUTF8 ∧
        FirstSpoiled (lines text.toList) number fault := by
  cases prior with
  | none => simp [ofPrior]
  | some bytes =>
      rw [ofPrior, parse_eq_malformed_iff]
      simp only [Option.some.injEq, eq_comm]

theorem exists_parse_eq_ok_iff {bytes : ByteArray} :
    (∃ t, parse bytes = .ok t) ↔
      ∃ text : String, text.toUTF8 = bytes ∧
        ∀ line ∈ lines text.toList, ∀ fault, ¬ Spoiled line fault := by
  constructor
  · rintro ⟨t, hparse⟩
    have hutf8 : parse bytes ≠ .error .notUtf8 := by simp [hparse]
    obtain ⟨text, rfl⟩ := exists_toUTF8_of_parse hutf8
    refine ⟨text, rfl, ?_⟩
    intro line hline fault hspoiled
    obtain ⟨number, other, hfirst⟩ :=
      exists_firstSpoiled_iff.mpr ⟨line, hline, fault, hspoiled⟩
    rw [parse_eq_malformed_iff.mpr ⟨text, rfl, hfirst⟩] at hparse
    cases hparse
  · rintro ⟨text, rfl, hlines⟩
    rw [parse_toUTF8]
    cases hread : ofText text with
    | ok t => exact ⟨t, rfl⟩
    | error error =>
        obtain ⟨number, fault, hfirst, -⟩ := ofText_eq_error_iff.mp hread
        obtain ⟨line, hline, other, hspoiled⟩ :=
          exists_firstSpoiled_iff.mp ⟨number, fault, hfirst⟩
        exact absurd hspoiled (hlines line hline other)

/-! ### The number of rows -/

/-- Each legible row has one line feed, the one that ends its line. -/
theorem count_flatMap_rowLine {rows : List (String × String)}
    (hrows : ∀ row ∈ rows, LegibleRow row.1 row.2) :
    (rows.flatMap (fun row => rowLine row.1 row.2)).count '\n' =
      rows.length := by
  induction rows with
  | nil => rfl
  | cons row rest ih =>
      rw [List.forall_mem_cons] at hrows
      have hline : (rowLine row.1 row.2).count '\n' = 1 := by
        rw [rowLine, ← rowBody, List.count_append,
          List.count_eq_zero.mpr hrows.1.lineFeed_not_mem_rowBody]
        rfl
      rw [List.flatMap_cons, List.count_append, hline, ih hrows.2,
        List.length_cons, Nat.add_comm]

theorem Legible.lineFeeds_render {t : Table} (ht : t.Legible) :
    Registry.lineFeeds t.render = t.rows.size := by
  rw [Registry.lineFeeds, render, String.toList_ofList,
    ← Std.ExtTreeMap.length_toList]
  exact count_flatMap_rowLine ht.forall_mem_toList

end Table

namespace Registry

/-- The locations of a table that the registry does not have. -/
def unseen (r : Registry) (t : Table) : List String :=
  t.rows.keys.filter (fun location => (r.get? location).isNone)

theorem mem_unseen_iff {r : Registry} {t : Table} {location : String} :
    location ∈ r.unseen t ↔
      r.get? location = none ∧ ∃ tag, t.rows[location]? = some tag := by
  rw [unseen, List.mem_filter, Option.isNone_iff_eq_none,
    Std.ExtTreeMap.mem_keys, Std.ExtTreeMap.mem_iff_isSome_getElem?,
    Option.isSome_iff_exists, and_comm]

theorem nodup_unseen (r : Registry) (t : Table) : (r.unseen t).Nodup :=
  Std.ExtTreeMap.nodup_keys.filter _

theorem mem_keys_entries_iff {r : Registry} {location : String} :
    location ∈ r.entries.keys ↔ ∃ tag, r.get? location = some tag := by
  rw [Std.ExtTreeMap.mem_keys, Std.ExtTreeMap.mem_iff_isSome_getElem?,
    Option.isSome_iff_exists]
  rfl

/-- A table over a prior one has the rows of the registry and those that are
preserved. -/
theorem size_overwrite (r : Registry) (t : Table) :
    (r.overwrite t).rows.size = r.preserved t + r.size := by
  have hnodup : (r.unseen t ++ r.entries.keys).Nodup := by
    refine List.nodup_append.mpr ⟨r.nodup_unseen t,
      Std.ExtTreeMap.nodup_keys, ?_⟩
    rintro location hunseen _ hseen rfl
    obtain ⟨tag, htag⟩ := mem_keys_entries_iff.mp hseen
    rw [(mem_unseen_iff.mp hunseen).1] at htag
    cases htag
  have hkeys :
      (r.overwrite t).rows.keys.Perm (r.unseen t ++ r.entries.keys) := by
    rw [List.perm_ext_iff_of_nodup Std.ExtTreeMap.nodup_keys hnodup]
    intro location
    rw [List.mem_append, mem_unseen_iff, mem_keys_entries_iff,
      Std.ExtTreeMap.mem_keys, Std.ExtTreeMap.mem_iff_isSome_getElem?,
      Option.isSome_iff_exists, getElem?_rows_overwrite]
    cases r.get? location with
    | none => simp
    | some tag => simp
  rw [← Std.ExtTreeMap.length_keys, hkeys.length_eq, List.length_append,
    Std.ExtTreeMap.length_keys]
  rfl

end Registry

/-! ### The ways in which an export ends -/

def Directory.LockFree (d : Directory) (path : FileName) : Prop :=
  d.Serves path.lock ∧ d.isLocked path.lock = false

theorem Directory.Serves.read_congr {d other : Directory} {name : FileName}
    (hd : d.Serves name) (hother : other.Serves name)
    (hcontent : other.content? name = d.content? name) :
    other.read name = d.read name := by
  rw [hother.read, hd.read, hcontent]

namespace Registry

variable {path : FileName} {d : Directory}

theorem exportToFile_of_done {r : Registry}
    {result : Except ExportError ExportSummary} {after : Directory}
    (hdone : r.exportSteps path 5 (.waiting, d) = (.done result, after)) :
    r.exportToFile path d = (result, after) := by
  have hresult : ∀ (s : ExportPhase × Directory) (hleft : s.1.left = 0),
      s = (.done result, after) →
      (s.1.result hleft, s.2) = (result, after) := by
    rintro _ _ rfl
    rfl
  exact hresult _ _ hdone

/-- Where the lock file cannot be opened, nothing happens. -/
theorem exists_exportToFile_eq_fault (r : Registry)
    (hlock : ¬ d.Serves path.lock) :
    ∃ fault, r.exportToFile path d = (.error (.file fault), d) := by
  cases htouch : d.touch path.lock with
  | ok after => exact absurd (Directory.serves_of_update htouch) hlock
  | error fault =>
      refine ⟨fault, exportToFile_of_done ?_⟩
      simp [exportSteps, exportStep, htouch]

/-- Where table and lock file are served, an export ends as its steps on what it
sees do. -/
theorem exists_exportToFile_eq_of_viewSteps {r : Registry} (hd : d.Ready path)
    {result : Except ExportError ExportSummary} {view : TableView}
    (hview : r.viewSteps path 5 (.waiting, d.tableView path) =
      (.done result, view)) :
    ∃ after, r.exportToFile path d = (result, after) ∧ after.Serves path ∧
      after.content? path = view.content := by
  obtain ⟨hready, hsteps⟩ := r.exportSteps_eq 5 hd .waiting
  rw [hview] at hsteps
  obtain ⟨hphase, htable⟩ := Prod.mk.inj hsteps
  exact ⟨_, exportToFile_of_done (Prod.ext hphase rfl), hready.table,
    by rw [← htable]; rfl⟩

/-- The ways in which an export ends: its result, and what can be read at the
path afterwards. -/
inductive FileOutcome (r : Registry) (path : FileName) (d : Directory) :
    Except ExportError ExportSummary → Except FileFault ByteArray → Prop
  | unopened (hlock : ¬ d.Serves path.lock) (fault : FileFault) :
      FileOutcome r path d (.error (.file fault)) (d.read path)
  | locked (hlock : d.Serves path.lock) (hheld : d.isLocked path.lock = true) :
      FileOutcome r path d (.error (.locked path.text)) (d.read path)
  | unreadable (hfree : d.LockFree path) {fault : TableFault}
      (hprior : Table.ofPrior (d.content? path) = .error fault) :
      FileOutcome r path d (.error (.table fault)) (d.read path)
  | written (hfree : d.LockFree path) {t : Table}
      (hprior : Table.ofPrior (d.content? path) = .ok t) :
      FileOutcome r path d (.ok ⟨path, lineFeeds (r.overwrite t).render,
        r.preserved t⟩) (.ok (r.overwrite t).render.toUTF8)

/-- Every export to a table that is served ends in one of these ways. -/
theorem fileOutcome_exportToFile (r : Registry) (hd : d.Serves path) :
    r.FileOutcome path d (r.exportToFile path d).1
      ((r.exportToFile path d).2.read path) := by
  by_cases hlock : d.Serves path.lock
  · cases hheld : d.isLocked path.lock with
    | true =>
        have hview : r.viewSteps path 5 (.waiting, d.tableView path) =
            (.done (.error (.locked path.text)), d.tableView path) := by
          simp [viewSteps, viewStep, Directory.tableView, hheld]
        obtain ⟨after, hexport, hserves, hcontent⟩ :=
          exists_exportToFile_eq_of_viewSteps ⟨hd, hlock⟩ hview
        rw [hexport, hd.read_congr hserves hcontent]
        exact .locked hlock hheld
    | false =>
        cases hprior : Table.ofPrior (d.content? path) with
        | error fault =>
            have hview : r.viewSteps path 5 (.waiting, d.tableView path) =
                (.done (.error (.table fault)), d.tableView path) := by
              simp [viewSteps, viewStep, Directory.tableView, hheld, hprior]
            obtain ⟨after, hexport, hserves, hcontent⟩ :=
              exists_exportToFile_eq_of_viewSteps ⟨hd, hlock⟩ hview
            rw [hexport, hd.read_congr hserves hcontent]
            exact .unreadable ⟨hlock, hheld⟩ hprior
        | ok t =>
            have hview : r.viewSteps path 5 (.waiting, d.tableView path) =
                (.done (.ok ⟨path, lineFeeds (r.overwrite t).render,
                  r.preserved t⟩),
                  ⟨some (r.overwrite t).render.toUTF8, false⟩) := by
              simp [viewSteps, viewStep, Directory.tableView, hheld, hprior]
            obtain ⟨after, hexport, hserves, hcontent⟩ :=
              exists_exportToFile_eq_of_viewSteps ⟨hd, hlock⟩ hview
            rw [hexport, hserves.read, hcontent]
            exact .written ⟨hlock, hheld⟩ hprior
  · obtain ⟨fault, hexport⟩ := r.exists_exportToFile_eq_fault hlock
    rw [hexport]
    exact .unopened hlock fault

namespace FileOutcome

variable {r : Registry} {result : Except ExportError ExportSummary}
  {read : Except FileFault ByteArray}
  (houtcome : r.FileOutcome path d result read)

include houtcome

/-- Only success changes the table. -/
theorem read_eq_of_error {error : ExportError}
    (herror : result = .error error) :
    read = d.read path := by
  cases houtcome with
  | written => cases herror
  | _ => rfl

theorem exists_of_ok {summary : ExportSummary} (hok : result = .ok summary) :
    ∃ t, Table.ofPrior (d.content? path) = .ok t ∧
      summary = ⟨path, lineFeeds (r.overwrite t).render, r.preserved t⟩ ∧
      read = .ok (r.overwrite t).render.toUTF8 := by
  cases houtcome with
  | written hfree hprior => exact ⟨_, hprior, (Except.ok.inj hok).symm, rfl⟩
  | _ => cases hok

theorem locked_iff :
    result = .error (.locked path.text) ↔
      d.Serves path.lock ∧ d.isLocked path.lock = true := by
  cases houtcome with
  | unopened hlock fault => simp [hlock]
  | locked hlock hheld => simp [hlock, hheld]
  | unreadable hfree hprior => simp [hfree.2]
  | written hfree hprior => simp [hfree.2]

theorem table_iff {fault : TableFault} :
    result = .error (.table fault) ↔
      d.LockFree path ∧ Table.ofPrior (d.content? path) = .error fault := by
  cases houtcome with
  | unopened hlock fault => simp [Directory.LockFree, hlock]
  | locked hlock hheld => simp [Directory.LockFree, hheld]
  | unreadable hfree hprior => simp [hfree, hprior]
  | written hfree hprior => simp [hprior]

theorem ok_iff :
    (∃ summary, result = .ok summary) ↔
      d.LockFree path ∧ ∃ t, Table.ofPrior (d.content? path) = .ok t := by
  cases houtcome with
  | unopened hlock fault => simp [Directory.LockFree, hlock]
  | locked hlock hheld => simp [Directory.LockFree, hheld]
  | unreadable hfree hprior => simp [hprior]
  | written hfree hprior => simp [hfree, hprior]

end FileOutcome

/-- An export to a file keeps its books and fails without damage.  When it
succeeds, the file holds the exported text; the summary gives the number of rows
that are read back from it, which is the number of line feeds among its bytes,
and the number of locations of the prior file that the registry does not have.
When it fails, what can be read at the path is as before.  Bytes that are no
text, and the first line that cannot be read, are reported exactly when the lock
is free, and then the export succeeds in all other cases. -/
theorem exportToFile_accounts {r : Registry} (hr : r.Reachable)
    (hd : d.Serves path) {prior : Option ByteArray}
    (hprior : d.content? path = prior)
    {result : Except ExportError ExportSummary} {after : Directory}
    (hexport : r.exportToFile path d = (result, after)) :
    (∀ summary, result = .ok summary →
      ∃ text, r.exportText prior = .ok text ∧
        after.read path = .ok text.toUTF8 ∧
        summary.path = path ∧
        (∃ t, Table.parse text.toUTF8 = .ok t ∧ t.rows.size = summary.entries) ∧
        text.toUTF8.data.toList.count 10 = summary.entries ∧
        (∃ unseen : List String, unseen.Nodup ∧
          unseen.length = summary.preserved ∧
          ∀ location, location ∈ unseen ↔ r.get? location = none ∧
            ∃ line ∈ Table.priorLines prior, ∃ tag,
              Table.Holds line location tag) ∧
        summary.entries = summary.preserved + r.size) ∧
    (∀ error, result = .error error → after.read path = d.read path) ∧
    (result = .error (.locked path.text) ↔
      d.Serves path.lock ∧ d.isLocked path.lock = true) ∧
    (result = .error (.table .notUtf8) ↔
      d.LockFree path ∧ ∃ bytes, prior = some bytes ∧
        ∀ text : String, text.toUTF8 ≠ bytes) ∧
    (∀ number fault, result = .error (.table (.malformed number fault)) ↔
      d.LockFree path ∧ ∃ text : String, prior = some text.toUTF8 ∧
        Table.FirstSpoiled (Text.lines text.toList) number fault) ∧
    ((∃ summary, result = .ok summary) ↔
      d.LockFree path ∧ ∀ bytes, prior = some bytes →
        ∃ text : String, text.toUTF8 = bytes ∧
        ∀ line ∈ Text.lines text.toList, ∀ fault,
          ¬ Table.Spoiled line fault) := by
  have houtcome := r.fileOutcome_exportToFile hd
  rw [hexport] at houtcome
  subst hprior
  refine ⟨?_, ?_, houtcome.locked_iff, ?_, ?_, ?_⟩
  · intro summary hok
    obtain ⟨t, ht, rfl, hread⟩ := houtcome.exists_of_ok hok
    have hlegible := hr.legible_overwrite (Table.legible_of_ofPrior ht)
    have hentries := hlegible.lineFeeds_render
    refine ⟨_, r.exportText_of_ofPrior ht, hread, rfl,
      ⟨_, hlegible.parse_render, hentries.symm⟩, Text.count_toUTF8 _,
      ⟨r.unseen t, r.nodup_unseen t, rfl, ?_⟩, ?_⟩
    · intro location
      simp only [mem_unseen_iff, (Table.getElem?_of_ofPrior ht).2,
        Table.exists_lastHolds_iff]
    · rw [hentries, size_overwrite]
  · intro error herror
    exact houtcome.read_eq_of_error herror
  · rw [houtcome.table_iff, Table.ofPrior_eq_notUtf8_iff]
  · intro number fault
    rw [houtcome.table_iff, Table.ofPrior_eq_malformed_iff]
  · rw [houtcome.ok_iff, Table.exists_ofPrior_eq_ok_iff]
    simp only [Table.exists_parse_eq_ok_iff]

def tableDirectory (text : String) : Directory :=
  Directory.empty.put ["tags"] (.file text.toUTF8)

theorem ready_tableDirectory (text : String) :
    (tableDirectory text).Ready ⟨"tags"⟩ ∧
      (tableDirectory text).content? ⟨"tags"⟩ = some text.toUTF8 := by
  have hempty : Directory.empty.Ready ⟨"tags"⟩ := by
    refine ⟨⟨by decide +kernel, by decide +kernel, ?_⟩,
      ⟨by decide +kernel, by decide +kernel, ?_⟩⟩
    all_goals
      intro node hnode
      cases hnode
  have hname : (FileName.mk "tags").components = [] ++ ["tags"] := rfl
  have hlock : (FileName.mk "tags").lock.components = [] ++ ["tags.lock"] := rfl
  obtain ⟨htable, hcontent⟩ := hempty.table.put_beside hname "tags" text.toUTF8
  exact ⟨⟨htable, (hempty.lock.put_beside hlock "tags" text.toUTF8).1⟩,
    hcontent⟩

/-- A file with a line that has no tab, after one that can be read and a blank
one. -/
def tornFile : String :=
  "app.View\tAny\r\n \nlone\n"

theorem tables_exportToFile_accounts :
    (∃ summary after,
      (viewRegistry .any).exportToFile ⟨"tags"⟩ (tableDirectory agedFile) =
        (.ok summary, after) ∧ summary.preserved = 2 ∧ summary.entries = 3 ∧
      ∃ (text : String) (t : Table), after.read ⟨"tags"⟩ = .ok text.toUTF8 ∧
        Table.parse text.toUTF8 = .ok t ∧ t.rows.size = 3) ∧
    ∃ after,
      (viewRegistry .any).exportToFile ⟨"tags"⟩ (tableDirectory tornFile) =
        (.error (.table (.malformed 3 .missingTab)), after) ∧
      after.read ⟨"tags"⟩ = .ok tornFile.toUTF8 := by
  have hr : (viewRegistry .any).Reachable := .record .empty _
  constructor
  · obtain ⟨hready, hcontent⟩ := ready_tableDirectory agedFile
    have hpreserved : ((viewRegistry .any).exportToFile ⟨"tags"⟩
        (tableDirectory agedFile)).1.toOption.map ExportSummary.preserved =
          some 2 := by decide +kernel
    obtain ⟨result, after, hexport⟩ : ∃ result after,
        (viewRegistry .any).exportToFile ⟨"tags"⟩ (tableDirectory agedFile) =
          (result, after) :=
      ⟨_, _, rfl⟩
    rw [hexport] at hpreserved
    cases result with
    | error error => cases hpreserved
    | ok summary =>
        have htwo : summary.preserved = 2 := Option.some.inj hpreserved
        have hone : (viewRegistry .any).size = 1 := by decide +kernel
        obtain ⟨hbooks, -⟩ :=
          exportToFile_accounts hr hready.table hcontent hexport
        obtain ⟨text, -, hread, -, ⟨t, hparse, hsize⟩, -, -, hsum⟩ :=
          hbooks summary rfl
        rw [htwo, hone] at hsum
        exact ⟨summary, after, hexport, htwo, hsum, text, t, hread, hparse,
          hsize.trans hsum⟩
  · obtain ⟨hready, hcontent⟩ := ready_tableDirectory tornFile
    obtain ⟨result, after, hexport⟩ : ∃ result after,
        (viewRegistry .any).exportToFile ⟨"tags"⟩ (tableDirectory tornFile) =
          (result, after) :=
      ⟨_, _, rfl⟩
    obtain ⟨-, hfails, -, -, hmalformed, -⟩ :=
      exportToFile_accounts hr hready.table hcontent hexport
    have hfirst :
        Table.FirstSpoiled (Text.lines tornFile.toList) 3 .missingTab := by
      refine ⟨["app.View\tAny".toList, " ".toList], "lone".toList, [],
        by decide +kernel, rfl,
        .missingTab (by decide +kernel) (by decide +kernel), ?_⟩
      have hearlier : ∀ other ∈ ["app.View\tAny".toList, " ".toList],
          other.all Text.isBlank = true ∨
            (Table.parseLine other).toOption.isSome = true := by
        decide +kernel
      intro other hother fault hspoiled
      have hread := hearlier other hother
      rw [hspoiled.filled,
        (Table.parseLine_eq_error_iff hspoiled.filled).mpr hspoiled] at hread
      simp [Except.toOption] at hread
    have hfree : (tableDirectory tornFile).LockFree ⟨"tags"⟩ :=
      ⟨hready.lock, by decide +kernel⟩
    have hresult :=
      (hmalformed 3 .missingTab).mpr ⟨hfree, tornFile, rfl, hfirst⟩
    refine ⟨after, by rw [hexport, hresult], ?_⟩
    rw [hfails _ hresult, hready.table.read, hcontent]

end Registry

end ThreadConfinement
