import ThreadConfinement.Proofs.ChainedExport
import Mathlib.Tactic.SplitIfs

/-!
What an exported table says, line by line.

`Table.Holds` says by the characters of a line alone which row it holds, and
`Table.LastHolds` which row is the last for its location.  An export has one
line for each location that the registry or the prior file knows, in the order
of the bytes of locations: `Registry.exportText_rows`.
-/

namespace ThreadConfinement

namespace Text

/-! ### The order of bytes -/

theorem byte_cons_lt {a b : Nat} {cs ds : List UInt8}
    (hb : b < 256) (hle : a ≤ b) (hrest : a = b → cs < ds) :
    UInt8.ofNat a :: cs < UInt8.ofNat b :: ds := by
  rw [List.cons_lt_cons_iff, UInt8.lt_iff_toNat_lt, ← UInt8.toNat_inj,
    UInt8.toNat_ofNat', UInt8.toNat_ofNat', Nat.mod_eq_of_lt (by omega),
    Nat.mod_eq_of_lt (by omega)]
  rcases Nat.lt_or_eq_of_le hle with hlt | heq
  · exact Or.inl hlt
  · exact Or.inr ⟨heq, hrest heq⟩

/-- The bytes of a smaller character come first, whatever follows. -/
theorem utf8EncodeChar_append_lt {c d : Char} (hlt : c < d)
    (cs ds : List UInt8) :
    String.utf8EncodeChar c ++ cs < String.utf8EncodeChar d ++ ds := by
  have hcode : c.val.toNat < d.val.toNat := hlt
  have hbound : d.val.toNat < 0x110000 := by
    have hvalid := d.valid
    simp only [UInt32.isValidChar, Nat.isValidChar] at hvalid
    omega
  rw [String.utf8EncodeChar, String.utf8EncodeChar]
  generalize c.val.toNat = m at *
  generalize d.val.toNat = n at *
  split_ifs
  -- a smaller number has no more bytes, and where it has fewer, the first byte
  -- tells
  all_goals try omega
  all_goals try exact byte_cons_lt (by omega) (by omega) (by omega)
  -- with as many bytes, these are digits, the highest first
  · apply byte_cons_lt (by omega) (by omega)
    intro hfirst
    exact byte_cons_lt (by omega) (by omega) (by omega)
  · apply byte_cons_lt (by omega) (by omega)
    intro hfirst
    apply byte_cons_lt (by omega) (by omega)
    intro hsecond
    exact byte_cons_lt (by omega) (by omega) (by omega)
  · apply byte_cons_lt (by omega) (by omega)
    intro hfirst
    apply byte_cons_lt (by omega) (by omega)
    intro hsecond
    apply byte_cons_lt (by omega) (by omega)
    intro hthird
    exact byte_cons_lt (by omega) (by omega) (by omega)

theorem flatMap_utf8EncodeChar_lt {cs ds : List Char} (hlt : cs < ds) :
    cs.flatMap String.utf8EncodeChar < ds.flatMap String.utf8EncodeChar := by
  induction cs generalizing ds with
  | nil =>
      cases ds with
      | nil => exact absurd hlt (List.lt_irrefl [])
      | cons d ds =>
          obtain ⟨first, rest, hbytes⟩ :=
            List.exists_cons_of_ne_nil (String.utf8EncodeChar_ne_nil (c := d))
          rw [List.flatMap_nil, List.flatMap_cons, hbytes]
          exact List.nil_lt_cons _ _
  | cons c cs ih =>
      cases ds with
      | nil => exact absurd hlt (List.not_lt_nil _)
      | cons d ds =>
          rw [List.flatMap_cons, List.flatMap_cons]
          rcases List.cons_lt_cons_iff.mp hlt with hfirst | ⟨rfl, hrest⟩
          · exact utf8EncodeChar_append_lt hfirst _ _
          · exact List.append_left_lt (ih hrest)

theorem toList_toUTF8 (s : String) :
    s.toUTF8.data.toList = s.toList.flatMap String.utf8EncodeChar := by
  rw [String.toUTF8_eq_toByteArray, ← String.utf8Encode_toList]
  exact List.toList_data_toByteArray

/-- Texts in the order of their characters are in the order of their bytes. -/
theorem toUTF8_lt_of_compare {s t : String} (hlt : compare s t = .lt) :
    s.toUTF8.data.toList < t.toUTF8.data.toList := by
  rw [toList_toUTF8, toList_toUTF8]
  exact flatMap_utf8EncodeChar_lt
    (String.lt_iff.mp (compareOfLessAndEq_eq_lt.mp hlt))

/-! ### Blanks around a text -/

theorem trimChars_append {left cs right : List Char}
    (hleft : left.all isBlank = true) (hne : cs ≠ [])
    (hhead : cs.head?.any isBlank = false)
    (hlast : cs.getLast?.any isBlank = false)
    (hright : right.all isBlank = true) :
    trimChars (left ++ cs ++ right) = cs := by
  have hstart : (cs ++ right).head?.any isBlank = false := by
    obtain ⟨first, rest, rfl⟩ := List.exists_cons_of_ne_nil hne
    exact hhead
  rw [trimChars, List.append_assoc, dropBlanks_append hleft,
    dropBlanks_of_head? hstart, dropBlanksRight_append hlast hright]

theorem exists_append_trimChars (cs : List Char) :
    ∃ left right : List Char, left ++ trimChars cs ++ right = cs ∧
      left.all isBlank = true ∧ right.all isBlank = true := by
  obtain ⟨right, hcs, hright⟩ := exists_dropBlanksRight_append (dropBlanks cs)
  refine ⟨cs.takeWhile isBlank, right, ?_, List.all_takeWhile, hright⟩
  rw [trimChars, List.append_assoc, hcs]
  exact List.takeWhile_append_dropWhile

end Text

namespace Table

open Text

/-! ### The rows of a file -/

/-- The line holds this row: the location, blanks, the last tab of the line, and
the tag name between blanks. -/
structure Holds (line : List Char) (location tag : String) : Prop where
  row : LegibleRow location tag
  parts : ∃ gap left right : List Char,
    line = location.toList ++ gap ++ '\t' :: (left ++ tag.toList ++ right) ∧
    gap.all isBlank = true ∧ left.all isBlank = true ∧
    right.all isBlank = true ∧
    '\t' ∉ left ∧ '\t' ∉ right

theorem Holds.parseLine {line : List Char} {location tag : String}
    (hholds : Holds line location tag) :
    parseLine line = .ok (location, tag) := by
  obtain ⟨hrow, gap, left, right, rfl, hgap, hleft, hright, htabLeft,
    htabRight⟩ := hholds
  have htab : '\t' ∉ left ++ tag.toList ++ right := by
    simp [htabLeft, hrow.tag_tab, htabRight]
  have htag : tag.toList ≠ [] :=
    fun h => hrow.tag_ne (String.toList_eq_nil_iff.mp h)
  have hfilled : ¬(location.toList.isEmpty || tag.toList.isEmpty) = true := by
    simp [hrow.location_ne, hrow.tag_ne]
  rw [Table.parseLine, splitAtLast?_append htab]
  simp only [dropBlanksRight_append hrow.location_end hgap,
    trimChars_append hleft htag hrow.tag_start hrow.tag_end hright,
    if_neg hfilled, String.ofList_toList]

theorem holds_of_parseLine {line : List Char} {location tag : String}
    (hline : '\n' ∉ line)
    (hparse : Table.parseLine line = .ok (location, tag)) :
    Holds line location tag := by
  refine ⟨legibleRow_of_parseLine hline hparse, ?_⟩
  unfold Table.parseLine at hparse
  cases hsplit : splitAtLast? '\t' line with
  | none =>
      rw [hsplit] at hparse
      cases hparse
  | some parts =>
      obtain ⟨before, after⟩ := parts
      obtain ⟨rfl, hafter⟩ := eq_append_of_splitAtLast? hsplit
      obtain ⟨gap, hbefore, hgap⟩ := exists_dropBlanksRight_append before
      obtain ⟨left, right, htrim, hleft, hright⟩ :=
        exists_append_trimChars after
      simp only [hsplit] at hparse
      split at hparse
      · cases hparse
      · simp only [Except.ok.injEq, Prod.mk.injEq] at hparse
        obtain ⟨rfl, rfl⟩ := hparse
        rw [← htrim] at hafter
        simp only [List.mem_append, not_or] at hafter
        refine ⟨gap, left, right, ?_, hgap, hleft, hright, hafter.1.1, hafter.2⟩
        rw [String.toList_ofList, String.toList_ofList, hbefore, htrim]

/-- A line holds one row at most. -/
theorem Holds.unique {line : List Char} {location tag location' tag' : String}
    (hholds : Holds line location tag) (hholds' : Holds line location' tag') :
    location' = location ∧ tag' = tag := by
  have hsame := hholds'.parseLine.symm.trans hholds.parseLine
  simpa using hsame

theorem Holds.all_isBlank {line : List Char} {location tag : String}
    (hholds : Holds line location tag) : line.all isBlank = false := by
  obtain ⟨hrow, gap, left, right, rfl, -⟩ := hholds
  have hstart := hrow.tag_start
  cases htag : tag.toList with
  | nil => exact absurd (String.toList_eq_nil_iff.mp htag) hrow.tag_ne
  | cons c rest =>
      have hc : isBlank c = false := by simpa [htag] using hstart
      simp [hc]

/-- The last of the lines for the location holds this tag name. -/
def LastHolds (lines : List (List Char)) (location tag : String) : Prop :=
  ∃ earlier line later, lines = earlier ++ line :: later ∧
    Holds line location tag ∧
    ∀ other ∈ later, ∀ name, ¬ Holds other location name

theorem lastHolds_cons {line : List Char} {rest : List (List Char)}
    {location tag : String} :
    LastHolds (line :: rest) location tag ↔
      LastHolds rest location tag ∨
        Holds line location tag ∧
          ∀ other ∈ rest, ∀ name, ¬ Holds other location name := by
  constructor
  · rintro ⟨earlier, last, later, hsplit, hholds, hlater⟩
    cases earlier with
    | nil =>
        cases hsplit
        exact Or.inr ⟨hholds, hlater⟩
    | cons first earlier =>
        cases hsplit
        exact Or.inl ⟨earlier, last, later, rfl, hholds, hlater⟩
  · rintro (⟨earlier, last, later, rfl, hholds, hlater⟩ | ⟨hholds, hlater⟩)
    · exact ⟨line :: earlier, last, later, rfl, hholds, hlater⟩
    · exact ⟨[], line, rest, rfl, hholds, hlater⟩

theorem exists_lastHolds_iff {lines : List (List Char)} {location : String} :
    (∃ tag, LastHolds lines location tag) ↔
      ∃ line ∈ lines, ∃ tag, Holds line location tag := by
  constructor
  · rintro ⟨tag, earlier, line, later, rfl, hholds, -⟩
    exact ⟨line, by simp, tag, hholds⟩
  · intro hexists
    induction lines with
    | nil => simp at hexists
    | cons line rest ih =>
        by_cases hrest : ∃ other ∈ rest, ∃ name, Holds other location name
        · obtain ⟨tag, hlast⟩ := ih hrest
          exact ⟨tag, lastHolds_cons.mpr (Or.inl hlast)⟩
        · obtain ⟨holder, hholder, tag, hholds⟩ := hexists
          have hnone : ∀ other ∈ rest, ∀ name, ¬ Holds other location name :=
            fun other hother name h => hrest ⟨other, hother, name, h⟩
          rcases List.mem_cons.mp hholder with rfl | hmem
          · exact ⟨tag, lastHolds_cons.mpr (Or.inr ⟨hholds, hnone⟩)⟩
          · exact absurd hholds (hnone holder hmem tag)

/-- A line that holds a row takes the place of what was known at its
location. -/
theorem Holds.getElem?_insert {line : List Char} {place name : String}
    (hholds : Holds line place name) (known : TextMap String)
    (location tag : String) :
    (known.insert place name)[location]? = some tag ↔
      Holds line location tag ∨
        known[location]? = some tag ∧ ∀ other, ¬ Holds line location other := by
  rw [Std.ExtTreeMap.getElem?_insert]
  by_cases hplace : place = location
  · subst hplace
    have hown : Holds line place tag ↔ name = tag :=
      ⟨fun h => (h.unique hholds).2, fun h => h ▸ hholds⟩
    have hsome : ¬ ∀ other, ¬ Holds line place other := fun h => h name hholds
    simp [hown, hsome]
  · have hnone : ∀ other, ¬ Holds line location other :=
      fun other h => hplace (h.unique hholds).1
    simp [hnone, hplace]

/-- A line that can be read is blank or holds a row; the row is known when the
lines after it are read. -/
theorem exists_addLines_of_cons {line : List Char} {rest : List (List Char)}
    {known rows : TextMap String} {number : Nat} (hline : '\n' ∉ line)
    (hadd : addLines known number (line :: rest) = .ok rows) :
    (line.all isBlank = true ∨ ∃ location tag, Holds line location tag) ∧
      ∃ known', addLines known' (number + 1) rest = .ok rows ∧
        ∀ location tag : String, known'[location]? = some tag ↔
          Holds line location tag ∨
            known[location]? = some tag ∧
              ∀ other, ¬ Holds line location other := by
  unfold addLines at hadd
  split at hadd
  case isTrue hblank =>
    have hnone : ∀ location name, ¬ Holds line location name := by
      intro location name hholds
      rw [hholds.all_isBlank] at hblank
      cases hblank
    exact ⟨Or.inl hblank, known, hadd, fun location tag => by simp [hnone]⟩
  case isFalse =>
    cases hparse : Table.parseLine line with
    | error fault =>
        rw [hparse] at hadd
        cases hadd
    | ok row =>
        obtain ⟨place, name⟩ := row
        simp only [hparse] at hadd
        have hholds := holds_of_parseLine hline hparse
        exact ⟨Or.inr ⟨place, name, hholds⟩, _, hadd,
          hholds.getElem?_insert known⟩

/-- Lines that can be read are blank or hold a row; what is known at the end is
the last row of each location, or else what was known before. -/
theorem getElem?_of_addLines {lines : List (List Char)}
    {known rows : TextMap String} {number : Nat}
    (hlines : ∀ line ∈ lines, '\n' ∉ line)
    (hadd : addLines known number lines = .ok rows) :
    (∀ line ∈ lines, line.all isBlank = true ∨ ∃ location tag,
      Holds line location tag) ∧
      ∀ location tag, rows[location]? = some tag ↔
        LastHolds lines location tag ∨
          known[location]? = some tag ∧
            ∀ line ∈ lines, ∀ name, ¬ Holds line location name := by
  induction lines generalizing known number with
  | nil =>
      obtain rfl : known = rows := by simpa [addLines] using hadd
      simp [LastHolds]
  | cons line rest ih =>
      rw [List.forall_mem_cons] at hlines
      obtain ⟨hread, known', hrest, hknown⟩ :=
        exists_addLines_of_cons hlines.1 hadd
      obtain ⟨hreads, hrows⟩ := ih hlines.2 hrest
      refine ⟨List.forall_mem_cons.mpr ⟨hread, hreads⟩, ?_⟩
      intro location tag
      rw [hrows, hknown, lastHolds_cons, List.forall_mem_cons, or_and_right,
        and_assoc, or_assoc]

/-- The lines of the file that an export starts from. -/
def priorLines (prior : Option ByteArray) : List (List Char) :=
  (prior.bind String.fromUTF8?).elim [] (fun text => lines text.toList)

/-- A prior table has the last row of its file for each location, and no line of
the file is left out. -/
theorem getElem?_of_ofPrior {prior : Option ByteArray} {t : Table}
    (hprior : ofPrior prior = .ok t) :
    (∀ line ∈ priorLines prior, line.all isBlank = true ∨ ∃ location tag,
      Holds line location tag) ∧
      ∀ location tag, t.rows[location]? = some tag ↔
        LastHolds (priorLines prior) location tag := by
  cases prior with
  | none =>
      obtain rfl := Except.ok.inj hprior
      simp [priorLines, LastHolds, Table.empty]
  | some bytes =>
      rw [ofPrior, Table.parse] at hprior
      cases hutf8 : String.fromUTF8? bytes with
      | none =>
          rw [hutf8] at hprior
          cases hprior
      | some text =>
          have hlines : priorLines (some bytes) = lines text.toList := by
            rw [priorLines, Option.bind_some, hutf8]
            rfl
          simp only [hutf8, ofText] at hprior
          cases hadd : addLines ∅ 1 (lines text.toList) with
          | error fault =>
              rw [hadd] at hprior
              cases hprior
          | ok rows =>
              rw [hadd] at hprior
              obtain rfl := Except.ok.inj hprior
              obtain ⟨hread, hrows⟩ :=
                getElem?_of_addLines
                  (fun line => lineFeed_not_mem_of_mem_lines) hadd
              rw [hlines]
              refine ⟨hread, ?_⟩
              intro location tag
              simpa using hrows location tag

end Table

namespace Registry

/-- An export has one line for each location that the registry holds or a line
of the prior file names, in the order of the bytes of locations.  A line is the
location, filled up with spaces to eighty characters, a tab, the tag name, and a
line feed.  The name is that of the registry, or else that of the last line of
the prior file for the location; each line of that file is blank or names a
location. -/
theorem exportText_rows {r : Registry} (hr : r.Reachable)
    {prior : Option ByteArray} {text : String}
    (hexport : r.exportText prior = .ok text) :
    ∃ rows : List (String × String),
      text.toList = rows.flatMap (fun row =>
        row.1.toList ++ List.replicate (80 - row.1.length) ' ' ++
          '\t' :: row.2.toList ++ ['\n']) ∧
      (∀ row ∈ rows, '\n' ∉ row.1.toList ∧ '\n' ∉ row.2.toList) ∧
      rows.Pairwise (fun first second =>
        first.1.toUTF8.data.toList < second.1.toUTF8.data.toList) ∧
      (∀ location, (∃ tag, (location, tag) ∈ rows) ↔
        (∃ held, r.get? location = some held) ∨
          ∃ line ∈ Table.priorLines prior, ∃ tag,
            Table.Holds line location tag) ∧
      (∀ location tag, (location, tag) ∈ rows ↔
        (∃ held, r.get? location = some held ∧ held.tag.name = tag) ∨
          r.get? location = none ∧
            Table.LastHolds (Table.priorLines prior) location tag) ∧
      ∀ line ∈ Table.priorLines prior,
        line.all Text.isBlank = true ∨
          ∃ location tag, Table.Holds line location tag := by
  cases hprior : Table.ofPrior prior with
  | error fault =>
      rw [exportText, hprior] at hexport
      cases hexport
  | ok t =>
      rw [r.exportText_of_ofPrior hprior] at hexport
      obtain rfl := Except.ok.inj hexport
      obtain ⟨hread, hrows⟩ := Table.getElem?_of_ofPrior hprior
      have hlegible := hr.legible_overwrite (Table.legible_of_ofPrior hprior)
      have hmem : ∀ location tag,
          (location, tag) ∈ (r.overwrite t).rows.toList ↔
          (∃ held, r.get? location = some held ∧ held.tag.name = tag) ∨
            r.get? location = none ∧
              Table.LastHolds (Table.priorLines prior) location tag := by
        intro location tag
        rw [Std.ExtTreeMap.mem_toList_iff_getElem?_eq_some,
          getElem?_rows_overwrite, Option.or_eq_some_iff, hrows,
          Option.map_eq_some_iff, Option.map_eq_none_iff]
      refine ⟨(r.overwrite t).rows.toList, ?_, ?_, ?_, ?_, hmem, hread⟩
      · rw [Table.render, String.toList_ofList]
        rfl
      · rintro ⟨location, tag⟩ hrow
        have hrow := hlegible location tag
          (Std.ExtTreeMap.mem_toList_iff_getElem?_eq_some.mp hrow)
        exact ⟨hrow.location_lineFeed, hrow.tag_lineFeed⟩
      · exact Std.ExtTreeMap.ordered_keys_toList.imp Text.toUTF8_lt_of_compare
      · intro location
        simp only [hmem, ← Table.exists_lastHolds_iff]
        cases r.get? location with
        | none => simp
        | some held => simp

/-- A file with carriage returns, a blank line, a location outside of ASCII, one
with a tab that stands there twice, and one that the registry holds as well. -/
def agedFile : String :=
  "zoë\tAny\r\n \nold\tName\tGone \napp.View\tAny\nold\tName\t Later\r\n"

theorem agedFile_exportText_rows :
    ∃ text, ((viewRegistry .any).merge (viewRegistry .worker)).exportText
        (some agedFile.toUTF8) = .ok text ∧
      text.toList =
        [("app.View", "Worker"), ("old\tName", "Later"),
          ("zoë", "Any")].flatMap (fun row => Table.rowLine row.1 row.2) ∧
      ∃ rows : List (String × String),
        text.toList = rows.flatMap (fun row =>
          row.1.toList ++ List.replicate (80 - row.1.length) ' ' ++
            '\t' :: row.2.toList ++ ['\n']) ∧
        rows.Pairwise (fun first second =>
          first.1.toUTF8.data.toList < second.1.toUTF8.data.toList) ∧
        ∀ location, (∃ tag, (location, tag) ∈ rows) ↔
          (∃ held,
            ((viewRegistry .any).merge (viewRegistry .worker)).get? location =
              some held) ∨
            ∃ line ∈ Table.priorLines (some agedFile.toUTF8), ∃ tag,
              Table.Holds line location tag := by
  have hreachable :
      ((viewRegistry .any).merge (viewRegistry .worker)).Reachable :=
    .merge (.record .empty _) (.record .empty _)
  have hrows : (Table.ofText agedFile).toOption.map (fun t =>
      (((viewRegistry .any).merge (viewRegistry .worker)).overwrite
        t).rows.toList) =
      some [("app.View", "Worker"), ("old\tName", "Later"),
        ("zoë", "Any")] := by decide +kernel
  cases hread : Table.ofText agedFile with
  | error fault =>
      rw [hread] at hrows
      cases hrows
  | ok t =>
      have hprior : Table.ofPrior (some agedFile.toUTF8) = .ok t :=
        (Table.parse_toUTF8 agedFile).trans hread
      have hexport :=
        exportText_of_ofPrior
          ((viewRegistry .any).merge (viewRegistry .worker)) hprior
      obtain ⟨rows, htext, -, hsorted, hlocations, -, -⟩ :=
        exportText_rows hreachable hexport
      rw [hread] at hrows
      refine ⟨_, hexport, ?_, rows, htext, hsorted, hlocations⟩
      rw [← Option.some.inj hrows, Table.render, String.toList_ofList]

end Registry

end ThreadConfinement
