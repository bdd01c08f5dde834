import ThreadConfinement.Registry.Table

/-!
The format of the tag table goes both ways.

A table is legible when its rows survive being written and read: blanks at the
wrong end, line feeds, or tabs in a tag name would be lost or misread.  Legible
tables are read back as they were, and whatever is read is legible.
-/

namespace ThreadConfinement

namespace Text

/-! ### Trimming -/

theorem dropBlanks_of_head? {cs : List Char}
    (hhead : cs.head?.any isBlank = false) :
    dropBlanks cs = cs := by
  cases cs with
  | nil => rfl
  | cons c rest =>
      have hc : isBlank c = false := by simpa using hhead
      simp [dropBlanks, hc]

theorem head?_dropBlanks (cs : List Char) :
    (dropBlanks cs).head?.any isBlank = false := by
  induction cs with
  | nil => rfl
  | cons c rest ih =>
      cases hc : isBlank c with
      | true => simpa [dropBlanks, hc] using ih
      | false => simp [dropBlanks, hc]

theorem dropBlanksRight_eq (cs : List Char) :
    dropBlanksRight cs = (dropBlanks cs.reverse).reverse :=
  rfl

theorem dropBlanks_append {blanks : List Char}
    (hblanks : blanks.all isBlank = true) (cs : List Char) :
    dropBlanks (blanks ++ cs) = dropBlanks cs :=
  List.dropWhile_append_of_pos (by simpa using hblanks)

/-- Adding blanks at the end is undone by dropping them, unless there were
blanks before. -/
theorem dropBlanksRight_append {cs blanks : List Char}
    (hlast : cs.getLast?.any isBlank = false)
    (hblanks : blanks.all isBlank = true) :
    dropBlanksRight (cs ++ blanks) = cs := by
  have hhead : cs.reverse.head?.any isBlank = false := by
    rw [List.head?_reverse]
    exact hlast
  have hreverse : blanks.reverse.all isBlank = true := by
    rw [List.all_reverse]
    exact hblanks
  rw [dropBlanksRight_eq, List.reverse_append, dropBlanks_append hreverse,
    dropBlanks_of_head? hhead, List.reverse_reverse]

/-- Filling up with spaces is undone by dropping blanks, unless there were
blanks before. -/
theorem dropBlanksRight_append_spaces {cs : List Char}
    (hlast : cs.getLast?.any isBlank = false) (n : Nat) :
    dropBlanksRight (cs ++ List.replicate n ' ') = cs := by
  apply dropBlanksRight_append hlast
  rw [List.all_eq_true]
  intro c hc
  rw [List.eq_of_mem_replicate hc]
  decide

theorem dropBlanksRight_of_getLast? {cs : List Char}
    (hlast : cs.getLast?.any isBlank = false) :
    dropBlanksRight cs = cs := by
  simpa using dropBlanksRight_append_spaces hlast 0

theorem getLast?_dropBlanksRight (cs : List Char) :
    (dropBlanksRight cs).getLast?.any isBlank = false := by
  rw [dropBlanksRight_eq, List.getLast?_reverse]
  exact head?_dropBlanks cs.reverse

theorem exists_dropBlanksRight_append (cs : List Char) :
    ∃ blanks : List Char, dropBlanksRight cs ++ blanks = cs ∧
      blanks.all isBlank = true := by
  refine ⟨(cs.reverse.takeWhile isBlank).reverse, ?_, ?_⟩
  · rw [dropBlanksRight_eq, dropBlanks, ← List.reverse_append,
      List.takeWhile_append_dropWhile, List.reverse_reverse]
  · rw [List.all_reverse]
    exact List.all_takeWhile

theorem head?_trimChars (cs : List Char) :
    (trimChars cs).head?.any isBlank = false := by
  obtain ⟨blanks, hblanks, -⟩ := exists_dropBlanksRight_append (dropBlanks cs)
  have hhead := head?_dropBlanks cs
  rw [← hblanks] at hhead
  rw [trimChars]
  cases htrimmed : dropBlanksRight (dropBlanks cs) with
  | nil => rfl
  | cons c more =>
      rw [htrimmed] at hhead
      exact hhead

theorem mem_of_mem_dropBlanksRight {c : Char} {cs : List Char}
    (hc : c ∈ dropBlanksRight cs) :
    c ∈ cs := by
  obtain ⟨blanks, hblanks, -⟩ := exists_dropBlanksRight_append cs
  rw [← hblanks]
  exact List.mem_append_left blanks hc

theorem mem_of_mem_trimChars {c : Char} {cs : List Char}
    (hc : c ∈ trimChars cs) : c ∈ cs :=
  (List.dropWhile_suffix isBlank).subset (mem_of_mem_dropBlanksRight hc)

/-! ### Parts of a line -/

theorem splitAtLast?_eq_none_iff {mark : Char} {cs : List Char} :
    splitAtLast? mark cs = none ↔ mark ∉ cs := by
  induction cs with
  | nil => simp [splitAtLast?]
  | cons c rest ih =>
      unfold splitAtLast?
      cases hrest : splitAtLast? mark rest with
      | none =>
          have hnot := ih.mp hrest
          by_cases hc : c = mark
          · simp [hc]
          · simp [hc, hnot, Ne.symm hc]
      | some parts =>
          have hmem : mark ∈ rest := by
            rw [hrest] at ih
            exact Decidable.not_not.mp (fun hnot => nomatch ih.mpr hnot)
          simp [hmem]

theorem splitAtLast?_append {mark : Char} {after : List Char}
    (hafter : mark ∉ after) (before : List Char) :
    splitAtLast? mark (before ++ mark :: after) = some (before, after) := by
  induction before with
  | nil => simp [splitAtLast?, splitAtLast?_eq_none_iff.mpr hafter]
  | cons c rest ih => simp only [List.cons_append, splitAtLast?, ih]

theorem eq_append_of_splitAtLast? {mark : Char} {cs before after : List Char}
    (hsplit : splitAtLast? mark cs = some (before, after)) :
    cs = before ++ mark :: after ∧ mark ∉ after := by
  induction cs generalizing before with
  | nil => exact nomatch hsplit
  | cons c rest ih =>
      unfold splitAtLast? at hsplit
      cases hrest : splitAtLast? mark rest with
      | none =>
          rw [hrest] at hsplit
          by_cases hc : c = mark
          · simp only [if_pos hc, Option.some.injEq, Prod.mk.injEq] at hsplit
            obtain ⟨rfl, rfl⟩ := hsplit
            exact ⟨by rw [hc]; rfl, splitAtLast?_eq_none_iff.mp hrest⟩
          · simp [hc] at hsplit
      | some parts =>
          obtain ⟨front, back⟩ := parts
          simp only [hrest, Option.some.injEq, Prod.mk.injEq] at hsplit
          obtain ⟨rfl, rfl⟩ := hsplit
          obtain ⟨hparts, hnot⟩ := ih hrest
          exact ⟨by rw [hparts]; rfl, hnot⟩

/-! ### Lines -/

/-- A character that ends no line goes to the line that follows. -/
theorem lines_cons {c : Char} {cs : List Char} (hfeed : c ≠ '\n')
    (hreturn : c = '\r' → cs.head? ≠ some '\n') :
    lines (c :: cs) = (c :: (lines cs).headD []) :: (lines cs).tail := by
  rw [lines]
  · cases lines cs with
    | nil => rfl
    | cons line rest => rfl
  · exact hfeed
  · intro rest hc hcs
    exact hreturn hc (by rw [hcs]; rfl)

/-- A line without line feeds comes back when it is read up to its own line
feed; only a carriage return at its end would be lost. -/
theorem lines_append_lineFeed {line : List Char} (hfeed : '\n' ∉ line)
    (hreturn : line.getLast? ≠ some '\r') (rest : List Char) :
    lines (line ++ '\n' :: rest) = line :: lines rest := by
  induction line with
  | nil => rfl
  | cons c cs ih =>
      have hc : c ≠ '\n' := fun h => hfeed (by simp [h])
      have hcs : '\n' ∉ cs := fun h => hfeed (List.mem_cons_of_mem c h)
      -- a carriage return is part of the line's end only when nothing stands
      -- between it and the feed
      cases cs with
      | nil =>
          have hlast : c ≠ '\r' := by simpa using hreturn
          exact lines_cons hc (fun h => absurd h hlast)
      | cons d ds =>
          have hd : d ≠ '\n' := fun h => hcs (by simp [h])
          have hrest := ih hcs (by simpa using hreturn)
          rw [List.cons_append,
            lines_cons hc (fun _ => by simpa using hd), hrest]
          rfl

theorem lineFeed_not_mem_of_mem_lines {text line : List Char}
    (hline : line ∈ lines text) :
    '\n' ∉ line := by
  induction text using lines.induct generalizing line with
  | case1 => exact nomatch hline
  | case2 cs ih =>
      rcases List.mem_cons.mp hline with rfl | hrest
      · exact List.not_mem_nil
      · exact ih hrest
  | case3 cs ih =>
      rcases List.mem_cons.mp hline with rfl | hrest
      · exact List.not_mem_nil
      · exact ih hrest
  | case4 c cs hfeed hreturn hlines ih =>
      rw [lines, hlines] at hline
      · obtain rfl := List.mem_singleton.mp hline
        simpa using Ne.symm hfeed
      · exact hfeed
      · exact hreturn
  | case5 c cs hfeed hreturn first rest hlines ih =>
      rw [lines, hlines] at hline
      · rw [hlines] at ih
        rcases List.mem_cons.mp hline with rfl | hrest
        · have hfirst : '\n' ∉ first := ih List.mem_cons_self
          simpa [hfirst] using Ne.symm hfeed
        · exact ih (List.mem_cons_of_mem first hrest)
      · exact hfeed
      · exact hreturn

end Text

/-- A location and a tag name that a line can carry. -/
structure LegibleRow (location tag : String) : Prop where
  location_ne : location ≠ ""
  location_end : Text.endsInBlank location = false
  location_lineFeed : '\n' ∉ location.toList
  tag_ne : tag ≠ ""
  tag_start : tag.toList.head?.any Text.isBlank = false
  tag_end : Text.endsInBlank tag = false
  tag_tab : '\t' ∉ tag.toList
  tag_lineFeed : '\n' ∉ tag.toList

namespace Table

def Legible (t : Table) : Prop :=
  ∀ location tag : String, t.rows[location]? = some tag →
    LegibleRow location tag

/-- The line of one row, without its line feed. -/
def rowBody (location tag : String) : List Char :=
  Text.padRight locationWidth location.toList ++ '\t' :: tag.toList

end Table

namespace LegibleRow

open Text Table

variable {location tag : String}

/-- A legible row is read off its line as it was. -/
theorem parseLine_rowBody (hrow : LegibleRow location tag) :
    parseLine (rowBody location tag) = .ok (location, tag) := by
  have hlocation : dropBlanksRight (padRight locationWidth location.toList) =
      location.toList :=
    dropBlanksRight_append_spaces hrow.location_end _
  have htag : trimChars tag.toList = tag.toList := by
    rw [trimChars, dropBlanks_of_head? hrow.tag_start,
      dropBlanksRight_of_getLast? hrow.tag_end]
  have hfilled : ¬(location.toList.isEmpty || tag.toList.isEmpty) = true := by
    simp [hrow.location_ne, hrow.tag_ne]
  rw [parseLine, rowBody, splitAtLast?_append hrow.tag_tab]
  simp only [hlocation, htag, if_neg hfilled, String.ofList_toList]

theorem all_isBlank_rowBody (hrow : LegibleRow location tag) :
    (rowBody location tag).all isBlank = false := by
  have hstart := hrow.tag_start
  cases htag : tag.toList with
  | nil => exact absurd (String.toList_eq_nil_iff.mp htag) hrow.tag_ne
  | cons c rest =>
      have hc : isBlank c = false := by simpa [htag] using hstart
      simp [rowBody, htag, hc]

theorem lineFeed_not_mem_rowBody (hrow : LegibleRow location tag) :
    '\n' ∉ rowBody location tag := by
  simp [rowBody, padRight, hrow.location_lineFeed, hrow.tag_lineFeed]

theorem getLast?_rowBody (hrow : LegibleRow location tag) :
    (rowBody location tag).getLast? ≠ some '\r' := by
  have hend := hrow.tag_end
  cases hlast : tag.toList.getLast? with
  | none =>
      have hnil := List.getLast?_eq_none_iff.mp hlast
      exact absurd (String.toList_eq_nil_iff.mp hnil) hrow.tag_ne
  | some last =>
      have hbody : (rowBody location tag).getLast? = some last := by
        simp [rowBody, List.getLast?_append, List.getLast?_cons, hlast]
      rw [hbody]
      rintro ⟨rfl⟩
      rw [endsInBlank, hlast] at hend
      exact absurd hend (by decide)

end LegibleRow

namespace Table

open Text

/-- What is read off a line is legible. -/
theorem legibleRow_of_parseLine {line : List Char} {location tag : String}
    (hline : '\n' ∉ line) (hparse : parseLine line = .ok (location, tag)) :
    LegibleRow location tag := by
  unfold parseLine at hparse
  cases hsplit : splitAtLast? '\t' line with
  | none =>
      rw [hsplit] at hparse
      exact nomatch hparse
  | some parts =>
      obtain ⟨before, after⟩ := parts
      obtain ⟨rfl, hafter⟩ := eq_append_of_splitAtLast? hsplit
      simp only [hsplit] at hparse
      split at hparse
      · exact nomatch hparse
      · next hfilled =>
          simp only [Except.ok.injEq, Prod.mk.injEq] at hparse
          obtain ⟨rfl, rfl⟩ := hparse
          simp only [Bool.or_eq_true, List.isEmpty_iff, not_or] at hfilled
          have hbefore : '\n' ∉ before :=
            fun h => hline (List.mem_append_left _ h)
          have hlineAfter : '\n' ∉ after := fun h =>
            hline (List.mem_append_right _ (List.mem_cons_of_mem _ h))
          refine ⟨by simpa using hfilled.1, ?_, ?_, by simpa using hfilled.2,
            ?_, ?_, ?_, ?_⟩
          all_goals simp only [endsInBlank, String.toList_ofList]
          · exact getLast?_dropBlanksRight before
          · exact fun h => hbefore (mem_of_mem_dropBlanksRight h)
          · exact head?_trimChars after
          · exact getLast?_dropBlanksRight (dropBlanks after)
          · exact fun h => hafter (mem_of_mem_trimChars h)
          · exact fun h => hlineAfter (mem_of_mem_trimChars h)

/-- The text of legible rows has their lines. -/
theorem lines_flatMap_rowLine {rows : List (String × String)}
    (hrows : ∀ row ∈ rows, LegibleRow row.1 row.2) :
    lines (rows.flatMap (fun row => rowLine row.1 row.2)) =
      rows.map (fun row => rowBody row.1 row.2) := by
  induction rows with
  | nil => rfl
  | cons row rest ih =>
      have hrow := hrows row List.mem_cons_self
      have hrest :=
        ih (fun other hother => hrows other (List.mem_cons_of_mem row hother))
      have hline : rowLine row.1 row.2 = rowBody row.1 row.2 ++ ['\n'] := by
        simp [rowLine, rowBody]
      rw [List.flatMap_cons, hline, List.append_assoc, List.singleton_append,
        lines_append_lineFeed hrow.lineFeed_not_mem_rowBody
          hrow.getLast?_rowBody, hrest,
        List.map_cons]

/-- Reading the lines of legible rows inserts them one after another. -/
theorem addLines_map_rowBody {rows : List (String × String)}
    (hrows : ∀ row ∈ rows, LegibleRow row.1 row.2) (known : TextMap String)
    (number : Nat) :
    addLines known number (rows.map (fun row => rowBody row.1 row.2)) =
      .ok (known.insertMany rows) := by
  induction rows generalizing known number with
  | nil => simp [addLines]
  | cons row rest ih =>
      obtain ⟨location, tag⟩ := row
      have hrow : LegibleRow location tag := hrows _ List.mem_cons_self
      have hrest :=
        ih (fun other hother => hrows other (List.mem_cons_of_mem _ hother))
      rw [Std.ExtTreeMap.insertMany_cons,
        ← hrest (known.insert location tag) (number + 1)]
      simp [addLines, hrow.all_isBlank_rowBody, hrow.parseLine_rowBody]

/-- Inserting all rows of a map gives the map. -/
theorem insertMany_toList (rows : TextMap String) :
    (∅ : TextMap String).insertMany rows.toList = rows := by
  apply Std.ExtTreeMap.ext_getElem?
  intro location
  cases hget : rows[location]? with
  | some tag =>
      have hmem := Std.ExtTreeMap.mem_toList_iff_getElem?_eq_some.mpr hget
      exact Std.ExtTreeMap.getElem?_insertMany_list_of_mem
        Std.ReflCmp.compare_self Std.ExtTreeMap.distinct_keys_toList hmem
  | none =>
      have hkeys : (rows.toList.map Prod.fst).contains location = false := by
        rw [List.contains_eq_mem, decide_eq_false_iff_not]
        intro hmem
        obtain ⟨⟨key, tag⟩, hrow, rfl⟩ := List.mem_map.mp hmem
        rw [Std.ExtTreeMap.mem_toList_iff_getElem?_eq_some.mp hrow] at hget
        exact nomatch hget
      rw [Std.ExtTreeMap.getElem?_insertMany_list_of_contains_eq_false hkeys,
        Std.ExtTreeMap.getElem?_empty]

/-- The bytes of a text are read as that text. -/
theorem parse_toUTF8 (text : String) : parse text.toUTF8 = ofText text := by
  have hutf8 : String.fromUTF8? text.toUTF8 = some text :=
    dif_pos text.isValidUTF8
  rw [parse, hutf8]

theorem Legible.forall_mem_toList {t : Table} (ht : t.Legible) :
    ∀ row ∈ t.rows.toList, LegibleRow row.1 row.2 := by
  rintro ⟨location, tag⟩ hrow
  exact ht location tag (Std.ExtTreeMap.mem_toList_iff_getElem?_eq_some.mp hrow)

/-- A legible table is read back as it was. -/
theorem Legible.parse_render {t : Table} (ht : t.Legible) :
    parse t.render.toUTF8 = .ok t := by
  have hrows := ht.forall_mem_toList
  rw [parse_toUTF8]
  simp only [ofText, render, String.toList_ofList]
  rw [lines_flatMap_rowLine hrows, addLines_map_rowBody hrows,
    insertMany_toList]
  rfl

theorem Legible.insert {rows : TextMap String} {location tag : String}
    (hrows : Legible ⟨rows⟩) (hrow : LegibleRow location tag) :
    Legible ⟨rows.insert location tag⟩ := by
  intro key name hget
  have hcases : (rows.insert location tag)[key]? = some name := hget
  rw [Std.ExtTreeMap.getElem?_insert] at hcases
  split at hcases
  · next heq =>
      obtain rfl := Std.LawfulEqCmp.eq_of_compare heq
      obtain rfl := Option.some.inj hcases
      exact hrow
  · exact hrows key name hcases

/-- Rows that are read are legible, when the lines are lines and the rows before
were legible. -/
theorem legible_of_addLines {text : List (List Char)}
    {known rows : TextMap String} {number : Nat} (hknown : Legible ⟨known⟩)
    (htext : ∀ line ∈ text, '\n' ∉ line)
    (hadd : addLines known number text = .ok rows) : Legible ⟨rows⟩ := by
  -- a later row replaces an earlier one at its location, so legible rows must
  -- survive an insertion
  induction text generalizing known number with
  | nil =>
      obtain rfl : known = rows := by simpa [addLines] using hadd
      exact hknown
  | cons line rest ih =>
      have hrest : ∀ other ∈ rest, '\n' ∉ other :=
        fun other hother => htext other (List.mem_cons_of_mem line hother)
      unfold addLines at hadd
      split at hadd
      · exact ih hknown hrest hadd
      · cases hparse : parseLine line with
        | error fault =>
            rw [hparse] at hadd
            exact nomatch hadd
        | ok row =>
            obtain ⟨location, tag⟩ := row
            simp only [hparse] at hadd
            have hrow :=
              legibleRow_of_parseLine (htext line List.mem_cons_self) hparse
            exact ih (hknown.insert hrow) hrest hadd

/-- What is read is legible. -/
theorem legible_of_parse {bytes : ByteArray} {t : Table}
    (hparse : parse bytes = .ok t) :
    t.Legible := by
  unfold parse at hparse
  cases hutf8 : String.fromUTF8? bytes with
  | none =>
      rw [hutf8] at hparse
      exact nomatch hparse
  | some text =>
      simp only [hutf8, ofText] at hparse
      cases hadd : addLines ∅ 1 (lines text.toList) with
      | error fault =>
          rw [hadd] at hparse
          exact nomatch hparse
      | ok rows =>
          rw [hadd] at hparse
          obtain rfl := Except.ok.inj hparse
          have hnone : Legible ⟨∅⟩ := by
            intro location tag hget
            simp at hget
          exact legible_of_addLines hnone
            (fun line => lineFeed_not_mem_of_mem_lines) hadd

/-- Writing and reading go both ways exactly for legible tables, and every table
that was read is one of them. -/
theorem parse_render_iff_legible (t : Table) :
    (parse t.render.toUTF8 = .ok t ↔ t.Legible) ∧
      ∀ bytes : ByteArray, parse bytes = .ok t →
        t.Legible ∧ parse t.render.toUTF8 = .ok t := by
  refine ⟨⟨legible_of_parse, Legible.parse_render⟩, ?_⟩
  intro bytes hparse
  have ht := legible_of_parse hparse
  exact ⟨ht, ht.parse_render⟩

/-- A file with carriage returns, blank lines, a tab inside a location, a
repeated location, a name that is no tag, and a location wider than its
column. -/
def mixedFile : List Char :=
  "app\tView \tWorker\r\n\r\n \t \nlone\rreturn\tAny\nlone\rreturn\t Later \n".toList
    ++ List.replicate 81 'x' ++ "\tAny".toList

theorem mixedFile_round_trip :
    ∃ t : Table, parse (String.ofList mixedFile).toUTF8 = .ok t ∧ t.Legible ∧
      parse t.render.toUTF8 = .ok t ∧
      t.rows.toList = [("app\tView", "Worker"), ("lone\rreturn", "Later"),
        (String.ofList (List.replicate 81 'x'), "Any")] := by
  have hrows :
      (addLines ∅ 1 (lines mixedFile)).toOption.map (fun rows => rows.toList) =
        some [("app\tView", "Worker"), ("lone\rreturn", "Later"),
          (String.ofList (List.replicate 81 'x'), "Any")] := by decide +kernel
  cases hadd : addLines ∅ 1 (lines mixedFile) with
  | error fault =>
      rw [hadd] at hrows
      exact nomatch hrows
  | ok rows =>
      have hparse : parse (String.ofList mixedFile).toUTF8 = .ok ⟨rows⟩ := by
        rw [parse_toUTF8, ofText, String.toList_ofList, hadd]
        rfl
      have hboth := (parse_render_iff_legible ⟨rows⟩).2 _ hparse
      rw [hadd] at hrows
      exact ⟨⟨rows⟩, hparse, hboth.1, hboth.2, Option.some.inj hrows⟩

end Table

end ThreadConfinement
