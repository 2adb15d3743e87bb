import RecordSieve.Proofs.Records.Selection
import Mathlib.Logic.Basic

namespace RecordSieve

namespace Csv

def Progress.EndsInFeeds (p : Progress) : Prop := p.lineEnd = none ∨ p.lineEnd = some .lf

def isPlainCell (cell : String) : Bool := !cell.toList.any needsQuotes

theorem lineEnd?_feed {known : Option LineEnd} (h : known = none ∨ known = some .lf) (cs : List Char) :
    lineEnd? known ('\n' :: cs) = some (.lf, cs) := by
  rcases h with rfl | rfl <;> rfl

theorem lineEnd?_other {c : Char} (hreturn : c ≠ '\r') (hfeed : c ≠ '\n') (known : Option LineEnd)
    (cs : List Char) : lineEnd? known (c :: cs) = none := by
  rw [lineEnd?, if_neg (by simp [hreturn]), if_neg (by simp [hfeed])]
  exact fun _ h _ => hreturn h

theorem lineEnd?_quote (known : Option LineEnd) (cs : List Char) : lineEnd? known ('\x22' :: cs) = none :=
  lineEnd?_other (by decide) (by decide) known cs

theorem lineEnd?_comma (known : Option LineEnd) (cs : List Char) : lineEnd? known (',' :: cs) = none :=
  lineEnd?_other (by decide) (by decide) known cs

theorem needsQuotes_eq_false {c : Char} (h : needsQuotes c = false) :
    c ≠ ',' ∧ c ≠ '\x22' ∧ c ≠ '\n' ∧ c ≠ '\r' := by
  simpa [needsQuotes, and_assoc] using h

section Equations

variable {p : Progress} {taken cs rest : List Char} {c : Char} {e : LineEnd}

theorem readCell_nil : readCell p [] =
    some (if p.cells.isEmpty then p.allRows else (p.endCell []).endRow.allRows) := by
  rw [readCell.eq_def]
  rfl

theorem readCell_end (h : lineEnd? p.lineEnd cs = some (e, rest)) : readCell p cs =
    readCell (if p.cells.isEmpty then { p with lineEnd := some e }
      else ({ p with lineEnd := some e }.endCell []).endRow) rest := by
  rw [readCell.eq_def]
  split
  · rename_i h'
    rw [h] at h'
    cases h'
    rfl
  · rename_i h'
    rw [h] at h'
    cases h'

theorem readCell_cons (h : lineEnd? p.lineEnd (c :: rest) = none) : readCell p (c :: rest) =
    if c = '\x22' then readQuoted p [] rest
    else if c = ',' then readCell (p.endCell []) rest
    else readPlain p [c] rest := by
  rw [readCell.eq_def]
  split
  · rename_i h'
    rw [h] at h'
    cases h'
  · rfl

theorem readPlain_end (h : lineEnd? p.lineEnd cs = some (e, rest)) : readPlain p taken cs =
    readCell ({ p with lineEnd := some e }.endCell taken).endRow rest := by
  rw [readPlain.eq_def]
  split
  · rename_i h'
    rw [h] at h'
    cases h'
    rfl
  · rename_i h'
    rw [h] at h'
    cases h'

theorem readPlain_cons (h : lineEnd? p.lineEnd (c :: rest) = none) : readPlain p taken (c :: rest) =
    if c = '\x22' then none
    else if c = ',' then readCell (p.endCell taken) rest
    else readPlain p (c :: taken) rest := by
  rw [readPlain.eq_def]
  split
  · rename_i h'
    rw [h] at h'
    cases h'
  · rfl

theorem readCell_plain (hc : needsQuotes c = false) : readCell p (c :: rest) = readPlain p [c] rest := by
  obtain ⟨hcomma, hquote, hfeed, hreturn⟩ := needsQuotes_eq_false hc
  rw [readCell_cons (lineEnd?_other hreturn hfeed _ _), if_neg hquote, if_neg hcomma]

theorem readPlain_plain (hc : needsQuotes c = false) :
    readPlain p taken (c :: rest) = readPlain p (c :: taken) rest := by
  obtain ⟨hcomma, hquote, hfeed, hreturn⟩ := needsQuotes_eq_false hc
  rw [readPlain_cons (lineEnd?_other hreturn hfeed _ _), if_neg hquote, if_neg hcomma]

theorem readQuoted_other (hc : c ≠ '\x22') :
    readQuoted p taken (c :: rest) = readQuoted p (c :: taken) rest := by
  rw [readQuoted.eq_def]
  exact if_pos hc

theorem readQuoted_last : readQuoted p taken ['\x22'] = some (p.endCell taken).endRow.allRows := by
  rw [readQuoted.eq_def]
  rfl

theorem readQuoted_end (h : lineEnd? p.lineEnd cs = some (e, rest)) : readQuoted p taken ('\x22' :: cs) =
    readCell ({ p with lineEnd := some e }.endCell taken).endRow rest := by
  rw [readQuoted.eq_def]
  dsimp only
  rw [if_neg (by simp)]
  split
  · rename_i h'
    rw [h] at h'
    cases h'
    rfl
  · rename_i h'
    rw [h] at h'
    cases h'

theorem readQuoted_cons (h : lineEnd? p.lineEnd (c :: rest) = none) :
    readQuoted p taken ('\x22' :: c :: rest) =
      if c = '\x22' then readQuoted p (c :: taken) rest
      else if c = ',' then readCell (p.endCell taken) rest
      else if c = '\x00' then readPlain p (c :: taken) rest
      else none := by
  rw [readQuoted.eq_def]
  dsimp only
  rw [if_neg (by simp), h]

theorem readQuoted_doubled (c : Char) :
    readQuoted p taken (doubled c ++ rest) = readQuoted p (c :: taken) rest := by
  rw [doubled]
  by_cases hc : c = '\x22'
  · subst hc
    exact readQuoted_cons (lineEnd?_quote _ _)
  · rw [if_neg hc]
    exact readQuoted_other hc

end Equations

theorem readPlain_append {cell : List Char} (h : cell.any needsQuotes = false) (p : Progress)
    (taken rest : List Char) : readPlain p taken (cell ++ rest) = readPlain p (cell.reverse ++ taken) rest := by
  induction cell generalizing taken with
  | nil => rfl
  | cons c cs ih =>
      rw [List.any_cons, Bool.or_eq_false_iff] at h
      rw [List.cons_append, readPlain_plain h.1, ih h.2, List.reverse_cons, List.append_assoc]
      rfl

theorem readQuoted_append (cell : List Char) (p : Progress) (taken rest : List Char) :
    readQuoted p taken (cell.flatMap doubled ++ rest) = readQuoted p (cell.reverse ++ taken) rest := by
  induction cell generalizing taken with
  | nil => rfl
  | cons c cs ih =>
      rw [List.flatMap_cons, List.append_assoc, readQuoted_doubled, ih, List.reverse_cons, List.append_assoc]
      rfl

theorem readCell_cellChars (p : Progress) {cell : String} (hne : cell ≠ "") (rest : List Char) :
    readCell p (cellChars cell ++ rest) =
      if isPlainCell cell then readPlain p cell.toList.reverse rest
      else readQuoted p cell.toList.reverse ('\x22' :: rest) := by
  rw [cellChars, isPlainCell]
  cases hquotes : cell.toList.any needsQuotes with
  | true =>
      have hcons := readCell_cons (lineEnd?_quote p.lineEnd (cell.toList.flatMap doubled ++ '\x22' :: rest))
      have happend := readQuoted_append cell.toList p [] ('\x22' :: rest)
      rw [List.append_nil] at happend
      simp only [if_true, if_false, Bool.not_true, Bool.false_eq_true, List.cons_append, List.append_assoc,
        List.nil_append] at hcons ⊢
      rw [hcons, happend]
  | false =>
      obtain ⟨c, cs, hcell⟩ : ∃ c cs, cell.toList = c :: cs :=
        List.exists_cons_of_ne_nil fun h => hne (String.toList_eq_nil_iff.1 h)
      rw [hcell, List.any_cons, Bool.or_eq_false_iff] at hquotes
      simp only [hcell, List.cons_append, Bool.not_false, if_true, Bool.false_eq_true, if_false]
      rw [readCell_plain hquotes.1, readPlain_append hquotes.2, List.reverse_cons]

theorem endCell_reverse (p : Progress) (cell : String) :
    p.endCell cell.toList.reverse = { p with cells := cell :: p.cells } := by
  rw [Progress.endCell, List.reverse_reverse, String.ofList_toList]

theorem readCell_comma (p : Progress) (cell : String) (rest : List Char) :
    readCell p (cellChars cell ++ ',' :: rest) = readCell { p with cells := cell :: p.cells } rest := by
  rw [← endCell_reverse]
  by_cases hcell : cell = ""
  · subst hcell
    exact readCell_cons (lineEnd?_comma _ _)
  · rw [readCell_cellChars p hcell]
    split
    · exact readPlain_cons (lineEnd?_comma _ _)
    · exact readQuoted_cons (lineEnd?_comma _ _)

theorem readCell_feed {p : Progress} (hp : p.EndsInFeeds) (cell : String) (rest : List Char) :
    readCell p (cellChars cell ++ '\n' :: rest) =
      if p.cells = [] ∧ cell = "" then readCell { p with lineEnd := some .lf } rest
      else readCell ⟨some .lf, (cell :: p.cells).reverse :: p.rows, []⟩ rest := by
  have hrow : ({ p with lineEnd := some .lf }.endCell cell.toList.reverse).endRow =
      ⟨some .lf, (cell :: p.cells).reverse :: p.rows, []⟩ := by
    rw [endCell_reverse]
    rfl
  by_cases hcell : cell = ""
  · subst hcell
    have hend := readCell_end (lineEnd?_feed hp rest)
    simp only [List.isEmpty_iff] at hend
    simp only [and_true]
    rw [← hrow]
    refine Eq.trans hend ?_
    split <;> rfl
  · have hshown : ¬(p.cells = [] ∧ cell = "") := fun h => hcell h.2
    rw [readCell_cellChars p hcell, if_neg hshown, ← hrow]
    split
    · exact readPlain_end (lineEnd?_feed hp rest)
    · exact readQuoted_end (lineEnd?_feed hp rest)

def isBlankRow (row : List String) : Bool := row == [] || row == [""]

theorem readCell_cells {p : Progress} (hp : p.EndsInFeeds) (cell : String) (cells : List String)
    (rest : List Char) (hne : p.cells ≠ [] ∨ cells ≠ []) :
    readCell p (rowChars (cell :: cells) ++ rest) =
      readCell ⟨some .lf, (p.cells.reverse ++ cell :: cells) :: p.rows, []⟩ rest := by
  induction cells generalizing p cell with
  | nil =>
      have hfeed := readCell_feed hp cell rest
      rw [if_neg fun h => hne.elim (· h.1) (· rfl)] at hfeed
      rw [rowChars, List.map_singleton, List.intercalate_singleton, List.append_assoc]
      rw [List.reverse_cons] at hfeed
      exact hfeed
  | cons next cells ih =>
      have hnext : Progress.EndsInFeeds { p with cells := cell :: p.cells } := hp
      have hrest := ih hnext next (.inl (by simp))
      rw [rowChars, List.map_cons, List.map_cons, List.intercalate_cons_cons]
      rw [rowChars, List.map_cons, List.reverse_cons, List.append_assoc] at hrest
      simp only [List.append_assoc, List.singleton_append] at hrest ⊢
      rw [List.cons_append, readCell_comma, hrest]

theorem readCell_row {p : Progress} (hp : p.EndsInFeeds) (hcells : p.cells = []) (row : List String)
    (rest : List Char) : readCell p (rowChars row ++ rest) =
      readCell ⟨some .lf, if isBlankRow row then p.rows else row :: p.rows, []⟩ rest := by
  obtain ⟨lineEnd, rows, cells⟩ := p
  obtain rfl : cells = [] := hcells
  cases row with
  | nil => exact readCell_end (lineEnd?_feed hp rest)
  | cons cell cells =>
      by_cases hblank : isBlankRow (cell :: cells) = true
      · obtain ⟨rfl, rfl⟩ : cell = "" ∧ cells = [] := by simpa [isBlankRow] using hblank
        exact readCell_end (lineEnd?_feed hp rest)
      · rw [if_neg hblank]
        by_cases hne : cells = []
        · subst hne
          have hcell : cell ≠ "" := by
            rintro rfl
            exact hblank rfl
          have hfeed := readCell_feed hp cell rest
          rw [if_neg fun h => hcell h.2] at hfeed
          rw [rowChars, List.map_singleton, List.intercalate_singleton, List.append_assoc]
          exact hfeed
        · exact readCell_cells hp cell cells rest (.inr hne)

theorem readCell_rows {p : Progress} (hp : p.EndsInFeeds) (hcells : p.cells = [])
    (rows : List (List String)) : readCell p (rows.flatMap rowChars) =
      some (p.rows.reverse ++ rows.filter (!isBlankRow ·)) := by
  induction rows generalizing p with
  | nil =>
      rw [List.flatMap_nil, readCell_nil, hcells, List.filter_nil, List.append_nil]
      rfl
  | cons row rows ih =>
      rw [List.flatMap_cons, readCell_row hp hcells, ih (.inr rfl) rfl, List.filter_cons]
      by_cases hblank : isBlankRow row = true
      · simp [hblank]
      · simp [hblank]

def isMarked (row : List String) : Bool :=
  row.head?.any fun cell => isPlainCell cell && cell.toList.head? == some Text.byteOrderMark

def unmarked (row : List String) : List String :=
  if isMarked row then row.modifyHead fun cell => String.ofList cell.toList.tail else row

theorem rowChars_cons (cells : List String) : ∃ c more, c ≠ Text.byteOrderMark ∧
    ∀ cell, rowChars (cell :: cells) = cellChars cell ++ c :: more := by
  cases cells with
  | nil => exact ⟨'\n', [], by decide, fun cell => by simp [rowChars]⟩
  | cons next cells =>
      exact ⟨',', rowChars (next :: cells), by decide, fun cell => by simp [rowChars]⟩

theorem cellChars_of_isPlainCell {cell : String} (h : isPlainCell cell = true) :
    cellChars cell = cell.toList := by
  rw [isPlainCell, Bool.not_eq_true'] at h
  simp [cellChars, h]

theorem head?_cellChars {cell : String} (h : isMarked [cell] = false) {c : Char}
    (hc : c ≠ Text.byteOrderMark) (more : List Char) :
    (cellChars cell ++ c :: more).head? ≠ some Text.byteOrderMark := by
  cases hplain : isPlainCell cell with
  | true =>
      rw [cellChars_of_isPlainCell hplain]
      cases hcell : cell.toList with
      | nil => simpa using hc
      | cons d ds => simpa [isMarked, hplain, hcell] using h
  | false =>
      rw [isPlainCell, Bool.not_eq_false'] at hplain
      simp only [cellChars, hplain, if_true, List.cons_append, List.head?_cons]
      decide

theorem dropByteOrderMark_rowChars (row : List String) (rest : List Char) :
    Text.dropByteOrderMark (rowChars row ++ rest) = rowChars (unmarked row) ++ rest := by
  cases row with
  | nil => rfl
  | cons cell cells =>
      obtain ⟨c, more, hc, hrow⟩ := rowChars_cons cells
      have hmarked : isMarked (cell :: cells) = isMarked [cell] := rfl
      rw [unmarked, hmarked]
      cases h : isMarked [cell] with
      | false =>
          rw [if_neg (by simp), hrow, List.append_assoc, List.cons_append]
          exact Text.dropByteOrderMark_eq_self (head?_cellChars h hc _)
      | true =>
          obtain ⟨hplain, ds, hcell⟩ : isPlainCell cell = true ∧
              ∃ ds, cell.toList = Text.byteOrderMark :: ds := by
            simpa [isMarked, List.head?_eq_some_iff] using h
          have htail : isPlainCell (String.ofList ds) = true := by
            rw [isPlainCell, hcell, List.any_cons, Bool.not_eq_true', Bool.or_eq_false_iff] at hplain
            rw [isPlainCell, String.toList_ofList, hplain.2]
            rfl
          rw [if_pos rfl, List.modifyHead_cons, hrow, hrow, cellChars_of_isPlainCell hplain, hcell,
            List.tail_cons, cellChars_of_isPlainCell htail, String.toList_ofList]
          exact Text.dropByteOrderMark_cons _

def Progress.IsFilled (p : Progress) : Prop := ∀ row ∈ p.rows, row ≠ []

theorem Progress.IsFilled.endRow {p : Progress} (h : p.IsFilled) (taken : List Char) :
    (p.endCell taken).endRow.IsFilled :=
  List.forall_mem_cons.2 ⟨by simp [endCell], h⟩

theorem Progress.IsFilled.allRows {p : Progress} (h : p.IsFilled) : ∀ row ∈ p.allRows, row ≠ [] :=
  fun row hrow => h row (List.mem_reverse.1 hrow)

theorem ne_nil_of_readCell :
    (∀ p cs, ∀ rows, readCell p cs = some rows → p.IsFilled → ∀ row ∈ rows, row ≠ []) ∧
    (∀ p taken cs, ∀ rows, readPlain p taken cs = some rows → p.IsFilled → ∀ row ∈ rows, row ≠ []) ∧
    (∀ p taken cs, ∀ rows, readQuoted p taken cs = some rows → p.IsFilled → ∀ row ∈ rows, row ≠ []) := by
  -- by the calls of the reader; a row ends together with a cell, or it has none and is skipped
  apply readCell.mutual_induct
  case case1 =>
    intro p cs e rest hend p' ih rows h hp
    rw [readCell_end hend] at h
    refine ih rows h ?_
    split
    · exact hp
    · exact Progress.IsFilled.endRow hp []
  case case2 =>
    intro p _ rows h hp
    rw [readCell_nil, Option.some.injEq] at h
    subst h
    split
    · exact hp.allRows
    · exact (hp.endRow []).allRows
  case case3 =>
    intro p rest hend ih rows h hp
    exact ih rows ((readCell_cons hend).symm.trans h) hp
  case case4 =>
    intro p rest hend _ ih rows h hp
    exact ih rows ((readCell_cons hend).symm.trans h) hp
  case case5 =>
    intro p c rest hend hquote hcomma ih rows h hp
    rw [readCell_cons hend, if_neg hquote, if_neg hcomma] at h
    exact ih rows h hp
  case case6 =>
    intro p taken cs e rest hend ih rows h hp
    exact ih rows ((readPlain_end hend).symm.trans h) (Progress.IsFilled.endRow hp taken)
  case case7 =>
    intro p taken _ rows h hp
    rw [readPlain.eq_def] at h
    cases h
    exact (hp.endRow taken).allRows
  case case8 =>
    intro p taken rest hend rows h
    rw [readPlain_cons hend] at h
    cases h
  case case9 =>
    intro p taken rest hend _ ih rows h hp
    exact ih rows ((readPlain_cons hend).symm.trans h) hp
  case case10 =>
    intro p taken c rest hend hquote hcomma ih rows h hp
    rw [readPlain_cons hend, if_neg hquote, if_neg hcomma] at h
    exact ih rows h hp
  case case11 =>
    intro p taken rows h
    rw [readQuoted.eq_def] at h
    cases h
  case case12 =>
    intro p taken c cs hc ih rows h hp
    exact ih rows ((readQuoted_other hc).symm.trans h) hp
  case case13 =>
    intro p taken c cs hc e rest hend ih rows h hp
    obtain rfl := not_not.1 hc
    exact ih rows ((readQuoted_end hend).symm.trans h) (Progress.IsFilled.endRow hp taken)
  case case14 =>
    intro p taken c hc _ rows h hp
    obtain rfl := not_not.1 hc
    rw [readQuoted_last, Option.some.injEq] at h
    exact h ▸ (hp.endRow taken).allRows
  case case15 =>
    intro p taken c hc rest hend ih rows h hp
    obtain rfl := not_not.1 hc
    exact ih rows ((readQuoted_cons hend).symm.trans h) hp
  case case16 =>
    intro p taken c hc rest hend _ ih rows h hp
    obtain rfl := not_not.1 hc
    exact ih rows ((readQuoted_cons hend).symm.trans h) hp
  case case17 =>
    intro p taken c hc rest hend _ _ ih rows h hp
    obtain rfl := not_not.1 hc
    exact ih rows ((readQuoted_cons hend).symm.trans h) hp
  case case18 =>
    intro p taken c hc d rest hend hquote hcomma hnull rows h
    obtain rfl := not_not.1 hc
    rw [readQuoted_cons hend, if_neg hquote, if_neg hcomma, if_neg hnull] at h
    cases h

theorem ne_nil_of_rows? {text : String} {rows : List (List String)} (h : rows? text = some rows) :
    ∀ row ∈ rows, row ≠ [] :=
  ne_nil_of_readCell.1 {} _ rows h (List.forall_mem_nil _)

end Csv

namespace Table

open Csv

theorem rows?_text (t : Table) : rows? t.text =
    some ((unmarked t.header :: t.rows).filter (!isBlankRow ·)) := by
  have hrows := readCell_rows (p := {}) (.inl rfl) rfl (unmarked t.header :: t.rows)
  rw [List.flatMap_cons] at hrows
  rw [rows?, text, String.toList_ofList, List.flatMap_cons, dropByteOrderMark_rowChars, hrows]
  rfl

/-- Whether a table comes back from its text: no row is one empty cell, and the header is not written
with the mark of an encoding at its front. -/
def IsRereadable (t : Table) : Prop := isMarked t.header = false ∧ [""] ∉ t.header :: t.rows

theorem parse_eq_ok_iff {text : String} {t : Table} :
    parse text = .ok t ↔ rows? text = some (t.header :: t.rows) := by
  rw [parse]
  cases rows? text with
  | none => simp
  | some rows =>
      cases rows with
      | nil => simp
      | cons header rows =>
          obtain ⟨header', rows'⟩ := t
          simp

theorem unmarked_eq_self_iff {row : List String} : unmarked row = row ↔ isMarked row = false := by
  rw [unmarked]
  cases hmarked : isMarked row with
  | false => simp
  | true =>
      cases row with
      | nil => cases hmarked
      | cons cell cells =>
          obtain ⟨-, ds, hcell⟩ : isPlainCell cell = true ∧
              ∃ ds, cell.toList = Text.byteOrderMark :: ds := by
            simpa [isMarked, List.head?_eq_some_iff] using hmarked
          have hne : String.ofList cell.toList.tail ≠ cell := by
            intro h
            have hlist := congrArg String.toList h
            rw [String.toList_ofList, hcell, List.tail_cons] at hlist
            have hlength := congrArg List.length hlist
            simp at hlength
          simp [hne]

theorem parse_text_iff {t : Table} (h : ∀ row ∈ t.header :: t.rows, row ≠ []) :
    parse t.text = .ok t ↔ t.IsRereadable := by
  rw [parse_eq_ok_iff, rows?_text, Option.some.injEq, IsRereadable, ← unmarked_eq_self_iff]
  constructor
  · intro hfilter
    have hlength := congrArg List.length hfilter
    have hall : ∀ row ∈ unmarked t.header :: t.rows, (!isBlankRow row) = true :=
      List.length_filter_eq_length_iff.1 hlength
    rw [List.filter_eq_self.2 hall] at hfilter
    rw [hfilter] at hall
    exact ⟨(List.cons_eq_cons.1 hfilter).1, fun hblank => absurd (hall _ hblank) (by simp [isBlankRow])⟩
  · rintro ⟨hheader, hblank⟩
    rw [hheader]
    refine List.filter_eq_self.2 fun row hrow => ?_
    have hcell : row ≠ [""] := fun hcell => hblank (hcell ▸ hrow)
    simp [isBlankRow, h row hrow, hcell]

theorem select_eq_ok_sublist {t kept : Table} {q : Query} {options : Options}
    (h : t.select q options = .ok kept) : kept.header = t.header ∧ kept.rows.Sublist t.rows := by
  obtain ⟨rows, hrows, h⟩ := Except.bind_eq_ok_iff.1 h
  cases h
  exact ⟨rfl, Query.select_sublist hrows⟩

/-- A table that was read, and every table that a query keeps of it, comes back from its text exactly if it
is rereadable. -/
theorem parse_text_of_parse {text : String} {t : Table} (h : parse text = .ok t) :
    (parse t.text = .ok t ↔ t.IsRereadable) ∧
    ∀ q options kept, t.select q options = .ok kept →
      (parse kept.text = .ok kept ↔ kept.IsRereadable) := by
  have hcells := ne_nil_of_rows? (parse_eq_ok_iff.1 h)
  refine ⟨parse_text_iff hcells, fun q options kept hkept => parse_text_iff ?_⟩
  obtain ⟨hheader, hrows⟩ := select_eq_ok_sublist hkept
  have hsublist : (kept.header :: kept.rows).Sublist (t.header :: t.rows) := hheader ▸ hrows.cons_cons _
  exact fun row hrow => hcells row (hsublist.mem hrow)

theorem parse_text_of_parse_quoted :
    let text := "a,b\n\x22x, y\x22,\x22say \x22\x22hi\x22\x22\x22\n\n\x22\n\x22\n"
    let t : Table := ⟨["a", "b"], [["x, y", "say \x22hi\x22"], ["\n"]]⟩
    parse text = .ok t ∧ t.IsRereadable ∧ parse t.text = .ok t := by
  intro text t
  have hparse : parse text = .ok t := by decide +kernel
  have hrereadable : t.IsRereadable := ⟨by rfl, by decide⟩
  exact ⟨hparse, hrereadable, (parse_text_of_parse hparse).1.2 hrereadable⟩

/-- A row of one empty cell is lost. -/
theorem parse_text_of_parse_empty_cell :
    parse "a\n\x22\x22\n" = .ok ⟨["a"], [[""]]⟩ ∧ Table.text ⟨["a"], [[""]]⟩ = "a\n\n" ∧
      parse "a\n\n" = .ok ⟨["a"], []⟩ := by
  exact ⟨by decide +kernel, by rfl, by decide +kernel⟩

end Table

end RecordSieve
