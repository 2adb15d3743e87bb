import RecordSieve.Records.Lines

namespace RecordSieve

structure Table where
  header : List String
  rows : List (List String)
  deriving DecidableEq, Repr

namespace Csv

inductive LineEnd where
  | crlf
  | lf
  | cr
  deriving DecidableEq, Repr

def lineEnd? (known : Option LineEnd) : List Char → Option (LineEnd × List Char)
  | [] => none
  | '\r' :: '\n' :: cs =>
      match known with
      | none | some .crlf => some (.crlf, cs)
      | some .lf => none
      | some .cr => some (.cr, '\n' :: cs)
  | c :: cs =>
      if c = '\r' ∧ (known = none ∨ known = some .cr) then some (.cr, cs)
      else if c = '\n' ∧ (known = none ∨ known = some .lf) then some (.lf, cs)
      else none

theorem length_lineEnd? {known : Option LineEnd} {cs rest : List Char} {e : LineEnd}
    (h : lineEnd? known cs = some (e, rest)) : rest.length < cs.length := by
  unfold lineEnd? at h
  split at h
  · simp at h
  · split at h <;> cases h <;> grind
  · split at h
    · grind
    · split at h <;> grind

/-- What has been read: the kind of line end once known, the rows and the cells of the current row, both
in reverse. -/
structure Progress where
  lineEnd : Option LineEnd := none
  rows : List (List String) := []
  cells : List String := []

namespace Progress

def endCell (p : Progress) (taken : List Char) : Progress :=
  { p with cells := String.ofList taken.reverse :: p.cells }

def endRow (p : Progress) : Progress := { p with rows := p.cells.reverse :: p.rows, cells := [] }

def allRows (p : Progress) : List (List String) := p.rows.reverse

end Progress

mutual

def readCell (p : Progress) (cs : List Char) : Option (List (List String)) :=
  match _h : lineEnd? p.lineEnd cs with
  | some (e, rest) =>
      let p := { p with lineEnd := some e }
      readCell (if p.cells.isEmpty then p else (p.endCell []).endRow) rest
  | none =>
      match cs with
      | [] => some (if p.cells.isEmpty then p.allRows else (p.endCell []).endRow.allRows)
      | c :: rest =>
          if c = '\x22' then readQuoted p [] rest
          else if c = ',' then readCell (p.endCell []) rest
          else readPlain p [c] rest
  termination_by cs.length
  decreasing_by
    · exact length_lineEnd? _h
    all_goals simp

def readPlain (p : Progress) (taken cs : List Char) : Option (List (List String)) :=
  match _h : lineEnd? p.lineEnd cs with
  | some (e, rest) => readCell ({ p with lineEnd := some e }.endCell taken).endRow rest
  | none =>
      match cs with
      | [] => some (p.endCell taken).endRow.allRows
      | c :: rest =>
          if c = '\x22' then none
          else if c = ',' then readCell (p.endCell taken) rest
          else readPlain p (c :: taken) rest
  termination_by cs.length
  decreasing_by
    · exact length_lineEnd? _h
    all_goals simp

/-- Reads on inside quotes. A closing quote ends the cell, unless a NUL reopens it. -/
def readQuoted (p : Progress) (taken cs : List Char) : Option (List (List String)) :=
  match cs with
  | [] => none
  | c :: cs =>
      if c ≠ '\x22' then readQuoted p (c :: taken) cs
      else
        match _h : lineEnd? p.lineEnd cs with
        | some (e, rest) => readCell ({ p with lineEnd := some e }.endCell taken).endRow rest
        | none =>
            match cs with
            | [] => some (p.endCell taken).endRow.allRows
            | d :: rest =>
                if d = '\x22' then readQuoted p (d :: taken) rest
                else if d = ',' then readCell (p.endCell taken) rest
                else if d = '\x00' then readPlain p (d :: taken) rest
                else none
  termination_by cs.length
  decreasing_by
    · simp
    · have := length_lineEnd? _h
      simp only [List.length_cons]
      omega
    all_goals
      simp only [List.length_cons]
      omega

end

def rows? (text : String) : Option (List (List String)) :=
  readCell {} (Text.dropByteOrderMark text.toList)

def parse (text : String) : Except FormError Table :=
  match rows? text with
  | none => .error { fault := .invalidCsv }
  | some [] => .error { fault := .noHeader }
  | some (header :: rows) => .ok ⟨header, rows⟩

def needsQuotes (c : Char) : Bool := c == ',' || c == '\x22' || c == '\n' || c == '\r'

def doubled (c : Char) : List Char := if c = '\x22' then ['\x22', '\x22'] else [c]

def cellChars (cell : String) : List Char :=
  let cs := cell.toList
  if cs.any needsQuotes then '\x22' :: cs.flatMap doubled ++ ['\x22'] else cs

def rowChars (row : List String) : List Char := [','].intercalate (row.map cellChars) ++ ['\n']

end Csv

namespace Table

def text (t : Table) : String := String.ofList ((t.header :: t.rows).flatMap Csv.rowChars)

def entries (header row : List String) : Entries String := Entries.ofList (header.zip row)

def record (header row : List String) : Input :=
  ⟨[], .keyed ((entries header row).map fun (k, cell) => (.string k, .string cell))⟩

def select (t : Table) (q : Query) (options : Options) : Except Failure Table := do
  return { t with rows := ← q.select options (record t.header) t.rows }

end Table

end RecordSieve
