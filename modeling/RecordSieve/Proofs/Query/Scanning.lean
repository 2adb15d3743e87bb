import RecordSieve.Proofs.Outcome
import RecordSieve.Proofs.Query.Grammar
import RecordSieve.Proofs.Query.Lexing

namespace RecordSieve.Query

theorem scan_nil (position : Nat) : scan position [] = .ok [⟨.eof, "", position⟩] := by
  rw [scan]

theorem scan_blank {c : Char} (position : Nat) (cs : List Char) (hb : Text.isBlank c = true) :
    scan position (c :: cs) = scan (position + Text.width c) cs := by
  rw [scan, if_pos hb]

theorem scan_lexeme {c : Char} {cs : List Char} {l : Lexeme} (position : Nat)
    (hb : Text.isBlank c = false) (h : lexeme c cs = .ok l) :
    scan position (c :: cs) = (scan (position + Text.widths l.source) l.rest).map
      (⟨l.kind, String.ofList l.text, position⟩ :: ·) := by
  rw [scan, if_neg (by simp [hb])]
  split
  · rename_i fault hl
    rw [h] at hl
    cases hl
  · rename_i l' hl
    rw [h] at hl
    cases hl
    rfl

theorem scan_token {kind : TokenKind} {text source rest : List Char} (position : Nat)
    (hs : Spells kind text source) (hc : Closed kind rest) :
    scan position (source ++ rest) = (scan (position + Text.widths source) rest).map
      (⟨kind, String.ofList text, position⟩ :: ·) := by
  obtain ⟨c, cs, rfl⟩ := List.exists_cons_of_ne_nil hs.source_ne_nil
  have hl : lexeme c (cs ++ rest) = .ok ⟨kind, text, c :: cs, rest⟩ :=
    lexeme_eq_ok_iff.2 ⟨rfl, hs, hc⟩
  exact scan_lexeme position (hs.head_not_blank c (by simp)) hl

theorem spells_of_scan {position : Nat} {cs : List Char} {ts : List Token}
    (h : scan position cs = .ok ts) : ∃ front last, ts = front ++ [last] ∧ last.kind = .eof ∧
      ∀ t ∈ front, ∃ source, Spells t.kind t.text.toList source := by
  induction position, cs using scan.induct generalizing ts with
  | case1 position =>
      rw [scan_nil] at h
      exact ⟨[], _, (Except.ok.inj h).symm, rfl, by simp⟩
  | case2 position c cs hb ih =>
      rw [scan_blank position cs hb] at h
      exact ih h
  | case3 position c cs hb fault hl =>
      rw [scan, if_neg hb] at h
      split at h
      · simp at h
      · rename_i l hl'
        rw [hl] at hl'
        cases hl'
  | case4 position c cs hb l hl ih =>
      rw [scan_lexeme position (by simpa using hb) hl] at h
      obtain ⟨ts', hrest, rfl⟩ := Except.map_eq_ok_iff.1 h
      obtain ⟨front, last, rfl, hlast, hall⟩ := ih hrest
      refine ⟨_ :: front, last, rfl, hlast, List.forall_mem_cons.2 ⟨?_, hall⟩⟩
      rw [String.toList_ofList]
      exact ⟨l.source, (lexeme_eq_ok_iff.1 hl).2.1⟩

theorem Spells.kind_ne_eof {kind : TokenKind} {text source : List Char}
    (h : Spells kind text source) : kind ≠ .eof := by
  cases h with
  | keyword h => exact List.ne_of_not_mem_cons (fixed_of_mem (List.mem_append_left _ h)).1
  | symbol h => exact List.ne_of_not_mem_cons (fixed_of_mem (List.mem_append_right _ h)).1
  | isNot | number | ident | string => simp

def EndsOperand (rest : List Char) : Prop := ∀ c ∈ rest.head?, Text.isBlank c = true ∨ c = ')'

theorem EndsOperand.endsWord {rest : List Char} (h : EndsOperand rest) : endsWord rest = true := by
  refine endsWord_eq_true_iff.2 fun c hc => ?_
  rcases h c hc with hb | rfl
  · exact Text.isWordChar_of_isBlank hb
  · exact (Text.punctuation_isWordChar ')' (by simp)).1

theorem EndsOperand.closed_number {rest : List Char} (h : EndsOperand rest) :
    Closed .number rest := by
  intro c hc
  have hword : Text.isWordChar c = false := endsWord_eq_true_iff.1 h.endsWord c hc
  have hdigit : c.isDigit = false := by
    by_contra hd
    simp [Text.isWordChar_of_isDigit (by simpa using hd)] at hword
  have hpoint : c ≠ '.' := by
    rintro rfl
    rcases h '.' hc with hb | hb
    · revert hb
      decide
    · simp at hb
  simp [isNumeral, hdigit, hpoint]

theorem EndsOperand.of_blank (c : Char) (cs : List Char) (h : Text.isBlank c = true) :
    EndsOperand (c :: cs) := by
  intro d hd
  obtain rfl : c = d := by simpa using hd
  exact .inl h

/-- Whatever ends an operand follows, the source scans to tokens of the nonterminal. -/
def ScansTo (n : Nonterminal) (source : List Char) (q : Query) : Prop :=
  ∀ position rest, EndsOperand rest → ∃ ts, Derives n ts q ∧
    scan position (source ++ rest) = (scan (position + Text.widths source) rest).map (ts ++ ·)

theorem map_map_append (r : Except QueryError (List Token)) (us vs : List Token) :
    (r.map (vs ++ ·)).map (us ++ ·) = r.map (us ++ vs ++ ·) := by
  cases r <;> simp [Except.map]

theorem ScansTo.parse {text : String} {q : Query} (h : ScansTo .disjunction text.toList q) :
    Query.parse text = .ok q := by
  obtain ⟨ts, hd, hs⟩ := h 0 [] (by simp [EndsOperand])
  rw [List.append_nil, scan_nil] at hs
  rw [Query.parse, tokenize, hs]
  exact ofTokens_of_derives rfl hd

theorem ScansTo.mono {n n' : Nonterminal} {source : List Char} {q : Query}
    (h : ScansTo n source q) (hn : ∀ ts, Derives n ts q → Derives n' ts q) :
    ScansTo n' source q := by
  intro position rest hr
  obtain ⟨ts, hd, hs⟩ := h position rest hr
  exact ⟨ts, hn ts hd, hs⟩

theorem scan_keyword_blank {kind : TokenKind} {word : List Char} (position : Nat) (rest : List Char)
    (h : (kind, word) ∈ keywordTokens) (his : kind ≠ .is) :
    scan position (word ++ ' ' :: rest) = (scan (position + Text.widths (word ++ [' '])) rest).map
      ([⟨kind, String.ofList word, position⟩] ++ ·) := by
  have hclosed : Closed kind (' ' :: rest) :=
    closed_of_endsWord h his (EndsOperand.of_blank ' ' rest (by decide)).endsWord
  rw [scan_token position (.keyword h) hclosed, scan_blank _ _ (by decide), Text.widths_append,
    ← Nat.add_assoc]
  rfl

theorem scansTo_not {source : List Char} {q : Query} (h : ScansTo .unary source q) :
    ScansTo .unary (['n', 'o', 't'] ++ ' ' :: source) (.not q) := by
  intro position rest hr
  obtain ⟨ts, hd, hs⟩ := h (position + Text.widths (['n', 'o', 't'] ++ [' '])) rest hr
  refine ⟨⟨.not, "not", position⟩ :: ts, .not rfl hd, ?_⟩
  have hnot : ((.not, ['n', 'o', 't']) : TokenKind × List Char) ∈ keywordTokens := by
    simp [keywordTokens]
  rw [List.append_assoc ['n', 'o', 't'], show ' ' :: source ++ rest = ' ' :: (source ++ rest) from rfl,
    scan_keyword_blank position _ hnot (by simp), hs, map_map_append]
  simp only [Text.widths_append, Text.widths_cons, Text.widths_nil, Nat.add_zero, Nat.add_assoc]
  rfl

theorem scansTo_between {n n' m : Nonterminal} {kind : TokenKind} {word l r : List Char}
    {p q joined : Query} (hword : (kind, word) ∈ keywordTokens) (his : kind ≠ .is)
    (hjoin : ∀ us t vs, Derives n us p → t.kind = kind → Derives n' vs q →
      Derives m (us ++ t :: vs) joined)
    (hl : ScansTo n l p) (hr : ScansTo n' r q) :
    ScansTo m (l ++ ' ' :: (word ++ ' ' :: r)) joined := by
  intro position rest hrest
  obtain ⟨us, hus, hls⟩ := hl position (' ' :: (word ++ ' ' :: r) ++ rest)
    (EndsOperand.of_blank ' ' _ (by decide))
  obtain ⟨vs, hvs, hrs⟩ := hr (position + Text.widths l + Text.width ' ' + Text.widths (word ++ [' ']))
    rest hrest
  have hjoined := hjoin us ⟨kind, String.ofList word, position + Text.widths l + Text.width ' '⟩ vs hus
    rfl hvs
  refine ⟨_, hjoined, ?_⟩
  rw [List.append_assoc, hls, List.cons_append, scan_blank _ _ (by decide), List.append_assoc,
    List.cons_append, scan_keyword_blank _ _ hword his, hrs, map_map_append, map_map_append]
  simp only [Text.widths_append, Text.widths_cons, Text.widths_nil, Nat.add_zero, Nat.add_assoc,
    List.append_assoc, List.singleton_append]

theorem scansTo_and {l r : List Char} {p q : Query} (hl : ScansTo .conjunction l p)
    (hr : ScansTo .unary r q) :
    ScansTo .conjunction (l ++ ' ' :: (['a', 'n', 'd'] ++ ' ' :: r)) (.all [p, q]) :=
  scansTo_between (by simp [keywordTokens]) (by simp) (fun _ _ _ hu ht hv => .and hu ht hv) hl hr

theorem scansTo_or {l r : List Char} {p q : Query} (hl : ScansTo .disjunction l p)
    (hr : ScansTo .conjunction r q) :
    ScansTo .disjunction (l ++ ' ' :: (['o', 'r'] ++ ' ' :: r)) (.any [p, q]) :=
  scansTo_between (by simp [keywordTokens]) (by simp) (fun _ _ _ hu ht hv => .or hu ht hv) hl hr

theorem scansTo_parentheses {source : List Char} {q : Query} (h : ScansTo .disjunction source q) :
    ScansTo .primary (['('] ++ source ++ [')']) q := by
  intro position rest hrest
  have hleft : Spells .lparen ['('] ['('] := .symbol (by simp [symbolTokens])
  have hright : Spells .rparen [')'] [')'] := .symbol (by simp [symbolTokens])
  obtain ⟨ts, hd, hs⟩ := h (position + Text.widths ['(']) ([')'] ++ rest) (by simp [EndsOperand])
  have hgroup : Derives .primary (⟨.lparen, "(", position⟩ :: ts ++
      [⟨.rparen, ")", position + Text.widths ['('] + Text.widths source⟩]) q := .parentheses rfl hd rfl
  refine ⟨_, hgroup, ?_⟩
  rw [List.append_assoc, List.append_assoc, scan_token position hleft trivial, hs,
    scan_token _ hright trivial]
  simp only [Text.widths_append, ← Nat.add_assoc]
  cases scan (position + Text.widths ['('] + Text.widths source + Text.widths [')']) rest <;>
    simp [Except.map]

theorem isNot?_of_head {source : List Char} (hb : ∀ c ∈ source.head?, Text.isBlank c = false)
    (hn : ∀ c ∈ source.head?, c ≠ 'n') : isNot? (['i', 's'] ++ ' ' :: source) = none := by
  refine Option.eq_none_iff_forall_ne_some.2 fun l hl => ?_
  obtain ⟨blanks, rest, h, hne, hall, -, -⟩ := isNot?_eq_some_iff.1 hl
  obtain ⟨b, bs, rfl⟩ := List.exists_cons_of_ne_nil hne
  simp only [List.cons_append, List.nil_append, List.append_assoc, List.cons.injEq, true_and] at h
  obtain ⟨rfl, rfl⟩ := h
  cases bs with
  | nil => exact hn 'n' (by simp) rfl
  | cons b bs => simp [List.all_eq_true.1 hall b (by simp)] at hb

theorem closed_operator {kind : TokenKind} {node : String → Value → Query} {source : List Char}
    (h : Operates kind node) (hb : ∀ c ∈ source.head?, Text.isBlank c = false)
    (hn : ∀ c ∈ source.head?, c ≠ 'n') : Closed kind (' ' :: source) := by
  have hword : endsWord (' ' :: source) = true :=
    (EndsOperand.of_blank ' ' source (by decide)).endsWord
  cases h with
  | is => exact ⟨hword, isNot?_of_head hb hn⟩
  | isNot | contains => exact hword
  | gt | lt => simp [Closed]
  | gte | lte => exact trivial

theorem scansTo_leaf {kind operandKind : TokenKind} {node : String → Value → Query}
    {field operator text operand : List Char} (hf : Spells .ident field field)
    (hop : Operates kind node) (hspells : Spells kind operator operator)
    (hkind : operandKind = .string ∨ operandKind = .number ∨ operandKind = .ident)
    (hv : Spells operandKind text operand) (hn : ∀ c ∈ operand.head?, c ≠ 'n') :
    ScansTo .primary (field ++ ' ' :: (operator ++ ' ' :: operand))
      (node (String.ofList field) (⟨operandKind, String.ofList text, 0⟩ : Token).value) := by
  intro position rest hrest
  have hclosed : Closed operandKind rest := by
    rcases hkind with rfl | rfl | rfl
    · exact trivial
    · exact hrest.closed_number
    · exact hrest.endsWord
  have hfield : Closed .ident (' ' :: (operator ++ ' ' :: operand) ++ rest) :=
    (EndsOperand.of_blank ' ' _ (by decide)).endsWord
  obtain ⟨c, cs, rfl⟩ := List.exists_cons_of_ne_nil hv.source_ne_nil
  have hoperator : Closed kind (' ' :: (c :: cs ++ rest)) :=
    closed_operator hop (by simpa using hv.head_not_blank c (by simp)) (by simpa using hn c (by simp))
  have hleaf : Derives .primary
      [⟨.ident, String.ofList field, position⟩,
        ⟨kind, String.ofList operator, position + Text.widths field + Text.width ' '⟩,
        ⟨operandKind, String.ofList text, position + Text.widths field + Text.width ' ' +
          Text.widths operator + Text.width ' '⟩]
      (node (String.ofList field) (⟨operandKind, String.ofList text, 0⟩ : Token).value) :=
    .leaf rfl hop hkind
  refine ⟨_, hleaf, ?_⟩
  rw [List.append_assoc, scan_token position hf hfield, List.cons_append, scan_blank _ _ (by decide),
    List.append_assoc, List.cons_append, scan_token _ hspells hoperator, scan_blank _ _ (by decide),
    scan_token _ hv hclosed]
  simp only [Text.widths_append, Text.widths_cons, ← Nat.add_assoc]
  cases scan (position + Text.widths field + Text.width ' ' + Text.widths operator + Text.width ' ' +
    Text.width c + Text.widths cs) rest <;> simp [Except.map]

end RecordSieve.Query
