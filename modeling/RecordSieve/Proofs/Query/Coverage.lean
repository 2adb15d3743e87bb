import RecordSieve.Proofs.Query.Combining

namespace RecordSieve.Query

def Token.source (t : Token) : List Char :=
  if t.kind = .string then '\x22' :: t.text.toList ++ ['\x22'] else t.text.toList

def endAt (position : Nat) : Token := ⟨.eof, "", position⟩

inductive Covers : Nat → List Char → List Token → Prop
  | last {position blanks} : blanks.all Text.isBlank = true →
      Covers position blanks [endAt (position + Text.widths blanks)]
  | cons {position blanks t rest ts} : blanks.all Text.isBlank = true → t.kind ≠ .eof →
      t.source ≠ [] → t.position = position + Text.widths blanks →
      Covers (t.position + Text.widths t.source) rest ts →
      Covers position (blanks ++ t.source ++ rest) (t :: ts)

/-- Tokens that divide a text among them and the blanks: `covers` says that the gaps are blank, the others
what that means for each token. -/
structure Partitions (cs : List Char) (ts : List Token) : Prop where
  covers : Covers 0 cs ts
  increases : ts.Pairwise fun t u => t.position < u.position
  isSource : ∀ t ∈ ts, t.kind ≠ .eof →
    ∃ before after, cs = before ++ t.source ++ after ∧ t.position = Text.widths before
  ends : ∃ front, ts = front ++ [endAt (Text.widths cs)] ∧ ∀ t ∈ front, t.kind ≠ .eof

def found (position : Nat) : List Char → List Token
  | [] => []
  | c :: cs =>
      if Text.isBlank c then found (position + Text.width c) cs
      else
        match _h : lexeme c cs with
        | .error _ => []
        | .ok l =>
            ⟨l.kind, String.ofList l.text, position⟩ :: found (position + Text.widths l.source) l.rest
  termination_by cs => cs.length
  decreasing_by
    · simp
    · exact (heads_lexeme _h).length_rest_lt

theorem found_nil (position : Nat) : found position [] = [] := by
  rw [found]

theorem found_blank {c : Char} (position : Nat) (cs : List Char) (hb : Text.isBlank c = true) :
    found position (c :: cs) = found (position + Text.width c) cs := by
  rw [found, if_pos hb]

theorem found_fault {c : Char} {cs : List Char} {fault : QueryFault} (position : Nat)
    (hb : Text.isBlank c = false) (h : lexeme c cs = .error fault) : found position (c :: cs) = [] := by
  rw [found, if_neg (by simp [hb])]
  split
  · rfl
  · rename_i l hl
    rw [h] at hl
    cases hl

theorem found_lexeme {c : Char} {cs : List Char} {l : Lexeme} (position : Nat)
    (hb : Text.isBlank c = false) (h : lexeme c cs = .ok l) :
    found position (c :: cs) = ⟨l.kind, String.ofList l.text, position⟩ ::
      found (position + Text.widths l.source) l.rest := by
  rw [found, if_neg (by simp [hb])]
  split
  · rename_i fault hl
    rw [h] at hl
    cases hl
  · rename_i l' hl
    rw [h] at hl
    cases hl
    rfl

theorem scan_fault {c : Char} {cs : List Char} {fault : QueryFault} (position : Nat)
    (hb : Text.isBlank c = false) (h : lexeme c cs = .error fault) :
    scan position (c :: cs) = .error ⟨fault, position⟩ := by
  rw [scan, if_neg (by simp [hb])]
  split
  · rename_i fault' hl
    rw [h] at hl
    cases hl
    rfl
  · rename_i l hl
    rw [h] at hl
    cases hl

theorem Spells.source_eq {kind : TokenKind} {text source : List Char} (h : Spells kind text source)
    (position : Nat) : (⟨kind, String.ofList text, position⟩ : Token).source = source := by
  have hplain : kind ≠ .string → (⟨kind, String.ofList text, position⟩ : Token).source = text := by
    intro hkind
    simp [Token.source, hkind]
  cases h with
  | keyword h =>
      refine hplain fun hkind => ?_
      exact (fixed_of_mem (List.mem_append_left _ h)).1 (by simp [hkind])
  | symbol h =>
      refine hplain fun hkind => ?_
      exact (fixed_of_mem (List.mem_append_right _ h)).1 (by simp [hkind])
  | isNot | number | ident => exact hplain (by simp)
  | string => simp [Token.source]

theorem Covers.blank {position : Nat} {c : Char} {cs : List Char} {ts : List Token}
    (h : Covers (position + Text.width c) cs ts) (hb : Text.isBlank c = true) :
    Covers position (c :: cs) ts := by
  have hall : ∀ {blanks : List Char}, blanks.all Text.isBlank = true →
      (c :: blanks).all Text.isBlank = true := fun h => by simp only [List.all_cons, hb, h, Bool.and_self]
  cases h with
  | last hblanks =>
      rw [Nat.add_assoc, ← Text.widths_cons]
      exact .last (hall hblanks)
  | cons hblanks hkind hsource hposition hrest =>
      rw [Nat.add_assoc, ← Text.widths_cons] at hposition
      exact .cons (hall hblanks) hkind hsource hposition hrest

theorem covers_of_scan {position : Nat} {cs : List Char} {ts : List Token}
    (h : scan position cs = .ok ts) :
    ts = found position cs ++ [endAt (position + Text.widths cs)] ∧ Covers position cs ts := by
  induction position, cs using scan.induct generalizing ts with
  | case1 position =>
      rw [scan_nil, Except.ok.injEq] at h
      subst h
      rw [found_nil]
      exact ⟨rfl, .last rfl⟩
  | case2 position c cs hb ih =>
      rw [scan_blank position cs hb] at h
      obtain ⟨rfl, hcovers⟩ := ih h
      rw [found_blank position cs hb, Text.widths_cons, ← Nat.add_assoc]
      exact ⟨rfl, hcovers.blank hb⟩
  | case3 position c cs hb fault hl =>
      rw [scan_fault position (by simpa using hb) hl] at h
      cases h
  | case4 position c cs hb l hl ih =>
      rw [Bool.not_eq_true] at hb
      rw [scan_lexeme position hb hl] at h
      obtain ⟨ts', hrest, rfl⟩ := Except.map_eq_ok_iff.1 h
      obtain ⟨rfl, hcovers⟩ := ih hrest
      obtain ⟨hsplit, hspells, -⟩ := lexeme_eq_ok_iff.1 hl
      rw [found_lexeme position hb hl, ← hsplit, Text.widths_append, ← Nat.add_assoc]
      refine ⟨rfl, ?_⟩
      have hsource := hspells.source_eq position
      rw [← hsource] at hcovers ⊢
      have hne := hsource ▸ hspells.source_ne_nil
      exact .cons (List.all_nil) hspells.kind_ne_eof hne rfl hcovers

theorem widths_pos {cs : List Char} (h : cs ≠ []) : 0 < Text.widths cs := by
  obtain ⟨c, cs, rfl⟩ := List.exists_cons_of_ne_nil h
  exact Nat.add_pos_left (Text.width_pos c) _

namespace Covers

variable {position : Nat} {cs : List Char} {ts : List Token}

theorem le_position (h : Covers position cs ts) : ∀ t ∈ ts, position ≤ t.position := by
  induction h with
  | last => exact List.forall_mem_singleton.2 (Nat.le_add_right _ _)
  | @cons position blanks t rest ts _ _ _ hposition _ ih =>
      have hle : position ≤ t.position := hposition ▸ Nat.le_add_right _ _
      refine List.forall_mem_cons.2 ⟨hle, fun u hu => ?_⟩
      exact (hle.trans (Nat.le_add_right _ _)).trans (ih u hu)

theorem increases (h : Covers position cs ts) : ts.Pairwise fun t u => t.position < u.position := by
  induction h with
  | last => exact List.pairwise_singleton _ _
  | @cons position blanks t rest ts _ _ hsource _ hrest ih =>
      refine List.pairwise_cons.2 ⟨fun u hu => ?_, ih⟩
      exact Nat.lt_of_lt_of_le (Nat.lt_add_of_pos_right (widths_pos hsource)) (hrest.le_position u hu)

theorem isSource (h : Covers position cs ts) : ∀ t ∈ ts, t.kind ≠ .eof →
    ∃ before after, cs = before ++ t.source ++ after ∧ t.position = position + Text.widths before := by
  induction h with
  | last => exact List.forall_mem_singleton.2 fun hkind => absurd rfl hkind
  | @cons position blanks t rest ts _ _ _ hposition _ ih =>
      refine List.forall_mem_cons.2 ⟨fun _ => ⟨blanks, rest, rfl, hposition⟩, fun u hu hkind => ?_⟩
      obtain ⟨before, after, rfl, hu⟩ := ih u hu hkind
      refine ⟨blanks ++ t.source ++ before, after, by simp, ?_⟩
      rw [hu, hposition]
      simp only [Text.widths_append, Nat.add_assoc]

theorem ends (h : Covers position cs ts) : ∃ front,
    ts = front ++ [endAt (position + Text.widths cs)] ∧ ∀ t ∈ front, t.kind ≠ .eof := by
  induction h with
  | last => exact ⟨[], rfl, List.forall_mem_nil _⟩
  | @cons position blanks t rest ts _ hkind _ hposition _ ih =>
      obtain ⟨front, rfl, hfront⟩ := ih
      refine ⟨t :: front, ?_, List.forall_mem_cons.2 ⟨hkind, hfront⟩⟩
      simp only [hposition, Text.widths_append, Nat.add_assoc, List.cons_append]

theorem partitions (h : Covers 0 cs ts) : Partitions cs ts where
  covers := h
  increases := h.increases
  isSource := by simpa only [Nat.zero_add] using h.isSource
  ends := by simpa only [Nat.zero_add] using h.ends

end Covers

theorem Closed.of_append {kind : TokenKind} {cs rest : List Char} (h : Closed kind (cs ++ rest))
    (hr : endsWord rest = true) : Closed kind cs := by
  have hhead : ∀ {p : Char → Prop}, (∀ c ∈ (cs ++ rest).head?, p c) → ∀ c ∈ cs.head?, p c := by
    intro p hall
    cases cs with
    | nil => simp
    | cons c cs => exact hall
  cases kind with
  | is =>
      refine ⟨endsWord_of_append h.1, Option.eq_none_iff_forall_ne_some.2 fun l hl => ?_⟩
      obtain ⟨blanks, more, hcs, hne, hall, hmore, -⟩ := isNot?_eq_some_iff.1 hl
      have hself : isNot? (['i', 's'] ++ (cs ++ rest)) = some _ :=
        isNot?_eq_some_iff.2 ⟨blanks, more ++ rest, by simp [← List.append_assoc, hcs], hne, hall,
          endsWord_append hmore hr, rfl⟩
      rw [h.2] at hself
      cases hself
  | and | or | not | contains | isNot | ident => exact endsWord_of_append h
  | number | gt | lt => exact hhead h
  | _ => trivial

theorem isWordChar_of_fault {c : Char} {cs : List Char} {fault : QueryFault}
    (h : lexeme c cs = .error fault) : Text.isWordChar c = false := by
  rw [lexeme] at h
  split at h
  · rename_i hc
    exact hc ▸ (Text.punctuation_isWordChar '\x22' (by simp)).1
  · by_contra hword
    rw [Bool.not_eq_false] at hword
    have hident : (ident? (c :: cs)).isSome = true := by simp [ident?, hword]
    have hplain : (plainLexeme? (c :: cs)).isSome = true := by
      simp [plainLexeme?, hident]
    obtain ⟨l, hl⟩ := Option.isSome_iff_exists.1 hplain
    rw [hl] at h
    cases h

theorem scan_before_fault {position : Nat} {cs : List Char} {e : QueryError}
    (h : scan position cs = .error e) : ∃ before after, cs = before ++ after ∧ after ≠ [] ∧
      endsWord after = true ∧ e.position = position + Text.widths before ∧
      scan position before = .ok (found position cs ++ [endAt e.position]) := by
  induction position, cs using scan.induct with
  | case1 position =>
      rw [scan_nil] at h
      cases h
  | case2 position c cs hb ih =>
      rw [scan_blank position cs hb] at h
      obtain ⟨before, after, rfl, hne, hends, hposition, hscan⟩ := ih h
      refine ⟨c :: before, after, rfl, hne, hends, ?_, ?_⟩
      · rw [hposition, Text.widths_cons, Nat.add_assoc]
      · rw [scan_blank position before hb, hscan, found_blank position _ hb]
  | case3 position c cs hb fault hl =>
      rw [Bool.not_eq_true] at hb
      rw [scan_fault position hb hl, Except.error.injEq] at h
      subst h
      refine ⟨[], c :: cs, rfl, by simp, ?_, rfl, ?_⟩
      · exact endsWord_eq_true_iff.2 (by simpa using isWordChar_of_fault hl)
      · rw [scan_nil, found_fault position hb hl]
        rfl
  | case4 position c cs hb l hl ih =>
      rw [Bool.not_eq_true] at hb
      rw [scan_lexeme position hb hl] at h
      have hrest : scan (position + Text.widths l.source) l.rest = .error e := by
        cases hscan : scan (position + Text.widths l.source) l.rest with
        | ok ts => rw [hscan] at h; cases h
        | error e' => rw [hscan] at h; exact h
      obtain ⟨before, after, hsplit, hne, hends, hposition, hscan⟩ := ih hrest
      obtain ⟨hsource, hspells, hclosed⟩ := lexeme_eq_ok_iff.1 hl
      rw [hsplit] at hclosed
      refine ⟨l.source ++ before, after, ?_, hne, hends, ?_, ?_⟩
      · rw [List.append_assoc, ← hsplit, hsource]
      · rw [hposition, Text.widths_append, Nat.add_assoc]
      · rw [scan_token position hspells (hclosed.of_append hends), hscan, found_lexeme position hb hl]
        rfl

/-- Either the tokens of a text divide it, or there is an offset inside it where none begins, and then
those found so far are the tokens of the text up to that offset. -/
theorem tokenize_partitions (text : String) :
    (∃ ts, tokenize text = .ok ts ∧ ts = found 0 text.toList ++ [endAt (Text.units text)] ∧
      Partitions text.toList ts) ∨
    ∃ e before after, tokenize text = .error e ∧ text.toList = before ++ after ∧
      e.position = Text.widths before ∧ e.position < Text.units text ∧
      tokenize (String.ofList before) = .ok (found 0 text.toList ++ [endAt e.position]) := by
  cases h : tokenize text with
  | ok ts =>
      obtain ⟨hfound, hcovers⟩ := covers_of_scan h
      rw [Nat.zero_add] at hfound
      exact .inl ⟨ts, rfl, hfound, hcovers.partitions⟩
  | error e =>
      obtain ⟨before, after, hsplit, hne, -, hposition, hscan⟩ := scan_before_fault h
      rw [Nat.zero_add] at hposition
      refine .inr ⟨e, before, after, rfl, hsplit, hposition, ?_, ?_⟩
      · rw [Text.units, hsplit, Text.widths_append, hposition]
        exact Nat.lt_add_of_pos_right (widths_pos hne)
      · rw [tokenize, String.toList_ofList]
        exact hscan

end RecordSieve.Query
