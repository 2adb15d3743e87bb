import RecordSieve.Proofs.Query.Coverage
import Mathlib.Data.List.Chain

namespace RecordSieve.Query

inductive SpacedOut : List Token → List Char → Prop
  | last {position} : SpacedOut [endAt position] []
  | cons {t u ts blanks rest} : t.kind ≠ .eof → blanks.all Text.isBlank = true →
      (u.kind ≠ .eof → blanks ≠ []) → SpacedOut (u :: ts) rest →
      SpacedOut (t :: u :: ts) (t.source ++ (blanks ++ rest))

def Apart (t u : Token) : Prop := t.kind = .is → u.kind ≠ .not

theorem scan_blanks {blanks : List Char} (hb : blanks.all Text.isBlank = true) (position : Nat)
    (rest : List Char) : scan position (blanks ++ rest) = scan (position + Text.widths blanks) rest := by
  induction blanks generalizing position with
  | nil => rfl
  | cons c blanks ih =>
      rw [List.all_cons, Bool.and_eq_true] at hb
      obtain ⟨hc, hb⟩ := hb
      rw [List.cons_append, scan_blank position _ hc, ih hb, Text.widths_cons, Nat.add_assoc]

theorem Spells.source_eq_not {text source : List Char} (h : Spells .not text source) :
    source = ['n', 'o', 't'] := by
  cases h with
  | keyword h => simpa [keywordTokens] using h
  | symbol h => simp [symbolTokens] at h

theorem exists_not_of_scan {position : Nat} {cs : List Char} {u : Token} {us : List Token}
    (h : scan position cs = .ok (u :: us)) (hu : u.kind = .not) : ∃ blanks more,
      cs = blanks ++ (['n', 'o', 't'] ++ more) ∧ blanks.all Text.isBlank = true ∧ endsWord more = true := by
  induction position, cs using scan.induct generalizing u us with
  | case1 position =>
      rw [scan_nil, Except.ok.injEq, List.cons.injEq] at h
      rw [← h.1] at hu
      cases hu
  | case2 position c cs hb ih =>
      rw [scan_blank position cs hb] at h
      obtain ⟨blanks, more, rfl, hblanks, hmore⟩ := ih h hu
      exact ⟨c :: blanks, more, rfl, by rw [List.all_cons, hb, hblanks, Bool.and_self], hmore⟩
  | case3 position c cs hb fault hl =>
      rw [scan_fault position (by simpa using hb) hl] at h
      cases h
  | case4 position c cs hb l hl ih =>
      rw [scan_lexeme position (by simpa using hb) hl] at h
      obtain ⟨tail, -, htail⟩ := Except.map_eq_ok_iff.1 h
      obtain ⟨rfl, rfl⟩ := List.cons_eq_cons.1 htail
      obtain ⟨hsplit, hspells, hclosed⟩ := lexeme_eq_ok_iff.1 hl
      simp only at hu
      rw [hu] at hspells hclosed
      refine ⟨[], l.rest, ?_, rfl, hclosed⟩
      rw [List.nil_append, ← hspells.source_eq_not, hsplit]

theorem isChain_apart_of_scan {position : Nat} {cs : List Char} {ts : List Token}
    (h : scan position cs = .ok ts) : ts.IsChain Apart := by
  induction position, cs using scan.induct generalizing ts with
  | case1 position =>
      rw [scan_nil, Except.ok.injEq] at h
      exact h ▸ .singleton _
  | case2 position c cs hb ih =>
      rw [scan_blank position cs hb] at h
      exact ih h
  | case3 position c cs hb fault hl =>
      rw [scan_fault position (by simpa using hb) hl] at h
      cases h
  | case4 position c cs hb l hl ih =>
      rw [scan_lexeme position (by simpa using hb) hl] at h
      obtain ⟨tail, hrest, rfl⟩ := Except.map_eq_ok_iff.1 h
      obtain ⟨-, -, hclosed⟩ := lexeme_eq_ok_iff.1 hl
      refine List.isChain_cons.2 ⟨fun u hu (his : l.kind = .is) hnot => ?_, ih hrest⟩
      obtain ⟨us, rfl⟩ := List.head?_eq_some_iff.1 hu
      obtain ⟨blanks, more, hsplit, hblanks, hmore⟩ := exists_not_of_scan hrest hnot
      rw [his, hsplit] at hclosed
      -- the two words would be one operator, or one word without a blank between them
      cases blanks with
      | nil =>
          have hn : Text.isWordChar 'n' = true := by decide +kernel
          exact absurd hclosed.1 (by simp [endsWord, hn])
      | cons b blanks =>
          have hjoined := isNot?_eq_some_iff.2
            ⟨b :: blanks, more, rfl, by simp, hblanks, hmore, rfl⟩
          simp only [List.append_assoc] at hjoined
          rw [hclosed.2] at hjoined
          cases hjoined

theorem spells_source_of_scan {position : Nat} {cs : List Char} {ts : List Token}
    (h : scan position cs = .ok ts) : ∀ t ∈ ts, t.kind ≠ .eof → Spells t.kind t.text.toList t.source := by
  obtain ⟨front, last, rfl, hlast, hspells⟩ := spells_of_scan h
  intro t ht hkind
  rcases List.mem_append.1 ht with hfront | hin
  · obtain ⟨source, hsource⟩ := hspells t hfront
    have heq := hsource.source_eq t.position
    rw [String.ofList_toList] at heq
    exact heq ▸ hsource
  · exact absurd (List.mem_singleton.1 hin ▸ hlast) hkind

theorem Closed.of_endsOperand {kind : TokenKind} {rest : List Char} (hkind : kind ≠ .is)
    (hr : EndsOperand rest) : Closed kind rest := by
  have hnil : Closed kind [] := by
    cases kind with
    | is => exact absurd rfl hkind
    | _ => simp [Closed, endsWord]
  exact hnil.append (fun his => absurd his hkind) hr

theorem SpacedOut.endsOperand {u : Token} {ts : List Token} {blanks rest : List Char}
    (h : SpacedOut (u :: ts) rest) (hb : blanks.all Text.isBlank = true)
    (hne : u.kind ≠ .eof → blanks ≠ []) : EndsOperand (blanks ++ rest) := by
  cases blanks with
  | cons b blanks =>
      exact .of_blank b _ (List.all_eq_true.1 hb b List.mem_cons_self)
  | nil =>
      cases h with
      | last => simp [EndsOperand]
      | cons hu => exact absurd rfl (hne hu)

theorem head_kind_of_spelling {u : Token} {us ts : List Token}
    (h : us.map Token.spelling = (u :: ts).map Token.spelling) : ∃ v vs, us = v :: vs ∧ v.kind = u.kind := by
  obtain ⟨v, vs, rfl, hv, -⟩ := List.map_eq_cons_iff.1 h
  exact ⟨v, vs, rfl, Token.kind_of_spelling hv⟩

theorem isNot?_of_scan {position : Nat} {rest : List Char} {v : Token} {vs : List Token}
    (h : scan position rest = .ok (v :: vs)) (hv : v.kind ≠ .not) : isNot? (['i', 's'] ++ rest) = none := by
  refine Option.eq_none_iff_forall_ne_some.2 fun l hl => ?_
  obtain ⟨blanks, more, hsplit, -, hblanks, hmore, -⟩ := isNot?_eq_some_iff.1 hl
  simp only [List.append_assoc, List.append_cancel_left_eq] at hsplit
  have hspells : Spells .not ['n', 'o', 't'] ['n', 'o', 't'] := .keyword (by simp [keywordTokens])
  rw [hsplit, scan_blanks hblanks, scan_token _ hspells hmore] at h
  obtain ⟨tail, -, htail⟩ := Except.map_eq_ok_iff.1 h
  obtain ⟨rfl, -⟩ := List.cons_eq_cons.1 htail
  exact hv rfl

theorem SpacedOut.scan {ts : List Token} {cs : List Char} (h : SpacedOut ts cs)
    (hspells : ∀ t ∈ ts, t.kind ≠ .eof → Spells t.kind t.text.toList t.source)
    (hapart : ts.IsChain Apart) (position : Nat) :
    ∃ us, Query.scan position cs = .ok us ∧ us.map Token.spelling = ts.map Token.spelling := by
  induction h generalizing position with
  | last => exact ⟨_, scan_nil position, rfl⟩
  | @cons t u ts blanks rest ht hblanks hne hrest ih =>
      obtain ⟨hthis, hspells⟩ := List.forall_mem_cons.1 hspells
      obtain ⟨hnext, hapart⟩ := List.isChain_cons_cons.1 hapart
      obtain ⟨us, hus, hsame⟩ := ih hspells hapart
        (position + Text.widths t.source + Text.widths blanks)
      rw [← scan_blanks hblanks] at hus
      have hends := hrest.endsOperand hblanks hne
      have hclosed : Closed t.kind (blanks ++ rest) := by
        by_cases his : t.kind = .is
        · obtain ⟨v, vs, rfl, hv⟩ := head_kind_of_spelling hsame
          have hnot : v.kind ≠ .not := hv ▸ hnext his
          rw [his]
          exact ⟨hends.endsWord, isNot?_of_scan hus hnot⟩
        · exact .of_endsOperand his hends
      refine ⟨⟨t.kind, t.text, position⟩ :: us, ?_, ?_⟩
      · rw [scan_token position (hthis ht) hclosed, hus, String.ofList_toList]
        rfl
      · rw [List.map_cons, List.map_cons, hsame]
        rfl

/-- Tokens of a text that are written out with other blanks are read again as they were. -/
theorem tokenize_spaced_out {text : String} {ts : List Token} {lead cs : List Char}
    (h : tokenize text = .ok ts) (hlead : lead.all Text.isBlank = true) (hs : SpacedOut ts cs) :
    ∃ us, tokenize (String.ofList (lead ++ cs)) = .ok us ∧
      us.map Token.spelling = ts.map Token.spelling := by
  rw [tokenize, String.toList_ofList, scan_blanks hlead]
  exact hs.scan (spells_source_of_scan h) (isChain_apart_of_scan h) _

theorem tokenize_spaced_out_tight :
    let text := "a is not\x22x y\x22or(b>=-1.)"
    let ts : List Token := [⟨.ident, "a", 0⟩, ⟨.isNot, "is not", 2⟩, ⟨.string, "x y", 8⟩, ⟨.or, "or", 13⟩,
      ⟨.lparen, "(", 15⟩, ⟨.ident, "b", 16⟩, ⟨.gte, ">=", 17⟩, ⟨.number, "-1.", 19⟩, ⟨.rparen, ")", 22⟩,
      endAt 23]
    let cs := "a  is not \t\x22x y\x22 or ( b >= -1. )\n".toList
    tokenize text = .ok ts ∧ [' '].all Text.isBlank = true ∧ SpacedOut ts cs ∧
      ∃ us, tokenize (String.ofList ([' '] ++ cs)) = .ok us ∧
        us.map Token.spelling = ts.map Token.spelling := by
  intro text ts cs
  have hts : tokenize text = .ok ts := by decide +kernel
  have hlead : [' '].all Text.isBlank = true := by decide +kernel
  have hs : SpacedOut ts cs := by
    have hcs : cs = ['a'] ++ ([' ', ' '] ++ ("is not".toList ++ ([' ', '\t'] ++ ("\x22x y\x22".toList ++
        ([' '] ++ (['o', 'r'] ++ ([' '] ++ (['('] ++ ([' '] ++ (['b'] ++ ([' '] ++ (['>', '='] ++
        ([' '] ++ ("-1.".toList ++ ([' '] ++ ([')'] ++ (['\n'] ++ []))))))))))))))))) := by
      decide +kernel
    rw [hcs]
    iterate 9 refine .cons (by decide) (by decide +kernel) (by simp) ?_
    exact .last
  exact ⟨hts, hlead, hs, tokenize_spaced_out hts hlead hs⟩

end RecordSieve.Query
