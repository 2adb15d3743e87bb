import RecordSieve.Proofs.Query.Reading

namespace RecordSieve.Query

def Token.spelling (t : Token) : TokenKind × String := (t.kind, t.text)

theorem Token.kind_of_spelling {t u : Token} (h : t.spelling = u.spelling) : t.kind = u.kind :=
  congrArg Prod.fst h

theorem Token.text_of_spelling {t u : Token} (h : t.spelling = u.spelling) : t.text = u.text :=
  congrArg Prod.snd h

theorem Token.value_of_spelling {t u : Token} (h : t.spelling = u.spelling) : t.value = u.value := by
  rw [value, value, kind_of_spelling h, text_of_spelling h]

theorem Derives.respelled {n : Nonterminal} {ts us : List Token} {q : Query} (h : Derives n ts q)
    (hsame : us.map Token.spelling = ts.map Token.spelling) : Derives n us q := by
  induction h generalizing us with
  | oneConjunction _ ih => exact .oneConjunction (ih hsame)
  | oneUnary _ ih => exact .oneUnary (ih hsame)
  | onePrimary _ ih => exact .onePrimary (ih hsame)
  | or _ ht _ ihl ihr =>
      rw [List.map_append, List.map_cons, List.map_eq_append_iff] at hsame
      obtain ⟨ls, rest, rfl, hl, hrest⟩ := hsame
      obtain ⟨t', rs, rfl, hs, hr⟩ := List.map_eq_cons_iff.1 hrest
      exact .or (ihl hl) ((Token.kind_of_spelling hs).trans ht) (ihr hr)
  | and _ ht _ ihl ihr =>
      rw [List.map_append, List.map_cons, List.map_eq_append_iff] at hsame
      obtain ⟨ls, rest, rfl, hl, hrest⟩ := hsame
      obtain ⟨t', rs, rfl, hs, hr⟩ := List.map_eq_cons_iff.1 hrest
      exact .and (ihl hl) ((Token.kind_of_spelling hs).trans ht) (ihr hr)
  | not ht _ ih =>
      obtain ⟨t', rs, rfl, hs, hr⟩ := List.map_eq_cons_iff.1 hsame
      exact .not ((Token.kind_of_spelling hs).trans ht) (ih hr)
  | parentheses hl _ hr ih =>
      rw [List.map_append, List.map_cons, List.map_singleton, List.map_eq_append_iff] at hsame
      obtain ⟨front, back, rfl, hfront, hback⟩ := hsame
      obtain ⟨l', inside, rfl, hsl, hinside⟩ := List.map_eq_cons_iff.1 hfront
      obtain ⟨r', rfl, hsr⟩ := List.map_eq_singleton_iff.1 hback
      exact .parentheses ((Token.kind_of_spelling hsl).trans hl) (ih hinside)
        ((Token.kind_of_spelling hsr).trans hr)
  | @leaf f op v node hf hop hv =>
      obtain ⟨f', rest, rfl, hsf, hrest⟩ := List.map_eq_cons_iff.1 hsame
      obtain ⟨op', rest, rfl, hsop, hrest⟩ := List.map_eq_cons_iff.1 hrest
      obtain ⟨v', rfl, hsv⟩ := List.map_eq_singleton_iff.1 hrest
      rw [← Token.text_of_spelling hsf, ← Token.value_of_spelling hsv]
      exact .leaf ((Token.kind_of_spelling hsf).trans hf) (Token.kind_of_spelling hsop ▸ hop)
        (Token.kind_of_spelling hsv ▸ hv)

theorem Derives.exists_last {n : Nonterminal} {ts : List Token} {q : Query} (h : Derives n ts q) :
    ∃ us t, ts = us ++ [t] ∧ t.kind ≠ .is := by
  induction h with
  | oneConjunction _ ih | oneUnary _ ih | onePrimary _ ih => exact ih
  | @or us _ t _ _ _ _ _ _ ihr | @and us _ t _ _ _ _ _ _ ihr =>
      obtain ⟨vs, last, rfl, hlast⟩ := ihr
      exact ⟨us ++ t :: vs, last, by simp, hlast⟩
  | @not _ t _ _ _ ih =>
      obtain ⟨vs, last, rfl, hlast⟩ := ih
      exact ⟨t :: vs, last, rfl, hlast⟩
  | parentheses _ _ hr => exact ⟨_, _, rfl, by simp [hr]⟩
  | @leaf f op v _ _ _ hv =>
      refine ⟨[f, op], v, rfl, ?_⟩
      rcases hv with hv | hv | hv <;> simp [hv]

theorem forall_head?_append {p : Char → Prop} {cs more : List Char} (h : ∀ c ∈ cs.head?, p c)
    (hmore : ∀ c ∈ more.head?, p c) : ∀ c ∈ (cs ++ more).head?, p c := by
  cases cs with
  | nil => exact hmore
  | cons c cs => exact h

theorem endsWord_append {cs more : List Char} (h : endsWord cs = true) (hmore : endsWord more = true) :
    endsWord (cs ++ more) = true :=
  endsWord_eq_true_iff.2 (forall_head?_append (endsWord_eq_true_iff.1 h) (endsWord_eq_true_iff.1 hmore))

theorem endsWord_of_append {cs more : List Char} (h : endsWord (cs ++ more) = true) : endsWord cs = true := by
  cases cs with
  | nil => rfl
  | cons c cs => exact h

theorem isNot?_append_eq_none {cs rest : List Char} (h : isNot? (['i', 's'] ++ cs) = none)
    (hcs : ¬∀ c ∈ cs, Text.isBlank c = true) (hr : EndsOperand rest) :
    isNot? (['i', 's'] ++ (cs ++ rest)) = none := by
  refine Option.eq_none_iff_forall_ne_some.2 fun l hl => ?_
  obtain ⟨blanks, after, hsplit, hne, hblank, hafter, -⟩ := isNot?_eq_some_iff.1 hl
  simp only [List.append_assoc, List.append_cancel_left_eq] at hsplit
  have hinside : ∀ more, cs = blanks ++ (['n', 'o', 't'] ++ more) → endsWord more = true → False := by
    rintro more rfl hmore
    have hself := isNot?_eq_some_iff.2 ⟨blanks, more, rfl, hne, hblank, hmore, rfl⟩
    simp only [List.append_assoc] at h hself
    rw [h] at hself
    cases hself
  rcases List.append_eq_append_iff.1 hsplit with ⟨word, rfl, -⟩ | ⟨word, rfl, hword⟩
  · exact hcs fun c hc => List.all_eq_true.1 hblank c (List.mem_append_left _ hc)
  · rcases List.append_eq_append_iff.1 hword with ⟨front, rfl, rfl⟩ | ⟨front, hnot, rfl⟩
    · exact hinside _ rfl (endsWord_of_append hafter)
    · -- `rest` would begin with a letter of the second word
      cases front with
      | nil => exact hinside [] (by simp [hnot]) rfl
      | cons c front =>
          have hmem : c ∈ ['n', 'o', 't'] := hnot ▸ by simp
          have hletters : ['n', 'o', 't'].all (fun d => !Text.isBlank d && d != ')') = true := by rfl
          have hletter := List.all_eq_true.1 hletters c hmem
          rcases hr c (by simp) with hb | hp
          · simp [hb] at hletter
          · simp [hp] at hletter

theorem Closed.append {kind : TokenKind} {cs rest : List Char} (h : Closed kind cs)
    (hcs : kind = .is → ¬∀ c ∈ cs, Text.isBlank c = true) (hr : EndsOperand rest) :
    Closed kind (cs ++ rest) := by
  cases kind with
  | is => exact ⟨endsWord_append h.1 hr.endsWord, isNot?_append_eq_none h.2 (hcs rfl) hr⟩
  | and | or | not | contains | isNot | ident => exact endsWord_append h hr.endsWord
  | number => exact forall_head?_append h hr.closed_number
  | gt | lt =>
      refine forall_head?_append h fun c hc => ?_
      rintro rfl
      rcases hr '=' hc with hb | hp
      · revert hb
        decide
      · cases hp
  | _ => trivial

theorem scan_of_isBlank {cs : List Char} (h : ∀ c ∈ cs, Text.isBlank c = true) (position : Nat) :
    ∃ last, scan position cs = .ok [last] := by
  induction cs generalizing position with
  | nil => exact ⟨_, scan_nil position⟩
  | cons c cs ih =>
      obtain ⟨hc, hcs⟩ := List.forall_mem_cons.1 h
      rw [scan_blank position cs hc]
      exact ih hcs _

theorem not_isBlank_of_scan {position : Nat} {cs : List Char} {front : List Token} {last : Token}
    (h : scan position cs = .ok (front ++ [last])) (hne : front ≠ []) :
    ¬∀ c ∈ cs, Text.isBlank c = true := by
  intro hblank
  obtain ⟨only, honly⟩ := scan_of_isBlank hblank position
  rw [honly, Except.ok.injEq] at h
  have hlength := congrArg List.length h
  exact hne (by simpa using hlength)

theorem exists_tail_of_scan {position : Nat} {c : Char} {cs : List Char} {l : Lexeme} {front : List Token}
    {last : Token} (hb : Text.isBlank c = false) (hl : lexeme c cs = .ok l)
    (h : scan position (c :: cs) = .ok (front ++ [last])) (hlast : last.kind = .eof) :
    ∃ tail, front = ⟨l.kind, String.ofList l.text, position⟩ :: tail ∧
      scan (position + Text.widths l.source) l.rest = .ok (tail ++ [last]) := by
  rw [scan_lexeme position hb hl] at h
  obtain ⟨-, hspells, -⟩ := lexeme_eq_ok_iff.1 hl
  obtain ⟨tokens, hrest, htokens⟩ := Except.map_eq_ok_iff.1 h
  cases front with
  | nil =>
      obtain ⟨rfl, -⟩ := List.cons_eq_cons.1 htokens
      exact absurd hlast hspells.kind_ne_eof
  | cons t tail =>
      obtain ⟨rfl, rfl⟩ := List.cons_eq_cons.1 htokens
      exact ⟨tail, rfl, hrest⟩

theorem scan_append {position : Nat} {cs : List Char} {front : List Token} {last : Token}
    (h : scan position cs = .ok (front ++ [last])) (hlast : last.kind = .eof)
    (hfront : ∀ us t, front = us ++ [t] → t.kind ≠ .is) {rest : List Char} (hr : EndsOperand rest)
    (position' : Nat) : ∃ ts, ts.map Token.spelling = front.map Token.spelling ∧
      scan position' (cs ++ rest) = (scan (position' + Text.widths cs) rest).map (ts ++ ·) := by
  induction position, cs using scan.induct generalizing front position' with
  | case1 position =>
      rw [scan_nil, Except.ok.injEq] at h
      obtain rfl : front = [] := by
        cases front with
        | nil => rfl
        | cons => simp at h
      refine ⟨[], rfl, ?_⟩
      rw [Text.widths_nil, Nat.add_zero, List.nil_append]
      cases scan position' rest <;> rfl
  | case2 position c cs hb ih =>
      rw [scan_blank position cs hb] at h
      obtain ⟨ts, hts, hscan⟩ := ih h hfront (position' + Text.width c)
      refine ⟨ts, hts, ?_⟩
      rw [List.cons_append, scan_blank position' _ hb, hscan, Text.widths_cons, Nat.add_assoc]
  | case3 position c cs hb fault hl =>
      rw [scan, if_neg hb] at h
      split at h
      · simp at h
      · rename_i l hl'
        rw [hl] at hl'
        cases hl'
  | case4 position c cs hb l hl ih =>
      obtain ⟨hsource, hspells, hclosed⟩ := lexeme_eq_ok_iff.1 hl
      obtain ⟨tail, rfl, hrest⟩ := exists_tail_of_scan (by simpa using hb) hl h hlast
      have hnotBlank : l.kind = .is → ¬∀ c ∈ l.rest, Text.isBlank c = true := fun his =>
        not_isBlank_of_scan hrest fun hnil => hfront [] _ (by rw [hnil]; rfl) his
      obtain ⟨ts, hts, hscan⟩ := ih hrest (fun us u hus => hfront (_ :: us) u (by rw [hus]; rfl))
        (position' + Text.widths l.source)
      refine ⟨⟨l.kind, String.ofList l.text, position'⟩ :: ts, by simp [hts, Token.spelling], ?_⟩
      rw [← hsource, List.append_assoc, scan_token position' hspells (hclosed.append hnotBlank hr), hscan,
        Text.widths_append, Nat.add_assoc]
      cases scan (position' + (Text.widths l.source + Text.widths l.rest)) rest <;> rfl

theorem scansTo_of_parse {text : String} {q : Query} (h : parse text = .ok q) :
    ScansTo .disjunction text.toList q := by
  obtain ⟨tokens, htokens, hread⟩ := Except.bind_eq_ok_iff.1 h
  obtain ⟨front, last, rfl, hlast, hspells⟩ := tokenize_ends htokens
  have hderives : Derives .disjunction front q :=
    derives_of_ofTokens hlast (fun t ht => (hspells t ht).elim fun _ hs => hs.kind_ne_eof) hread
  have hfront : ∀ us t, front = us ++ [t] → t.kind ≠ .is := by
    rintro us t rfl
    obtain ⟨vs, last', hsplit, hkind⟩ := hderives.exists_last
    rw [(List.append_inj' hsplit rfl).2 |> List.singleton_inj.1]
    exact hkind
  intro position rest hr
  obtain ⟨ts, hts, hscan⟩ := scan_append htokens hlast hfront hr position
  exact ⟨ts, hderives.respelled hts, hscan⟩

theorem scansTo_group {text : String} {q : Query} (h : parse text = .ok q) :
    ScansTo .primary (['('] ++ text.toList ++ [')']) q :=
  scansTo_parentheses (scansTo_of_parse h)

/-- Texts that are read on their own keep their queries when they are put in parentheses and joined, or
negated. -/
theorem parse_combined {s t : String} {p q : Query} (hs : parse s = .ok p) (ht : parse t = .ok q) :
    parse ("(" ++ s ++ ") and (" ++ t ++ ")") = .ok (.all [p, q]) ∧
      parse ("(" ++ s ++ ") or (" ++ t ++ ")") = .ok (.any [p, q]) ∧
      parse ("not (" ++ s ++ ")") = .ok (.not p) := by
  have hp := scansTo_group hs
  have hq := scansTo_group ht
  have hunary {source : List Char} {r : Query} (h : ScansTo .primary source r) : ScansTo .unary source r :=
    h.mono fun _ => .onePrimary
  have hconjunction {source : List Char} {r : Query} (h : ScansTo .unary source r) :
      ScansTo .conjunction source r :=
    h.mono fun _ => .oneUnary
  have hdisjunction {source : List Char} {r : Query} (h : ScansTo .conjunction source r) :
      ScansTo .disjunction source r :=
    h.mono fun _ => .oneConjunction
  refine ⟨ScansTo.parse ?_, ScansTo.parse ?_, ScansTo.parse ?_⟩
  · have hand := hdisjunction (scansTo_and (hconjunction (hunary hp)) (hunary hq))
    simpa [String.toList_append] using hand
  · have hor := scansTo_or (hdisjunction (hconjunction (hunary hp))) (hconjunction (hunary hq))
    simpa [String.toList_append] using hor
  · have hnot := hdisjunction (hconjunction (scansTo_not (hunary hp)))
    simpa [String.toList_append] using hnot

theorem parse_combined_quoted :
    let s := "a is \x22) or (not\x22"
    let t := "not c is not \x22x\x22"
    let p : Query := .check .is "a" (.string ") or (not")
    let q : Query := .not (.check .isNot "c" (.string "x"))
    parse s = .ok p ∧ parse t = .ok q ∧
      parse ("(" ++ s ++ ") and (" ++ t ++ ")") = .ok (.all [p, q]) ∧
      parse ("(" ++ s ++ ") or (" ++ t ++ ")") = .ok (.any [p, q]) ∧
      parse ("not (" ++ s ++ ")") = .ok (.not p) := by
  intro s t p q
  have hs : parse s = .ok p := parse_of_print (show print [] p = .ok s by decide +kernel)
  have ht : parse t = .ok q := parse_of_print (show print [] q = .ok t by decide +kernel)
  have hcombined := parse_combined hs ht
  exact ⟨hs, ht, hcombined⟩

end RecordSieve.Query
