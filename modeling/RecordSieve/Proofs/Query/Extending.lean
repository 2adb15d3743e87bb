import RecordSieve.Proofs.Query.Reading

namespace RecordSieve.Query

def IsEnded (ts : List Token) : Prop := ∃ front last, ts = front ++ [last] ∧ last.kind = .eof ∧
  ∀ t ∈ front, t.kind ≠ .eof

theorem isEnded_append {us ts : List Token} (hus : ∀ t ∈ us, t.kind ≠ .eof) (h : IsEnded ts) :
    IsEnded (us ++ ts) := by
  obtain ⟨front, last, rfl, hlast, hfront⟩ := h
  exact ⟨us ++ front, last, by simp, hlast, List.forall_mem_append.2 ⟨hus, hfront⟩⟩

theorem IsEnded.cons {t : Token} {ts : List Token} (h : IsEnded ts) (ht : t.kind ≠ .eof) :
    IsEnded (t :: ts) :=
  isEnded_append (List.forall_mem_singleton.2 ht) h

theorem isEnded_endToken : IsEnded [endToken] := ⟨[], endToken, rfl, rfl, List.forall_mem_nil _⟩

def IsExtendable (read : List Token → Except QueryError Query) : Prop :=
  ∃ rest q, IsEnded rest ∧ read rest = .ok q

/-- Reading fails at a token: those before it can go on to a list that is read, but not with a token of
its kind. -/
def FailsAtFirst (read : List Token → Except QueryError Query) (ts : List Token) (e : QueryError) :
    Prop :=
  ∃ before t after, ts = before ++ t :: after ∧ e.position = t.position ∧
    IsExtendable (fun rest => read (before ++ rest)) ∧
    ∀ u, u.kind = t.kind → ∀ rest q, read (before ++ u :: rest) ≠ .ok q

namespace FailsAtFirst

variable {read next : List Token → Except QueryError Query} {t : Token} {ts : List Token} {e : QueryError}

theorem here (hposition : e.position = t.position) (hextend : IsExtendable read)
    (hfail : ∀ u, u.kind = t.kind → ∀ rest q, read (u :: rest) ≠ .ok q) : FailsAtFirst read (t :: ts) e :=
  ⟨[], t, ts, rfl, hposition, hextend, hfail⟩

theorem later (h : FailsAtFirst (fun rest => read (t :: rest)) ts e) : FailsAtFirst read (t :: ts) e := by
  obtain ⟨before, u, after, rfl, hposition, hextend, hfail⟩ := h
  exact ⟨t :: before, u, after, rfl, hposition, hextend, hfail⟩

theorem congr (h : FailsAtFirst next ts e) (hread : ∀ rest, read rest = next rest) :
    FailsAtFirst read ts e := by
  obtain rfl : read = next := funext hread
  exact h

end FailsAtFirst

section Equations

variable {outer : List Pending} {p : Pending} {d : Option Query} {c : Query} {t f op v : Token}
  {ts : List Token}

theorem readOperand_fault (hnot : t.kind ≠ .not) (hparen : t.kind ≠ .lparen) (hident : t.kind ≠ .ident) :
    readOperand outer p (t :: ts) = .error ⟨.identifierExpected, t.position⟩ := by
  rw [readOperand.eq_def]
  cases h : t.kind <;> simp_all

theorem readOperand_operator_fault (hf : f.kind = .ident) (hop : op.kind.leaf? = none) :
    readOperand outer p (f :: op :: ts) = .error ⟨.unexpectedOperator op.text, op.position⟩ := by
  rw [readOperand.eq_def]
  simp only [hf, hop]

theorem readOperand_value_fault {node : String → Value → Query} (hf : f.kind = .ident)
    (hop : op.kind.leaf? = some node) (hv : v.kind.isOperand = false) :
    readOperand outer p (f :: op :: v :: ts) = .error ⟨.valueExpected, v.position⟩ := by
  rw [readOperand.eq_def]
  simp only [hf, hop, hv, Bool.false_eq_true, if_false]

theorem readOperator_fault (hand : t.kind ≠ .and) (hor : t.kind ≠ .or) (hparen : t.kind ≠ .rparen) :
    readOperator outer d c (t :: ts) = readEnd outer (joinLeft .any d c) t := by
  rw [readOperator.eq_def]
  cases h : t.kind <;> simp_all

theorem readOperator_rparen_fault (ht : t.kind = .rparen) :
    readOperator [] d c (t :: ts) = .error ⟨.unexpectedToken t.text, t.position⟩ := by
  rw [readOperator.eq_def]
  simp only [ht]

end Equations

def closingToken : Token := ⟨.rparen, ")", 0⟩

theorem isExtendable_readOperator (outer : List Pending) (d : Option Query) (c : Query) :
    IsExtendable (readOperator outer d c) := by
  induction outer generalizing d c with
  | nil =>
      refine ⟨[endToken], joinLeft .any d c, isEnded_endToken, ?_⟩
      rw [readOperator_fault (by simp [endToken]) (by simp [endToken]) (by simp [endToken])]
      rfl
  | cons p outer ih =>
      obtain ⟨rest, q, hended, hread⟩ := ih p.disjunction (p.conjoin (joinLeft .any d c))
      refine ⟨closingToken :: rest, q, hended.cons (by simp [closingToken]), ?_⟩
      rw [readOperator_rparen rfl, hread]

theorem isExtendable_value (outer : List Pending) (p : Pending) {f op : Token}
    {node : String → Value → Query} (hf : f.kind = .ident) (hop : op.kind.leaf? = some node) :
    IsExtendable fun rest => readOperand outer p (f :: op :: rest) := by
  let v : Token := ⟨.ident, "a", 0⟩
  obtain ⟨rest, q, hended, hread⟩ :=
    isExtendable_readOperator outer p.disjunction (p.conjoin (node f.text v.value))
  refine ⟨v :: rest, q, hended.cons (by simp [v]), ?_⟩
  dsimp only
  rw [readOperand_leaf hf hop rfl, hread]

theorem IsExtendable.cons {read : List Token → Except QueryError Query} {t : Token}
    (ht : t.kind ≠ .eof) (h : IsExtendable fun rest => read (t :: rest)) : IsExtendable read := by
  obtain ⟨rest, q, hended, hread⟩ := h
  exact ⟨t :: rest, q, hended.cons ht, hread⟩

theorem isExtendable_operator (outer : List Pending) (p : Pending) {f : Token} (hf : f.kind = .ident) :
    IsExtendable fun rest => readOperand outer p (f :: rest) :=
  IsExtendable.cons (t := ⟨.is, "is", 0⟩) (by simp) (isExtendable_value outer p hf rfl)

theorem isExtendable_readOperand (outer : List Pending) (p : Pending) :
    IsExtendable (readOperand outer p) :=
  IsExtendable.cons (t := ⟨.ident, "a", 0⟩) (by simp) (isExtendable_operator outer p rfl)

theorem exists_eof_tail {t : Token} {ts : List Token} (h : ∃ u ∈ t :: ts, u.kind = .eof)
    (ht : t.kind ≠ .eof) : ∃ u ∈ ts, u.kind = .eof := by
  obtain ⟨u, hu, hkind⟩ := h
  rcases List.mem_cons.1 hu with rfl | hu
  · exact absurd hkind ht
  · exact ⟨u, hu, hkind⟩

theorem not_exists_eof_nil : ¬∃ u ∈ ([] : List Token), u.kind = .eof := by simp

theorem ne_eof_of_leaf? {kind : TokenKind} {node : String → Value → Query}
    (h : kind.leaf? = some node) : kind ≠ .eof := by
  rintro rfl
  cases h

theorem ne_eof_of_isOperand {kind : TokenKind} (h : kind.isOperand = true) : kind ≠ .eof := by
  rintro rfl
  cases h

theorem failsAtFirst_readEnd {outer : List Pending} {d : Option Query} {c : Query} {t : Token}
    {ts : List Token} {e : QueryError} (hand : t.kind ≠ .and) (hor : t.kind ≠ .or)
    (hparen : t.kind ≠ .rparen) (h : readOperator outer d c (t :: ts) = .error e) :
    FailsAtFirst (readOperator outer d c) (t :: ts) e := by
  rw [readOperator_fault hand hor hparen] at h
  have hfault : e.position = t.position ∧ (outer = [] → t.kind ≠ .eof) := by
    cases outer with
    | nil =>
        simp only [readEnd] at h
        split at h
        · cases h
        · rename_i hkind
          cases h
          exact ⟨rfl, fun _ => hkind⟩
    | cons p outer =>
        cases h
        exact ⟨rfl, by simp⟩
  refine .here hfault.1 (isExtendable_readOperator outer d c) fun u hu rest q hok => ?_
  rw [← hu] at hand hor hparen hfault
  rw [readOperator_fault hand hor hparen] at hok
  cases outer with
  | nil =>
      rw [readEnd, if_neg (hfault.2 rfl)] at hok
      cases hok
  | cons p outer => cases hok

theorem failsAtFirst_of_readOperand :
    (∀ outer (p : Pending) ts, ∀ e, readOperand outer p ts = .error e →
      (∃ t ∈ ts, t.kind = .eof) → FailsAtFirst (readOperand outer p) ts e) ∧
    (∀ outer d c ts, ∀ e, readOperator outer d c ts = .error e →
      (∃ t ∈ ts, t.kind = .eof) → FailsAtFirst (readOperator outer d c) ts e) := by
  -- by the calls of the reader; the lists that end too early have no end token
  apply readOperand.mutual_induct
  case case1 => exact fun _ _ _ _ hend => absurd hend not_exists_eof_nil
  case case2 =>
    intro outer p t ts ht ih e he hend
    rw [readOperand_not ht] at he
    have h := ih e he (exists_eof_tail hend (by simp [ht]))
    exact .later (h.congr fun rest => readOperand_not ht)
  case case3 =>
    intro outer p t ts ht ih e he hend
    rw [readOperand_lparen ht] at he
    have h := ih e he (exists_eof_tail hend (by simp [ht]))
    exact .later (h.congr fun rest => readOperand_lparen ht)
  case case4 =>
    intro outer p t ht e he hend
    exact absurd (exists_eof_tail hend (by simp [ht])) not_exists_eof_nil
  case case5 =>
    -- no operator behind a field
    intro outer p f hf op ts hop e he hend
    rw [readOperand_operator_fault hf hop] at he
    cases he
    refine .later (.here rfl (isExtendable_operator outer p hf) fun u hu rest q hok => ?_)
    rw [readOperand_operator_fault hf (hu ▸ hop)] at hok
    cases hok
  case case6 =>
    intro outer p f hf op node hop e he hend
    have hrest := exists_eof_tail hend (by simp [hf])
    exact absurd (exists_eof_tail hrest (ne_eof_of_leaf? hop)) not_exists_eof_nil
  case case7 =>
    intro outer p f hf op node hop v ts hv ih e he hend
    rw [readOperand_leaf hf hop hv] at he
    have hrest := exists_eof_tail (exists_eof_tail hend (by simp [hf])) (ne_eof_of_leaf? hop)
    have h := ih e he (exists_eof_tail hrest (ne_eof_of_isOperand hv))
    exact .later (.later (.later (h.congr fun rest => readOperand_leaf hf hop hv)))
  case case8 =>
    -- no operand behind an operator
    intro outer p f hf op node hop v ts hv e he hend
    rw [Bool.not_eq_true] at hv
    rw [readOperand_value_fault hf hop hv] at he
    cases he
    refine .later (.later (.here rfl (isExtendable_value outer p hf hop) fun u hu rest q hok => ?_))
    rw [readOperand_value_fault hf hop (hu ▸ hv)] at hok
    cases hok
  case case9 =>
    intro outer p t ts hnot hparen hident e he hend
    rw [readOperand_fault hnot hparen hident] at he
    cases he
    refine .here rfl (isExtendable_readOperand outer p) fun u hu rest q hok => ?_
    rw [← hu] at hnot hparen hident
    rw [readOperand_fault hnot hparen hident] at hok
    cases hok
  case case10 => exact fun _ _ _ _ _ hend => absurd hend not_exists_eof_nil
  case case11 =>
    intro outer d c t ts ht ih e he hend
    rw [readOperator_and ht] at he
    have h := ih e he (exists_eof_tail hend (by simp [ht]))
    exact .later (h.congr fun rest => readOperator_and ht)
  case case12 =>
    intro outer d c t ts ht ih e he hend
    rw [readOperator_or ht] at he
    have h := ih e he (exists_eof_tail hend (by simp [ht]))
    exact .later (h.congr fun rest => readOperator_or ht)
  case case13 =>
    -- a parenthesis that closes nothing
    intro d c t ts ht e he hend
    rw [readOperator_rparen_fault ht] at he
    cases he
    refine .here rfl (isExtendable_readOperator [] d c) fun u hu rest q hok => ?_
    rw [readOperator_rparen_fault (hu.trans ht)] at hok
    cases hok
  case case14 =>
    intro d c t ts ht p outer ih e he hend
    rw [readOperator_rparen ht] at he
    have h := ih e he (exists_eof_tail hend (by simp [ht]))
    exact .later (h.congr fun rest => readOperator_rparen ht)
  case case15 =>
    intro outer d c t ts hand hor hparen e he hend
    exact failsAtFirst_readEnd hand hor hparen he

theorem ne_eof_of_isEnded {before after : List Token} {t : Token}
    (h : IsEnded (before ++ t :: after)) : ∀ u ∈ before, u.kind ≠ .eof := by
  obtain ⟨front, last, hsplit, -, hfront⟩ := h
  intro u hu
  have hdrop := congrArg List.dropLast hsplit
  rw [List.dropLast_append_of_ne_nil (by simp), List.dropLast_concat] at hdrop
  exact hfront u (hdrop ▸ List.mem_append_left _ hu)

theorem isEnded_of_tokenize {text : String} {ts : List Token} (h : tokenize text = .ok ts) :
    IsEnded ts := by
  obtain ⟨front, last, rfl, hlast, hspells⟩ := tokenize_ends h
  refine ⟨front, last, rfl, hlast, fun t ht => ?_⟩
  obtain ⟨source, hsource⟩ := hspells t ht
  exact hsource.kind_ne_eof

/-- A text whose tokens are no query fails at the first of them that no query has there: the tokens before
it can be completed to tokens that are read, but not with one of its kind behind them. -/
theorem position_of_parse_error {text : String} {ts : List Token} {e : QueryError}
    (hts : tokenize text = .ok ts) (he : parse text = .error e) :
    ∃ before t after, ts = before ++ t :: after ∧ e.position = t.position ∧
      (∃ rest q, IsEnded (before ++ rest) ∧ ofTokens (before ++ rest) = .ok q) ∧
      ∀ u, u.kind = t.kind → ∀ rest q, ofTokens (before ++ u :: rest) ≠ .ok q := by
  have hended := isEnded_of_tokenize hts
  have hof : ofTokens ts = .error e := by
    rw [parse, hts] at he
    exact he
  obtain ⟨front, last, hsplit, hlast, -⟩ := hended
  have heof : ∃ t ∈ ts, t.kind = .eof := ⟨last, by simp [hsplit], hlast⟩
  obtain ⟨before, t, after, rfl, hposition, ⟨rest, q, hrest, hread⟩, hfail⟩ :=
    failsAtFirst_of_readOperand.1 [] {} ts e hof heof
  have hbefore := ne_eof_of_isEnded (isEnded_of_tokenize hts)
  exact ⟨before, t, after, rfl, hposition, ⟨rest, q, isEnded_append hbefore hrest, hread⟩, hfail⟩

theorem position_of_parse_error_open :
    let text := "(a is 1 or"
    let ts : List Token := [⟨.lparen, "(", 0⟩, ⟨.ident, "a", 1⟩, ⟨.is, "is", 3⟩, ⟨.number, "1", 6⟩,
      ⟨.or, "or", 8⟩, ⟨.eof, "", 10⟩]
    tokenize text = .ok ts ∧ parse text = .error ⟨.identifierExpected, 10⟩ ∧
      ∃ before t after, ts = before ++ t :: after ∧ 10 = t.position ∧
        (∃ rest q, IsEnded (before ++ rest) ∧ ofTokens (before ++ rest) = .ok q) ∧
        ∀ u, u.kind = t.kind → ∀ rest q, ofTokens (before ++ u :: rest) ≠ .ok q := by
  intro text ts
  have hts : tokenize text = .ok ts := by decide +kernel
  have he : parse text = .error ⟨.identifierExpected, 10⟩ := by
    rw [parse, hts]
    rfl
  exact ⟨hts, he, position_of_parse_error hts he⟩

end RecordSieve.Query
