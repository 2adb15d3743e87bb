import RecordSieve.Query.Parser
import Mathlib.Tactic.Conv

namespace RecordSieve.Query

inductive Nonterminal where
  | disjunction
  | conjunction
  | unary
  | primary
  deriving DecidableEq, Repr

inductive Operates : TokenKind → (String → Value → Query) → Prop
  | is : Operates .is (.check .is)
  | isNot : Operates .isNot (.check .isNot)
  | contains : Operates .contains (.check .contains)
  | gt : Operates .gt (.order .gt)
  | gte : Operates .gte (.order .gte)
  | lt : Operates .lt (.order .lt)
  | lte : Operates .lte (.order .lte)

/-- The token lists of each nonterminal, each with the query that its derivation prescribes. -/
inductive Derives : Nonterminal → List Token → Query → Prop
  | oneConjunction {ts q} : Derives .conjunction ts q → Derives .disjunction ts q
  | or {us vs t l r} : Derives .disjunction us l → t.kind = .or → Derives .conjunction vs r →
      Derives .disjunction (us ++ t :: vs) (.any [l, r])
  | oneUnary {ts q} : Derives .unary ts q → Derives .conjunction ts q
  | and {us vs t l r} : Derives .conjunction us l → t.kind = .and → Derives .unary vs r →
      Derives .conjunction (us ++ t :: vs) (.all [l, r])
  | not {ts t q} : t.kind = .not → Derives .unary ts q → Derives .unary (t :: ts) (.not q)
  | onePrimary {ts q} : Derives .primary ts q → Derives .unary ts q
  | parentheses {ts l r q} : l.kind = .lparen → Derives .disjunction ts q → r.kind = .rparen →
      Derives .primary (l :: ts ++ [r]) q
  | leaf {f op v node} : f.kind = .ident → Operates op.kind node →
      v.kind = .string ∨ v.kind = .number ∨ v.kind = .ident →
      Derives .primary [f, op, v] (node f.text v.value)

theorem leaf?_eq_some_iff {kind : TokenKind} {node : String → Value → Query} :
    kind.leaf? = some node ↔ Operates kind node := by
  constructor
  · intro h
    cases kind <;> simp only [TokenKind.leaf?, Option.some.injEq, reduceCtorEq] at h <;>
      subst h <;> constructor
  · rintro ⟨⟩ <;> rfl

theorem isOperand_iff {kind : TokenKind} :
    kind.isOperand = true ↔ kind = .string ∨ kind = .number ∨ kind = .ident := by
  cases kind <;> simp [TokenKind.isOperand]

theorem negate_not (n : Nat) (q : Query) : negate n (.not q) = negate (n + 1) q := by
  induction n with
  | zero => rfl
  | succ n ih => simp only [negate, ih]

section Equations

variable {outer : List Pending} {p : Pending} {d : Option Query} {c : Query} {t : Token}
  {ts : List Token}

theorem readOperand_not (ht : t.kind = .not) :
    readOperand outer p (t :: ts) =
      readOperand outer { p with negations := p.negations + 1 } ts := by
  conv_lhs => rw [readOperand.eq_def]
  simp only [ht]

theorem readOperand_lparen (ht : t.kind = .lparen) :
    readOperand outer p (t :: ts) = readOperand (p :: outer) {} ts := by
  conv_lhs => rw [readOperand.eq_def]
  simp only [ht]

theorem readOperand_leaf {f op v : Token} {node : String → Value → Query} (hf : f.kind = .ident)
    (hop : op.kind.leaf? = some node) (hv : v.kind.isOperand = true) :
    readOperand outer p (f :: op :: v :: ts) =
      readOperator outer p.disjunction (p.conjoin (node f.text v.value)) ts := by
  conv_lhs => rw [readOperand.eq_def]
  simp only [hf, hop, hv, if_true]

theorem readOperator_and (ht : t.kind = .and) :
    readOperator outer d c (t :: ts) =
      readOperand outer { disjunction := d, conjunction := some c } ts := by
  conv_lhs => rw [readOperator.eq_def]
  simp only [ht]

theorem readOperator_or (ht : t.kind = .or) :
    readOperator outer d c (t :: ts) =
      readOperand outer { disjunction := some (joinLeft .any d c) } ts := by
  conv_lhs => rw [readOperator.eq_def]
  simp only [ht]

theorem readOperator_rparen (ht : t.kind = .rparen) :
    readOperator (p :: outer) d c (t :: ts) =
      readOperator outer p.disjunction (p.conjoin (joinLeft .any d c)) ts := by
  conv_lhs => rw [readOperator.eq_def]
  simp only [ht]

end Equations

/-- What the reader makes of the tokens of a nonterminal, whatever stands before and after them. -/
def Consumes : Nonterminal → List Token → Query → Prop
  | .disjunction, ts, q => ∃ d c, joinLeft .any d c = q ∧
      ∀ outer rest, readOperand outer {} (ts ++ rest) = readOperator outer d c rest
  | .conjunction, ts, q => ∀ outer d rest,
      readOperand outer { disjunction := d } (ts ++ rest) = readOperator outer d q rest
  | _, ts, q => ∀ outer (p : Pending) rest,
      readOperand outer p (ts ++ rest) = readOperator outer p.disjunction (p.conjoin q) rest

theorem consumes_or {us vs : List Token} {t : Token} {l r : Query}
    (hl : Consumes .disjunction us l) (ht : t.kind = .or) (hr : Consumes .conjunction vs r) :
    Consumes .disjunction (us ++ t :: vs) (.any [l, r]) := by
  obtain ⟨d, c, rfl, hl⟩ := hl
  refine ⟨some (joinLeft .any d c), r, rfl, fun outer rest => ?_⟩
  rw [List.append_assoc, hl, List.cons_append, readOperator_or ht]
  exact hr outer _ rest

theorem consumes_and {us vs : List Token} {t : Token} {l r : Query}
    (hl : Consumes .conjunction us l) (ht : t.kind = .and) (hr : Consumes .unary vs r) :
    Consumes .conjunction (us ++ t :: vs) (.all [l, r]) := by
  intro outer d rest
  rw [List.append_assoc, hl, List.cons_append, readOperator_and ht]
  exact hr outer _ rest

theorem consumes_not {ts : List Token} {t : Token} {q : Query} (ht : t.kind = .not)
    (h : Consumes .unary ts q) : Consumes .unary (t :: ts) (.not q) := by
  intro outer p rest
  rw [List.cons_append, readOperand_not ht, h]
  simp only [Pending.conjoin, negate_not]

theorem consumes_parentheses {ts : List Token} {l r : Token} {q : Query} (hl : l.kind = .lparen)
    (h : Consumes .disjunction ts q) (hr : r.kind = .rparen) :
    Consumes .primary (l :: ts ++ [r]) q := by
  intro outer p rest
  obtain ⟨d, c, rfl, h⟩ := h
  rw [List.append_assoc, List.cons_append, readOperand_lparen hl, h, List.singleton_append,
    readOperator_rparen hr]

theorem consumes_leaf {f op v : Token} {node : String → Value → Query} (hf : f.kind = .ident)
    (hop : Operates op.kind node) (hv : v.kind = .string ∨ v.kind = .number ∨ v.kind = .ident) :
    Consumes .primary [f, op, v] (node f.text v.value) := by
  intro outer p rest
  exact readOperand_leaf hf (leaf?_eq_some_iff.2 hop) (isOperand_iff.2 hv)

theorem Derives.consumes {n : Nonterminal} {ts : List Token} {q : Query} (h : Derives n ts q) :
    Consumes n ts q := by
  induction h with
  | oneConjunction _ ih => exact ⟨none, _, rfl, fun outer rest => ih outer none rest⟩
  | or _ ht _ ihl ihr => exact consumes_or ihl ht ihr
  | oneUnary _ ih => exact fun outer d rest => ih outer { disjunction := d } rest
  | and _ ht _ ihl ihr => exact consumes_and ihl ht ihr
  | not ht _ ih => exact consumes_not ht ih
  | onePrimary _ ih => exact ih
  | parentheses hl _ hr ih => exact consumes_parentheses hl ih hr
  | leaf hf hop hv => exact consumes_leaf hf hop hv

theorem ofTokens_of_derives {ts : List Token} {q : Query} {last : Token} (hlast : last.kind = .eof)
    (h : Derives .disjunction ts q) : ofTokens (ts ++ [last]) = .ok q := by
  obtain ⟨d, c, rfl, hread⟩ := h.consumes
  rw [ofTokens, hread]
  simp only [readOperator, hlast, readEnd, if_true]

def ReadLeft (n : Nonterminal) (kind : TokenKind) (us : List Token) : Option Query → Prop
  | none => us = []
  | some q => ∃ vs t, us = vs ++ [t] ∧ t.kind = kind ∧ Derives n vs q

def Pending.ReadFrom (p : Pending) (us : List Token) : Prop :=
  ∃ ds cs ns, us = ds ++ cs ++ ns ∧ ReadLeft .disjunction .or ds p.disjunction ∧
    ReadLeft .conjunction .and cs p.conjunction ∧ ns.length = p.negations ∧ ∀ t ∈ ns, t.kind = .not

inductive Opened : List Pending → List Token → Prop
  | nil : Opened [] []
  | cons {outer us p vs t} : Opened outer us → Pending.ReadFrom p vs → t.kind = .lparen →
      Opened (p :: outer) (us ++ vs ++ [t])

theorem Pending.readFrom_start : Pending.ReadFrom {} [] := ⟨[], [], [], by simp [ReadLeft]⟩

theorem Pending.ReadFrom.not {p : Pending} {us : List Token} {t : Token} (h : p.ReadFrom us)
    (ht : t.kind = .not) :
    Pending.ReadFrom { p with negations := p.negations + 1 } (us ++ [t]) := by
  obtain ⟨ds, cs, ns, rfl, hd, hc, hn, hall⟩ := h
  refine ⟨ds, cs, ns ++ [t], by simp, hd, hc, by simp [hn], ?_⟩
  intro s hs
  rcases List.mem_append.1 hs with hs | hs
  · exact hall s hs
  · exact List.mem_singleton.1 hs ▸ ht

theorem derives_negate {ns ts : List Token} {q : Query} (hns : ∀ t ∈ ns, t.kind = .not)
    (h : Derives .unary ts q) : Derives .unary (ns ++ ts) (negate ns.length q) := by
  induction ns with
  | nil => exact h
  | cons t ns ih => exact .not (hns t (by simp)) (ih fun s hs => hns s (by simp [hs]))

theorem derives_and {cs ts : List Token} {l : Option Query} {q : Query}
    (hl : ReadLeft .conjunction .and cs l) (h : Derives .unary ts q) :
    Derives .conjunction (cs ++ ts) (joinLeft .all l q) := by
  cases l with
  | none => exact hl ▸ .oneUnary h
  | some l =>
      obtain ⟨vs, t, rfl, ht, hl⟩ := hl
      rw [List.append_assoc]
      exact .and hl ht h

theorem derives_or {ds ts : List Token} {l : Option Query} {q : Query}
    (hl : ReadLeft .disjunction .or ds l) (h : Derives .conjunction ts q) :
    Derives .disjunction (ds ++ ts) (joinLeft .any l q) := by
  cases l with
  | none => exact hl ▸ .oneConjunction h
  | some l =>
      obtain ⟨vs, t, rfl, ht, hl⟩ := hl
      rw [List.append_assoc]
      exact .or hl ht h

theorem Pending.ReadFrom.conjoin {p : Pending} {us ts : List Token} {q : Query}
    (h : p.ReadFrom us) (hq : Derives .unary ts q) :
    ∃ ds cs, us ++ ts = ds ++ cs ∧ ReadLeft .disjunction .or ds p.disjunction ∧
      Derives .conjunction cs (p.conjoin q) := by
  obtain ⟨ds, cs, ns, rfl, hd, hc, hn, hall⟩ := h
  refine ⟨ds, cs ++ (ns ++ ts), by simp, hd, ?_⟩
  exact derives_and hc (hn ▸ derives_negate hall hq)

def Completes (front ts : List Token) (q : Query) : Prop :=
  ∃ body rest, ts = body ++ rest ∧ Derives .disjunction (front ++ body) q ∧
    ∀ t ∈ rest.head?, t.kind = .eof

theorem Completes.cons {front ts : List Token} {t : Token} {q : Query}
    (h : Completes (front ++ [t]) ts q) : Completes front (t :: ts) q := by
  obtain ⟨body, rest, rfl, hd, hr⟩ := h
  exact ⟨t :: body, rest, rfl, by simpa using hd, hr⟩

theorem completes_readEnd {outer : List Pending} {us ds cs ts : List Token} {d : Option Query}
    {c q : Query} {t : Token} (hq : readEnd outer (joinLeft .any d c) t = .ok q)
    (ho : Opened outer us) (hd : ReadLeft .disjunction .or ds d)
    (hc : Derives .conjunction cs c) (ht : t.kind = .eof → ∀ s ∈ ts.head?, s.kind = .eof) :
    Completes (us ++ ds ++ cs) ts q := by
  cases ho with
  | cons => simp [readEnd] at hq
  | nil =>
      simp only [readEnd] at hq
      split at hq
      · rename_i hk
        cases hq
        exact ⟨[], ts, rfl, by simpa using derives_or hd hc, ht hk⟩
      · simp at hq

theorem completes_of_readOperand :
    (∀ outer (p : Pending) ts, ∀ q us vs, readOperand outer p ts = .ok q → Opened outer us →
      p.ReadFrom vs → Completes (us ++ vs) ts q) ∧
    (∀ outer d c ts, ∀ q us ds cs, readOperator outer d c ts = .ok q → Opened outer us →
      ReadLeft .disjunction .or ds d → Derives .conjunction cs c →
      Completes (us ++ ds ++ cs) ts q) := by
  -- by the calls of the reader; in the cases without an operand, an operator or a value where it
  -- must stand, nothing is accepted
  apply readOperand.mutual_induct
  case case1 => simp [readOperand]
  case case2 =>
    -- `not` joins the tokens that wait for an operand
    intro outer p t ts ht ih q us vs hq ho hp
    rw [readOperand_not ht] at hq
    have h := ih q us (vs ++ [t]) hq ho (hp.not ht)
    rw [← List.append_assoc] at h
    exact h.cons
  case case3 =>
    -- an opening parenthesis puts them all outside, and nothing waits inside yet
    intro outer p t ts ht ih q us vs hq ho hp
    rw [readOperand_lparen ht] at hq
    have h := ih q (us ++ vs ++ [t]) [] hq (.cons ho hp ht) Pending.readFrom_start
    rw [List.append_nil] at h
    exact h.cons
  case case4 => intro outer p t ht q us vs hq; rw [readOperand.eq_def] at hq; simp [ht] at hq
  case case5 =>
    intro outer p f hf op ts hop q us vs hq
    rw [readOperand.eq_def] at hq
    simp [hf, hop] at hq
  case case6 =>
    intro outer p f hf op node hop q us vs hq
    rw [readOperand.eq_def] at hq
    simp [hf, hop] at hq
  case case7 =>
    -- a leaf completes the conjunction
    intro outer p f hf op node hop v ts hv ih q us vs hq ho hp
    rw [readOperand_leaf hf hop hv] at hq
    have hleaf : Derives .primary [f, op, v] (node f.text v.value) :=
      .leaf hf (leaf?_eq_some_iff.1 hop) (isOperand_iff.1 hv)
    obtain ⟨ds, cs, hs, hd, hc⟩ := hp.conjoin (.onePrimary hleaf)
    have h := ih q us ds cs hq ho hd hc
    rw [List.append_assoc, ← hs] at h
    exact .cons (.cons (.cons (by simpa using h)))
  case case8 =>
    intro outer p f hf op node hop v ts hv q us vs hq
    rw [readOperand.eq_def] at hq
    simp [hf, hop, hv] at hq
  case case9 =>
    intro outer p t ts hnot hparen hident q us vs hq
    rw [readOperand.eq_def] at hq
    simp at hq
  case case10 =>
    intro outer d c q us ds cs hq ho hd hc
    exact completes_readEnd hq ho hd hc (by simp)
  case case11 =>
    intro outer d c t ts ht ih q us ds cs hq ho hd hc
    rw [readOperator_and ht] at hq
    have hp : Pending.ReadFrom { disjunction := d, conjunction := some c } (ds ++ (cs ++ [t])) :=
      ⟨ds, cs ++ [t], [], by simp, hd, ⟨cs, t, rfl, ht, hc⟩, rfl, by simp⟩
    have h := ih q us _ hq ho hp
    exact .cons (by simpa using h)
  case case12 =>
    intro outer d c t ts ht ih q us ds cs hq ho hd hc
    rw [readOperator_or ht] at hq
    have hp : Pending.ReadFrom { disjunction := some (joinLeft .any d c) } (ds ++ cs ++ [t]) :=
      ⟨ds ++ cs ++ [t], [], [], by simp, ⟨ds ++ cs, t, rfl, ht, derives_or hd hc⟩, rfl, rfl, by simp⟩
    have h := ih q us _ hq ho hp
    exact .cons (by simpa using h)
  case case13 =>
    intro d c t ts ht q us ds cs hq
    rw [readOperator.eq_def] at hq
    simp [ht] at hq
  case case14 =>
    -- a closing parenthesis makes one operand of all that was read since it was opened
    intro d c t ts ht p outer ih q us ds cs hq ho hd hc
    rw [readOperator_rparen ht] at hq
    cases ho with
    | @cons _ us _ vs l ho hp hl =>
        have hgroup := Derives.parentheses hl (derives_or hd hc) ht
        obtain ⟨ds', cs', hs, hd', hc'⟩ := hp.conjoin (.onePrimary hgroup)
        have h := ih q us ds' cs' hq ho hd' hc'
        rw [List.append_assoc, ← hs] at h
        exact .cons (by simpa using h)
  case case15 =>
    intro outer d c t ts hand hor hparen q us ds cs hq ho hd hc
    rw [readOperator.eq_def] at hq
    simp only at hq
    exact completes_readEnd hq ho hd hc (by simp)

theorem Derives.kind_ne_eof {n : Nonterminal} {ts : List Token} {q : Query} (h : Derives n ts q) :
    ∀ t ∈ ts, t.kind ≠ .eof := by
  induction h with
  | oneConjunction _ ih => exact ih
  | or _ ht _ ihl ihr =>
      exact List.forall_mem_append.2 ⟨ihl, List.forall_mem_cons.2 ⟨by simp [ht], ihr⟩⟩
  | oneUnary _ ih => exact ih
  | and _ ht _ ihl ihr =>
      exact List.forall_mem_append.2 ⟨ihl, List.forall_mem_cons.2 ⟨by simp [ht], ihr⟩⟩
  | not ht _ ih => exact List.forall_mem_cons.2 ⟨by simp [ht], ih⟩
  | onePrimary _ ih => exact ih
  | parentheses hl _ hr ih =>
      exact List.forall_mem_cons.2 ⟨by simp [hl], List.forall_mem_append.2 ⟨ih, by simp [hr]⟩⟩
  | leaf hf hop hv =>
      have hop' : ∀ {k node}, Operates k node → k ≠ .eof := by
        rintro k node ⟨⟩ <;> simp
      have hv' : ∀ {k : TokenKind}, k = .string ∨ k = .number ∨ k = .ident → k ≠ .eof := by
        rintro k (rfl | rfl | rfl) <;> simp
      simp [hf, hop' hop, hv' hv]

theorem derives_of_ofTokens {ts : List Token} {q : Query} {last : Token} (hlast : last.kind = .eof)
    (hin : ∀ t ∈ ts, t.kind ≠ .eof) (h : ofTokens (ts ++ [last]) = .ok q) :
    Derives .disjunction ts q := by
  obtain ⟨body, rest, hs, hd, hr⟩ :=
    completes_of_readOperand.1 _ _ _ q [] [] h .nil Pending.readFrom_start
  have hbody := hd.kind_ne_eof
  -- `body` ends where `ts` does: not later, since it holds no end token, and not earlier, since
  -- what stands behind it is one
  rcases List.append_eq_append_iff.1 hs with ⟨as, rfl, has⟩ | ⟨cs, rfl, rfl⟩
  · cases as with
    | nil => simpa using hd
    | cons a as =>
        obtain ⟨rfl, -⟩ := List.cons_eq_cons.1 has
        exact absurd hlast (hbody last (by simp))
  · cases cs with
    | nil => simpa using hd
    | cons c cs => exact absurd (hr c (by simp)) (hin c (by simp))

end RecordSieve.Query
