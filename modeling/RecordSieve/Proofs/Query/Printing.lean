import RecordSieve.Proofs.Query.NumberText
import RecordSieve.Proofs.Query.Scanning
import RecordSieve.Proofs.Query.Shape

namespace RecordSieve

namespace Value

def asRead : Value → Value
  | .unsigned n => .integer n
  | .float x => .ofBinary64 x
  | v => v

theorem interchangeable_asRead (v : Value) : v.asRead.Interchangeable v := by
  cases v with
  | unsigned n => exact interchangeable_unsigned n
  | float x => exact interchangeable_ofBinary64 x
  | _ => exact .refl _

def isReadForm : Value → Bool
  | .unsigned _ => false
  | .float x => x.safeInteger?.isNone
  | _ => true

theorem asRead_eq_self {v : Value} (h : v.isReadForm = true) : v.asRead = v := by
  cases v with
  | unsigned => simp [isReadForm] at h
  | float x =>
      have hnone : x.safeInteger? = none := by simpa [isReadForm] using h
      rw [asRead, ofBinary64, hnone]
  | _ => rfl

end Value

namespace Query

def asRead (q : Query) : Query := (q.mapOperands Value.asRead).paired

theorem eval_asRead (options : Options) (input : Input) (q : Query) :
    q.asRead.eval options input = q.eval options input := by
  have hall : q.everywhere (·.operand?.all fun _ => true) = true :=
    everywhere_imp (fun s _ => by simp) q q.everywhere_true
  rw [asRead, eval_paired, eval_mapOperands (fun v _ => v.interchangeable_asRead) q hall]

theorem mem_keywords_iff {name : String} :
    name.toList ∈ keywordTokens.map Prod.snd ↔ name ∈ keywords := by
  have hmap : keywordTokens.map Prod.snd = keywords.map String.toList := by decide
  rw [hmap, List.mem_map]
  constructor
  · rintro ⟨keyword, hk, heq⟩
    exact String.toList_inj.1 heq ▸ hk
  · intro h
    exact ⟨name, h, rfl⟩

theorem spells_ident_of_isIdentifier {name : String} (h : isIdentifier name = true) :
    Spells .ident name.toList name.toList := by
  simp only [isIdentifier] at h
  split at h
  · simp at h
  · rename_i c cs hname
    simp only [Bool.and_eq_true, Bool.not_eq_true', Bool.or_eq_true, beq_iff_eq] at h
    obtain ⟨⟨hc, hcs⟩, hk⟩ := h
    have hword : Text.isWordChar c = true := by
      rcases hc with hc | rfl
      · simp [Text.isWordChar, hc]
      · rfl
    have hdigit : c.isDigit = false := by
      rcases hc with hc | rfl
      · by_contra hd
        simp [Text.isLetter_of_isDigit (by simpa using hd)] at hc
      · rfl
    refine .ident (by simp [hname]) (by simpa [hname, hword] using hcs) (by simp [hname, hdigit]) ?_
    rw [mem_keywords_iff]
    simpa using hk

theorem Spells.head_number {text source : List Char} (h : Spells .number text source) :
    ∀ c ∈ source.head?, c = '-' ∨ isNumeral c = true := by
  cases h with
  | keyword h => simp [keywordTokens] at h
  | symbol h => simp [symbolTokens] at h
  | number hs _ hall =>
      rcases hs with rfl | rfl
      · exact fun c hc => .inr (List.all_eq_true.1 hall c (List.mem_of_mem_head? hc))
      · simp

theorem value_of_bareNumber? {text : String} {v : Value} (h : bareNumber? text.toList = some v)
    (position : Nat) : (⟨.number, text, position⟩ : Token).value = v := by
  have ht : text ≠ "true" := by
    rintro rfl
    cases h
  have hf : text ≠ "false" := by
    rintro rfl
    cases h
  simp [Token.value, ht, hf, h]

theorem operandText_spells {path : Path} {v : Value} {text : String}
    (h : operandText path v = .ok text) : ∃ kind content,
      (kind = .string ∨ kind = .number ∨ kind = .ident) ∧ Spells kind content text.toList ∧
      (∀ c ∈ text.toList.head?, c ≠ 'n') ∧
      (⟨kind, String.ofList content, 0⟩ : Token).value = v.asRead := by
  have hnumber : ∀ {w : Value}, bareNumber? text.toList = some w →
      Spells .number text.toList text.toList → ∃ kind content,
        (kind = .string ∨ kind = .number ∨ kind = .ident) ∧ Spells kind content text.toList ∧
        (∀ c ∈ text.toList.head?, c ≠ 'n') ∧
        (⟨kind, String.ofList content, 0⟩ : Token).value = w := by
    intro w hread hspells
    refine ⟨.number, text.toList, by simp, hspells, ?_, ?_⟩
    · rintro c hc rfl
      rcases hspells.head_number 'n' hc with h | h <;> simp [isNumeral] at h
    · rw [String.ofList_toList]
      exact value_of_bareNumber? hread 0
  cases v with
  | string s =>
      simp only [operandText, List.contains_eq_mem, decide_eq_true_eq] at h
      split at h
      · simp at h
      · rename_i hq
        cases h
        refine ⟨.string, s.toList, by simp, ?_, ?_, ?_⟩
        · rw [String.toList_append, String.toList_append]
          exact .string hq
        · rw [String.toList_append, String.toList_append]
          simp
        · rw [String.ofList_toList]
          rfl
  | boolean b =>
      have hword : ∀ {c : Char} {cs : List Char}, (c :: cs).all Text.isWordChar = true →
          c.isDigit = false → c :: cs ∉ keywordTokens.map Prod.snd →
          Spells .ident (c :: cs) (c :: cs) := fun hall hdigit hkeyword =>
        .ident (by simp) hall (by simpa using hdigit) hkeyword
      cases b with
      | true =>
          cases h
          exact ⟨.ident, _, by simp, hword (c := 't') (by decide +kernel) rfl (by decide), by simp, rfl⟩
      | false =>
          cases h
          exact ⟨.ident, _, by simp, hword (c := 'f') (by decide +kernel) rfl (by decide), by simp, rfl⟩
  | integer n =>
      cases h
      rw [String.toList_ofList] at hnumber ⊢
      exact hnumber (bareNumber?_intText n) (spells_intText n)
  | unsigned n =>
      cases h
      rw [String.toList_ofList] at hnumber ⊢
      exact hnumber (bareNumber?_intText n) (spells_intText n)
  | float x =>
      obtain ⟨hread, hspells⟩ := floatText_reads h
      exact hnumber hread hspells
  | null => simp [operandText] at h
  | list => simp [operandText] at h
  | map => simp [operandText] at h

theorem symbol?_spells {op : MatchOp} {symbol : String} (h : op.symbol? = some symbol) :
    ∃ kind, Operates kind (.check op) ∧ Spells kind symbol.toList symbol.toList := by
  cases op with
  | is =>
      cases h
      exact ⟨.is, .is, .keyword (by decide)⟩
  | isNot =>
      cases h
      have hspells : Spells .isNot (['i', 's'] ++ [' '] ++ ['n', 'o', 't'])
          (['i', 's'] ++ [' '] ++ ['n', 'o', 't']) := .isNot (by simp) (by decide)
      exact ⟨.isNot, .isNot, hspells⟩
  | contains =>
      cases h
      exact ⟨.contains, .contains, .keyword (by decide)⟩
  | iContains => simp [MatchOp.symbol?] at h

theorem symbol_spells (op : OrderOp) :
    ∃ kind, Operates kind (.order op) ∧ Spells kind op.symbol.toList op.symbol.toList := by
  cases op with
  | gt => exact ⟨.gt, .gt, .symbol (by decide)⟩
  | gte => exact ⟨.gte, .gte, .symbol (by decide)⟩
  | lt => exact ⟨.lt, .lt, .symbol (by decide)⟩
  | lte => exact ⟨.lte, .lte, .symbol (by decide)⟩

theorem leafText_eq_ok {path : Path} {name field text : String} {symbol? : Option String}
    {operand : Value} (h : leafText path name symbol? field operand = .ok text) :
    ∃ symbol operandSource, symbol? = some symbol ∧ isIdentifier field = true ∧
      operandText path operand = .ok operandSource ∧
      text = field ++ " " ++ symbol ++ " " ++ operandSource := by
  cases symbol? with
  | none => simp [leafText] at h
  | some symbol =>
      obtain ⟨name, hname, h⟩ := Except.bind_eq_ok_iff.1 h
      obtain ⟨source, hsource, htext⟩ := Except.bind_eq_ok_iff.1 h
      rw [fieldText] at hname
      split at hname
      · rename_i hfield
        cases hname
        exact ⟨symbol, source, rfl, hfield, hsource, (Except.ok.inj htext).symm⟩
      · cases hname

theorem scansTo_leafText {path : Path} {name field text : String} {symbol? : Option String}
    {operand : Value} {node : String → Value → Query}
    (h : leafText path name symbol? field operand = .ok text)
    (hop : ∀ symbol, symbol? = some symbol →
      ∃ kind, Operates kind node ∧ Spells kind symbol.toList symbol.toList) :
    ScansTo .primary text.toList (node field operand.asRead) := by
  obtain ⟨symbol, source, hsymbol, hfield, hsource, rfl⟩ := leafText_eq_ok h
  obtain ⟨kind, hop, hspells⟩ := hop symbol hsymbol
  obtain ⟨operandKind, content, hkind, hoperand, hhead, hvalue⟩ := operandText_spells hsource
  have hscan := scansTo_leaf (spells_ident_of_isIdentifier hfield) hop hspells hkind hoperand hhead
  rw [hvalue, String.ofList_toList] at hscan
  simpa using hscan

def chain : Joint → Nonterminal
  | .all => .conjunction
  | .any => .disjunction

theorem scansTo_chain {joint : Joint} {source : List Char} {q : Query} (h : ScansTo .unary source q) :
    ScansTo (chain joint) source q := by
  cases joint with
  | all => exact h.mono fun _ => .oneUnary
  | any => exact h.mono fun _ hd => .oneConjunction (.oneUnary hd)

theorem scansTo_of_chain {joint : Joint} {source : List Char} {q : Query}
    (h : ScansTo (chain joint) source q) : ScansTo .disjunction source q := by
  cases joint with
  | all => exact h.mono fun _ => .oneConjunction
  | any => exact h

theorem scansTo_link {joint : Joint} {l r : List Char} {p q : Query} (hl : ScansTo (chain joint) l p)
    (hr : ScansTo .unary r q) :
    ScansTo (chain joint) (l ++ ' ' :: (joint.symbol.toList ++ ' ' :: r)) (.joined joint [p, q]) := by
  cases joint with
  | all => exact scansTo_and hl hr
  | any => exact scansTo_or hl (hr.mono fun _ => .oneUnary)

theorem printAll_cons {path : Path} {i : Nat} {q : Query} {qs : List Query} {texts : List String}
    (h : printAll path i (q :: qs) = .ok texts) : ∃ text rest, texts = text :: rest ∧
      print (path ++ [.key "Expressions", .index i]) q = .ok text ∧ printAll path (i + 1) qs = .ok rest := by
  rw [printAll] at h
  split at h
  · cases h
  · rename_i text hq
    obtain ⟨rest, hqs, rfl⟩ := Except.map_eq_ok_iff.1 h
    exact ⟨text, rest, rfl, hq, hqs⟩

theorem scansTo_printAll {path : Path} {i : Nat} {joint : Joint} {left : Query} {l : List Char}
    {qs : List Query} {texts : List String}
    (ih : ∀ q ∈ qs, ∀ path text, print path q = .ok text → ScansTo .unary text.toList q.asRead)
    (h : printAll path i qs = .ok texts) (hl : ScansTo (chain joint) l left) :
    ScansTo (chain joint)
      (l ++ texts.flatMap fun text => ' ' :: (joint.symbol.toList ++ ' ' :: text.toList))
      (pairedFrom joint left (mapOperandsIn Value.asRead qs)) := by
  induction qs generalizing i texts left l with
  | nil =>
      cases h
      simpa [mapOperandsIn, pairedFrom] using hl
  | cons q qs ihqs =>
      obtain ⟨text, rest, rfl, hq, hqs⟩ := printAll_cons h
      have hlink := scansTo_link hl (ih q (by simp) _ _ hq)
      have hrest := ihqs (fun r hr => ih r (by simp [hr])) hqs hlink
      rw [mapOperandsIn, pairedFrom]
      simpa [asRead] using hrest

theorem toList_intercalate_cons (sep text : String) (texts : List String) :
    (sep.intercalate (text :: texts)).toList =
      text.toList ++ texts.flatMap (sep.toList ++ ·.toList) := by
  rw [String.toList_intercalate]
  induction texts generalizing text with
  | nil => simp
  | cons t ts ih =>
      rw [List.map_cons, List.map_cons, List.intercalate_cons_cons, ← List.map_cons, ih]
      simp

theorem scansTo_print (q : Query) :
    ∀ path text, print path q = .ok text → ScansTo .unary text.toList q.asRead := by
  induction q using byChildren with
  | empty => intro path text h; simp [print] at h
  | compare => intro path text h; simp [print] at h
  | check op field operand =>
      intro path text h
      rw [print] at h
      exact (scansTo_leafText h fun _ => symbol?_spells).mono fun _ => .onePrimary
  | order op field operand =>
      intro path text h
      rw [print] at h
      refine (scansTo_leafText h fun symbol hs => ?_).mono fun _ => .onePrimary
      cases hs
      exact symbol_spells op
  | not child ih =>
      intro path text h
      rw [print] at h
      obtain ⟨source, hc, rfl⟩ := Except.map_eq_ok_iff.1 h
      rw [String.toList_append]
      exact scansTo_not (ih _ _ hc)
  | joined joint children ih =>
      intro path text h
      cases children with
      | nil => simp [print] at h
      | cons q qs =>
          rw [print] at h
          obtain ⟨texts, hall, rfl⟩ := Except.map_eq_ok_iff.1 h
          obtain ⟨first, rest, rfl, hq, hqs⟩ := printAll_cons hall
          have hfirst : ScansTo (chain joint) first.toList q.asRead :=
            scansTo_chain (ih q (by simp) _ _ hq)
          have hchain := scansTo_printAll (fun r hr => ih r (by simp [hr])) hqs hfirst
          have hgroup := scansTo_parentheses (scansTo_of_chain hchain)
          simp only [String.toList_append, toList_intercalate_cons]
          simpa [asRead, mapOperands, mapOperandsIn, paired] using hgroup.mono fun _ => .onePrimary

theorem parse_of_print {path : Path} {q : Query} {text : String} (h : print path q = .ok text) :
    parse text = .ok q.asRead :=
  ((scansTo_print q path text h).mono fun _ hd => .oneConjunction (.oneUnary hd)).parse

def isParserForm (q : Query) : Bool :=
  q.everywhere fun s => s.operand?.all Value.isReadForm &&
    match s with
    | .joined _ children => children.length == 2
    | _ => true

theorem asRead_eq_self {q : Query} (h : q.isParserForm = true) : q.asRead = q := by
  have hoperands : q.everywhere (·.operand?.all Value.isReadForm) = true :=
    everywhere_imp (fun s hs => (Bool.and_eq_true_iff.1 hs).1) q h
  rw [asRead, mapOperands_eq_self (fun _ => Value.asRead_eq_self) q hoperands]
  exact paired_eq_self q (everywhere_imp (fun s hs => (Bool.and_eq_true_iff.1 hs).2) q h)

theorem text_eq_print {q : Query} (hq : q ≠ .empty) : q.text = q.print [] := by
  cases q with
  | empty => exact absurd rfl hq
  | _ => rfl

/-- Printed text reads back as a query that answers every record alike, and as the same tree where the
printed one has the form that reading gives. -/
theorem parse_text {q : Query} {text : String} (hq : q ≠ .empty) (h : q.text = .ok text) :
    ∃ r, parse text = .ok r ∧ (∀ options input, r.eval options input = q.eval options input) ∧
      (q.isParserForm = true → r = q) := by
  rw [text_eq_print hq] at h
  exact ⟨q.asRead, parse_of_print h, fun options input => eval_asRead options input q, asRead_eq_self⟩

theorem parse_text_nested :
    (∃ r, parse "(not (a is 3 and b_1 is not \x22x y\x22) or (c >= -0.5))" = .ok r ∧
      ∀ options input, r.eval options input = eval options input
        (.any [.not (.all [.check .is "a" (.unsigned 3), .check .isNot "b_1" (.string "x y")]),
          .all [.order .gte "c" (.float (.ofRatio true 1 2))]])) ∧
    parse "not (a is 3 and c < 0.5)" = .ok
      (.not (.all [.check .is "a" (.integer 3), .order .lt "c" (.float (.ofRatio false 1 2))])) := by
  constructor
  · have h : Query.text (.any [.not (.all [.check .is "a" (.unsigned 3),
        .check .isNot "b_1" (.string "x y")]), .all [.order .gte "c" (.float (.ofRatio true 1 2))]]) =
        .ok "(not (a is 3 and b_1 is not \x22x y\x22) or (c >= -0.5))" := by decide +kernel
    obtain ⟨r, hr, heval, -⟩ := parse_text (by simp [any]) h
    exact ⟨r, hr, heval⟩
  · have h : Query.text (.not (.all [.check .is "a" (.integer 3),
        .order .lt "c" (.float (.ofRatio false 1 2))])) = .ok "not (a is 3 and c < 0.5)" := by
      decide +kernel
    obtain ⟨r, hr, -, hform⟩ := parse_text (by simp) h
    rw [hr, hform (by decide +kernel)]

end Query

end RecordSieve
