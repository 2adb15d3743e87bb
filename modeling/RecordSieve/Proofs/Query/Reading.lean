import RecordSieve.Proofs.Query.Printing

namespace RecordSieve

namespace Query

theorem ofTokens_eq_ok_iff {ts : List Token} {last : Token} (hlast : last.kind = .eof)
    (hin : ∀ t ∈ ts, t.kind ≠ .eof) (q : Query) :
    ofTokens (ts ++ [last]) = .ok q ↔ Derives .disjunction ts q :=
  ⟨derives_of_ofTokens hlast hin, ofTokens_of_derives hlast⟩

theorem tokenize_ends {text : String} {tokens : List Token} (h : tokenize text = .ok tokens) :
    ∃ ts last, tokens = ts ++ [last] ∧ last.kind = .eof ∧
      ∀ t ∈ ts, ∃ source, Spells t.kind t.text.toList source :=
  spells_of_scan h

/-- Tokens that end in their only end token, as those of every text do, are read as the query that the
others derive; where they derive none, reading fails. -/
theorem ofTokens_iff_derives :
    (∀ ts last, last.kind = .eof → (∀ t ∈ ts, t.kind ≠ .eof) →
      (∀ q, ofTokens (ts ++ [last]) = .ok q ↔ Derives .disjunction ts q) ∧
      ((∃ e : QueryError, ofTokens (ts ++ [last]) = .error e) ↔ ¬∃ q, Derives .disjunction ts q)) ∧
    (∀ text tokens, tokenize text = .ok tokens →
      ∃ ts last, tokens = ts ++ [last] ∧ last.kind = .eof ∧ ∀ t ∈ ts, t.kind ≠ .eof) := by
  constructor
  · intro ts last hlast hin
    have hiff := ofTokens_eq_ok_iff hlast hin
    refine ⟨hiff, ?_⟩
    simp only [← hiff]
    cases ofTokens (ts ++ [last]) <;> simp
  · intro text tokens h
    obtain ⟨ts, last, rfl, hlast, hspells⟩ := tokenize_ends h
    refine ⟨ts, last, rfl, hlast, fun t ht => ?_⟩
    obtain ⟨source, hsource⟩ := hspells t ht
    exact hsource.kind_ne_eof

theorem ofTokens_iff_derives_precedence :
    let leaf (i : Nat) : List Token := [⟨.ident, "a", i⟩, ⟨.is, "is", i + 2⟩, ⟨.number, "1", i + 5⟩]
    let is : Query := .check .is "a" (.integer 1)
    Derives .disjunction
      (leaf 0 ++ ⟨.or, "or", 7⟩ :: ⟨.not, "not", 10⟩ :: leaf 14 ++ ⟨.and, "and", 21⟩ :: leaf 25)
      (.any [is, .all [.not is, is]]) := by
  intro leaf is
  have h := ofTokens_iff_derives.1
    (leaf 0 ++ ⟨.or, "or", 7⟩ :: ⟨.not, "not", 10⟩ :: leaf 14 ++ ⟨.and, "and", 21⟩ :: leaf 25)
    ⟨.eof, "", 31⟩ rfl (by decide)
  exact (h.1 _).1 rfl

end Query

namespace Value

def isPrintable : Value → Bool
  | .string s => !s.toList.contains '\x22'
  | .boolean _ | .integer _ | .unsigned _ => true
  | .float x => x.isFinite
  | _ => false

end Value

namespace Query

theorem operandText_eq_ok_iff (path : Path) (v : Value) :
    (∃ text, operandText path v = .ok text) ↔ v.isPrintable = true := by
  cases v with
  | string s =>
      simp only [operandText, Value.isPrintable]
      split <;> simp_all
  | float x => cases x <;> simp [operandText, floatText, Value.isPrintable, Binary64.isFinite]
  | _ => simp [operandText, Value.isPrintable]

def hasText : Query → Bool
  | .check op field operand => op.symbol?.isSome && isIdentifier field && operand.isPrintable
  | .order _ field operand => isIdentifier field && operand.isPrintable
  | .joined _ children => !children.isEmpty
  | .not _ => true
  | _ => false

theorem leafText_eq_ok_iff (path : Path) (name : String) (symbol? : Option String) (field : String)
    (operand : Value) : (∃ text, leafText path name symbol? field operand = .ok text) ↔
      (symbol?.isSome && isIdentifier field && operand.isPrintable) = true := by
  constructor
  · rintro ⟨text, h⟩
    obtain ⟨symbol, source, rfl, hfield, hsource, -⟩ := leafText_eq_ok h
    simp [hfield, (operandText_eq_ok_iff path operand).1 ⟨source, hsource⟩]
  · intro h
    simp only [Bool.and_eq_true, Option.isSome_iff_exists] at h
    obtain ⟨⟨⟨symbol, rfl⟩, hfield⟩, hoperand⟩ := h
    obtain ⟨source, hsource⟩ := (operandText_eq_ok_iff path operand).2 hoperand
    refine ⟨field ++ " " ++ symbol ++ " " ++ source, ?_⟩
    simp [leafText, fieldText, hfield, hsource, bind, Except.bind, pure, Except.pure]

theorem printAll_eq_ok_iff {qs : List Query}
    (h : ∀ q ∈ qs, ∀ path, (∃ text, print path q = .ok text) ↔ q.everywhere hasText = true)
    (path : Path) (i : Nat) :
    (∃ texts, printAll path i qs = .ok texts) ↔ ∀ q ∈ qs, q.everywhere hasText = true := by
  induction qs generalizing i with
  | nil => simp [printAll]
  | cons q qs ih =>
      rw [List.forall_mem_cons, ← h q (by simp) (path ++ [.key "Expressions", .index i]),
        ← ih (fun r hr => h r (by simp [hr])) (i + 1)]
      constructor
      · rintro ⟨texts, htexts⟩
        obtain ⟨text, rest, rfl, hq, hqs⟩ := printAll_cons htexts
        exact ⟨⟨text, hq⟩, ⟨rest, hqs⟩⟩
      · rintro ⟨⟨text, hq⟩, ⟨rest, hqs⟩⟩
        exact ⟨text :: rest, by simp [printAll, hq, hqs, Except.map]⟩

theorem print_eq_ok_iff (q : Query) :
    ∀ path, (∃ text, print path q = .ok text) ↔ q.everywhere hasText = true := by
  induction q using byChildren with
  | empty | compare => intro path; simp [print, everywhere, hasText]
  | check op field operand =>
      intro path
      simp only [print, everywhere, hasText]
      exact leafText_eq_ok_iff path op.name op.symbol? field operand
  | order op field operand =>
      intro path
      simp only [print, everywhere, hasText]
      simpa using leafText_eq_ok_iff path op.name (some op.symbol) field operand
  | joined joint children ih =>
      intro path
      rw [everywhere_joined, ← printAll_eq_ok_iff ih path 0]
      cases children with
      | nil => simp [print, hasText]
      | cons q qs =>
          rw [print]
          cases printAll path 0 (q :: qs) <;> simp [hasText, Except.map]
  | not child ih =>
      intro path
      rw [everywhere_not, ← ih (path ++ [.key "Expression"]), print]
      cases print (path ++ [.key "Expression"]) child <;> simp [hasText, Except.map]

end Query

namespace Value

def isOverflow : Value → Bool
  | .float x => !x.isFinite
  | _ => false

def isRead (v : Value) : Bool := v.isReadForm && (v.isPrintable != v.isOverflow)

theorem isPrintable_of_isRead {v : Value} (h : v.isRead = true) : v.isPrintable = !v.isOverflow := by
  simp only [isRead, Bool.and_eq_true] at h
  obtain ⟨-, hne⟩ := h
  cases hp : v.isPrintable <;> cases ho : v.isOverflow <;> simp [hp, ho] at hne ⊢

theorem isRead_ofBinary64 (x : Binary64) : (Value.ofBinary64 x).isRead = true := by
  cases h : x.safeInteger? with
  | some n =>
      rw [ofBinary64, h]
      rfl
  | none =>
      rw [ofBinary64, h]
      simp [isRead, isReadForm, isPrintable, isOverflow, h]

end Value

namespace Query

theorem isRead_of_bareNumber? {cs : List Char} {v : Value} (h : bareNumber? cs = some v) :
    v.isRead = true := by
  simp only [bareNumber?] at h
  split at h
  · cases h
    rfl
  · split at h
    · cases h
      exact Value.isRead_ofBinary64 _
    · simp at h

theorem isRead_string {s : String} (h : '\x22' ∉ s.toList) : (Value.string s).isRead = true := by
  simp [Value.isRead, Value.isReadForm, Value.isPrintable, Value.isOverflow, h]

theorem Spells.quote_notMem {kind : TokenKind} {text source : List Char} (h : Spells kind text source)
    (hk : kind = .string ∨ kind = .number ∨ kind = .ident) : '\x22' ∉ text := by
  have hfixed : ∀ {word : List Char}, (kind, word) ∉ keywordTokens ++ symbolTokens := fun h =>
    (fixed_of_mem h).1 (List.mem_cons_of_mem _ (by simpa using hk))
  cases h with
  | string hq => exact hq
  | ident _ hall =>
      intro hin
      have := List.all_eq_true.1 hall _ hin
      simp [(Text.punctuation_isWordChar '\x22' (by simp)).1] at this
  | number hs _ hall =>
      intro hin
      rcases List.mem_append.1 hin with hin | hin
      · rcases hs with rfl | rfl <;> simp at hin
      · have := List.all_eq_true.1 hall _ hin
        simp [isNumeral] at this
  | isNot => simp at hk
  | keyword h => exact absurd (List.mem_append_left _ h) hfixed
  | symbol h => exact absurd (List.mem_append_right _ h) hfixed

theorem isRead_value {t : Token} {source : List Char} (h : Spells t.kind t.text.toList source)
    (hk : t.kind = .string ∨ t.kind = .number ∨ t.kind = .ident) : t.value.isRead = true := by
  have hstring := isRead_string (h.quote_notMem hk)
  simp only [Token.value]
  split
  · exact hstring
  · split
    · rfl
    · split
      · rfl
      · cases hb : bareNumber? t.text.toList with
        | none => exact hstring
        | some v => exact isRead_of_bareNumber? hb

def isWord (name : String) : Bool :=
  name.toList.head?.any (!·.isDigit) && name.toList.all Text.isWordChar && !keywords.contains name

theorem isWord_of_spells {name : String} {source : List Char} (h : Spells .ident name.toList source) :
    isWord name = true := by
  generalize hw : name.toList = word at h
  cases h with
  | keyword h => simp [keywordTokens] at h
  | symbol h => simp [symbolTokens] at h
  | ident hne hall hd hk =>
      obtain ⟨c, cs, rfl⟩ := List.exists_cons_of_ne_nil hne
      have hkeyword : name ∉ keywords := fun h => hk (hw ▸ mem_keywords_iff.2 h)
      simp only [isWord, hw, hall, List.head?_cons, Option.any_some, hd c (by simp)]
      simpa using hkeyword

def beginsWithLetter (name : String) : Bool :=
  name.toList.head?.any fun c => Text.isLetter c || c == '_'

theorem isIdentifier_of_isWord {name : String} (h : isWord name = true) :
    isIdentifier name = beginsWithLetter name := by
  simp only [isWord, Bool.and_eq_true] at h
  obtain ⟨⟨-, hall⟩, hk⟩ := h
  cases hw : name.toList with
  | nil => simp [isIdentifier, beginsWithLetter, hw]
  | cons c cs =>
      rw [hw, List.all_cons, Bool.and_eq_true] at hall
      simp only [isIdentifier, beginsWithLetter, hw, hall.2, hk, Bool.and_true, List.head?_cons,
        Option.any_some]

def isReadNode : Query → Bool
  | .check op field operand => op.symbol?.isSome && isWord field && operand.isRead
  | .order _ field operand => isWord field && operand.isRead
  | .joined _ children => children.length == 2
  | .not _ => true
  | _ => false

theorem isReadNode_leaf {kind : TokenKind} {node : String → Value → Query} {field : String}
    {operand : Value} (hop : Operates kind node) (hf : isWord field = true)
    (hv : operand.isRead = true) : (node field operand).everywhere isReadNode = true := by
  cases hop <;> simp [everywhere, isReadNode, MatchOp.symbol?, hf, hv]

theorem Derives.isReadNode {n : Nonterminal} {ts : List Token} {q : Query} (h : Derives n ts q)
    (hts : ∀ t ∈ ts, ∃ source, Spells t.kind t.text.toList source) :
    q.everywhere Query.isReadNode = true := by
  induction h with
  | oneConjunction _ ih | oneUnary _ ih | onePrimary _ ih => exact ih hts
  | or _ _ _ ihl ihr | and _ _ _ ihl ihr =>
      rw [List.forall_mem_append, List.forall_mem_cons] at hts
      refine everywhere_joined.2 ⟨rfl, List.forall_mem_cons.2 ⟨ihl hts.1, ?_⟩⟩
      exact List.forall_mem_singleton.2 (ihr hts.2.2)
  | not _ _ ih => exact everywhere_not.2 ⟨rfl, ih (List.forall_mem_cons.1 hts).2⟩
  | parentheses _ _ _ ih =>
      rw [List.cons_append, List.forall_mem_cons, List.forall_mem_append] at hts
      exact ih hts.2.1
  | @leaf f op v node hf hop hv =>
      obtain ⟨_, hfield⟩ := hts f (by simp)
      obtain ⟨_, hoperand⟩ := hts v (by simp)
      rw [hf] at hfield
      exact isReadNode_leaf hop (isWord_of_spells hfield) (isRead_value hoperand hv)

theorem isReadNode_of_parse {text : String} {q : Query} (h : parse text = .ok q) :
    q.everywhere isReadNode = true := by
  rw [parse] at h
  obtain ⟨tokens, ht, h⟩ := Except.bind_eq_ok_iff.1 h
  obtain ⟨ts, last, rfl, hlast, hspells⟩ := tokenize_ends ht
  have hin : ∀ t ∈ ts, t.kind ≠ .eof := fun t hin => by
    obtain ⟨source, hsource⟩ := hspells t hin
    exact hsource.kind_ne_eof
  exact ((ofTokens_eq_ok_iff hlast hin q).1 h).isReadNode hspells

theorem isParserForm_of_isReadNode {q : Query} (h : q.everywhere isReadNode = true) :
    q.isParserForm = true := by
  refine everywhere_imp (fun s hs => ?_) q h
  cases s <;> simp_all [isReadNode, operand?, Value.isRead]

def isSpellable (q : Query) : Bool :=
  q.field?.all beginsWithLetter && q.operand?.all (!·.isOverflow)

theorem hasText_iff_isSpellable {s : Query} (h : isReadNode s = true) :
    hasText s = true ↔ isSpellable s = true := by
  cases s with
  | empty | compare => simp [isReadNode] at h
  | not => simp [hasText, isSpellable, field?, operand?]
  | joined joint children =>
      have hne : children ≠ [] := by
        rintro rfl
        simp [isReadNode] at h
      simp [hasText, isSpellable, field?, operand?, hne]
  | check op field operand =>
      simp only [isReadNode, Bool.and_eq_true] at h
      obtain ⟨⟨hop, hf⟩, hv⟩ := h
      simp [hasText, isSpellable, field?, operand?, hop, isIdentifier_of_isWord hf,
        Value.isPrintable_of_isRead hv]
  | order op field operand =>
      simp only [isReadNode, Bool.and_eq_true] at h
      obtain ⟨hf, hv⟩ := h
      simp [hasText, isSpellable, field?, operand?, isIdentifier_of_isWord hf,
        Value.isPrintable_of_isRead hv]

/-- A query that was read has a text exactly when each of its fields begins with a letter or an
underscore and no operand is infinite, and then that text reads as the same tree. -/
theorem text_of_parse {source : String} {q : Query} (h : parse source = .ok q) :
    ((∃ text, q.text = .ok text) ↔ q.everywhere isSpellable = true) ∧
    ∀ text, q.text = .ok text → parse text = .ok q := by
  have hread := isReadNode_of_parse h
  have hne : q ≠ .empty := by
    rintro rfl
    simp [everywhere, isReadNode] at hread
  rw [text_eq_print hne]
  constructor
  · rw [print_eq_ok_iff q []]
    exact everywhere_congr (fun _ => hasText_iff_isSpellable) q hread
  · intro text htext
    rw [parse_of_print htext, asRead_eq_self (isParserForm_of_isReadNode hread)]

theorem text_of_parse_pair :
    ∃ text, Query.text (.any [.check .is "a" (.integer 3), .not (.check .contains "b" (.string "x"))]) =
        .ok text ∧
      parse text = .ok (.any [.check .is "a" (.integer 3), .not (.check .contains "b" (.string "x"))]) := by
  have hprint : print [] (.any [.check .is "a" (.integer 3), .not (.check .contains "b" (.string "x"))]) =
      .ok "(a is 3 or not b contains \x22x\x22)" := by decide +kernel
  have hparse : parse "(a is 3 or not b contains \x22x\x22)" =
      .ok (.any [.check .is "a" (.integer 3), .not (.check .contains "b" (.string "x"))]) :=
    parse_of_print hprint
  obtain ⟨hiff, hback⟩ := text_of_parse hparse
  obtain ⟨text, htext⟩ := hiff.2 (by decide +kernel)
  exact ⟨text, htext, hback text htext⟩

/-- A field that begins with a digit of another script is read as one word, but has no text. -/
theorem text_of_parse_foreign_digit :
    parse "٣ is 1" = .ok (.check .is "٣" (.integer 1)) ∧
    Query.text (.check .is "٣" (.integer 1)) = .error ⟨.notIdentifier "٣", some []⟩ := by
  constructor
  · have hfield : Spells .ident ['٣'] ['٣'] :=
      .ident (by simp) (by decide +kernel) (by simp) (by decide)
    have hoperator : Spells .is ['i', 's'] ['i', 's'] := .keyword (by decide)
    have hoperand : Spells .number ['1'] ['1'] := spells_intText 1
    have hscan := scansTo_leaf hfield .is hoperator (.inr (.inl rfl)) hoperand (by simp)
    have hread : ScansTo .disjunction "٣ is 1".toList (.check .is "٣" (.integer 1)) :=
      hscan.mono fun _ hd => .oneConjunction (.oneUnary (.onePrimary hd))
    exact hread.parse
  · decide +kernel

end Query

end RecordSieve
