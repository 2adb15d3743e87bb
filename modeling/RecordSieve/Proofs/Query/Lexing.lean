import RecordSieve.Proofs.Text.Char
import RecordSieve.Query.Printer
import RecordSieve.Query.Token
import Mathlib.Logic.Basic
import Mathlib.Tactic.ByContra

namespace RecordSieve

namespace Query

theorem after?_append (word rest : List Char) : after? word (word ++ rest) = some rest := by
  induction word with
  | nil => rfl
  | cons w ws ih => simp [after?, ih]

theorem after?_eq_some_iff {word cs rest : List Char} :
    after? word cs = some rest ↔ word ++ rest = cs :=
  ⟨append_after?, fun h => h ▸ after?_append word rest⟩

theorem after?_cons_ne {w c : Char} {ws cs : List Char} (h : w ≠ c) :
    after? (w :: ws) (c :: cs) = none := if_neg h

theorem endsWord_eq_true_iff {cs : List Char} :
    endsWord cs = true ↔ ∀ c ∈ cs.head?, Text.isWordChar c = false := by
  cases cs <;> simp [endsWord]

theorem takeWhile_isWordChar {word rest : List Char} (hw : word.all Text.isWordChar = true)
    (hr : endsWord rest = true) : (word ++ rest).takeWhile Text.isWordChar = word ∧
      (word ++ rest).dropWhile Text.isWordChar = rest := by
  have hall := List.all_eq_true.1 hw
  rw [List.takeWhile_append_of_pos hall, List.dropWhile_append_of_pos hall]
  cases rest with
  | nil => simp
  | cons c cs => simp [endsWord_eq_true_iff.1 hr c (by simp)]

theorem word_append_inj {word word' rest rest' : List Char} (hw : word.all Text.isWordChar = true)
    (hr : endsWord rest = true) (hw' : word'.all Text.isWordChar = true)
    (hr' : endsWord rest' = true) (h : word ++ rest = word' ++ rest') : word = word' ∧ rest = rest' := by
  obtain ⟨ht, hd⟩ := takeWhile_isWordChar hw hr
  obtain ⟨ht', hd'⟩ := takeWhile_isWordChar hw' hr'
  rw [h] at ht hd
  exact ⟨ht.symm.trans ht', hd.symm.trans hd'⟩

def keywordTokens : List (TokenKind × List Char) :=
  [(.and, ['a', 'n', 'd']), (.or, ['o', 'r']), (.not, ['n', 'o', 't']), (.is, ['i', 's']),
   (.contains, ['c', 'o', 'n', 't', 'a', 'i', 'n', 's'])]

def symbolTokens : List (TokenKind × List Char) :=
  [(.gte, ['>', '=']), (.lte, ['<', '=']), (.gt, ['>']), (.lt, ['<']), (.lparen, ['(']),
   (.rparen, [')'])]

def isNumeral (c : Char) : Bool := c.isDigit || c == '.'

inductive Spells : TokenKind → List Char → List Char → Prop
  | keyword {kind word} : (kind, word) ∈ keywordTokens → Spells kind word word
  | isNot {blanks} : blanks ≠ [] → blanks.all Text.isBlank = true →
      Spells .isNot (['i', 's'] ++ blanks ++ ['n', 'o', 't'])
        (['i', 's'] ++ blanks ++ ['n', 'o', 't'])
  | symbol {kind word} : (kind, word) ∈ symbolTokens → Spells kind word word
  | number {sign body} : sign = [] ∨ sign = ['-'] → beginsNumber body = true →
      body.all isNumeral = true → Spells .number (sign ++ body) (sign ++ body)
  | ident {word} : word ≠ [] → word.all Text.isWordChar = true →
      (∀ c ∈ word.head?, c.isDigit = false) → word ∉ keywordTokens.map Prod.snd →
      Spells .ident word word
  | string {text} : '\x22' ∉ text → Spells .string text ('\x22' :: text ++ ['\x22'])

def Closed : TokenKind → List Char → Prop
  | .is, rest => endsWord rest = true ∧ isNot? (['i', 's'] ++ rest) = none
  | .and, rest | .or, rest | .not, rest | .contains, rest | .isNot, rest | .ident, rest =>
      endsWord rest = true
  | .number, rest => ∀ c ∈ rest.head?, isNumeral c = false
  | .gt, rest | .lt, rest => ∀ c ∈ rest.head?, c ≠ '='
  | _, _ => True

theorem all_isWordChar_of_mem_keywordTokens {kind : TokenKind} {word : List Char}
    (h : (kind, word) ∈ keywordTokens) : word.all Text.isWordChar = true := by
  have hall : ∀ p ∈ keywordTokens, p.2.all Text.isWordChar = true := by decide +kernel
  exact hall _ h

theorem keyword?_eq_some_iff {kind : TokenKind} {word cs : List Char} {l : Lexeme} :
    keyword? kind word cs = some l ↔
      ∃ rest, cs = word ++ rest ∧ endsWord rest = true ∧ l = whole kind word rest := by
  simp only [keyword?, Option.map_eq_some_iff, Option.filter_eq_some_iff, after?_eq_some_iff]
  constructor
  · rintro ⟨rest, ⟨rfl, hr⟩, rfl⟩
    exact ⟨rest, rfl, hr, rfl⟩
  · rintro ⟨rest, rfl, hr, rfl⟩
    exact ⟨rest, ⟨rfl, hr⟩, rfl⟩

theorem keyword?_append {kind : TokenKind} {word rest : List Char} (hr : endsWord rest = true) :
    keyword? kind word (word ++ rest) = some (whole kind word rest) :=
  keyword?_eq_some_iff.2 ⟨rest, rfl, hr, rfl⟩

theorem keyword?_cons_ne {kind : TokenKind} {w c : Char} {ws cs : List Char} (h : w ≠ c) :
    keyword? kind (w :: ws) (c :: cs) = none := by
  rw [keyword?, after?_cons_ne h]
  rfl

theorem keyword?_of_ne {kind : TokenKind} {keyword word rest : List Char}
    (hk : keyword.all Text.isWordChar = true) (hw : word.all Text.isWordChar = true)
    (hr : endsWord rest = true) (hne : keyword ≠ word) : keyword? kind keyword (word ++ rest) = none := by
  refine Option.eq_none_iff_forall_ne_some.2 fun l hl => ?_
  obtain ⟨rest', h, hr', -⟩ := keyword?_eq_some_iff.1 hl
  exact hne (word_append_inj hw hr hk hr' h).1.symm

theorem symbol?_eq_some_iff {kind : TokenKind} {word cs : List Char} {l : Lexeme} :
    symbol? kind word cs = some l ↔ ∃ rest, cs = word ++ rest ∧ l = whole kind word rest := by
  simp only [symbol?, Option.map_eq_some_iff, after?_eq_some_iff]
  constructor
  · rintro ⟨rest, rfl, rfl⟩
    exact ⟨rest, rfl, rfl⟩
  · rintro ⟨rest, rfl, rfl⟩
    exact ⟨rest, rfl, rfl⟩

theorem symbol?_cons_ne {kind : TokenKind} {w c : Char} {ws cs : List Char} (h : w ≠ c) :
    symbol? kind (w :: ws) (c :: cs) = none := by
  rw [symbol?, after?_cons_ne h]
  rfl

theorem isNot?_eq_some_iff {cs : List Char} {l : Lexeme} :
    isNot? cs = some l ↔ ∃ blanks rest, cs = ['i', 's'] ++ blanks ++ ['n', 'o', 't'] ++ rest ∧
      blanks ≠ [] ∧ blanks.all Text.isBlank = true ∧ endsWord rest = true ∧
      l = whole .isNot (['i', 's'] ++ blanks ++ ['n', 'o', 't']) rest := by
  constructor
  · intro h
    obtain ⟨rest, hr, h⟩ := Option.bind_eq_some_iff.1 h
    split at h
    · simp at h
    · rename_i hb
      obtain ⟨l', hl, rfl⟩ := Option.map_eq_some_iff.1 h
      obtain ⟨rest', hd, hr', rfl⟩ := keyword?_eq_some_iff.1 hl
      refine ⟨rest.takeWhile Text.isBlank, rest', ?_, by simpa using hb, List.all_takeWhile, hr', rfl⟩
      rw [List.append_assoc _ _ rest', ← hd, List.append_assoc, List.takeWhile_append_dropWhile]
      exact (append_after? hr).symm
  · rintro ⟨blanks, rest, rfl, hne, hb, hr, rfl⟩
    have hall := List.all_eq_true.1 hb
    have hn : Text.isBlank 'n' = false := by decide
    have ht : (blanks ++ ['n', 'o', 't'] ++ rest).takeWhile Text.isBlank = blanks := by
      rw [List.append_assoc, List.takeWhile_append_of_pos hall]
      simp [hn]
    have hd : (blanks ++ ['n', 'o', 't'] ++ rest).dropWhile Text.isBlank = ['n', 'o', 't'] ++ rest := by
      rw [List.append_assoc, List.dropWhile_append_of_pos hall]
      simp [hn]
    rw [isNot?, List.append_assoc, List.append_assoc, after?_append, Option.bind_some,
      ← List.append_assoc, ht, hd, keyword?_append hr, if_neg (by simpa using hne)]
    rfl

theorem isNot?_cons_ne {c : Char} {cs : List Char} (h : 'i' ≠ c) : isNot? (c :: cs) = none := by
  rw [isNot?, after?_cons_ne h]
  rfl

theorem isNot?_of_ne {word rest : List Char} (hw : word.all Text.isWordChar = true)
    (hr : endsWord rest = true) (hne : word ≠ ['i', 's']) : isNot? (word ++ rest) = none := by
  refine Option.eq_none_iff_forall_ne_some.2 fun l hl => ?_
  obtain ⟨blanks, rest', h, hb, hall, -, -⟩ := isNot?_eq_some_iff.1 hl
  rw [List.append_assoc, List.append_assoc] at h
  have hends : endsWord (blanks ++ (['n', 'o', 't'] ++ rest')) = true := by
    obtain ⟨b, bs, rfl⟩ := List.exists_cons_of_ne_nil hb
    rw [endsWord_eq_true_iff]
    simpa using Text.isWordChar_of_isBlank (List.all_eq_true.1 hall b (by simp))
  exact hne (word_append_inj hw hr (by decide) hends h).1

theorem beginsNumber_append {body rest : List Char} (hr : ∀ c ∈ rest.head?, isNumeral c = false) :
    beginsNumber (body ++ rest) = beginsNumber body := by
  have hdigit : ∀ c ∈ rest.head?, c.isDigit = false := fun c hc => (Bool.or_eq_false_iff.1 (hr c hc)).1
  match body, rest with
  | [], [] => rfl
  | [], c :: cs =>
      have hc := hr c (by simp)
      simp only [isNumeral, Bool.or_eq_false_iff, beq_eq_false_iff_ne] at hc
      rw [List.nil_append, beginsNumber.eq_2 _ _ fun _ _ h _ => hc.2 h]
      exact hc.1
  | [b], [] => simp
  | [b], c :: cs =>
      rcases eq_or_ne b '.' with rfl | hb
      · exact hdigit c (by simp)
      · rw [List.singleton_append, beginsNumber.eq_2 _ _ fun _ _ h _ => hb h,
          beginsNumber.eq_2 _ _ fun _ _ h _ => hb h]
  | b :: b' :: bs, rest =>
      rcases eq_or_ne b '.' with rfl | hb
      · rfl
      · rw [List.cons_append, beginsNumber.eq_2 _ _ fun _ _ h _ => hb h,
          beginsNumber.eq_2 _ _ fun _ _ h _ => hb h]

theorem takeWhile_isNumeral {body rest : List Char} (hb : body.all isNumeral = true)
    (hr : ∀ c ∈ rest.head?, isNumeral c = false) :
    digitsAndPoints (body ++ rest) = body ∧ (body ++ rest).dropWhile isNumeral = rest := by
  have hall := List.all_eq_true.1 hb
  rw [digitsAndPoints, show (fun c : Char => c.isDigit || c == '.') = isNumeral from rfl,
    List.takeWhile_append_of_pos hall, List.dropWhile_append_of_pos hall]
  cases rest with
  | nil => simp
  | cons c cs => simp [hr c (by simp)]

theorem after?_minus_of_beginsNumber {cs : List Char} (h : beginsNumber cs = true) :
    after? ['-'] cs = none := by
  cases cs with
  | nil => rfl
  | cons c cs =>
      refine after?_cons_ne fun hc => ?_
      subst hc
      simp [beginsNumber] at h

theorem number?_eq_some_iff {cs : List Char} {l : Lexeme} :
    number? cs = some l ↔ ∃ sign body rest, cs = sign ++ body ++ rest ∧ (sign = [] ∨ sign = ['-']) ∧
      beginsNumber body = true ∧ body.all isNumeral = true ∧
      (∀ c ∈ rest.head?, isNumeral c = false) ∧ l = whole .number (sign ++ body) rest := by
  constructor
  · intro h
    obtain ⟨sign, hs, hcs⟩ : ∃ sign, (sign = [] ∨ sign = ['-']) ∧
        cs = sign ++ (after? ['-'] cs).getD cs := by
      cases ha : after? ['-'] cs with
      | none => exact ⟨[], .inl rfl, rfl⟩
      | some rest => exact ⟨['-'], .inr rfl, (append_after? ha).symm⟩
    simp only [number?] at h
    generalize (after? ['-'] cs).getD cs = rest at *
    split at h
    · rename_i hb
      have hlen : cs.length - rest.length = sign.length := by
        rw [hcs, List.length_append, Nat.add_sub_cancel]
      rw [hlen, hcs, List.take_left] at h
      have hsplit : digitsAndPoints rest ++ rest.dropWhile isNumeral = rest :=
        List.takeWhile_append_dropWhile
      have hstop : ∀ c ∈ (rest.dropWhile isNumeral).head?, isNumeral c = false := by
        intro c hc
        have := List.head?_dropWhile_not isNumeral rest
        rw [Option.mem_def] at hc
        simpa [hc] using this
      refine ⟨sign, digitsAndPoints rest, rest.dropWhile isNumeral, ?_, hs, ?_, List.all_takeWhile,
        hstop, (Option.some.inj h).symm⟩
      · rw [List.append_assoc, hsplit]
        exact hcs
      · rwa [← beginsNumber_append hstop, hsplit]
    · simp at h
  · rintro ⟨sign, body, rest, rfl, hs, hb, hall, hr, rfl⟩
    obtain ⟨ht, hd⟩ := takeWhile_isNumeral hall hr
    have hbegins : beginsNumber (body ++ rest) = true := (beginsNumber_append hr).trans hb
    have hbody : (after? ['-'] (sign ++ body ++ rest)).getD (sign ++ body ++ rest) = body ++ rest := by
      rcases hs with rfl | rfl
      · rw [List.nil_append, after?_minus_of_beginsNumber hbegins]
        rfl
      · rw [List.append_assoc, after?_append]
        rfl
    have hlen : (sign ++ body ++ rest).length - (body ++ rest).length = sign.length := by
      rw [List.append_assoc, List.length_append, Nat.add_sub_cancel]
    simp only [number?, hbody, hlen, hbegins, if_true, ht]
    rw [show (fun c : Char => c.isDigit || c == '.') = isNumeral from rfl, hd, List.append_assoc,
      List.take_left]

theorem number?_eq_none {c : Char} {cs : List Char} (hd : c.isDigit = false) (hm : c ≠ '-')
    (hp : c ≠ '.') : number? (c :: cs) = none := by
  have hb : beginsNumber (c :: cs) = false := by
    rw [beginsNumber.eq_2 _ _ fun _ _ h _ => hp h]
    exact hd
  simp [number?, after?_cons_ne (Ne.symm hm), hb]

theorem ident?_eq_some_iff {cs : List Char} {l : Lexeme} :
    ident? cs = some l ↔ ∃ word rest, cs = word ++ rest ∧ word ≠ [] ∧
      word.all Text.isWordChar = true ∧ endsWord rest = true ∧ l = whole .ident word rest := by
  constructor
  · intro h
    simp only [ident?] at h
    split at h
    · simp at h
    · rename_i hw
      have hends : endsWord (cs.dropWhile Text.isWordChar) = true := by
        refine endsWord_eq_true_iff.2 fun c hc => ?_
        have := List.head?_dropWhile_not Text.isWordChar cs
        rw [Option.mem_def] at hc
        simpa [hc] using this
      exact ⟨_, _, List.takeWhile_append_dropWhile.symm, by simpa using hw, List.all_takeWhile, hends,
        (Option.some.inj h).symm⟩
  · rintro ⟨word, rest, rfl, hne, hall, hr, rfl⟩
    obtain ⟨ht, hd⟩ := takeWhile_isWordChar hall hr
    simp [ident?, ht, hd, hne]

theorem plainLexeme?_of_head {c : Char} {cs : List Char}
    (h : c ∉ ['a', 'o', 'n', 'i', 'c', '>', '<', '(', ')']) :
    plainLexeme? (c :: cs) = (number? (c :: cs)).or (ident? (c :: cs)) := by
  simp only [List.mem_cons, List.not_mem_nil, or_false, not_or] at h
  obtain ⟨ha, ho, hn, hi, hc, hgt, hlt, hl, hr⟩ := h
  simp only [plainLexeme?, keyword?_cons_ne (Ne.symm ha), keyword?_cons_ne (Ne.symm ho),
    keyword?_cons_ne (Ne.symm hn), isNot?_cons_ne (Ne.symm hi), keyword?_cons_ne (Ne.symm hi),
    keyword?_cons_ne (Ne.symm hc), symbol?_cons_ne (Ne.symm hgt), symbol?_cons_ne (Ne.symm hlt),
    symbol?_cons_ne (Ne.symm hl), symbol?_cons_ne (Ne.symm hr), Option.orElse_eq_orElse,
    Option.orElse_eq_or, Option.none_or]

theorem mem_keywordTokens {kind : TokenKind} {word : List Char} (h : (kind, word) ∈ keywordTokens) :
    (kind = .and ∧ word = ['a', 'n', 'd']) ∨ (kind = .or ∧ word = ['o', 'r']) ∨
    (kind = .not ∧ word = ['n', 'o', 't']) ∨ (kind = .is ∧ word = ['i', 's']) ∨
    (kind = .contains ∧ word = ['c', 'o', 'n', 't', 'a', 'i', 'n', 's']) := by
  simpa [keywordTokens] using h

theorem mem_symbolTokens {kind : TokenKind} {word : List Char} (h : (kind, word) ∈ symbolTokens) :
    (kind = .gte ∧ word = ['>', '=']) ∨ (kind = .lte ∧ word = ['<', '=']) ∨
    (kind = .gt ∧ word = ['>']) ∨ (kind = .lt ∧ word = ['<']) ∨ (kind = .lparen ∧ word = ['(']) ∨
    (kind = .rparen ∧ word = [')']) := by
  simpa [symbolTokens] using h

theorem fixed_of_mem {kind : TokenKind} {word : List Char}
    (h : (kind, word) ∈ keywordTokens ++ symbolTokens) :
    kind ∉ [.eof, .string, .number, .ident] ∧ word ≠ [] ∧ '\x22' ∉ word := by
  have hall : (keywordTokens ++ symbolTokens).all (fun p =>
      decide (p.1 ∉ [.eof, .string, .number, .ident] ∧ p.2 ≠ [] ∧ '\x22' ∉ p.2)) = true := by decide
  exact of_decide_eq_true (List.all_eq_true.1 hall _ h)

theorem closed_of_endsWord {kind : TokenKind} {word rest : List Char}
    (h : (kind, word) ∈ keywordTokens) (his : kind ≠ .is) (hr : endsWord rest = true) :
    Closed kind rest := by
  rcases mem_keywordTokens h with ⟨rfl, -⟩ | ⟨rfl, -⟩ | ⟨rfl, -⟩ | ⟨rfl, -⟩ | ⟨rfl, -⟩
  case inr.inr.inr.inl => exact absurd rfl his
  all_goals exact hr

theorem plainLexeme?_keyword {kind : TokenKind} {word rest : List Char}
    (h : (kind, word) ∈ keywordTokens) (hc : Closed kind rest) :
    plainLexeme? (word ++ rest) = some ⟨kind, word, word, rest⟩ := by
  have hall := all_isWordChar_of_mem_keywordTokens h
  have hr : endsWord rest = true := by
    rcases mem_keywordTokens h with ⟨rfl, -⟩ | ⟨rfl, -⟩ | ⟨rfl, -⟩ | ⟨rfl, -⟩ | ⟨rfl, -⟩
    case inr.inr.inr.inl => exact hc.1
    all_goals exact hc
  have hself : keyword? kind word (word ++ rest) = some (whole kind word rest) := keyword?_append hr
  have hother : ∀ {k w}, (k, w) ∈ keywordTokens → w ≠ word → keyword? k w (word ++ rest) = none :=
    fun hk hne => keyword?_of_ne (all_isWordChar_of_mem_keywordTokens hk) hall hr hne
  simp only [plainLexeme?, Option.orElse_eq_orElse, Option.orElse_eq_or]
  rcases mem_keywordTokens h with ⟨rfl, rfl⟩ | ⟨rfl, rfl⟩ | ⟨rfl, rfl⟩ | ⟨rfl, rfl⟩ | ⟨rfl, rfl⟩
  · rw [hself]
    rfl
  · rw [hself, hother (k := .and) (by simp [keywordTokens]) (by simp)]
    rfl
  · rw [hself, hother (k := .and) (by simp [keywordTokens]) (by simp),
      hother (k := .or) (by simp [keywordTokens]) (by simp)]
    rfl
  · rw [hself, hother (k := .and) (by simp [keywordTokens]) (by simp),
      hother (k := .or) (by simp [keywordTokens]) (by simp),
      hother (k := .not) (by simp [keywordTokens]) (by simp), hc.2]
    rfl
  · rw [hself, hother (k := .and) (by simp [keywordTokens]) (by simp),
      hother (k := .or) (by simp [keywordTokens]) (by simp),
      hother (k := .not) (by simp [keywordTokens]) (by simp), isNot?_of_ne hall hr (by simp),
      hother (k := .is) (by simp [keywordTokens]) (by simp)]
    rfl

theorem plainLexeme?_isNot {blanks rest : List Char} (hne : blanks ≠ [])
    (hb : blanks.all Text.isBlank = true) (hr : endsWord rest = true) :
    plainLexeme? (['i', 's'] ++ blanks ++ ['n', 'o', 't'] ++ rest) =
      some (whole .isNot (['i', 's'] ++ blanks ++ ['n', 'o', 't']) rest) := by
  have hself := isNot?_eq_some_iff.2 ⟨blanks, rest, rfl, hne, hb, hr, rfl⟩
  simp only [plainLexeme?, Option.orElse_eq_orElse, Option.orElse_eq_or, hself]
  simp only [List.cons_append, keyword?_cons_ne (show 'a' ≠ 'i' by decide),
    keyword?_cons_ne (show 'o' ≠ 'i' by decide), keyword?_cons_ne (show 'n' ≠ 'i' by decide),
    Option.none_or, Option.some_or]

theorem plainLexeme?_symbol {kind : TokenKind} {word rest : List Char}
    (h : (kind, word) ∈ symbolTokens) (hc : Closed kind rest) :
    plainLexeme? (word ++ rest) = some ⟨kind, word, word, rest⟩ := by
  have hequal : (∀ c ∈ rest.head?, c ≠ '=') → after? ['='] rest = none := by
    intro hne
    cases rest with
    | nil => rfl
    | cons d ds => exact after?_cons_ne (Ne.symm (hne d (by simp)))
  rcases mem_symbolTokens h with ⟨rfl, rfl⟩ | ⟨rfl, rfl⟩ | ⟨rfl, rfl⟩ | ⟨rfl, rfl⟩ | ⟨rfl, rfl⟩ |
    ⟨rfl, rfl⟩ <;>
    simp [plainLexeme?, keyword?, isNot?, symbol?, after?, whole]
  · simp [hequal hc]
  · simp [hequal hc]

theorem plainLexeme?_number {sign body rest : List Char} (hs : sign = [] ∨ sign = ['-'])
    (hb : beginsNumber body = true) (hall : body.all isNumeral = true)
    (hr : ∀ c ∈ rest.head?, isNumeral c = false) :
    plainLexeme? (sign ++ body ++ rest) = some (whole .number (sign ++ body) rest) := by
  have hself := number?_eq_some_iff.2 ⟨sign, body, rest, rfl, hs, hb, hall, hr, rfl⟩
  obtain ⟨b, bs, rfl⟩ : ∃ b bs, body = b :: bs := by
    cases body with
    | nil => simp [beginsNumber] at hb
    | cons b bs => exact ⟨b, bs, rfl⟩
  have hhead : ∃ c cs, sign ++ b :: bs ++ rest = c :: cs ∧ (c = '-' ∨ isNumeral c = true) := by
    rcases hs with rfl | rfl
    · exact ⟨b, bs ++ rest, rfl, .inr (List.all_eq_true.1 hall b (by simp))⟩
    · exact ⟨'-', b :: bs ++ rest, rfl, .inl rfl⟩
  obtain ⟨c, cs, heq, hc⟩ := hhead
  have hletters : ∀ d ∈ ['a', 'o', 'n', 'i', 'c', '>', '<', '(', ')'], d ≠ '-' ∧ isNumeral d = false := by
    have hall : ['a', 'o', 'n', 'i', 'c', '>', '<', '(', ')'].all
        (fun d => decide (d ≠ '-' ∧ isNumeral d = false)) = true := by decide +kernel
    simpa only [decide_eq_true_eq] using List.all_eq_true.1 hall
  have hmem : c ∉ ['a', 'o', 'n', 'i', 'c', '>', '<', '(', ')'] := by
    intro hin
    obtain ⟨hminus, hnumeral⟩ := hletters c hin
    rcases hc with hc | hc
    · exact hminus hc
    · simp [hnumeral] at hc
  rw [heq] at hself ⊢
  rw [plainLexeme?_of_head hmem, hself, Option.some_or]

theorem plainLexeme?_ident {word rest : List Char} (hne : word ≠ [])
    (hall : word.all Text.isWordChar = true) (hd : ∀ c ∈ word.head?, c.isDigit = false)
    (hk : word ∉ keywordTokens.map Prod.snd) (hr : endsWord rest = true) :
    plainLexeme? (word ++ rest) = some (whole .ident word rest) := by
  have hself := ident?_eq_some_iff.2 ⟨word, rest, rfl, hne, hall, hr, rfl⟩
  have hkeyword : ∀ {k w}, (k, w) ∈ keywordTokens → keyword? k w (word ++ rest) = none := by
    intro k w h
    refine keyword?_of_ne (all_isWordChar_of_mem_keywordTokens h) hall hr fun heq => hk ?_
    exact heq ▸ List.mem_map_of_mem h
  have hisNot : isNot? (word ++ rest) = none :=
    isNot?_of_ne hall hr fun h => hk (h ▸ by simp [keywordTokens])
  obtain ⟨c, cs, rfl⟩ := List.exists_cons_of_ne_nil hne
  have hc := List.all_eq_true.1 hall c (by simp)
  have hpunct : ∀ d ∈ ['\x22', '>', '<', '=', '(', ')', '-', '.'], d ≠ c := by
    rintro d hin rfl
    simp [(Text.punctuation_isWordChar d hin).1] at hc
  have hnumber : number? (c :: (cs ++ rest)) = none :=
    number?_eq_none (hd c (by simp)) (hpunct '-' (by simp)).symm (hpunct '.' (by simp)).symm
  simp only [plainLexeme?, Option.orElse_eq_orElse, Option.orElse_eq_or]
  rw [hkeyword (k := .and) (by simp [keywordTokens]), hkeyword (k := .or) (by simp [keywordTokens]),
    hkeyword (k := .not) (by simp [keywordTokens]), hisNot,
    hkeyword (k := .is) (by simp [keywordTokens]), hkeyword (k := .contains) (by simp [keywordTokens]),
    hself]
  simp only [List.cons_append, symbol?_cons_ne (hpunct '>' (by simp)),
    symbol?_cons_ne (hpunct '<' (by simp)), symbol?_cons_ne (hpunct '(' (by simp)),
    symbol?_cons_ne (hpunct ')' (by simp)), hnumber, Option.none_or]

theorem isDigit_of_number?_eq_none {word rest : List Char} (hne : word ≠ [])
    (h : number? (word ++ rest) = none) : ∀ c ∈ word.head?, c.isDigit = false := by
  obtain ⟨d, ds, rfl⟩ := List.exists_cons_of_ne_nil hne
  intro c hc
  obtain rfl : d = c := by simpa using hc
  by_contra hd
  rw [Bool.not_eq_false] at hd
  have hp : d ≠ '.' := by
    rintro rfl
    simp at hd
  have hb : beginsNumber (d :: (ds ++ rest)) = true := by
    rw [beginsNumber.eq_2 _ _ fun _ _ h _ => hp h]
    exact hd
  simp [number?, after?_minus_of_beginsNumber hb, hb] at h

theorem spells_of_plainLexeme? {cs : List Char} {l : Lexeme} (h : plainLexeme? cs = some l) :
    Spells l.kind l.text l.source ∧ Closed l.kind l.rest := by
  have hkeyword : ∀ {kind word}, (kind, word) ∈ keywordTokens → kind ≠ .is →
      keyword? kind word cs = some l → Spells l.kind l.text l.source ∧ Closed l.kind l.rest := by
    intro kind word hmem his h
    obtain ⟨rest, -, hr, rfl⟩ := keyword?_eq_some_iff.1 h
    exact ⟨.keyword hmem, closed_of_endsWord hmem his hr⟩
  have hsymbol : ∀ {kind word}, (kind, word) ∈ symbolTokens →
      (∀ rest, cs = word ++ rest → Closed kind rest) →
      symbol? kind word cs = some l → Spells l.kind l.text l.source ∧ Closed l.kind l.rest := by
    intro kind word hmem hclosed h
    obtain ⟨rest, hcs, rfl⟩ := symbol?_eq_some_iff.1 h
    exact ⟨.symbol hmem, hclosed rest hcs⟩
  have hequal : ∀ {kind c}, symbol? kind [c, '='] cs = none →
      ∀ rest, cs = [c] ++ rest → ∀ d ∈ rest.head?, d ≠ '=' := by
    rintro kind c h rest rfl d hd rfl
    obtain ⟨ds, rfl⟩ : ∃ ds, rest = '=' :: ds := by
      cases rest with
      | nil => simp at hd
      | cons e es => exact ⟨es, by simpa using hd⟩
    have hself : symbol? kind [c, '='] ([c, '='] ++ ds) = some _ :=
      symbol?_eq_some_iff.2 ⟨ds, rfl, rfl⟩
    simp only [List.singleton_append] at h
    simp [h] at hself
  simp only [plainLexeme?, Option.orElse_eq_orElse, Option.orElse_eq_or, Option.or_eq_some_iff] at h
  rcases h with h | ⟨hand, h | ⟨hor, h | ⟨hnot, h | ⟨hisNot, h | ⟨his, h | ⟨hcontains, h | ⟨hgte, h | ⟨hlte,
    h | ⟨-, h | ⟨-, h | ⟨-, h | ⟨-, h | ⟨hnumber, h⟩⟩⟩⟩⟩⟩⟩⟩⟩⟩⟩⟩⟩
  · exact hkeyword (by simp [keywordTokens]) (by simp) h
  · exact hkeyword (by simp [keywordTokens]) (by simp) h
  · exact hkeyword (by simp [keywordTokens]) (by simp) h
  · obtain ⟨blanks, rest, -, hne, hb, hr, rfl⟩ := isNot?_eq_some_iff.1 h
    exact ⟨.isNot hne hb, hr⟩
  · obtain ⟨rest, rfl, hr, rfl⟩ := keyword?_eq_some_iff.1 h
    exact ⟨.keyword (by simp [keywordTokens, whole]), hr, hisNot⟩
  · exact hkeyword (by simp [keywordTokens]) (by simp) h
  · exact hsymbol (by simp [symbolTokens]) (by simp [Closed]) h
  · exact hsymbol (by simp [symbolTokens]) (by simp [Closed]) h
  · exact hsymbol (by simp [symbolTokens]) (hequal hgte) h
  · exact hsymbol (by simp [symbolTokens]) (hequal hlte) h
  · exact hsymbol (by simp [symbolTokens]) (by simp [Closed]) h
  · exact hsymbol (by simp [symbolTokens]) (by simp [Closed]) h
  · obtain ⟨sign, body, rest, -, hs, hb, hall, hr, rfl⟩ := number?_eq_some_iff.1 h
    exact ⟨.number hs hb hall, hr⟩
  · obtain ⟨word, rest, rfl, hne, hall, hr, rfl⟩ := ident?_eq_some_iff.1 h
    have hself : ∀ kind word, keyword? kind word (word ++ rest) ≠ none := fun kind word => by
      simp [show keyword? kind word (word ++ rest) = _ from keyword?_append hr]
    refine ⟨.ident hne hall (isDigit_of_number?_eq_none hne hnumber) ?_, hr⟩
    simp only [keywordTokens, List.map_cons, List.map_nil, List.mem_cons, List.not_mem_nil, or_false]
    rintro (rfl | rfl | rfl | rfl | rfl)
    · exact hself _ _ hand
    · exact hself _ _ hor
    · exact hself _ _ hnot
    · exact hself _ _ his
    · exact hself _ _ hcontains

theorem stringLexeme?_eq_some_iff {cs : List Char} {l : Lexeme} :
    stringLexeme? cs = some l ↔ ∃ text rest, cs = text ++ '\x22' :: rest ∧ '\x22' ∉ text ∧
      l = ⟨.string, text, '\x22' :: text ++ ['\x22'], rest⟩ := by
  constructor
  · intro h
    have hsplit := List.takeWhile_append_dropWhile (p := (· ≠ '\x22')) (l := cs)
    have hhead := List.head?_dropWhile_not (· ≠ '\x22') cs
    have hall : '\x22' ∉ cs.takeWhile (· ≠ '\x22') := by
      intro hin
      simpa using List.all_eq_true.1 List.all_takeWhile _ hin
    simp only [stringLexeme?] at h
    split at h
    · simp at h
    · rename_i quote rest hd
      rw [hd] at hsplit hhead
      obtain rfl : quote = '\x22' := by simpa using hhead
      exact ⟨_, rest, hsplit.symm, hall, (Option.some.inj h).symm⟩
  · rintro ⟨text, rest, rfl, hq, rfl⟩
    have hall : ∀ c ∈ text, (decide (c ≠ '\x22')) = true := by
      intro c hc
      exact decide_eq_true fun h => hq (h ▸ hc)
    simp only [stringLexeme?, List.takeWhile_append_of_pos hall, List.dropWhile_append_of_pos hall]
    simp

theorem Spells.source_ne_nil {kind : TokenKind} {text source : List Char}
    (h : Spells kind text source) : source ≠ [] := by
  cases h with
  | keyword h => exact (fixed_of_mem (List.mem_append_left _ h)).2.1
  | isNot => simp
  | symbol h => exact (fixed_of_mem (List.mem_append_right _ h)).2.1
  | number _ hb => 
      rintro h
      obtain ⟨-, rfl⟩ := List.append_eq_nil_iff.1 h
      simp [beginsNumber] at hb
  | ident h => exact h
  | string => simp

theorem lexeme_eq_ok_iff {c : Char} {cs : List Char} {l : Lexeme} :
    lexeme c cs = .ok l ↔
      l.source ++ l.rest = c :: cs ∧ Spells l.kind l.text l.source ∧ Closed l.kind l.rest := by
  constructor
  · intro h
    refine ⟨(heads_lexeme h).1, ?_⟩
    simp only [lexeme] at h
    split at h
    · obtain ⟨l', hl, h⟩ : ∃ l', stringLexeme? cs = some l' ∧ l' = l := by
        cases hs : stringLexeme? cs <;> simp_all
      subst h
      obtain ⟨text, rest, -, hq, rfl⟩ := stringLexeme?_eq_some_iff.1 hl
      exact ⟨.string hq, trivial⟩
    · obtain ⟨l', hl, h⟩ : ∃ l', plainLexeme? (c :: cs) = some l' ∧ l' = l := by
        cases hs : plainLexeme? (c :: cs) <;> simp_all
      subst h
      exact spells_of_plainLexeme? hl
  · obtain ⟨kind, text, source, rest⟩ := l
    rintro ⟨hsource, (hspells : Spells kind text source), hclosed⟩
    simp only at hsource hclosed
    have hplain : plainLexeme? (source ++ rest) = some ⟨kind, text, source, rest⟩ →
        (∀ d ∈ source.head?, d ≠ '\x22') → lexeme c cs = .ok ⟨kind, text, source, rest⟩ := by
      intro hl hne
      have hc : c ≠ '\x22' := by
        obtain ⟨d, ds, rfl⟩ := List.exists_cons_of_ne_nil hspells.source_ne_nil
        exact (List.cons_eq_cons.1 hsource).1 ▸ hne d (by simp)
      rw [lexeme, if_neg hc, ← hsource, hl]
      rfl
    have hfixed : ∀ {word : List Char}, (kind, word) ∈ keywordTokens ++ symbolTokens →
        ∀ d ∈ word.head?, d ≠ '\x22' := fun h d hd hquote =>
      (fixed_of_mem h).2.2 (hquote ▸ List.mem_of_mem_head? hd)
    cases hspells with
    | keyword h => exact hplain (plainLexeme?_keyword h hclosed) (hfixed (List.mem_append_left _ h))
    | isNot hne hb => exact hplain (plainLexeme?_isNot hne hb hclosed) (by simp)
    | symbol h => exact hplain (plainLexeme?_symbol h hclosed) (hfixed (List.mem_append_right _ h))
    | @number sign body hs hb hall =>
        refine hplain (plainLexeme?_number hs hb hall hclosed) ?_
        rcases hs with rfl | rfl
        · rintro d hd rfl
          have := List.all_eq_true.1 hall '\x22' (List.mem_of_mem_head? hd)
          simp [isNumeral] at this
        · simp
    | ident hne hall hd hk =>
        refine hplain (plainLexeme?_ident hne hall hd hk hclosed) ?_
        rintro d hd rfl
        have := List.all_eq_true.1 hall '\x22' (List.mem_of_mem_head? hd)
        simp [(Text.punctuation_isWordChar '\x22' (by simp)).1] at this
    | string hq =>
        simp only [List.cons_append, List.append_assoc, List.nil_append, List.cons.injEq] at hsource
        obtain ⟨rfl, rfl⟩ := hsource
        rw [lexeme, if_pos rfl, stringLexeme?_eq_some_iff.2 ⟨text, rest, rfl, hq, rfl⟩]
        rfl

theorem Spells.head_not_blank {kind : TokenKind} {text source : List Char}
    (h : Spells kind text source) : ∀ c ∈ source.head?, Text.isBlank c = false := by
  have hword : ∀ {word : List Char}, word.all Text.isWordChar = true →
      ∀ c ∈ word.head?, Text.isBlank c = false := fun hall c hc =>
    Text.isBlank_of_isWordChar (List.all_eq_true.1 hall c (List.mem_of_mem_head? hc))
  cases h with
  | keyword h => exact hword (all_isWordChar_of_mem_keywordTokens h)
  | isNot => simp; decide
  | symbol h =>
      have hall : symbolTokens.all (fun p => p.2.all (!Text.isBlank ·)) = true := by decide +kernel
      intro c hc
      have hword := List.all_eq_true.1 hall _ h
      simpa using List.all_eq_true.1 hword c (List.mem_of_mem_head? hc)
  | number hs _ hall =>
      rcases hs with rfl | rfl
      · intro c hc
        have := List.all_eq_true.1 hall c (List.mem_of_mem_head? hc)
        simp only [isNumeral, Bool.or_eq_true, beq_iff_eq] at this
        rcases this with hd | rfl
        · exact Text.isBlank_of_isDigit hd
        · decide
      · simp; decide
  | ident _ hall => exact hword hall
  | string => simp; decide

end Query

end RecordSieve
