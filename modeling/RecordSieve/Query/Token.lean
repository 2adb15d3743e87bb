import RecordSieve.Failure
import RecordSieve.Text.Letter

namespace RecordSieve.Query

inductive TokenKind where
  | ident
  | string
  | number
  | and
  | or
  | not
  | is
  | isNot
  | contains
  | gt
  | gte
  | lt
  | lte
  | lparen
  | rparen
  | eof
  deriving DecidableEq, Repr

def TokenKind.name : TokenKind → String
  | .ident => "ident"
  | .string => "string"
  | .number => "number"
  | .and => "and"
  | .or => "or"
  | .not => "not"
  | .is => "is"
  | .isNot => "isNot"
  | .contains => "contains"
  | .gt => "gt"
  | .gte => "gte"
  | .lt => "lt"
  | .lte => "lte"
  | .lparen => "lparen"
  | .rparen => "rparen"
  | .eof => "eof"

structure Token where
  kind : TokenKind
  text : String
  position : Nat
  deriving DecidableEq, Repr

structure Lexeme where
  kind : TokenKind
  text : List Char
  source : List Char
  rest : List Char

def Lexeme.Heads (l : Lexeme) (cs : List Char) : Prop := l.source ++ l.rest = cs ∧ l.source ≠ []

theorem Lexeme.Heads.length_rest_lt {l : Lexeme} {cs : List Char} (h : l.Heads cs) :
    l.rest.length < cs.length := by
  have := List.length_pos_iff.2 h.2
  rw [← h.1, List.length_append]
  omega

def after? : List Char → List Char → Option (List Char)
  | [], cs => some cs
  | _ :: _, [] => none
  | w :: ws, c :: cs => if w = c then after? ws cs else none

theorem append_after? {ws cs rest : List Char} (h : after? ws cs = some rest) : ws ++ rest = cs := by
  fun_induction after? ws cs with
  | case1 => simpa using h.symm
  | case2 => simp at h
  | case3 ws c cs ih => simp [ih h]
  | case4 => simp at h

def endsWord (cs : List Char) : Bool := !cs.head?.any Text.isWordChar

def whole (kind : TokenKind) (source rest : List Char) : Lexeme := ⟨kind, source, source, rest⟩

def keyword? (kind : TokenKind) (word cs : List Char) : Option Lexeme :=
  ((after? word cs).filter endsWord).map (whole kind word)

def isNot? (cs : List Char) : Option Lexeme :=
  (after? ['i', 's'] cs).bind fun rest =>
    if (rest.takeWhile Text.isBlank).isEmpty then none
    else
      (keyword? .isNot ['n', 'o', 't'] (rest.dropWhile Text.isBlank)).map fun l =>
        whole .isNot (['i', 's'] ++ rest.takeWhile Text.isBlank ++ l.source) l.rest

def symbol? (kind : TokenKind) (word cs : List Char) : Option Lexeme :=
  (after? word cs).map (whole kind word)

def digitsAndPoints (cs : List Char) : List Char := cs.takeWhile fun c => c.isDigit || c == '.'

def beginsNumber : List Char → Bool
  | '.' :: c :: _ => c.isDigit
  | c :: _ => c.isDigit
  | [] => false

def number? (cs : List Char) : Option Lexeme :=
  let body := (after? ['-'] cs).getD cs
  if beginsNumber body then
    let source := cs.take (cs.length - body.length) ++ digitsAndPoints body
    some (whole .number source (body.dropWhile fun c => c.isDigit || c == '.'))
  else none

def ident? (cs : List Char) : Option Lexeme :=
  let word := cs.takeWhile Text.isWordChar
  if word.isEmpty then none else some (whole .ident word (cs.dropWhile Text.isWordChar))

def plainLexeme? (cs : List Char) : Option Lexeme :=
  keyword? .and ['a', 'n', 'd'] cs
    <|> keyword? .or ['o', 'r'] cs
    <|> keyword? .not ['n', 'o', 't'] cs
    <|> isNot? cs
    <|> keyword? .is ['i', 's'] cs
    <|> keyword? .contains ['c', 'o', 'n', 't', 'a', 'i', 'n', 's'] cs
    <|> symbol? .gte ['>', '='] cs
    <|> symbol? .lte ['<', '='] cs
    <|> symbol? .gt ['>'] cs
    <|> symbol? .lt ['<'] cs
    <|> symbol? .lparen ['('] cs
    <|> symbol? .rparen [')'] cs
    <|> number? cs
    <|> ident? cs

def stringLexeme? (body : List Char) : Option Lexeme :=
  let text := body.takeWhile (· ≠ '\x22')
  match body.dropWhile (· ≠ '\x22') with
  | [] => none
  | quote :: rest => some ⟨.string, text, '\x22' :: text ++ [quote], rest⟩

def lexeme (c : Char) (cs : List Char) : Except QueryFault Lexeme :=
  if c = '\x22' then (stringLexeme? cs).elim (.error .unterminatedString) .ok
  else (plainLexeme? (c :: cs)).elim (.error (.unexpectedCharacter c)) .ok

theorem heads_keyword? {kind : TokenKind} {word cs : List Char} {l : Lexeme} (hw : word ≠ [])
    (h : keyword? kind word cs = some l) : l.Heads cs := by
  obtain ⟨rest, hr, rfl⟩ := Option.map_eq_some_iff.1 h
  exact ⟨append_after? (Option.filter_eq_some_iff.1 hr).1, hw⟩

theorem heads_symbol? {kind : TokenKind} {word cs : List Char} {l : Lexeme} (hw : word ≠ [])
    (h : symbol? kind word cs = some l) : l.Heads cs := by
  obtain ⟨rest, hr, rfl⟩ := Option.map_eq_some_iff.1 h
  exact ⟨append_after? hr, hw⟩

theorem heads_isNot? {cs : List Char} {l : Lexeme} (h : isNot? cs = some l) : l.Heads cs := by
  obtain ⟨rest, hr, h⟩ := Option.bind_eq_some_iff.1 h
  split at h
  · simp at h
  · obtain ⟨l', hl, rfl⟩ := Option.map_eq_some_iff.1 h
    refine ⟨?_, by simp [whole]⟩
    have hl := (heads_keyword? (by simp) hl).1
    rw [← append_after? hr]
    simp only [whole, List.append_assoc, hl, List.takeWhile_append_dropWhile]

theorem heads_number? {cs : List Char} {l : Lexeme} (h : number? cs = some l) : l.Heads cs := by
  unfold number? at h
  simp only at h
  split at h
  · rename_i hb
    obtain ⟨front, hf⟩ : ∃ front, cs = front ++ (after? ['-'] cs).getD cs := by
      cases ha : after? ['-'] cs with
      | none => exact ⟨[], rfl⟩
      | some rest => exact ⟨['-'], (append_after? ha).symm⟩
    generalize (after? ['-'] cs).getD cs = body at *
    cases h
    subst hf
    have hd : digitsAndPoints body ≠ [] := by
      unfold beginsNumber at hb
      split at hb
      · simp [digitsAndPoints]
      · rename_i c rest _
        have hc : c.isDigit := hb
        simp [digitsAndPoints, hc]
      · simp at hb
    refine ⟨?_, by simp [whole, hd]⟩
    simp [whole, digitsAndPoints, List.takeWhile_append_dropWhile]
  · simp at h

theorem heads_ident? {cs : List Char} {l : Lexeme} (h : ident? cs = some l) : l.Heads cs := by
  unfold ident? at h
  simp only at h
  split at h
  · simp at h
  · rename_i hw
    cases h
    exact ⟨by simp [whole, List.takeWhile_append_dropWhile], by simpa [whole] using hw⟩

theorem heads_plainLexeme? {cs : List Char} {l : Lexeme} (h : plainLexeme? cs = some l) :
    l.Heads cs := by
  simp only [plainLexeme?, Option.orElse_eq_orElse, Option.orElse_eq_or, Option.or_eq_some_iff] at h
  rcases h with h | ⟨-, h | ⟨-, h | ⟨-, h | ⟨-, h | ⟨-, h | ⟨-, h | ⟨-, h | ⟨-, h | ⟨-, h | ⟨-, h | ⟨-,
    h | ⟨-, h | ⟨-, h⟩⟩⟩⟩⟩⟩⟩⟩⟩⟩⟩⟩⟩
  case inr.inr.inr.inl => exact heads_isNot? h
  all_goals first
    | exact heads_keyword? (by simp) h
    | exact heads_symbol? (by simp) h
    | exact heads_number? h
    | exact heads_ident? h

theorem heads_stringLexeme? {cs : List Char} {l : Lexeme} (h : stringLexeme? cs = some l) :
    l.Heads ('\x22' :: cs) := by
  unfold stringLexeme? at h
  simp only at h
  split at h
  · simp at h
  · rename_i quote rest hd
    cases h
    refine ⟨?_, by simp⟩
    have := List.takeWhile_append_dropWhile (p := (· ≠ '\x22')) (l := cs)
    rw [hd] at this
    simpa using this

theorem heads_lexeme {c : Char} {cs : List Char} {l : Lexeme} (h : lexeme c cs = .ok l) :
    l.Heads (c :: cs) := by
  unfold lexeme at h
  split at h
  · rename_i hc
    subst hc
    cases hs : stringLexeme? cs with
    | none => simp [hs] at h
    | some l' =>
        simp only [hs, Option.elim, Except.ok.injEq] at h
        exact h ▸ heads_stringLexeme? hs
  · cases hp : plainLexeme? (c :: cs) with
    | none => simp [hp] at h
    | some l' =>
        simp only [hp, Option.elim, Except.ok.injEq] at h
        exact h ▸ heads_plainLexeme? hp

def scan (position : Nat) : List Char → Except QueryError (List Token)
  | [] => .ok [⟨.eof, "", position⟩]
  | c :: cs =>
      if Text.isBlank c then scan (position + Text.width c) cs
      else
        match _h : lexeme c cs with
        | .error fault => .error ⟨fault, position⟩
        | .ok l =>
            (scan (position + Text.widths l.source) l.rest).map
              (⟨l.kind, String.ofList l.text, position⟩ :: ·)
  termination_by cs => cs.length
  decreasing_by
    · simp
    · exact (heads_lexeme _h).length_rest_lt

def tokenize (text : String) : Except QueryError (List Token) := scan 0 text.toList

end RecordSieve.Query
