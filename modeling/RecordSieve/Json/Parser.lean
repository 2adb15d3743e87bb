import RecordSieve.Json
import RecordSieve.Json.SyntaxError

namespace RecordSieve.Json

abbrev Stop := Fault × List Char

def isSpace (c : Char) : Bool := c = ' ' || c = '\t' || c = '\n' || c = '\r'

def skipSpace (cs : List Char) : List Char := cs.dropWhile isSpace

theorem length_skipSpace_le (cs : List Char) : (skipSpace cs).length ≤ cs.length :=
  (List.dropWhile_suffix isSpace).length_le

theorem length_of_skipSpace {c : Char} {cs rest : List Char} (h : skipSpace cs = c :: rest) :
    rest.length < cs.length := by
  have := length_skipSpace_le cs
  rw [h] at this
  exact this

def missing (what : Expectation) (cs : List Char) : Stop := (.expected what cs.head?, cs)

def isInteger : List Char → Bool
  | '-' :: cs => !cs.isEmpty && cs.all Char.isDigit
  | cs => !cs.isEmpty && cs.all Char.isDigit

/-- The number a numeral stands for: integers are exact beyond the safe range. -/
def numberOf (numeral : List Char) : Number :=
  let rounded := (Decimal.parse? numeral).elim .nan Decimal.toBinary64
  if isInteger numeral then
    match rounded.safeInteger? with
    | some _ => .float rounded
    | none => .integer ((integer? numeral).getD 0)
  else .float rounded

def moreDigits (taken cs : List Char) : Except Stop (List Char × List Char) :=
  let digits := cs.takeWhile Char.isDigit
  if digits.isEmpty then .error (.digitExpected (String.ofList taken) cs.head?, cs)
  else .ok (taken ++ digits, cs.dropWhile Char.isDigit)

def wholeDigits (taken : List Char) : List Char → List Char × List Char
  | '0' :: cs => (taken ++ ['0'], cs)
  | cs => (taken ++ cs.takeWhile Char.isDigit, cs.dropWhile Char.isDigit)

def signPart : List Char → Except Stop (List Char × List Char)
  | '-' :: cs =>
      if cs.head?.any Char.isDigit then .ok (['-'], cs) else .error (.digitExpected "-" cs.head?, cs)
  | cs => .ok ([], cs)

def fractionPart (taken : List Char) : List Char → Except Stop (List Char × List Char)
  | '.' :: cs => moreDigits (taken ++ ['.']) cs
  | cs => .ok (taken, cs)

def exponentPart (taken : List Char) : List Char → Except Stop (List Char × List Char)
  | c :: cs =>
      if c = 'e' ∨ c = 'E' then
        match cs with
        | s :: rest => if s = '+' ∨ s = '-' then moreDigits (taken ++ [c, s]) rest
            else moreDigits (taken ++ [c]) cs
        | [] => moreDigits (taken ++ [c]) []
      else .ok (taken, c :: cs)
  | [] => .ok (taken, [])

def numeral (cs : List Char) : Except Stop (List Char × List Char) := do
  let (taken, rest) ← signPart cs
  let (taken, rest) := wholeDigits taken rest
  let (taken, rest) ← fractionPart taken rest
  exponentPart taken rest

theorem append_moreDigits {taken cs more rest : List Char}
    (h : moreDigits taken cs = .ok (more, rest)) : more ++ rest = taken ++ cs := by
  unfold moreDigits at h
  simp only at h
  split at h
  · simp at h
  · obtain ⟨rfl, rfl⟩ := Prod.mk.inj (Except.ok.inj h)
    simp [List.takeWhile_append_dropWhile]

theorem append_wholeDigits (taken cs : List Char) :
    (wholeDigits taken cs).1 ++ (wholeDigits taken cs).2 = taken ++ cs := by
  unfold wholeDigits
  split <;> simp [List.takeWhile_append_dropWhile]

theorem append_signPart {cs more rest : List Char} (h : signPart cs = .ok (more, rest)) :
    more ++ rest = cs := by
  unfold signPart at h
  split at h
  · split at h
    · obtain ⟨rfl, rfl⟩ := Prod.mk.inj (Except.ok.inj h)
      rfl
    · simp at h
  · obtain ⟨rfl, rfl⟩ := Prod.mk.inj (Except.ok.inj h)
    rfl

theorem append_fractionPart {taken cs more rest : List Char}
    (h : fractionPart taken cs = .ok (more, rest)) : more ++ rest = taken ++ cs := by
  unfold fractionPart at h
  split at h
  · simpa using append_moreDigits h
  · obtain ⟨rfl, rfl⟩ := Prod.mk.inj (Except.ok.inj h)
    rfl

theorem append_exponentPart {taken cs more rest : List Char}
    (h : exponentPart taken cs = .ok (more, rest)) : more ++ rest = taken ++ cs := by
  unfold exponentPart at h
  split at h
  · split at h
    · split at h
      · split at h <;> simpa using append_moreDigits h
      · simpa using append_moreDigits h
    · obtain ⟨rfl, rfl⟩ := Prod.mk.inj (Except.ok.inj h)
      rfl
  · obtain ⟨rfl, rfl⟩ := Prod.mk.inj (Except.ok.inj h)
    rfl

theorem append_numeral {cs more rest : List Char} (h : numeral cs = .ok (more, rest)) :
    more ++ rest = cs := by
  unfold numeral at h
  simp only [bind, Except.bind] at h
  split at h
  · simp at h
  · rename_i hs
    split at h
    · simp at h
    · rename_i hf
      rw [append_exponentPart h, append_fractionPart hf, append_wholeDigits, append_signPart hs]

def hexValue? (c : Char) : Option Nat :=
  if c.isDigit then some (c.toNat - '0'.toNat)
  else if 'a' ≤ c ∧ c ≤ 'f' then some (c.toNat - 'a'.toNat + 10)
  else if 'A' ≤ c ∧ c ≤ 'F' then some (c.toNat - 'A'.toNat + 10)
  else none

def hexValue4? (a b c d : Char) : Option Nat := do
  return (((← hexValue? a) * 16 + (← hexValue? b)) * 16 + (← hexValue? c)) * 16 + (← hexValue? d)

def simpleEscape? : Char → Option Char
  | '\x22' => some '\x22'
  | '\\' => some '\\'
  | '/' => some '/'
  | 'b' => some '\x08'
  | 'f' => some '\x0c'
  | 'n' => some '\n'
  | 'r' => some '\r'
  | 't' => some '\t'
  | _ => none

def isLeadUnit (n : Nat) : Bool := 0xd800 ≤ n && n < 0xdc00

def isTrailUnit (n : Nat) : Bool := 0xdc00 ≤ n && n < 0xe000

def unitChar (n : Nat) : Char := if isLeadUnit n || isTrailUnit n then Char.ofNat 0xfffd else Char.ofNat n

def pairChar (lead trail : Nat) : Char :=
  Char.ofNat (0x10000 + (lead - 0xd800) * 0x400 + (trail - 0xdc00))

def codeUnit? : List Char → Option (Nat × List Char)
  | 'u' :: a :: b :: c :: d :: cs => (hexValue4? a b c d).map (·, cs)
  | _ => none

def trailUnit? : List Char → Option (Nat × List Char)
  | '\\' :: cs => (codeUnit? cs).filter (isTrailUnit ·.1)
  | _ => none

def escaped? (cs : List Char) : Option (Char × List Char) :=
  match cs.head?.bind simpleEscape? with
  | some c => some (c, cs.tail)
  | none =>
      (codeUnit? cs).map fun (unit, rest) =>
        match if isLeadUnit unit then trailUnit? rest else none with
        | some (trail, rest) => (pairChar unit trail, rest)
        | none => (unitChar unit, rest)

theorem length_codeUnit? {cs rest : List Char} {n : Nat} (h : codeUnit? cs = some (n, rest)) :
    rest.length < cs.length := by
  unfold codeUnit? at h
  split at h
  · obtain ⟨_, _, h⟩ := Option.map_eq_some_iff.1 h
    cases h
    simp only [List.length_cons]
    omega
  · simp at h

theorem length_trailUnit? {cs rest : List Char} {n : Nat} (h : trailUnit? cs = some (n, rest)) :
    rest.length < cs.length := by
  unfold trailUnit? at h
  split at h
  · have := length_codeUnit? (Option.filter_eq_some_iff.1 h).1
    simp only [List.length_cons]
    omega
  · simp at h

theorem length_escaped? {cs rest : List Char} {c : Char} (h : escaped? cs = some (c, rest)) :
    rest.length ≤ cs.length := by
  unfold escaped? at h
  split at h
  · cases h
    simp
  · obtain ⟨⟨unit, rest'⟩, hu, h⟩ := Option.map_eq_some_iff.1 h
    have := length_codeUnit? hu
    simp only at h
    split at h
    · rename_i hs
      split at hs
      · have := length_trailUnit? hs
        obtain ⟨-, rfl⟩ := Prod.mk.inj h
        omega
      · simp at hs
    · obtain ⟨-, rfl⟩ := Prod.mk.inj h
      omega

def badEscape (cs : List Char) : Fault :=
  if cs.head? = some 'u' then .invalidUnicode (String.ofList (Text.takeUnits 6 ('\\' :: cs)))
  else .invalidEscape (String.ofList (Text.takeUnits 2 ('\\' :: cs)))

def stringBody (taken : List Char) : List Char → Except Stop (List Char × List Char)
  | [] => .error (missing .endOfString [])
  | c :: cs =>
      if c = '\x22' then .ok (taken.reverse, cs)
      else if c = '\\' then
        match _h : escaped? cs with
        | some (e, rest) => stringBody (e :: taken) rest
        | none => .error (badEscape cs, c :: cs)
      else if c.toNat < 0x20 then .error (.invalidCharacter c, c :: cs)
      else stringBody (c :: taken) cs
  termination_by cs => cs.length
  decreasing_by
    · have := length_escaped? _h
      simp only [List.length_cons]
      omega
    · simp

theorem length_stringBody {cs : List Char} :
    ∀ {taken s rest : List Char}, stringBody taken cs = .ok (s, rest) → rest.length < cs.length := by
  intro taken
  fun_induction stringBody taken cs with
  | case1 => intro s rest h; simp at h
  | case2 =>
      intro s rest h
      cases h
      simp
  | case3 taken cs e rest' he _ ih =>
      intro s rest h
      have := ih h
      have := length_escaped? he
      simp only [List.length_cons]
      omega
  | case4 => intro s rest h; simp at h
  | case5 => intro s rest h; simp at h
  | case6 taken c cs _ _ _ ih =>
      intro s rest h
      have := ih h
      simp only [List.length_cons]
      omega

inductive Beginning where
  | scalar (value : Json)
  | array
  | object

def word? (cs : List Char) : Option (Beginning × List Char) :=
  match cs with
  | 't' :: 'r' :: 'u' :: 'e' :: rest => some (.scalar (.boolean true), rest)
  | 'f' :: 'a' :: 'l' :: 's' :: 'e' :: rest => some (.scalar (.boolean false), rest)
  | 'n' :: 'u' :: 'l' :: 'l' :: rest => some (.scalar .null, rest)
  | _ => none

def beginning? (cs : List Char) : Except Stop (Option (Beginning × List Char)) :=
  match cs with
  | '\x22' :: rest => (stringBody [] rest).map fun (s, rest) => some (.scalar (.string (String.ofList s)), rest)
  | '\x7b' :: rest => .ok (some (.object, rest))
  | '[' :: rest => .ok (some (.array, rest))
  | cs =>
      (numeral cs).map fun (numeral, rest) =>
        if numeral.isEmpty then word? cs else some (.scalar (.number (numberOf numeral)), rest)

theorem length_word? {cs rest : List Char} {b : Beginning} (h : word? cs = some (b, rest)) :
    rest.length < cs.length := by
  unfold word? at h
  split at h
  all_goals first
    | (obtain ⟨-, rfl⟩ := Prod.mk.inj (Option.some.inj h); simp only [List.length_cons]; omega)
    | simp at h

theorem length_beginning? {cs rest : List Char} {b : Beginning}
    (h : beginning? cs = .ok (some (b, rest))) : rest.length < cs.length := by
  unfold beginning? at h
  split at h
  · rename_i body
    cases hs : stringBody [] body with
    | error => simp [hs, Except.map] at h
    | ok out =>
        simp only [hs, Except.map, Except.ok.injEq, Option.some.injEq, Prod.mk.injEq] at h
        have := length_stringBody (show stringBody [] body = .ok (out.1, out.2) from hs)
        rw [← h.2]
        simp only [List.length_cons]
        omega
  · obtain ⟨-, rfl⟩ := Prod.mk.inj (Option.some.inj (Except.ok.inj h))
    simp
  · obtain ⟨-, rfl⟩ := Prod.mk.inj (Option.some.inj (Except.ok.inj h))
    simp
  · cases hn : numeral cs with
    | error => simp [hn, Except.map] at h
    | ok out =>
        obtain ⟨taken, more⟩ := out
        simp only [hn, Except.map, Except.ok.injEq] at h
        split at h
        · exact length_word? h
        · rename_i ht
          obtain ⟨-, rfl⟩ := Prod.mk.inj (Option.some.inj h)
          have := congrArg List.length (append_numeral hn)
          have : 0 < taken.length := List.length_pos_iff.2 fun hnil => ht (by simp [hnil])
          simp only [List.length_append] at *
          omega

def memberKey (cs : List Char) : Except Stop (String × List Char × List Char) :=
  match cs with
  | '\x22' :: rest => do
      let (key, after) ← stringBody [] rest
      match skipSpace after with
      | ':' :: after => .ok (String.ofList key, rest, after)
      | after => .error (missing .colon after)
  | cs => .error (missing .key cs)

theorem length_memberKey {cs mark rest : List Char} {key : String}
    (h : memberKey cs = .ok (key, mark, rest)) : rest.length < cs.length := by
  unfold memberKey at h
  split at h
  · rename_i body
    cases hs : stringBody [] body with
    | error => simp [hs, bind, Except.bind] at h
    | ok out =>
        simp only [hs, bind, Except.bind] at h
        have hlen := length_stringBody (show stringBody [] body = .ok (out.1, out.2) from hs)
        split at h
        · rename_i hsp
          obtain ⟨-, h⟩ := Prod.mk.inj (Except.ok.inj h)
          obtain ⟨-, rfl⟩ := Prod.mk.inj h
          have := length_skipSpace_le out.2
          rw [hsp] at this
          simp only [List.length_cons] at *
          omega
        · simp at h
  · simp at h

/-- A container that is still open: the items before the current value, or the members before it with
its key and the text behind the key's quote. -/
inductive Frame where
  | array (before : List Json)
  | object (before : Entries Json) (key : String) (mark : List Char)

def noValue (stack : List Frame) (cs : List Char) : Stop :=
  match stack with
  | [] => missing .value cs
  | .array _ :: _ => missing .item cs
  | .object _ _ _ :: _ => (.memberValueExpected, cs)

mutual

/-- Whether two values are interchangeable under one key: an array stands for the object of its
items by index. -/
def agrees : Json → Json → Bool
  | .array xs, .array ys => agreesItems xs ys
  | .array xs, .object qs =>
      agreesIndexed 0 xs qs && qs.all fun (k, _) => (Entries.index? k).any (· < xs.length)
  | .object ps, .array ys => agreesByIndex ps ys && ps.length == ys.length
  | .object ps, .object qs => agreesMembers ps qs && ps.length == qs.length
  | .null, .null => true
  | .boolean a, .boolean b => a == b
  | .string a, .string b => a == b
  | .number (.integer a), .number (.integer b) => a == b
  | .number (.float a), .number (.float b) => a.place? == b.place? && a.place?.isSome
  | _, _ => false

def agreesItems : List Json → List Json → Bool
  | [], [] => true
  | x :: xs, y :: ys => agrees x y && agreesItems xs ys
  | _, _ => false

def agreesIndexed (i : Nat) : List Json → List (String × Json) → Bool
  | [], _ => true
  | x :: xs, qs =>
      (match Entries.find? (Nat.repr i) qs with
        | some y => agrees x y
        | none => false) && agreesIndexed (i + 1) xs qs

def agreesByIndex : List (String × Json) → List Json → Bool
  | [], _ => true
  | (k, x) :: ps, ys =>
      (match (Entries.index? k).bind (ys[·]?) with
        | some y => agrees x y
        | none => false) && agreesByIndex ps ys

def agreesMembers : List (String × Json) → List (String × Json) → Bool
  | [], _ => true
  | (k, x) :: ps, qs =>
      (match Entries.find? k qs with
        | some y => agrees x y
        | none => false) && agreesMembers ps qs

end

def addMember? (key : String) (value : Json) (es : Entries Json) : Option (Entries Json) :=
  match es.find? key with
  | some old => if agrees value old then some (es.define key value) else none
  | none => some (es.define key value)

mutual

def readValue (stack : List Frame) (cs : List Char) : Except Stop Json :=
  match _hb : beginning? (skipSpace cs) with
  | .error e => .error e
  | .ok none => .error (noValue stack (skipSpace cs))
  | .ok (some (.scalar j, rest)) => readAfter stack j rest
  | .ok (some (.array, rest)) =>
      match _hs : skipSpace rest with
      | [] => .error (missing .itemOrEnd [])
      | c :: more => if c = ']' then readAfter stack (.array []) more
          else readValue (.array [] :: stack) (c :: more)
  | .ok (some (.object, rest)) =>
      match _hs : skipSpace rest with
      | [] => .error (missing .keyOrEnd [])
      | c :: more => if c = '\x7d' then readAfter stack (.object []) more
          else readMember stack [] (c :: more)
  termination_by cs.length
  decreasing_by
    all_goals
      have := length_beginning? _hb
      have := length_skipSpace_le cs
    · omega
    all_goals
      have := length_of_skipSpace _hs
      try simp only [List.length_cons]
      omega

def readMember (stack : List Frame) (before : Entries Json) (cs : List Char) : Except Stop Json :=
  match _hk : memberKey (skipSpace cs) with
  | .error e => .error e
  | .ok (key, mark, rest) => readValue (.object before key mark :: stack) rest
  termination_by cs.length
  decreasing_by
    have := length_memberKey _hk
    have := length_skipSpace_le cs
    omega

def readAfter (stack : List Frame) (j : Json) (cs : List Char) : Except Stop Json :=
  match stack with
  | [] => if (skipSpace cs).isEmpty then .ok j else .error (missing .endOfInput (skipSpace cs))
  | .array before :: outer =>
      match _hs : skipSpace cs with
      | [] => .error (missing .itemOrEnd [])
      | c :: rest =>
          if c = ',' then readValue (.array (j :: before) :: outer) rest
          else if c = ']' then readAfter outer (.array (j :: before).reverse) rest
          else .error (missing .comma (c :: rest))
  | .object before key mark :: outer =>
      match addMember? key j before with
      | none => .error (.duplicateKey key, mark)
      | some members =>
          match _hs : skipSpace cs with
          | [] => .error (missing .keyOrEnd [])
          | c :: rest =>
              if c = ',' then readMember outer members rest
              else if c = '\x7d' then readAfter outer (.object members) rest
              else .error (missing .comma (c :: rest))
  termination_by cs.length
  decreasing_by
    all_goals exact length_of_skipSpace _hs

end

def parse (s : String) : Except SyntaxError Json :=
  let cs := s.toList
  (readValue [] cs).mapError fun (fault, rest) => ⟨fault, Text.widths cs - Text.widths rest⟩

end RecordSieve.Json
