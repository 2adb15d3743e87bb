import RecordSieve.Proofs.Json.Reading
import RecordSieve.Records.Lines

namespace RecordSieve.Lines

open Json (IsObjectText)

def IsLine (cs : List Char) : Prop := '\n' ∉ cs ∧ '\r' ∉ cs

def IsJoined (texts : List (List Char)) (cs : List Char) : Prop :=
  cs = ['\n'].intercalate texts ∨ cs = ['\n'].intercalate texts ++ ['\n']

theorem split_cons {c : Char} (hfeed : c ≠ '\n') (hreturn : c ≠ '\r') {cs line : List Char}
    {lines : List (List Char)} (h : split cs = line :: lines) : split (c :: cs) = (c :: line) :: lines := by
  rw [split, if_neg hfeed, h]
  exact fun _ hc _ => hreturn hc

theorem split_line {line : List Char} (h : IsLine line) : split line = [line] := by
  induction line with
  | nil => rfl
  | cons c cs ih =>
      obtain ⟨hfeed, hreturn⟩ := h
      rw [List.mem_cons, not_or] at hfeed hreturn
      exact split_cons (Ne.symm hfeed.1) (Ne.symm hreturn.1) (ih ⟨hfeed.2, hreturn.2⟩)

theorem split_line_append {line : List Char} (h : IsLine line) (rest : List Char) :
    split (line ++ '\n' :: rest) = line :: split rest := by
  induction line with
  | nil => exact split.eq_3 _ _ (fun _ h => by cases h) |>.trans (if_pos rfl)
  | cons c cs ih =>
      obtain ⟨hfeed, hreturn⟩ := h
      rw [List.mem_cons, not_or] at hfeed hreturn
      exact split_cons (Ne.symm hfeed.1) (Ne.symm hreturn.1) (ih ⟨hfeed.2, hreturn.2⟩)

theorem isJoined_cons_cons {t t' : List Char} {ts : List (List Char)} {cs : List Char}
    (h : IsJoined (t :: t' :: ts) cs) : ∃ more, cs = t ++ '\n' :: more ∧ IsJoined (t' :: ts) more := by
  rw [IsJoined, List.intercalate_cons_cons] at h
  rcases h with rfl | rfl
  · exact ⟨_, by simp, .inl rfl⟩
  · exact ⟨_, by simp, .inr rfl⟩

theorem exists_append_of_isJoined {t : List Char} {ts : List (List Char)} {cs : List Char}
    (h : IsJoined (t :: ts) cs) : ∃ rest, cs = t ++ rest := by
  cases ts with
  | nil =>
      rw [IsJoined, List.intercalate_singleton] at h
      rcases h with rfl | rfl
      · exact ⟨[], (List.append_nil _).symm⟩
      · exact ⟨_, rfl⟩
  | cons t' ts =>
      obtain ⟨more, rfl, -⟩ := isJoined_cons_cons h
      exact ⟨_, rfl⟩

theorem split_joined {texts : List (List Char)} {cs : List Char} (hne : texts ≠ [])
    (h : ∀ t ∈ texts, IsLine t) (hjoined : IsJoined texts cs) :
    split cs = texts ∨ split cs = texts ++ [[]] := by
  induction texts generalizing cs with
  | nil => exact absurd rfl hne
  | cons t ts ih =>
      obtain ⟨ht, hts⟩ := List.forall_mem_cons.1 h
      cases ts with
      | nil =>
          rw [IsJoined, List.intercalate_singleton] at hjoined
          rcases hjoined with rfl | rfl
          · exact .inl (split_line ht)
          · exact .inr (split_line_append ht [])
      | cons t' ts =>
          obtain ⟨more, rfl, hmore⟩ := isJoined_cons_cons hjoined
          rw [split_line_append ht]
          rcases ih (by simp) hts hmore with h | h
          · exact .inl (by rw [h])
          · exact .inr (by rw [h]; rfl)

theorem not_isBlankLine {line : List Char} (h : IsObjectText line) : isBlankLine line = false := by
  have hopen : '\x7b' ∈ line :=
    (List.dropWhile_suffix Json.isSpace).mem (List.mem_of_mem_head? h.2)
  rw [isBlankLine, List.all_eq_false]
  exact ⟨_, hopen, by decide⟩

def record? (line : List Char) : Option Json := (Json.parse (String.ofList line)).toOption

theorem record?_chars {j : Json} (h : j.everywhere Json.hasOrderedKeys = true) :
    record? j.chars = some j.reread := by
  rw [record?, ← Json.text, Json.parse_eq_reread h]
  rfl

theorem parseFrom_blank {lines : List (List Char)} (h : ∀ line ∈ lines, isBlankLine line = true) (n : Nat) :
    parseFrom n lines = .ok [] := by
  induction lines generalizing n with
  | nil => rfl
  | cons line lines ih =>
      obtain ⟨hline, hlines⟩ := List.forall_mem_cons.1 h
      rw [parseFrom, if_pos hline, ih hlines]

theorem toOption_parseFrom {lines blank : List (List Char)} (h : ∀ line ∈ lines, IsObjectText line)
    (hblank : ∀ line ∈ blank, isBlankLine line = true) (n : Nat) :
    (parseFrom n (lines ++ blank)).toOption = lines.mapM record? := by
  induction lines generalizing n with
  | nil => rw [List.nil_append, parseFrom_blank hblank]; rfl
  | cons line lines ih =>
      obtain ⟨hline, hlines⟩ := List.forall_mem_cons.1 h
      have hrest := ih hlines (n + 1)
      rw [List.cons_append, parseFrom, if_neg (by simp [not_isBlankLine hline]), List.mapM_cons, record?,
        ← hrest]
      cases Json.parse (String.ofList line) with
      | error e => rfl
      | ok j => cases parseFrom (n + 1) (lines ++ blank) <;> rfl

theorem toOption_parse {texts : List (List Char)} {cs : List Char} (hne : texts ≠ [])
    (h : ∀ t ∈ texts, IsObjectText t) (hlines : ∀ t ∈ texts, IsLine t) (hjoined : IsJoined texts cs) :
    (parse (String.ofList cs)).toOption = texts.mapM record? := by
  rw [parse, String.toList_ofList]
  rcases split_joined hne hlines hjoined with hsplit | hsplit
  · have hread : (parseFrom 1 (texts ++ [])).toOption = texts.mapM record? :=
      toOption_parseFrom h (by simp) 1
    rw [hsplit]
    rwa [List.append_nil] at hread
  · rw [hsplit]
    exact toOption_parseFrom h (by simp [isBlankLine]) 1

theorem parse_line {line : List Char} {j : Json} (h : IsLine line) (hblank : isBlankLine line = false)
    (hread : Json.parse (String.ofList line) = .ok j) : parse (String.ofList line) = .ok [j] := by
  rw [parse, String.toList_ofList, split_line h, parseFrom, if_neg (by simp [hblank]), hread]
  rfl

theorem exists_parse_of_parseFrom {lines : List (List Char)} {n : Nat} {js : List Json}
    (h : parseFrom n lines = .ok js) : ∀ j ∈ js, ∃ text, Json.parse text = .ok j := by
  induction lines generalizing n js with
  | nil =>
      cases h
      exact List.forall_mem_nil _
  | cons line lines ih =>
      rw [parseFrom] at h
      split at h
      · exact ih h
      · split at h
        · cases h
        · rename_i hread
          obtain ⟨ks, hks, rfl⟩ := Except.map_eq_ok_iff.1 h
          exact List.forall_mem_cons.2 ⟨⟨_, hread⟩, ih hks⟩

theorem everywhere_isReadNode_of_parse {text : String} {js : List Json} (h : parse text = .ok js) :
    ∀ j ∈ js, j.everywhere Json.isReadNode = true := by
  intro j hj
  obtain ⟨_, hread⟩ := exists_parse_of_parseFrom h j hj
  exact Json.everywhere_of_parse hread

open Json (commas memberText)

theorem any_isControl_digits {cs : List Char} (h : cs.all Char.isDigit = true) :
    cs.any Text.isControl = false := by
  rw [List.any_eq_false]
  intro c hc hcontrol
  have hdigit := Text.toNat_of_isDigit (List.all_eq_true.1 h c hc)
  have hbelow : c.toNat < 0x20 := of_decide_eq_true hcontrol
  omega

theorem any_isControl_exponent {cs : List Char} (h : Json.SpellsExponent cs) :
    cs.any Text.isControl = false := by
  cases h with
  | none => rfl
  | some hmark hsign _ hdigits =>
      rw [List.any_cons, List.any_append, any_isControl_digits hdigits]
      rcases hmark with rfl | rfl <;> rcases hsign with rfl | rfl | rfl <;> rfl

theorem any_isControl_numeral {cs : List Char} (h : Json.SpellsNumeral cs) : cs.any Text.isControl = false := by
  obtain ⟨p, hpower, hexponent⟩ := h
  have hsign (negative : Bool) : (signText negative).any Text.isControl = false := by
    cases negative <;> rfl
  have hfraction : p.fractionText.any Text.isControl = false := by
    rw [NumeralParts.fractionText]
    split
    · rfl
    · rw [List.any_cons, any_isControl_digits p.fraction_digits]
      rfl
  have hnone : p.powerText.any Text.isControl = false := by
    rw [NumeralParts.powerText, hpower]
    rfl
  simp only [NumeralParts.text, List.any_append, hsign, any_isControl_digits p.whole_digits, hfraction, hnone,
    any_isControl_exponent hexponent, Bool.or_false]

theorem any_isControl_commas {texts : List (List Char)} (h : ∀ t ∈ texts, t.any Text.isControl = false) :
    (commas texts).any Text.isControl = false := by
  induction texts with
  | nil => rfl
  | cons t ts ih =>
      obtain ⟨ht, hts⟩ := List.forall_mem_cons.1 h
      cases ts with
      | nil => rwa [Json.commas_singleton]
      | cons t' ts =>
          rw [Json.commas_cons_cons, List.any_append, List.any_cons, ht, ih hts]
          rfl

theorem any_isControl_memberText {key : String} {cs : List Char} (h : cs.any Text.isControl = false) :
    (memberText key cs).any Text.isControl = false := by
  rw [memberText, List.any_append, List.any_cons, Text.any_isControl_quoteList, h]
  rfl

theorem any_isControl_chars (j : Json) : j.chars.any Text.isControl = false := by
  induction j using Json.byParts with
  | null => rfl
  | boolean b => cases b <;> rfl
  | number n =>
      rw [Json.chars]
      cases hn : n.isFinite with
      | false =>
          rw [Json.numberText_of_not_isFinite hn]
          rfl
      | true =>
          obtain ⟨p, htext, -⟩ := NumeralParts.exists_isTextOf hn
          exact htext ▸ any_isControl_numeral (Json.spellsNumeral_text p)
  | string s => exact Text.any_isControl_quoteList s.toList
  | array items ih =>
      rw [Json.chars, Json.charsOfItems_eq_commas, List.any_append, List.any_cons,
        any_isControl_commas (List.forall_mem_map.2 ih)]
      rfl
  | object properties ih =>
      have hmembers : (commas (properties.map fun e => memberText e.1 e.2.chars)).any Text.isControl = false :=
        any_isControl_commas (List.forall_mem_map.2 fun e he => any_isControl_memberText (ih e he))
      rw [Json.chars, Json.charsOfProperties_eq_commas, List.any_append, List.any_cons, hmembers]
      rfl

theorem isLine_of_any_isControl {cs : List Char} (h : cs.any Text.isControl = false) : IsLine cs :=
  ⟨fun hin => List.any_eq_false.1 h _ hin rfl, fun hin => List.any_eq_false.1 h _ hin rfl⟩

theorem isLine_chars (j : Json) : IsLine j.chars := isLine_of_any_isControl (any_isControl_chars j)

theorem isBlankLine_chars (j : Json) : isBlankLine j.chars = false := by
  obtain ⟨c, cs, hchars, hc, -⟩ := j.exists_cons_chars
  rw [isBlankLine, hchars, List.all_cons, hc, Bool.false_and]

theorem parseFrom_chars {js : List Json} (h : ∀ j ∈ js, j.everywhere Json.hasOrderedKeys = true) (n : Nat) :
    parseFrom n (split (js.flatMap fun j => j.chars ++ ['\n'])) = .ok (js.map Json.reread) := by
  induction js generalizing n with
  | nil => exact parseFrom_blank (List.forall_mem_singleton.2 rfl) n
  | cons j js ih =>
      obtain ⟨hj, hjs⟩ := List.forall_mem_cons.1 h
      have hread : Json.parse (String.ofList j.chars) = .ok j.reread := Json.parse_eq_reread hj
      rw [List.flatMap_cons, List.append_assoc, List.singleton_append, split_line_append (isLine_chars j),
        parseFrom, if_neg (by simp [isBlankLine_chars]), hread]
      dsimp only
      rw [ih hjs]
      rfl

theorem parse_chars {js : List Json} (h : ∀ j ∈ js, j.everywhere Json.hasOrderedKeys = true) :
    parse (String.ofList (js.flatMap fun j => j.chars ++ ['\n'])) = .ok (js.map Json.reread) := by
  rw [parse, String.toList_ofList]
  exact parseFrom_chars h 1

end RecordSieve.Lines
