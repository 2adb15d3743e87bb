import RecordSieve.Proofs.Json.Reading

namespace RecordSieve.Json

open NumeralParts (Ends ends_nil)

inductive Source where
  | null
  | boolean (value : Bool)
  | numeral (cs : List Char)
  | string (value : String)
  | array (items : List Source)
  | object (members : List (String × Source))

namespace Source

mutual

def value? : Source → Option Json
  | .null => some .null
  | .boolean b => some (.boolean b)
  | .numeral cs => some (.number (numberOf cs))
  | .string s => some (.string s)
  | .array items => (valuesIn? items).map .array
  | .object members => (valuesUnder? [] members).map .object

def valuesIn? : List Source → Option (List Json)
  | [] => some []
  | s :: ss => s.value?.bind fun j => (valuesIn? ss).map (j :: ·)

def valuesUnder? (before : Entries Json) : List (String × Source) → Option (Entries Json)
  | [] => some before
  | (key, s) :: ms => (s.value?.bind (addMember? key · before)).bind fun es => valuesUnder? es ms

end

end Source

inductive SpellsNumber : List Char → Prop
  | whole {cs : List Char} : SpellsNumeral cs → SpellsNumber cs
  | bare (p : NumeralParts) {exponent : List Char} : SpellsExponent exponent →
      p.fractionText ++ exponent ≠ [] → SpellsNumber (p.fractionText ++ exponent)

inductive Source.Form where
  | value (s : Source)
  | element (s : Source)
  | items (ss : List Source)
  | member (key : String) (s : Source)
  | members (ms : List (String × Source))

def SpellsText (body : List Char) (s : String) : Prop :=
  SpellsString body ∧ stringBody [] (body ++ ['\x22']) = .ok (s.toList, [])

inductive Source.Spells : Form → List Char → Prop
  | null : Spells (.value .null) ['n', 'u', 'l', 'l']
  | true : Spells (.value (.boolean Bool.true)) ['t', 'r', 'u', 'e']
  | false : Spells (.value (.boolean Bool.false)) ['f', 'a', 'l', 's', 'e']
  | numeral {cs : List Char} : SpellsNumber cs → Spells (.value (.numeral cs)) cs
  | string {body : List Char} {s : String} : SpellsText body s →
      Spells (.value (.string s)) ('\x22' :: (body ++ ['\x22']))
  | emptyArray {blank : List Char} : IsBlank blank → Spells (.value (.array [])) ('[' :: (blank ++ [']']))
  | array {ss : List Source} {cs : List Char} : Spells (.items ss) cs →
      Spells (.value (.array ss)) ('[' :: (cs ++ [']']))
  | emptyObject {blank : List Char} : IsBlank blank →
      Spells (.value (.object [])) ('\x7b' :: (blank ++ ['\x7d']))
  | object {ms : List (String × Source)} {cs : List Char} : Spells (.members ms) cs →
      Spells (.value (.object ms)) ('\x7b' :: (cs ++ ['\x7d']))
  | element {s : Source} {before cs after : List Char} : IsBlank before → Spells (.value s) cs →
      IsBlank after → Spells (.element s) (before ++ (cs ++ after))
  | lastItem {s : Source} {cs : List Char} : Spells (.element s) cs → Spells (.items [s]) cs
  | item {s : Source} {ss : List Source} {cs cs' : List Char} : Spells (.element s) cs →
      Spells (.items ss) cs' → Spells (.items (s :: ss)) (cs ++ ',' :: cs')
  | member {key : String} {s : Source} {before body after cs : List Char} : IsBlank before →
      SpellsText body key → IsBlank after → Spells (.element s) cs →
      Spells (.member key s) (before ++ '\x22' :: (body ++ '\x22' :: (after ++ ':' :: cs)))
  | lastMember {key : String} {s : Source} {cs : List Char} : Spells (.member key s) cs →
      Spells (.members [(key, s)]) cs
  | moreMembers {key : String} {s : Source} {ms : List (String × Source)} {cs cs' : List Char} :
      Spells (.member key s) cs → Spells (.members ms) cs' →
      Spells (.members ((key, s) :: ms)) (cs ++ ',' :: cs')

theorem exists_cons_bare {p : NumeralParts} {exponent : List Char} (h : SpellsExponent exponent)
    (hne : p.fractionText ++ exponent ≠ []) :
    ∃ c cs, p.fractionText ++ exponent = c :: cs ∧ (c = '.' ∨ c = 'e' ∨ c = 'E') := by
  rw [NumeralParts.fractionText] at hne ⊢
  split at hne
  · rename_i hf
    rw [if_pos hf]
    cases h with
    | none => exact absurd rfl hne
    | some hmark => exact ⟨_, _, rfl, .inr hmark⟩
  · rename_i hf
    rw [if_neg hf]
    exact ⟨_, _, rfl, .inl rfl⟩

theorem numeral_bare (p : NumeralParts) {exponent rest : List Char} (h : SpellsExponent exponent)
    (hne : p.fractionText ++ exponent ≠ []) (hr : Ends rest) :
    numeral (p.fractionText ++ exponent ++ rest) = .ok (p.fractionText ++ exponent, rest) := by
  obtain ⟨c, cs, hcons, hc⟩ := exists_cons_bare h hne
  have hdigit : c.isDigit = false ∧ c ≠ '-' := by rcases hc with rfl | rfl | rfl <;> decide
  have hsign : signPart (c :: (cs ++ rest)) = .ok ([], c :: (cs ++ rest)) :=
    signPart.eq_2 _ fun _ h => hdigit.2 (List.cons_eq_cons.1 h).1
  have hwhole : wholeDigits [] (c :: (cs ++ rest)) = ([], c :: (cs ++ rest)) := by
    rw [wholeDigits.eq_2 _ _ fun _ h => by simp [(List.cons_eq_cons.1 h).1] at hdigit,
      List.takeWhile_cons_of_neg (by simp [hdigit.1]), List.dropWhile_cons_of_neg (by simp [hdigit.1])]
    rfl
  have hfraction := NumeralParts.fractionPart_text (p := p) [] (head?_exponent h hr)
  rw [List.nil_append, ← List.append_assoc, hcons, List.cons_append] at hfraction
  rw [hcons, List.cons_append]
  simp only [numeral, hsign, hwhole, hfraction, exponentPart_spelled h hr, hcons, bind, Except.bind]

theorem SpellsNumber.numeral_append {cs rest : List Char} (h : SpellsNumber cs) (hr : Ends rest) :
    numeral (cs ++ rest) = .ok (cs, rest) := by
  cases h with
  | whole h => exact numeral_spelled h hr
  | bare p h hne => exact numeral_bare p h hne hr

theorem SpellsNumber.exists_cons {cs : List Char} (h : SpellsNumber cs) :
    ∃ c t, cs = c :: t ∧ isSpace c = false ∧
      c ≠ '\x22' ∧ c ≠ '\x7b' ∧ c ≠ '[' ∧ c ≠ '\x7d' ∧ c ≠ ']' := by
  obtain ⟨c, t, hcons, hc⟩ : ∃ c t, cs = c :: t ∧ ((c = '-' ∨ c = '.' ∨ c = 'e' ∨ c = 'E') ∨
      c.isDigit = true) := by
    cases h with
    | whole h =>
        obtain ⟨c, t, rfl, hc⟩ := exists_cons_numeral h
        exact ⟨c, t, rfl, hc.imp_left .inl⟩
    | bare p h hne =>
        obtain ⟨c, t, hcons, hc⟩ := exists_cons_bare h hne
        exact ⟨c, t, hcons, .inl (.inr hc)⟩
  refine ⟨c, t, hcons, ?_⟩
  rcases hc with hc | hc
  · rcases hc with rfl | rfl | rfl | rfl <;> decide
  · refine ⟨isSpace_of_isDigit hc, ?_, ?_, ?_, ?_, ?_⟩ <;> (rintro rfl; simp at hc)

section Taken

variable {taken cs more rest : List Char}

theorem exists_of_moreDigits (h : moreDigits taken cs = .ok (more, rest)) :
    ∃ digits, digits ≠ [] ∧ digits.all Char.isDigit = true ∧ more = taken ++ digits := by
  rw [moreDigits] at h
  split at h
  · cases h
  · rename_i hne
    cases h
    exact ⟨_, by simpa using hne, List.all_takeWhile, rfl⟩

theorem exists_of_signPart (h : signPart cs = .ok (more, rest)) :
    ∃ negative, more = signText negative ∧ (negative = true → rest.head?.any Char.isDigit = true) := by
  unfold signPart at h
  split at h
  · split at h
    · rename_i hdigit
      cases h
      exact ⟨true, rfl, fun _ => hdigit⟩
    · cases h
  · cases h
    exact ⟨false, rfl, fun h => absurd h Bool.false_ne_true⟩

theorem exists_of_wholeDigits (taken cs : List Char) :
    ∃ whole, (wholeDigits taken cs).1 = taken ++ whole ∧ whole.all Char.isDigit = true ∧
      (whole.head? = some '0' → whole = ['0']) ∧ (cs.head?.any Char.isDigit = true → whole ≠ []) := by
  unfold wholeDigits
  split
  · exact ⟨['0'], rfl, by decide, fun _ => rfl, fun _ => by simp⟩
  · rename_i hzero
    refine ⟨_, rfl, List.all_takeWhile, fun hhead => ?_, fun hany => ?_⟩
    · cases cs with
      | nil => cases hhead
      | cons c cs =>
          rw [List.takeWhile_cons] at hhead
          split at hhead
          · exact absurd (congrArg (· :: cs) (Option.some.inj hhead)) (hzero cs)
          · cases hhead
    · cases cs with
      | nil => cases hany
      | cons c cs =>
          rw [List.takeWhile_cons_of_pos (by simpa using hany)]
          simp

theorem exists_of_fractionPart (h : fractionPart taken cs = .ok (more, rest)) :
    ∃ fraction, fraction.all Char.isDigit = true ∧
      more = taken ++ (if fraction = [] then [] else '.' :: fraction) := by
  unfold fractionPart at h
  split at h
  · obtain ⟨digits, hne, hdigits, rfl⟩ := exists_of_moreDigits h
    exact ⟨digits, hdigits, by rw [if_neg hne]; simp⟩
  · cases h
    exact ⟨[], rfl, by simp⟩

theorem exists_of_exponentPart (h : exponentPart taken cs = .ok (more, rest)) :
    ∃ exponent, SpellsExponent exponent ∧ more = taken ++ exponent := by
  unfold exponentPart at h
  split at h
  · split at h
    · rename_i hmark
      split at h
      · split at h
        · rename_i hsign
          obtain ⟨digits, hne, hdigits, rfl⟩ := exists_of_moreDigits h
          refine ⟨_, .some hmark (.inr ?_) hne hdigits, List.append_assoc _ _ _⟩
          exact hsign.imp (congrArg ([·])) (congrArg ([·]))
        · obtain ⟨digits, hne, hdigits, rfl⟩ := exists_of_moreDigits h
          exact ⟨_, .some hmark (.inl rfl) hne hdigits, List.append_assoc _ _ _⟩
      · obtain ⟨digits, hne, hdigits, rfl⟩ := exists_of_moreDigits h
        exact ⟨_, .some hmark (.inl rfl) hne hdigits, List.append_assoc _ _ _⟩
    · cases h
      exact ⟨[], .none, (List.append_nil _).symm⟩
  · cases h
    exact ⟨[], .none, (List.append_nil _).symm⟩

theorem parts_of_numeral (h : numeral cs = .ok (more, rest)) : ∃ sign tail taken tail',
    signPart cs = .ok (sign, tail) ∧
    fractionPart (wholeDigits sign tail).1 (wholeDigits sign tail).2 = .ok (taken, tail') ∧
    exponentPart taken tail' = .ok (more, rest) := by
  simp only [numeral, bind, Except.bind] at h
  split at h
  · cases h
  · rename_i hsign
    split at h
    · cases h
    · rename_i hfraction
      exact ⟨_, _, _, _, hsign, hfraction, h⟩

theorem spellsNumber_of_numeral (h : numeral cs = .ok (more, rest)) (hne : more ≠ []) :
    SpellsNumber more := by
  obtain ⟨_, tail, _, _, hsign, hfraction, h⟩ := parts_of_numeral h
  obtain ⟨negative, rfl, hdigit⟩ := exists_of_signPart hsign
  obtain ⟨whole, hwhole, hall, hlead, hwne⟩ := exists_of_wholeDigits (signText negative) tail
  obtain ⟨fraction, hfall, rfl⟩ := exists_of_fractionPart hfraction
  obtain ⟨exponent, hexponent, rfl⟩ := exists_of_exponentPart h
  rw [hwhole] at hne ⊢
  by_cases hnone : whole = []
  · have hunsigned : negative = false := by
      cases negative with
      | true => exact absurd hnone (hwne (hdigit rfl))
      | false => rfl
    rw [hnone, hunsigned] at hne ⊢
    exact .bare ⟨false, ['0'], fraction, none, by simp, by decide, fun _ => rfl, hfall⟩ hexponent hne
  · have htext := SpellsNumeral.intro ⟨negative, whole, fraction, none, hnone, hall, hlead, hfall⟩ rfl
      hexponent
    rw [NumeralParts.text, NumeralParts.powerText, List.append_nil, ← List.append_assoc] at htext
    exact .whole htext

end Taken

theorem exists_of_codeUnit? {cs rest : List Char} {n : Nat} (h : codeUnit? cs = some (n, rest)) :
    ∃ a b c d, cs = 'u' :: a :: b :: c :: d :: rest ∧ hexValue4? a b c d = some n := by
  unfold codeUnit? at h
  split at h
  · obtain ⟨m, hm, hpair⟩ := Option.map_eq_some_iff.1 h
    cases hpair
    exact ⟨_, _, _, _, rfl, hm⟩
  · cases h

theorem exists_of_trailUnit? {cs rest : List Char} {n : Nat} (h : trailUnit? cs = some (n, rest)) :
    ∃ cs', cs = '\\' :: cs' ∧ codeUnit? cs' = some (n, rest) := by
  unfold trailUnit? at h
  split at h
  · exact ⟨_, rfl, (Option.filter_eq_some_iff.1 h).1⟩
  · cases h

theorem exists_of_escaped? {cs rest : List Char} {c : Char} (h : escaped? cs = some (c, rest)) :
    ∃ text, cs = text ++ rest ∧ ∀ {body}, SpellsString body → SpellsString ('\\' :: (text ++ body)) := by
  unfold escaped? at h
  split at h
  · rename_i hsimple
    cases h
    obtain ⟨e, he, hsimple⟩ := Option.bind_eq_some_iff.1 hsimple
    obtain ⟨tail, rfl⟩ := List.head?_eq_some_iff.1 he
    exact ⟨[e], rfl, .simple hsimple⟩
  · obtain ⟨⟨lead, after⟩, hlead, hpair⟩ := Option.map_eq_some_iff.1 h
    obtain ⟨a, b, c, d, rfl, hvalue⟩ := exists_of_codeUnit? hlead
    dsimp only at hpair
    split at hpair <;> obtain ⟨-, rfl⟩ := Prod.mk.inj hpair
    · rename_i htrail
      split at htrail
      · obtain ⟨after', rfl, hunit⟩ := exists_of_trailUnit? htrail
        obtain ⟨a', b', c', d', rfl, hvalue'⟩ := exists_of_codeUnit? hunit
        exact ⟨['u', a, b, c, d, '\\', 'u', a', b', c', d'], rfl, fun h => .unit hvalue (.unit hvalue' h)⟩
      · cases htrail
    · exact ⟨['u', a, b, c, d], rfl, .unit hvalue⟩

theorem exists_of_stringBody {taken cs s rest : List Char} (h : stringBody taken cs = .ok (s, rest)) :
    ∃ body, SpellsString body ∧ cs = body ++ '\x22' :: rest := by
  fun_induction stringBody taken cs with
  | case1 => cases h
  | case2 =>
      cases h
      exact ⟨[], .nil, rfl⟩
  | case3 _ _ _ _ hescaped _ ih =>
      obtain ⟨text, rfl, hspells⟩ := exists_of_escaped? hescaped
      obtain ⟨body, hbody, rfl⟩ := ih h
      exact ⟨_, hspells hbody, by rw [List.cons_append, List.append_assoc]⟩
  | case4 => cases h
  | case5 => cases h
  | case6 taken c cs hquote hslash hc ih =>
      obtain ⟨body, hbody, rfl⟩ := ih h
      exact ⟨c :: body, .plain hquote hslash (Nat.not_lt.1 hc) hbody, rfl⟩

theorem SpellsText.stringBody_append {body : List Char} {s : String} (h : SpellsText body s)
    (rest : List Char) : stringBody [] (body ++ '\x22' :: rest) = .ok (s.toList, rest) := by
  obtain ⟨s', hs'⟩ := (readsString_of_spells h.1).1
  have hwhole := hs' [] []
  rw [h.2] at hwhole
  rw [hs' [] rest, ← (Prod.mk.inj (Except.ok.inj hwhole)).1]

theorem exists_spellsText {cs s rest : List Char} (h : stringBody [] cs = .ok (s, rest)) :
    ∃ body, SpellsText body (String.ofList s) ∧ cs = body ++ '\x22' :: rest := by
  obtain ⟨body, hbody, rfl⟩ := exists_of_stringBody h
  obtain ⟨s', hs'⟩ := (readsString_of_spells hbody).1
  rw [hs' [] rest] at h
  obtain ⟨rfl, -⟩ := Prod.mk.inj (Except.ok.inj h)
  exact ⟨body, ⟨hbody, by rw [hs' [] [], String.toList_ofList]⟩, rfl⟩

open Source

theorem Source.Spells.opens {form : Form} {cs : List Char} (h : Spells form cs) (rest : List Char) :
    Opens (cs ++ rest) := by
  induction h generalizing rest with
  | numeral h =>
      obtain ⟨c, t, rfl, hspace, -, -, -, hobject, harray⟩ := h.exists_cons
      exact opens_cons hspace harray hobject _
  | element hbefore _ _ ih =>
      rw [List.append_assoc, List.append_assoc]
      exact (ih _).blank_append hbefore
  | member hbefore =>
      rw [List.append_assoc]
      exact (opens_cons (by decide) (by decide) (by decide) _).blank_append hbefore
  | lastItem _ ih => exact ih rest
  | lastMember _ ih => exact ih rest
  | item _ _ ih =>
      rw [List.append_assoc]
      exact ih _
  | moreMembers _ _ ih =>
      rw [List.append_assoc]
      exact ih _
  | _ => exact opens_cons (by decide) (by decide) (by decide) _

def Source.Form.IsRead : Form → List Char → Prop
  | .value s, cs | .element s, cs => IsReadAs cs s.value?
  | .member key s, cs => IsMemberReadAs cs key s.value?
  | .items ss, cs => ∀ stack before rest, Continues (readValue (.array before :: stack) (cs ++ ']' :: rest))
      ((valuesIn? ss).map fun js => readAfter stack (.array (before.reverse ++ js)) rest)
  | .members ms, cs => ∀ stack before rest, Continues (readMember stack before (cs ++ '\x7d' :: rest))
      ((valuesUnder? before ms).map fun es => readAfter stack (.object es) rest)

theorem isReadAs_scalar {cs : List Char} {j : Json} (hskip : ∀ rest, skipSpace (cs ++ rest) = cs ++ rest)
    (h : ∀ rest, Ends rest → beginning? (cs ++ rest) = .ok (some (.scalar j, rest))) : IsReadAs cs (some j) :=
  fun _ rest hr => readValue_scalar (by rw [hskip]; exact h rest hr)

theorem SpellsNumber.isReadAs {cs : List Char} (h : SpellsNumber cs) :
    IsReadAs cs (some (.number (numberOf cs))) := by
  obtain ⟨c, t, hcons, hspace, hquote, hbrace, hbracket, -⟩ := h.exists_cons
  refine isReadAs_scalar (fun rest => ?_) fun rest hr => ?_
  · rw [hcons, List.cons_append, skipSpace_cons hspace]
  · have hnumeral := h.numeral_append hr
    rw [hcons, List.cons_append] at hnumeral ⊢
    rw [beginning?.eq_4 _ (fun _ h => hquote (List.cons_eq_cons.1 h).1)
      (fun _ h => hbrace (List.cons_eq_cons.1 h).1) (fun _ h => hbracket (List.cons_eq_cons.1 h).1),
      hnumeral]
    rfl

theorem IsReadAs.item {cs : List Char} {o : Option Json} (h : IsReadAs cs o) {c : Char}
    (hc : c = ',' ∨ c = ']') (stack : List Frame) (before : List Json) (rest : List Char) :
    Continues (readValue (.array before :: stack) (cs ++ c :: rest))
      (o.map fun j => if c = ',' then readValue (.array (j :: before) :: stack) rest
        else readAfter stack (.array (j :: before).reverse) rest) := by
  have hread := h (.array before :: stack) (c :: rest) (ends_cons (hc.imp_right .inl) rest)
  have hspace : isSpace c = false := by rcases hc with rfl | rfl <;> decide
  have hnext (j : Json) : readAfter (.array before :: stack) j (c :: rest) =
      if c = ',' then readValue (.array (j :: before) :: stack) rest
        else readAfter stack (.array (j :: before).reverse) rest := by
    rw [readAfter_array hspace]
    rcases hc with rfl | rfl <;> simp
  simpa only [hnext] using hread

theorem Source.Spells.isRead {form : Form} {cs : List Char} (h : Spells form cs) : form.IsRead cs := by
  induction h with
  | null | true | false => exact isReadAs_scalar (fun _ => rfl) fun _ _ => rfl
  | numeral h => exact h.isReadAs
  | @string body s h =>
      refine isReadAs_scalar (fun _ => skipSpace_cons (by decide) _) fun rest _ => ?_
      rw [List.cons_append, List.append_assoc, List.singleton_append, beginning?, h.stringBody_append]
      simp [Except.map]
  | @emptyArray blank hblank =>
      intro stack rest _
      have hskip : skipSpace (blank ++ [']'] ++ rest) = ']' :: rest := by
        rw [List.append_assoc, skipSpace_append hblank]
        exact skipSpace_cons (by decide) rest
      rw [List.cons_append, readValue_array rfl hskip, if_pos rfl]
      rfl
  | @array ss cs h ih =>
      intro stack rest _
      rw [List.cons_append, List.append_assoc, readValue_bracket (h.opens _), value?, Option.map_map]
      exact ih stack [] rest
  | @emptyObject blank hblank =>
      intro stack rest _
      have hskip : skipSpace (blank ++ ['\x7d'] ++ rest) = '\x7d' :: rest := by
        rw [List.append_assoc, skipSpace_append hblank]
        exact skipSpace_cons (by decide) rest
      rw [List.cons_append, readValue_object rfl hskip, if_pos rfl]
      rfl
  | @object ms cs h ih =>
      intro stack rest _
      rw [List.cons_append, List.append_assoc, readValue_brace (h.opens _), value?, Option.map_map]
      exact ih stack [] rest
  | element hbefore _ hafter ih => exact ih.of_blanks hbefore hafter
  | @lastItem s cs _ ih =>
      intro stack before rest
      have hread := ih.item (.inr rfl) stack before rest
      rw [valuesIn?, valuesIn?]
      cases hs : s.value? with
      | none => rwa [hs] at hread
      | some j => simpa [hs] using hread
  | @item s ss cs cs' _ _ ih ih' =>
      intro stack before rest
      have hread := ih.item (.inl rfl) stack before (cs' ++ ']' :: rest)
      rw [List.append_assoc, List.cons_append, valuesIn?, Option.map_bind]
      refine hread.trans fun j _ => ?_
      rw [if_pos rfl, Function.comp_apply, Option.map_map]
      simpa [Function.comp_def] using ih' stack (j :: before) rest
  | @member key s before body after cs hbefore hbody hafter _ ih =>
      have hmember := ih.toMemberOf hbefore hbody.stringBody_append hafter
      rwa [String.ofList_toList] at hmember
  | @lastMember key s cs _ ih =>
      intro stack before rest
      have hread := readMember_append ih before (.inr rfl) stack rest
      simp only [valuesUnder?, Option.bind_fun_some]
      exact hread
  | @moreMembers key s ms cs cs' _ _ ih ih' =>
      intro stack before rest
      have hread := readMember_append ih before (.inl rfl) stack (cs' ++ '\x7d' :: rest)
      rw [List.append_assoc, List.cons_append, valuesUnder?, Option.map_bind]
      refine hread.trans fun es _ => ?_
      rw [if_pos rfl]
      exact ih' stack es rest

end RecordSieve.Json
