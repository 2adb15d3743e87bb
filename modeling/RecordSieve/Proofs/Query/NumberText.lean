import RecordSieve.Proofs.Number.Expansion
import RecordSieve.Proofs.Query.Lexing
import RecordSieve.Query.Parser

namespace RecordSieve.Query

section Reading

variable {negative : Bool} {whole fraction : List Char}

theorem splitMinus_signText_append (negative : Bool) {body : List Char} (h : body.head? ≠ some '-') :
    splitMinus (signText negative ++ body) = (negative, body) := by
  cases negative with
  | true => rfl
  | false =>
      refine splitMinus.eq_2 _ fun cs hcs => h ?_
      rw [show body = '-' :: cs from hcs]
      rfl

theorem head?_digits_append {digits : List Char} (hd : digits.all Char.isDigit = true) {rest : List Char}
    (hr : rest.head? ≠ some '-') : (digits ++ rest).head? ≠ some '-' := by
  cases digits with
  | nil => exact hr
  | cons c cs =>
      rintro ⟨⟩
      simp at hd

theorem splitMinus_signText (hne : whole ≠ []) (hw : whole.all Char.isDigit = true)
    (rest : List Char) :
    splitMinus (signText negative ++ (whole ++ rest)) = (negative, whole ++ rest) := by
  obtain ⟨c, cs, rfl⟩ := List.exists_cons_of_ne_nil hne
  refine splitMinus_signText_append negative ?_
  rintro ⟨⟩
  simp at hw

theorem bareNumber?_digits (hne : whole ≠ []) (hw : whole.all Char.isDigit = true) :
    bareNumber? (signText negative ++ whole) =
      some (.integer (Binary64.signed negative (digitsValue whole))) := by
  have hs : splitMinus (signText negative ++ whole) = (negative, whole) := by
    simpa using splitMinus_signText hne hw []
  simp only [bareNumber?, hs]
  rw [if_pos ⟨hne, hw⟩]

theorem bareNumber?_point (hne : whole ≠ [] ∨ fraction ≠ []) (hw : whole.all Char.isDigit = true)
    (hf : fraction.all Char.isDigit = true) :
    bareNumber? (signText negative ++ (whole ++ '.' :: fraction)) = some (.ofBinary64
      (Decimal.toBinary64 ⟨negative, digitsValue (whole ++ fraction), -(fraction.length : Int)⟩)) := by
  have hhead : (whole ++ '.' :: fraction).head? ≠ some '-' := head?_digits_append hw (by simp)
  simp only [bareNumber?, splitMinus_signText_append negative hhead, unsignedDecimal?_point hne hw hf]
  rw [if_neg (by simp)]

theorem spells_number (hne : whole ≠ []) (hw : whole.all Char.isDigit = true) {rest : List Char}
    (hr : rest.all isNumeral = true) :
    Spells .number (signText negative ++ (whole ++ rest)) (signText negative ++ (whole ++ rest)) := by
  have hsign : signText negative = [] ∨ signText negative = ['-'] := by
    cases negative <;> simp [signText]
  have hall : (whole ++ rest).all isNumeral = true := by
    rw [List.all_append, Bool.and_eq_true]
    refine ⟨List.all_eq_true.2 fun c hc => ?_, hr⟩
    simp [isNumeral, List.all_eq_true.1 hw c hc]
  have hbegins : beginsNumber (whole ++ rest) = true := by
    obtain ⟨c, cs, rfl⟩ := List.exists_cons_of_ne_nil hne
    have hc := List.all_eq_true.1 hw c (by simp)
    have hp : c ≠ '.' := by
      rintro rfl
      simp at hc
    rw [List.cons_append, beginsNumber.eq_2 _ _ fun _ _ h _ => hp h]
    exact hc
  exact .number hsign hbegins hall

end Reading

theorem bareNumber?_intText (n : Int) : bareNumber? (intText n) = some (.integer n) := by
  rw [intText_eq, bareNumber?_digits (digitsOf_ne_nil _) (all_isDigit_digitsOf _),
    digitsValue_digitsOf, Binary64.signed_natAbs]

theorem spells_intText (n : Int) : Spells .number (intText n) (intText n) := by
  rw [intText_eq, ← List.append_nil (digitsOf n.natAbs)]
  exact spells_number (digitsOf_ne_nil _) (all_isDigit_digitsOf _) rfl

theorem all_isNumeral_point {fraction : List Char} (hf : fraction.all Char.isDigit = true) :
    ('.' :: fraction).all isNumeral = true := by
  refine List.all_eq_true.2 (List.forall_mem_cons.2 ⟨by decide, fun c hc => ?_⟩)
  simp [isNumeral, List.all_eq_true.1 hf c hc]

section Numerals

variable {p : NumeralParts}

theorem bareNumber?_of_isWhole (h : p.isWhole = true) :
    bareNumber? p.text = some (.integer (Binary64.signed p.negative (digitsValue p.whole))) := by
  rw [p.text_of_isWhole h]
  exact bareNumber?_digits p.ne_nil p.whole_digits

theorem bareNumber?_of_ne_nil (hp : p.power = none) (h : p.fraction ≠ []) :
    bareNumber? p.text = some (.ofBinary64 p.decimal.toBinary64) := by
  rw [NumeralParts.text, NumeralParts.fractionText, NumeralParts.powerText, if_neg h, hp, List.append_nil,
    bareNumber?_point (.inl p.ne_nil) p.whole_digits p.fraction_digits, NumeralParts.decimal, hp,
    Option.getD_none, Int.zero_sub]

theorem spells_numeral (hp : p.power = none) : Spells .number p.text p.text := by
  have hall : (p.fractionText ++ p.powerText).all isNumeral = true := by
    rw [NumeralParts.fractionText, NumeralParts.powerText, hp, List.append_nil]
    split
    · rfl
    · exact all_isNumeral_point p.fraction_digits
  exact spells_number p.ne_nil p.whole_digits hall

end Numerals

theorem toBinary64_of_reads {negative : Bool} {m : Magnitude} {c : Nat} {e : Int}
    (h : Magnitude.ofDecimal? c e = some m) :
    Decimal.toBinary64 ⟨negative, c, e⟩ = .finite negative m := by
  rw [Decimal.toBinary64, h]
  rfl

theorem floatText_of_safeInteger? {path : Path} {x : Binary64} {n : Int}
    (h : x.safeInteger? = some n) : floatText path x = .ok (String.ofList (intText n)) := by
  obtain ⟨hint, hsafe⟩ := Binary64.safeInteger?_eq_some.1 h
  obtain ⟨negative, m, rfl, -, -⟩ := Binary64.integer?_eq_some hint
  have hplain : expandPower (intText n) = intText n := by
    rw [← NumeralParts.text_natural_int, NumeralParts.expandPower_text]
    rfl
  simp [floatText, hint, hsafe, Binary64.text_eq_intText h, hplain]

theorem pos_of_safeInteger?_eq_none {negative : Bool} {m : Magnitude}
    (h : (Binary64.finite negative m).safeInteger? = none) : 0 < m.units := by
  refine Nat.pos_of_ne_zero fun h0 => ?_
  have hzero : (Binary64.finite negative m).integer? = some 0 := by
    cases negative <;> simp [Binary64.integer?, h0, Binary64.signed]
  have hsafe : isSafe 0 = true := by decide
  simp [Binary64.safeInteger?, hzero, hsafe] at h

theorem exponent_nonneg_iff (negative : Bool) {m : Magnitude} (hm : 0 < m.units) :
    0 ≤ m.numeral.2 ↔ (Binary64.finite negative m).integer?.isSome = true := by
  rw [← Magnitude.unitsPerOne_dvd_units_iff hm, Nat.dvd_iff_mod_eq_zero, Binary64.integer?]
  split <;> simp_all

theorem exists_floatText {negative : Bool} {m : Magnitude} (path : Path)
    (h : (Binary64.finite negative m).safeInteger? = none) :
    ∃ p : NumeralParts, floatText path (.finite negative m) = .ok (String.ofList p.text) ∧ p.power = none ∧
      p.fraction ≠ [] ∧ ∃ k : Nat, p.decimal = ⟨negative, m.numeral.1 * 10 ^ k, m.numeral.2 - k⟩ := by
  have hm := pos_of_safeInteger?_eq_none h
  obtain ⟨p, htext, hpower, hdecimal, hshape⟩ :=
    NumeralParts.exists_positional negative (Magnitude.numeral_pos hm) m.numeral.2
  have hplain : expandPower (Binary64.finite negative m).text = p.text := by
    rw [Binary64.expandPower_text negative hm, htext]
  have hexponent := exponent_nonneg_iff negative hm
  cases hint : (Binary64.finite negative m).integer? with
  | none =>
      have he : ¬ 0 ≤ m.numeral.2 := by simp [hexponent, hint]
      rw [if_neg he] at hshape
      refine ⟨p, ?_, hpower, hshape, _, hdecimal⟩
      simp [floatText, hint, hplain]
  | some n =>
      have he : 0 ≤ m.numeral.2 := by simp [hexponent, hint]
      have hunsafe : isSafe n = false := by simpa [Binary64.safeInteger?, hint] using h
      rw [if_pos he] at hshape
      refine ⟨.withPoint negative (m.numeral.1 * 10 ^ m.numeral.2.toNat), ?_, rfl, by simp [NumeralParts.withPoint],
        m.numeral.2.toNat + 1, ?_⟩
      · rw [NumeralParts.text_withPoint, ← hshape]
        simp [floatText, hint, hunsafe, hplain]
      · rw [NumeralParts.decimal_withPoint, Nat.pow_succ, Nat.mul_assoc]
        congr 1
        omega

theorem floatText_reads {path : Path} {x : Binary64} {text : String}
    (h : floatText path x = .ok text) :
    bareNumber? text.toList = some (.ofBinary64 x) ∧ Spells .number text.toList text.toList := by
  cases hs : x.safeInteger? with
  | some n =>
      rw [floatText_of_safeInteger? hs, Except.ok.injEq] at h
      subst h
      rw [String.toList_ofList, bareNumber?_intText, Value.ofBinary64, hs]
      exact ⟨rfl, spells_intText n⟩
  | none =>
      cases x with
      | nan => simp [floatText] at h
      | infinite => simp [floatText] at h
      | finite negative m =>
          obtain ⟨p, htext, hpower, hfraction, k, hdecimal⟩ := exists_floatText path hs
          have hreads := Magnitude.numeral_reads (pos_of_safeInteger?_eq_none hs)
          rw [htext, Except.ok.injEq] at h
          subst h
          rw [← Magnitude.ofDecimal?_mul_pow] at hreads
          rw [String.toList_ofList, bareNumber?_of_ne_nil hpower hfraction, hdecimal,
            toBinary64_of_reads hreads]
          exact ⟨rfl, spells_numeral hpower⟩

end RecordSieve.Query
