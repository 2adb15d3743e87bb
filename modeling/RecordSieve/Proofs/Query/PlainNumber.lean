import RecordSieve.Proofs.Query.NumberReading

namespace RecordSieve

theorem Decimal.value_mul_pow (negative : Bool) (c k : ℕ) (e : ℤ) :
    (⟨negative, c * 10 ^ k, e - k⟩ : Decimal).value = (⟨negative, c, e⟩ : Decimal).value := by
  have hsize : ((c * 10 ^ k : ℕ) : ℚ) * 10 ^ (e - k) = c * 10 ^ e := by
    have hpow : (10 : ℚ) ^ (k : ℤ) * 10 ^ (e - k) = 10 ^ e := by
      rw [← zpow_add₀ (by norm_num), add_sub_cancel]
    rw [Nat.cast_mul, Nat.cast_pow, Nat.cast_ofNat, mul_assoc, ← zpow_natCast, hpow]
  simp only [value, size, hsize]

namespace Query

def IsIntegerForm (cs : List Char) : Prop :=
  ∃ negative digits, digits ≠ [] ∧ digits.all Char.isDigit = true ∧ cs = signText negative ++ digits

inductive IsDecimalForm : List Char → Prop
  | whole (negative : Bool) {digits : List Char} : digits ≠ [] → digits.all Char.isDigit = true →
      IsDecimalForm (signText negative ++ digits)
  | point (negative : Bool) {whole fraction : List Char} : whole ≠ [] ∨ fraction ≠ [] →
      whole.all Char.isDigit = true → fraction.all Char.isDigit = true →
      IsDecimalForm (signText negative ++ (whole ++ '.' :: fraction))

theorem signText_splitMinus (cs : List Char) : signText (splitMinus cs).1 ++ (splitMinus cs).2 = cs := by
  unfold splitMinus
  split <;> rfl

theorem isIntegerForm_iff {cs : List Char} : IsIntegerForm cs ↔
    (splitMinus cs).2 ≠ [] ∧ (splitMinus cs).2.all Char.isDigit = true := by
  constructor
  · rintro ⟨negative, digits, hne, hd, rfl⟩
    have hsplit : splitMinus (signText negative ++ digits) = (negative, digits) := by
      simpa using splitMinus_signText hne hd []
    rw [hsplit]
    exact ⟨hne, hd⟩
  · rintro ⟨hne, hd⟩
    exact ⟨_, _, hne, hd, (signText_splitMinus cs).symm⟩

theorem forms_of_unsignedDecimal? {cs : List Char} {c k : ℕ} (h : unsignedDecimal? cs = some (c, k, [])) :
    (cs ≠ [] ∧ cs.all Char.isDigit = true) ∨ ∃ whole fraction, (whole ≠ [] ∨ fraction ≠ []) ∧
      whole.all Char.isDigit = true ∧ fraction.all Char.isDigit = true ∧ cs = whole ++ '.' :: fraction := by
  have hsplit := List.takeWhile_append_dropWhile (p := Char.isDigit) (l := cs)
  have hwhole : (cs.takeWhile Char.isDigit).all Char.isDigit = true := List.all_takeWhile
  rw [unsignedDecimal?] at h
  split at h
  · rename_i rest hrest
    dsimp only at h
    have hfraction : (rest.takeWhile Char.isDigit).all Char.isDigit = true := List.all_takeWhile
    split at h
    · cases h
    · rename_i hne
      obtain ⟨-, -, hend⟩ : _ ∧ _ ∧ rest.dropWhile Char.isDigit = [] := by simpa using h
      have hall : rest.takeWhile Char.isDigit = rest := by
        have := List.takeWhile_append_dropWhile (p := Char.isDigit) (l := rest)
        rwa [hend, List.append_nil] at this
      rw [hall] at hne hfraction
      exact .inr ⟨_, rest, not_and_or.1 hne, hwhole, hfraction, by rw [← hrest, hsplit]⟩
  · split at h
    · cases h
    · rename_i hne
      obtain ⟨-, -, hend⟩ : _ ∧ _ ∧ cs.dropWhile Char.isDigit = [] := by simpa using h
      rw [hend, List.append_nil] at hsplit
      rw [hsplit] at hne hwhole
      exact .inl ⟨hne, hwhole⟩

theorem isDecimalForm_iff {cs : List Char} : IsDecimalForm cs ↔ (bareNumber? cs).isSome = true := by
  constructor
  · rintro (⟨negative, hne, hd⟩ | ⟨negative, hne, hw, hf⟩)
    · rw [bareNumber?_digits hne hd]
      rfl
    · rw [bareNumber?_point hne hw hf]
      rfl
  · intro h
    rw [← signText_splitMinus cs]
    generalize hsplit : splitMinus cs = parts at h ⊢
    simp only [bareNumber?, hsplit] at h
    split at h
    · rename_i hwhole
      exact .whole _ hwhole.1 hwhole.2
    · split at h
      · rename_i hread
        rcases forms_of_unsignedDecimal? hread with ⟨hne, hd⟩ | ⟨whole, fraction, hne, hw, hf, hbody⟩
        · exact .whole _ hne hd
        · rw [hbody]
          exact .point _ hne hw hf
      · cases h

theorem isIntegerForm_text_iff (p : NumeralParts) : IsIntegerForm p.text ↔ p.isWhole = true := by
  have hne : p.whole ++ (p.fractionText ++ p.powerText) ≠ [] := fun h =>
    p.ne_nil (List.append_eq_nil_iff.1 h).1
  rw [isIntegerForm_iff, NumeralParts.text, splitMinus_signText p.ne_nil p.whole_digits, List.all_append,
    p.whole_digits, Bool.true_and, p.all_isDigit_tail]
  exact and_iff_right hne

theorem isDecimalForm_text {p : NumeralParts} (hp : p.power = none) : IsDecimalForm p.text := by
  by_cases hf : p.fraction = []
  · rw [p.text_of_isWhole (p.isWhole_iff.2 ⟨hf, hp⟩)]
    exact .whole p.negative p.ne_nil p.whole_digits
  · rw [NumeralParts.text, NumeralParts.fractionText, NumeralParts.powerText, if_neg hf, hp, List.append_nil]
    exact .point p.negative (.inl p.ne_nil) p.whole_digits p.fraction_digits

theorem exists_parts_of_floatText (path : Path) (negative : Bool) (m : Magnitude) :
    let x := Binary64.finite negative m
    ∃ p : NumeralParts, floatText path x = .ok (String.ofList p.text) ∧ p.power = none ∧
      p.isWhole = x.safeInteger?.isSome ∧
      ∃ d, Decimal.parse? x.text = some d ∧ p.decimal.value = d.value := by
  intro x
  cases hs : x.safeInteger? with
  | some n =>
      have htext := NumeralParts.text_natural_int n
      refine ⟨.natural (decide (n < 0)) n.natAbs, ?_, rfl, rfl, _, ?_, rfl⟩
      · rw [floatText_of_safeInteger? hs, htext]
      · rw [Binary64.text_eq_intText hs, ← htext, NumeralParts.parse?_text]
  | none =>
      obtain ⟨p, htext, hpower, hfraction, k, hdecimal⟩ := exists_floatText path hs
      obtain ⟨k', hparse⟩ := Binary64.exists_parse?_text negative (pos_of_safeInteger?_eq_none hs)
      refine ⟨p, htext, hpower, ?_, _, hparse, ?_⟩
      · exact Bool.eq_false_iff.2 fun h => hfraction (p.isWhole_iff.1 h).1
      · rw [hdecimal, Decimal.value_mul_pow, Decimal.value_mul_pow]

/-- The text of a finite number is a plain decimal and one token. It stands for the same number as the
shortest text, has an integer form exactly for safe integers and else a decimal form, and is read as the
number in its canonical kind. -/
theorem floatText_plain (path : Path) (negative : Bool) (m : Magnitude) :
    let x := Binary64.finite negative m
    ∃ p : NumeralParts, p.power = none ∧ floatText path x = .ok (String.ofList p.text) ∧
      tokenize (String.ofList p.text) =
        .ok [⟨.number, String.ofList p.text, 0⟩, endAt (Text.widths p.text)] ∧
      (∃ d d', Decimal.parse? x.text = some d ∧ Decimal.parse? p.text = some d' ∧ d'.value = d.value) ∧
      (IsIntegerForm p.text ↔ x.safeInteger?.isSome = true) ∧
      (x.safeInteger? = none → IsDecimalForm p.text) ∧
      (⟨.number, String.ofList p.text, 0⟩ : Token).value = .ofBinary64 x := by
  intro x
  obtain ⟨p, htext, hpower, hwhole, d, hparse, hvalue⟩ := exists_parts_of_floatText path negative m
  have htokens := scan_numeral hpower 0
  refine ⟨p, hpower, htext, ?_, ⟨d, _, hparse, p.parse?_text, hvalue⟩, ?_, fun _ => isDecimalForm_text hpower, ?_⟩
  · rw [tokenize, String.toList_ofList, htokens, Nat.zero_add]
  · rw [isIntegerForm_text_iff, hwhole]
  · exact value_of_bareNumber? (floatText_reads htext).1 0

end Query

end RecordSieve
