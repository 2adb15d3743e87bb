import RecordSieve.Proofs.Number.NumeralText

namespace RecordSieve

namespace NumeralParts

theorem signedPower?_powerText (p : NumeralParts) : signedPower? p.powerText = p.power := by
  rw [powerText]
  cases p.power with
  | none => rfl
  | some e =>
      have hsign : (if e < 0 then '-' else '+') = '+' ∨ (if e < 0 then '-' else '+') = '-' := by
        by_cases h : e < 0 <;> simp [h]
      have hnegative : decide ((if e < 0 then '-' else '+') = '-') = decide (e < 0) := by
        by_cases h : e < 0 <;> simp [h]
      rw [signedPower?, if_pos ⟨hsign, digitsOf_ne_nil _, all_isDigit_digitsOf _⟩, hnegative,
        digitsValue_digitsOf, Binary64.signed_natAbs]

theorem ofUnsigned?_text (p : NumeralParts) :
    Scientific.ofUnsigned? p.negative (p.whole ++ (p.fractionText ++ p.powerText)) =
      p.power.map fun power => ⟨p.negative, p.whole, p.fraction, power⟩ := by
  have hpower := p.ends_powerText_append ends_nil
  rw [List.append_nil] at hpower
  obtain ⟨hwhole, hrest⟩ := takeWhile_isDigit_append _ p.whole_digits (p.not_isDigit_fractionText_append hpower)
  rw [Scientific.ofUnsigned?, hwhole, hrest]
  simp only [p.ne_nil, if_false]
  by_cases hf : p.fraction = []
  · have hnone : ∀ cs, p.powerText ≠ '.' :: cs := fun cs h => by simp [h] at hpower
    rw [fractionText, if_pos hf, List.nil_append, hf]
    split
    · exact absurd ‹_› (hnone _)
    · rw [signedPower?_powerText]
  · obtain ⟨htake, hdrop⟩ := takeWhile_isDigit_append _ p.fraction_digits fun c hc => (hpower c hc).1
    rw [fractionText, if_neg hf, List.cons_append]
    simp only [htake, hdrop, hf, if_false, signedPower?_powerText]

theorem scientific_of?_text (p : NumeralParts) :
    Scientific.of? p.text = p.power.map fun power => ⟨p.negative, p.whole, p.fraction, power⟩ := by
  obtain ⟨c, cs, hwhole, hc⟩ := p.exists_whole
  have hminus : c ≠ '-' := by rintro rfl; simp at hc
  rw [← ofUnsigned?_text, text, signText]
  cases p.negative with
  | true => rfl
  | false =>
      rw [hwhole]
      exact Scientific.of?.eq_2 _ fun _ h => hminus (List.cons_eq_cons.1 h).1

theorem expandPower_text (p : NumeralParts) : expandPower p.text = match p.power with
    | none => p.text
    | some power => signText p.negative ++ positional (p.whole ++ p.fraction) (p.whole.length + power) := by
  rw [expandPower, scientific_of?_text]
  cases p.power <;> rfl

example : expandPower "-1.5e-7".toList = "-0.00000015".toList := by decide

end NumeralParts

theorem Binary64.exists_parse?_text (negative : Bool) {m : Magnitude} (hm : 0 < m.units) :
    ∃ k : Nat, Decimal.parse? (finite negative m).text =
      some ⟨negative, m.numeral.1 * 10 ^ k, m.numeral.2 - k⟩ := by
  have hpos := Magnitude.numeral_pos hm
  rw [NumeralParts.text_of_pos negative hm, Layout.text]
  split
  · obtain ⟨p, htext, -, hdecimal, -⟩ := NumeralParts.exists_positional negative hpos m.numeral.2
    exact ⟨_, by rw [← htext, p.parse?_text, hdecimal]⟩
  · obtain ⟨p, htext, -, hdecimal, -⟩ := NumeralParts.exists_scientific negative hpos m.numeral.2
    exact ⟨0, by rw [← htext, p.parse?_text, hdecimal, Nat.pow_zero, Nat.mul_one, Nat.cast_zero, Int.sub_zero]⟩

theorem Binary64.expandPower_text (negative : Bool) {m : Magnitude} (hm : 0 < m.units) :
    expandPower (finite negative m).text = signText negative ++
      positional (digitsOf m.numeral.1) ((digitsOf m.numeral.1).length + m.numeral.2) := by
  have hpos := Magnitude.numeral_pos hm
  rw [NumeralParts.text_of_pos negative hm, Layout.text]
  split
  · obtain ⟨p, htext, hpower, -⟩ := NumeralParts.exists_positional negative hpos m.numeral.2
    rw [← htext, p.expandPower_text, hpower]
  · obtain ⟨p, htext, hpower, hdecimal, hlength, hdigits⟩ :=
      NumeralParts.exists_scientific negative hpos m.numeral.2
    have hnegative : p.negative = negative := congrArg Decimal.negative hdecimal
    have hpoint : ((1 : Nat) : Int) + ((digitsOf m.numeral.1).length + m.numeral.2 - 1) =
        (digitsOf m.numeral.1).length + m.numeral.2 := by omega
    rw [← htext, p.expandPower_text, hpower]
    dsimp only
    rw [hdigits, hlength, hnegative, hpoint]

end RecordSieve
