import RecordSieve.Proofs.Json.Grammar
import RecordSieve.Proofs.Number.Nearest
import RecordSieve.Proofs.Query.Coverage
import RecordSieve.Proofs.Query.Printing

namespace RecordSieve

def Decimal.value (d : Decimal) : ℚ := if d.negative then -d.size else d.size

namespace NumeralParts

variable {p : NumeralParts}

def Denotes (p : NumeralParts) (v : Value) : Prop :=
  if p.fraction = [] then ∃ n : ℤ, v = .integer n ∧ (n : ℚ) = p.decimal.value
  else ∃ x, p.decimal.RoundsTo x ∧ v = .ofBinary64 x

theorem decimal_of_isWhole (h : p.isWhole = true) : p.decimal = ⟨p.negative, digitsValue p.whole, 0⟩ := by
  obtain ⟨hf, hp⟩ := p.isWhole_iff.1 h
  rw [decimal, hf, hp, List.append_nil]
  rfl

theorem ofJson_numberOf_of_isWhole (h : p.isWhole = true) : Value.ofJson (.number (Json.numberOf p.text)) =
    .integer (Binary64.signed p.negative (digitsValue p.whole)) := by
  simp only [Json.numberOf, parse?_text, isInteger_text, integer?_text, h, decimal_of_isWhole h,
    Option.elim_some, if_true, Option.getD_some]
  have hsafe := safeInteger?_toBinary64 p.negative (digitsValue p.whole)
  split at hsafe
  · rw [hsafe, Value.ofJson, Value.ofBinary64, hsafe]
  · rw [hsafe, Value.ofJson]

theorem parse_eq_number (p : NumeralParts) :
    Json.parse (String.ofList p.text) = .ok (.number (Json.numberOf p.text)) := by
  have h := (Json.isReadAs_numeral (Json.spellsNumeral_text p)).toOption_parse
  cases hp : Json.parse (String.ofList p.text) with
  | error e => rw [hp] at h; cases h
  | ok j => rw [hp] at h; rw [Option.some.inj h]

theorem denotes_of_isWhole (h : p.isWhole = true) :
    p.Denotes (.integer (Binary64.signed p.negative (digitsValue p.whole))) := by
  rw [Denotes, if_pos (p.isWhole_iff.1 h).1, decimal_of_isWhole h]
  refine ⟨_, rfl, ?_⟩
  rw [Decimal.value, Decimal.size, zpow_zero, mul_one, Binary64.signed]
  split <;> simp

theorem denotes_of_ne_nil (h : p.fraction ≠ []) : p.Denotes (.ofBinary64 p.decimal.toBinary64) := by
  rw [Denotes, if_neg h]
  exact ⟨_, Decimal.roundsTo_iff.2 rfl, rfl⟩

end NumeralParts

namespace Query

variable {p : NumeralParts}

theorem scan_numeral (hp : p.power = none) (position : ℕ) : scan position p.text =
    .ok [⟨.number, String.ofList p.text, position⟩, endAt (position + Text.widths p.text)] := by
  have hclosed : Closed .number [] := by rintro _ ⟨⟩
  have h := scan_token position (spells_numeral hp) hclosed
  rw [List.append_nil, scan_nil] at h
  exact h

/-- A numeral is one token, and what an operand with this text stands for is what JSON text is read as. -/
theorem numeral_value_eq_ofJson (hp : p.power = none) (position : ℕ) :
    let t : Token := ⟨.number, String.ofList p.text, position⟩
    scan position p.text = .ok [t, endAt (position + Text.widths p.text)] ∧
      (∃ j, Json.parse (String.ofList p.text) = .ok j ∧ t.value = .ofJson j) ∧ p.Denotes t.value := by
  intro t
  refine ⟨scan_numeral hp position, ?_⟩
  by_cases hf : p.fraction = []
  · have hwhole : p.isWhole = true := p.isWhole_iff.2 ⟨hf, hp⟩
    have hvalue : t.value = .integer (Binary64.signed p.negative (digitsValue p.whole)) :=
      value_of_bareNumber? (by rw [String.toList_ofList]; exact bareNumber?_of_isWhole hwhole) position
    rw [hvalue]
    exact ⟨⟨_, p.parse_eq_number, (NumeralParts.ofJson_numberOf_of_isWhole hwhole).symm⟩,
      NumeralParts.denotes_of_isWhole hwhole⟩
  · have hwhole : p.isWhole = false := Bool.eq_false_iff.2 fun h => hf (p.isWhole_iff.1 h).1
    have hvalue : t.value = .ofBinary64 p.decimal.toBinary64 :=
      value_of_bareNumber? (by rw [String.toList_ofList]; exact bareNumber?_of_ne_nil hp hf) position
    rw [hvalue]
    refine ⟨⟨_, p.parse_eq_number, ?_⟩, NumeralParts.denotes_of_ne_nil hf⟩
    rw [NumeralParts.numberOf_of_not_isWhole hwhole]
    rfl

theorem numeral_value_eq_ofJson_unsafe :
    let p := NumeralParts.natural true 9007199254740993
    let t : Token := ⟨.number, String.ofList p.text, 5⟩
    p.power = none ∧ p.text = "-9007199254740993".toList ∧
      scan 5 p.text = .ok [t, endAt (5 + Text.widths p.text)] ∧
      (∃ j, Json.parse (String.ofList p.text) = .ok j ∧ t.value = .ofJson j) ∧ p.Denotes t.value :=
  ⟨rfl, by decide +kernel, numeral_value_eq_ofJson rfl 5⟩

end Query

end RecordSieve
