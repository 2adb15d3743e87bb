import RecordSieve.Proofs.Number.NumeralText

namespace RecordSieve

def Number.reread : Number → Number
  | .integer n => .ofInteger n
  | .float x =>
      match integer? x.text with
      | some n => .ofInteger n
      | none => .float x

namespace Magnitude

theorem units_zero : zero.units = 0 * unitsPerOne := by
  simp [units, zero]

theorem ofDecimal?_of_units {m : Magnitude} {n : Nat} (hm : m.units = n * unitsPerOne) :
    ofDecimal? n 0 = some m := by
  rcases Nat.eq_zero_or_pos n with rfl | hn
  · rw [units_injective (hm.trans units_zero.symm)]
    rfl
  · exact ofDecimal?_natural hn hm

end Magnitude

theorem decide_signed_neg {negative : Bool} {n : Nat} (h : negative = true → 0 < n) :
    decide (Binary64.signed negative n < 0) = negative := by
  cases negative with
  | false => simp [Binary64.signed]
  | true => simpa [Binary64.signed] using h rfl

theorem isSafe_signed (negative : Bool) (n : Nat) :
    isSafe (Binary64.signed negative n) = decide (n < 2 ^ 53) := by
  rw [isSafe, Binary64.natAbs_signed]
  exact decide_eq_decide.2 (by simp only [greatestSafe, Nat.pow_eq]; omega)

theorem safeInteger?_toBinary64 (negative : Bool) (n : Nat) : (Decimal.toBinary64 ⟨negative, n, 0⟩).safeInteger? =
    if n < 2 ^ 53 then some (Binary64.signed negative n) else none := by
  split
  · rename_i hlt
    obtain ⟨m, hm⟩ := Magnitude.exists_units_eq hlt
    have hfloat : Decimal.toBinary64 ⟨negative, n, 0⟩ = .finite negative m := by
      rw [Decimal.toBinary64, Magnitude.ofDecimal?_of_units hm]
      rfl
    refine Binary64.safeInteger?_eq_some.2 ⟨?_, by rw [isSafe_signed, decide_eq_true hlt]⟩
    rw [hfloat, Binary64.integer?, hm, Nat.mul_mod_left, if_pos rfl, Nat.mul_div_cancel _ unitsPerOne_pos]
  · rename_i hge
    rw [Option.eq_none_iff_forall_ne_some]
    intro k hk
    obtain ⟨hint, hsafe⟩ := Binary64.safeInteger?_eq_some.1 hk
    obtain ⟨negative', m, hx, hm, -⟩ := Binary64.integer?_eq_some hint
    rw [Decimal.toBinary64] at hx
    cases ho : Magnitude.ofDecimal? n 0 with
    | none => simp [ho, Binary64.ofMagnitude?] at hx
    | some m' =>
        obtain ⟨-, rfl⟩ : negative = negative' ∧ m' = m := by
          simpa [ho, Binary64.ofMagnitude?] using hx
        have hlt := Binary64.natAbs_lt_of_isSafe hsafe
        have := Magnitude.natural_of_round? hlt hm (Magnitude.round?_of_ofDecimal? (by omega) ho)
        omega

theorem toBinary64_natural {negative : Bool} {n : Nat} (h : negative = true → 0 < n) :
    if n < 2 ^ 53 then Decimal.toBinary64 ⟨negative, n, 0⟩ = .ofInt (Binary64.signed negative n)
    else (Decimal.toBinary64 ⟨negative, n, 0⟩).safeInteger? = none := by
  split
  · rename_i hlt
    obtain ⟨m, hm⟩ := Magnitude.exists_units_eq hlt
    have hround : Magnitude.round? (n * unitsPerOne) 1 = some m := by
      rw [← hm, ← Nat.mul_one m.units, m.round?_units 1 (by decide)]
    rw [Decimal.toBinary64, Magnitude.ofDecimal?_of_units hm, Binary64.ofInt, Binary64.ofRatio,
      Binary64.natAbs_signed, decide_signed_neg h, hround]
  · rename_i hge
    rw [safeInteger?_toBinary64, if_neg hge]

namespace NumeralParts

theorem numberOf_natural {negative : Bool} {n : Nat} (h : negative = true → 0 < n) :
    Json.numberOf (natural negative n).text = .ofInteger (Binary64.signed negative n) := by
  have hrounded := toBinary64_natural h
  simp only [Json.numberOf, parse?_text, isInteger_text, decimal_natural, integer?_natural,
    isWhole_natural, Option.elim_some, if_true, Option.getD_some, Number.ofInteger, isSafe_signed,
    decide_eq_true_eq]
  split at hrounded
  · rename_i hlt
    have hsafe := Binary64.safeInteger?_ofInt ((isSafe_signed negative n).trans (decide_eq_true hlt))
    rw [if_pos hlt, hrounded, hsafe]
  · rename_i hge
    rw [if_neg hge, hrounded]

theorem numberOf_of_not_isWhole {p : NumeralParts} (h : p.isWhole = false) :
    Json.numberOf p.text = .float p.decimal.toBinary64 := by
  simp only [Json.numberOf, parse?_text, isInteger_text, h, Bool.false_eq_true, if_false,
    Option.elim_some]

end NumeralParts

def Number.isFinite : Number → Bool
  | .integer _ => true
  | .float x => x.isFinite

namespace NumeralParts

def IsTextOf (p : NumeralParts) (n : Number) : Prop :=
  p.text = Json.numberText n ∧ Json.numberOf p.text = n.reread

theorem isTextOf_integer (n : Int) : (natural (decide (n < 0)) n.natAbs).IsTextOf (.integer n) := by
  refine ⟨text_natural_int n, ?_⟩
  rw [numberOf_natural (fun h => by have := of_decide_eq_true h; omega), Binary64.signed_natAbs]
  rfl

theorem isTextOf_natural {negative : Bool} {n : Nat} (h : negative = true → 0 < n) {x : Binary64}
    (hx : x.isFinite = true) (htext : (natural negative n).text = x.text) :
    (natural negative n).IsTextOf (.float x) := by
  refine ⟨by rw [htext, Json.numberText, if_pos hx], ?_⟩
  rw [numberOf_natural h, Number.reread, ← htext, integer?_natural]

theorem isTextOf_of_not_isWhole {p : NumeralParts} (h : p.isWhole = false) {x : Binary64}
    (hx : x.isFinite = true) (htext : p.text = x.text) (hread : p.decimal.toBinary64 = x) :
    p.IsTextOf (.float x) := by
  refine ⟨by rw [htext, Json.numberText, if_pos hx], ?_⟩
  have hnone : integer? x.text = none := by rw [← htext, integer?_text, h]; rfl
  rw [numberOf_of_not_isWhole h, Number.reread, hnone, hread]

theorem exists_text {x : Binary64} (hx : x.isFinite = true) :
    (∃ negative n, (negative = true → 0 < n) ∧ (natural negative n).text = x.text) ∨
      ∃ p : NumeralParts, p.isWhole = false ∧ p.text = x.text ∧ p.decimal.toBinary64 = x := by
  rcases x with _ | _ | ⟨negative, m⟩
  · cases hx
  · cases hx
  · rcases Nat.eq_zero_or_pos m.units with hm | hm
    · refine .inl ⟨false, 0, by decide, ?_⟩
      rw [Binary64.text, if_pos hm]
      rfl
    · obtain ⟨p, htext, hsign, hread, hwhole⟩ := exists_text_of_pos negative hm
      cases hp : p.isWhole with
      | true =>
          obtain ⟨n, rfl⟩ := hwhole hp
          refine .inl ⟨negative, n, fun _ => Nat.pos_of_ne_zero fun h0 => ?_, htext⟩
          rw [decimal_natural, h0, Magnitude.ofDecimal?_of_units Magnitude.units_zero] at hread
          rw [← Option.some.inj hread, Magnitude.units_zero, Nat.zero_mul] at hm
          exact absurd hm (Nat.lt_irrefl 0)
      | false =>
          refine .inr ⟨p, hp, htext, ?_⟩
          rw [Decimal.toBinary64, hread, show p.decimal.negative = negative from hsign]
          rfl

theorem exists_isTextOf {n : Number} (h : n.isFinite = true) : ∃ p : NumeralParts, p.IsTextOf n := by
  cases n with
  | integer n => exact ⟨_, isTextOf_integer n⟩
  | float x =>
      rcases exists_text h with ⟨negative, n, hn, htext⟩ | ⟨p, hp, htext, hread⟩
      · exact ⟨_, isTextOf_natural hn h htext⟩
      · exact ⟨p, isTextOf_of_not_isWhole hp h htext hread⟩

theorem text_eq_of_integer? {x : Binary64} (hx : x.isFinite = true) {n : Int}
    (h : integer? x.text = some n) : x.text = intText n := by
  rcases exists_text hx with ⟨negative, k, hk, htext⟩ | ⟨p, hp, htext, -⟩
  · rw [← htext, integer?_natural, Option.some.injEq] at h
    rw [← htext, ← h, text_natural, intText_eq, decide_signed_neg hk, Binary64.natAbs_signed]
  · rw [← htext, integer?_text, hp] at h
    cases h

end NumeralParts

end RecordSieve
