import RecordSieve.Number.Decimal
import Mathlib.Tactic.Ring

namespace RecordSieve

theorem digitsValue_digitsOf (n : Nat) : digitsValue (digitsOf n) = n := Nat.ofDigitChars_ten_toDigits

theorem all_isDigit_digitsOf (n : Nat) : (digitsOf n).all Char.isDigit = true :=
  List.all_eq_true.2 fun _ h => Nat.isDigit_of_mem_toDigits (by decide) (by decide) h

theorem digitsOf_ne_nil (n : Nat) : digitsOf n ≠ [] := Nat.toDigits_ne_nil

theorem digitsValue_append (as bs : List Char) :
    digitsValue (as ++ bs) = 10 ^ bs.length * digitsValue as + digitsValue bs := by
  rw [digitsValue, Nat.ofDigitChars_append, Nat.ofDigitChars_eq_ofDigitChars_zero]
  rfl

theorem digitsValue_zeros (n : Nat) : digitsValue (List.replicate n '0') = 0 := by
  simp [digitsValue]

theorem all_isDigit_zeros (n : Nat) : (List.replicate n '0').all Char.isDigit = true := by
  simp

theorem digitsOf_mul_ten {n : Nat} (hn : 0 < n) : digitsOf (n * 10) = digitsOf n ++ ['0'] := by
  have h := Nat.toDigits_append_toDigits (b := 10) (d := 0) (by decide) hn (by decide)
  rw [Nat.add_zero, Nat.mul_comm] at h
  exact h.symm

theorem digitsOf_mul_pow {n : Nat} (hn : 0 < n) (k : Nat) :
    digitsOf (n * 10 ^ k) = digitsOf n ++ List.replicate k '0' := by
  induction k with
  | zero => simp
  | succ k ih =>
      have hp : 0 < n * 10 ^ k := Nat.mul_pos hn (Nat.pow_pos (by decide))
      rw [Nat.pow_succ, ← Nat.mul_assoc, digitsOf_mul_ten hp, ih, List.append_assoc,
        List.replicate_succ']

theorem head?_digitsOf_ne_zero {n : Nat} (hn : 0 < n) : (digitsOf n).head? ≠ some '0' := by
  induction n using Nat.strongRecOn with
  | _ n ih =>
      by_cases hlt : n < 10
      · rw [digitsOf, Nat.toDigits_of_lt_base hlt]
        have hdigits : ∀ k < 10, 0 < k → [Nat.digitChar k].head? ≠ some '0' := by decide
        exact hdigits n hlt hn
      · have hrec := ih (n / 10) (by omega) (by omega)
        obtain ⟨c, cs, hc⟩ := List.exists_cons_of_ne_nil (digitsOf_ne_nil (n / 10))
        rw [digitsOf, Nat.toDigits_of_base_le (by decide) (by omega), ← digitsOf, hc]
        rwa [hc] at hrec

theorem digitsOf_lead {n : Nat} (h : (digitsOf n).head? = some '0') : digitsOf n = ['0'] := by
  rcases Nat.eq_zero_or_pos n with rfl | hn
  · rfl
  · exact absurd h (head?_digitsOf_ne_zero hn)

theorem digitCount_eq {n : Nat} (hn : 0 < n) : digitCount n = (digitsOf n).length :=
  if_neg (by omega)

theorem digitCount_mul_pow {n : Nat} (hn : 0 < n) (k : Nat) :
    digitCount (n * 10 ^ k) = digitCount n + k := by
  rw [digitCount_eq hn, digitCount_eq (Nat.mul_pos hn (Nat.pow_pos (by decide))), digitsOf_mul_pow hn]
  simp

theorem digitCount_pos {n : Nat} (hn : 0 < n) : 0 < digitCount n :=
  digitCount_eq hn ▸ List.length_pos_iff.2 (digitsOf_ne_nil n)

theorem digitCount_le_iff {n k : Nat} (hk : 0 < k) : digitCount n ≤ k ↔ n < 10 ^ k := by
  rcases Nat.eq_zero_or_pos n with rfl | hn
  · simp [digitCount]
  · rw [digitCount_eq hn]
    exact Nat.length_toDigits_le_iff (by decide) hk

def signText (negative : Bool) : List Char := if negative then ['-'] else []

theorem intText_eq (n : Int) : intText n = signText (decide (n < 0)) ++ digitsOf n.natAbs := by
  by_cases h : n < 0 <;> simp [intText, signText, h]

theorem positional_of_nonneg {digits : List Char} {exponent : Int} (hd : digits ≠ [])
    (he : 0 ≤ exponent) : positional digits (digits.length + exponent) =
      digits ++ List.replicate exponent.toNat '0' := by
  have hl : 0 < digits.length := List.length_pos_iff.2 hd
  rw [positional, if_neg (by omega), if_pos (by omega)]
  congr 2
  omega

theorem positional_of_neg {digits : List Char} {exponent : Int}
    (ha : digits.all Char.isDigit = true) (he : exponent < 0) :
    ∃ whole fraction, positional digits (digits.length + exponent) = whole ++ '.' :: fraction ∧
      whole ≠ [] ∧ whole.all Char.isDigit = true ∧ fraction.all Char.isDigit = true ∧
      digitsValue (whole ++ fraction) = digitsValue digits ∧ (fraction.length : Int) = -exponent ∧
      (whole = ['0'] ∨ whole.head? = digits.head?) := by
  rcases Int.lt_or_le 0 (digits.length + exponent) with hlt | hle
  · have hall := List.all_eq_true.1 ha
    refine ⟨digits.take (digits.length + exponent).toNat,
      digits.drop (digits.length + exponent).toNat, ?_, ?_, ?_, ?_, ?_, ?_, .inr ?_⟩
    · rw [positional, if_neg (by omega), if_neg (by omega)]
    · rw [ne_eq, List.take_eq_nil_iff, ← List.length_eq_zero_iff]
      omega
    · exact List.all_eq_true.2 fun c hc => hall c (List.mem_of_mem_take hc)
    · exact List.all_eq_true.2 fun c hc => hall c (List.mem_of_mem_drop hc)
    · rw [List.take_append_drop]
    · rw [List.length_drop]
      omega
    · rw [List.head?_take, if_neg (by omega)]
  · refine ⟨['0'], List.replicate (-(digits.length + exponent)).toNat '0' ++ digits, ?_, by simp,
      by decide, ?_, ?_, ?_, .inl rfl⟩
    · rw [positional, if_pos hle]
      rfl
    · rw [List.all_append, all_isDigit_zeros, ha, Bool.and_true]
    · rw [← List.append_assoc, digitsValue_append, ← List.replicate_one,
        List.replicate_append_replicate, digitsValue_zeros, Nat.mul_zero, Nat.zero_add]
    · rw [List.length_append, List.length_replicate]
      omega

theorem takeWhile_isDigit_append {ds : List Char} (rest : List Char) (hd : ds.all Char.isDigit = true)
    (hr : ∀ c ∈ rest.head?, c.isDigit = false) :
    (ds ++ rest).takeWhile Char.isDigit = ds ∧ (ds ++ rest).dropWhile Char.isDigit = rest := by
  have hall := List.all_eq_true.1 hd
  rw [List.takeWhile_append_of_pos hall, List.dropWhile_append_of_pos hall]
  cases rest with
  | nil => simp
  | cons c cs => simp [hr c (by simp)]

theorem unsignedDecimal?_point {whole fraction : List Char} (hne : whole ≠ [] ∨ fraction ≠ [])
    (hw : whole.all Char.isDigit = true) (hf : fraction.all Char.isDigit = true) :
    unsignedDecimal? (whole ++ '.' :: fraction) =
      some (digitsValue (whole ++ fraction), fraction.length, []) := by
  obtain ⟨ht, hd⟩ := takeWhile_isDigit_append ('.' :: fraction) hw (by simp)
  obtain ⟨ht', hd'⟩ := takeWhile_isDigit_append [] hf (by simp)
  rw [List.append_nil] at ht' hd'
  have hnot : ¬ (whole = [] ∧ fraction = []) := fun h => hne.elim (· h.1) (· h.2)
  simp only [unsignedDecimal?, ht, hd, ht', hd', hnot, if_false]

end RecordSieve
