import RecordSieve.Proofs.Number.Numeral
import Mathlib.Algebra.Order.Field.Rat
import Mathlib.Algebra.Order.Field.Power
import Mathlib.Tactic.Linarith
import Mathlib.Tactic.Positivity

namespace RecordSieve

def IsNearestWhole (k : ℕ) (x : ℚ) : Prop := |(k : ℚ) - x| < 1 / 2 ∨ |(k : ℚ) - x| = 1 / 2 ∧ k % 2 = 0

theorem cast_div_eq (num : ℕ) {den : ℕ} (hd : 0 < den) :
    (num : ℚ) / den = (num / den : ℕ) + (num % den : ℕ) / den := by
  have hden : (den : ℚ) ≠ 0 := Nat.cast_ne_zero.2 hd.ne'
  rw [div_eq_iff hden, add_mul, div_mul_cancel₀ _ hden, mul_comm]
  exact_mod_cast (Nat.div_add_mod num den).symm

theorem two_mul_lt_iff {rest den : ℕ} (hd : 0 < den) : 2 * rest < den ↔ (rest : ℚ) / den < 1 / 2 := by
  rw [div_lt_iff₀ (Nat.cast_pos.2 hd), ← Nat.cast_lt (α := ℚ), Nat.cast_mul, Nat.cast_ofNat]
  constructor <;> intro h <;> linarith

theorem lt_two_mul_iff {rest den : ℕ} (hd : 0 < den) : den < 2 * rest ↔ 1 / 2 < (rest : ℚ) / den := by
  rw [lt_div_iff₀ (Nat.cast_pos.2 hd), ← Nat.cast_lt (α := ℚ), Nat.cast_mul, Nat.cast_ofNat]
  constructor <;> intro h <;> linarith

theorem isNearestWhole_nearestEven (num : ℕ) {den : ℕ} (hd : 0 < den) :
    IsNearestWhole (nearestEven num den) (num / den) := by
  have hrest : ((num % den : ℕ) : ℚ) / den < 1 :=
    (div_lt_one (Nat.cast_pos.2 hd)).2 (Nat.cast_lt.2 (Nat.mod_lt num hd))
  have hrest0 : 0 ≤ ((num % den : ℕ) : ℚ) / den := by positivity
  rw [IsNearestWhole, cast_div_eq num hd, nearestEven]
  simp only [two_mul_lt_iff hd, lt_two_mul_iff hd]
  generalize ((num % den : ℕ) : ℚ) / den = rest at *
  split
  · rename_i hlow
    exact .inl (abs_lt.2 ⟨by linarith, by linarith⟩)
  · rename_i hlow
    split
    · rename_i hhigh
      push_cast
      exact .inl (abs_lt.2 ⟨by linarith, by linarith⟩)
    · rename_i hhigh
      obtain rfl : rest = 1 / 2 := le_antisymm (not_lt.1 hhigh) (not_lt.1 hlow)
      split
      · rename_i heven
        refine .inr ⟨?_, heven⟩
        rw [sub_add_cancel_left, abs_neg]
        norm_num
      · push_cast
        refine .inr ⟨?_, by omega⟩
        rw [add_sub_add_left_eq_sub]
        norm_num

namespace IsNearestWhole

variable {k n : ℕ} {x : ℚ}

theorem le_half (h : IsNearestWhole k x) : |(k : ℚ) - x| ≤ 1 / 2 := h.elim le_of_lt fun h => h.1.le

theorem half_le_of_ne (h : IsNearestWhole k x) (hne : n ≠ k) : 1 / 2 ≤ |(n : ℚ) - x| := by
  have hapart : (1 : ℚ) ≤ |(n : ℚ) - k| := by
    have hint : (1 : ℤ) ≤ |(n : ℤ) - k| := Int.one_le_abs (by omega)
    exact_mod_cast hint
  have htriangle : |(n : ℚ) - k| ≤ |(n : ℚ) - x| + |(k : ℚ) - x| := by
    rw [abs_sub_comm (k : ℚ) x]
    exact abs_sub_le _ _ _
  linarith [h.le_half]

theorem abs_sub_le (h : IsNearestWhole k x) (n : ℕ) : |(k : ℚ) - x| ≤ |(n : ℚ) - x| := by
  rcases eq_or_ne n k with rfl | hne
  · exact le_rfl
  · exact h.le_half.trans (h.half_le_of_ne hne)

theorem even_of_tie (h : IsNearestWhole k x) (hne : n ≠ k) (htie : |(n : ℚ) - x| = |(k : ℚ) - x|) :
    k % 2 = 0 := by
  rcases h with hlt | ⟨-, heven⟩
  · exact absurd ((half_le_of_ne (.inl hlt) hne).trans_eq htie) (not_le.2 hlt)
  · exact heven

theorem eq_iff_of_le (h : IsNearestWhole k x) (hk : k ≤ n) (hn : n % 2 = 0) : k = n ↔ (n : ℚ) - 1 / 2 ≤ x := by
  constructor
  · rintro rfl
    linarith [(abs_le.1 h.le_half).2]
  · intro hx
    by_contra hne
    -- below `n` only the tie with its odd neighbour is left
    have hcast : (k : ℚ) + 1 ≤ n := by exact_mod_cast Nat.lt_of_le_of_ne hk hne
    have hlow := (abs_le.1 h.le_half).1
    have hnext : (n : ℚ) = k + 1 := by linarith
    have hmid : x = k + 1 / 2 := by linarith
    have heven : k % 2 = 0 := by
      refine h.even_of_tie (Ne.symm hne) ?_
      rw [hnext, hmid, add_sub_add_left_eq_sub, sub_add_cancel_left, abs_neg]
      norm_num
    have : n = k + 1 := by exact_mod_cast hnext
    omega

end IsNearestWhole

theorem cast_unitsPerOne_pos : (0 : ℚ) < unitsPerOne := Nat.cast_pos.2 unitsPerOne_pos

namespace Magnitude

def value (m : Magnitude) : ℚ := m.units / unitsPerOne

/-- Whether a magnitude is nearest, and has an even significand when another one is equally near. -/
structure IsNearest (m : Magnitude) (q : ℚ) : Prop where
  nearest : ∀ m' : Magnitude, |m.value - q| ≤ |m'.value - q|
  even : ∀ m' : Magnitude, m' ≠ m → |m'.value - q| = |m.value - q| → m.significand % 2 = 0

theorem abs_units_sub (m : Magnitude) (q : ℚ) :
    |(m.units : ℚ) - q * unitsPerOne| = |m.value - q| * unitsPerOne := by
  have hone := cast_unitsPerOne_pos
  rw [← abs_of_pos hone, ← abs_mul, abs_of_pos hone, sub_mul, value, div_mul_cancel₀ _ hone.ne']

theorem IsNearest.of_units {m : Magnitude} {q : ℚ}
    (hnear : ∀ m' : Magnitude, |(m.units : ℚ) - q * unitsPerOne| ≤ |(m'.units : ℚ) - q * unitsPerOne|)
    (heven : ∀ m' : Magnitude, m'.units ≠ m.units →
      |(m'.units : ℚ) - q * unitsPerOne| = |(m.units : ℚ) - q * unitsPerOne| → m.significand % 2 = 0) :
    m.IsNearest q where
  nearest m' := by
    have h := hnear m'
    rw [abs_units_sub, abs_units_sub] at h
    exact le_of_mul_le_mul_right h cast_unitsPerOne_pos
  even m' hne htie := by
    refine heven m' (fun h => hne (units_injective h)) ?_
    rw [abs_units_sub, abs_units_sub, htie]

variable {num den s : ℕ}

theorem lt_mul_of_log2 (hs : s = (num / den).log2 - 52) (hd : 0 < den) :
    num < 2 ^ 53 * (den * 2 ^ s) := by
  have hlog : num / den < 2 ^ (53 + s) :=
    Nat.lt_of_lt_of_le Nat.lt_log2_self (Nat.pow_le_pow_right (by decide) (by omega))
  have := (Nat.div_lt_iff_lt_mul hd).1 hlog
  rwa [Nat.pow_add, Nat.mul_assoc, Nat.mul_comm (2 ^ s)] at this

theorem mul_le_of_log2 (hs : s = (num / den).log2 - 52) (hd : 0 < den) (hpos : 0 < s) :
    2 ^ 52 * (den * 2 ^ s) ≤ num := by
  have hne : num / den ≠ 0 := fun h => by simp [hs, h] at hpos
  have hlog : 2 ^ (52 + s) ≤ num / den := by
    rw [show 52 + s = (num / den).log2 by omega]
    exact Nat.log2_self_le hne
  have := (Nat.le_div_iff_mul_le hd).1 hlog
  rwa [Nat.pow_add, Nat.mul_assoc, Nat.mul_comm (2 ^ s)] at this

theorem exists_units_eq_mul {m : Magnitude} (h : s ≤ m.scale) : ∃ n, m.units = n * 2 ^ s :=
  ⟨m.significand * 2 ^ (m.scale - s), by
    rw [units_eq, Nat.mul_assoc, ← Nat.pow_add, Nat.sub_add_cancel h]⟩

theorem units_lt_of_scale_lt {m : Magnitude} (h : m.scale < s) : m.units < 2 ^ 52 * 2 ^ s := by
  have hlt := units_lt_of_scale_le (m := m) (Nat.le_sub_one_of_lt h)
  have hpow : (2 : ℕ) ^ s = 2 * 2 ^ (s - 1) := by rw [← Nat.pow_succ', Nat.succ_eq_add_one]; congr; omega
  rw [hpow, ← Nat.mul_assoc]
  exact hlt

section Multiples

variable {k : ℕ} {x : ℚ}

theorem abs_mul_two_pow_sub (n s : ℕ) (x : ℚ) :
    |((n * 2 ^ s : ℕ) : ℚ) - x * 2 ^ s| = |(n : ℚ) - x| * 2 ^ s := by
  have hpow : (0 : ℚ) < 2 ^ s := by positivity
  rw [Nat.cast_mul, Nat.cast_pow, Nat.cast_ofNat, ← sub_mul, abs_mul, abs_of_pos hpow]

theorem abs_multiple_sub_le (hk : IsNearestWhole k x) (hx : 0 < s → 2 ^ 52 ≤ x) (m : Magnitude) :
    |((k * 2 ^ s : ℕ) : ℚ) - x * 2 ^ s| ≤ |(m.units : ℚ) - x * 2 ^ s| ∧
      (m.units ≠ k * 2 ^ s →
        |(m.units : ℚ) - x * 2 ^ s| = |((k * 2 ^ s : ℕ) : ℚ) - x * 2 ^ s| → k % 2 = 0) := by
  have hpow : (0 : ℚ) < 2 ^ s := by positivity
  rcases Nat.lt_or_ge m.scale s with hlt | hge
  · -- the whole binade lies between `m` and the quotient
    have hbelow : (m.units : ℚ) < 2 ^ 52 * 2 ^ s := by exact_mod_cast units_lt_of_scale_lt hlt
    have hquotient : (2 : ℚ) ^ 52 * 2 ^ s ≤ x * 2 ^ s :=
      mul_le_mul_of_nonneg_right (hx (by omega)) hpow.le
    have hnear := hk.abs_sub_le (2 ^ 52)
    have hstrict : |((k * 2 ^ s : ℕ) : ℚ) - x * 2 ^ s| < |(m.units : ℚ) - x * 2 ^ s| := by
      calc |((k * 2 ^ s : ℕ) : ℚ) - x * 2 ^ s|
          ≤ |((2 ^ 52 * 2 ^ s : ℕ) : ℚ) - x * 2 ^ s| := by
            rw [abs_mul_two_pow_sub, abs_mul_two_pow_sub]
            exact mul_le_mul_of_nonneg_right hnear hpow.le
        _ = x * 2 ^ s - 2 ^ 52 * 2 ^ s := by
            rw [abs_sub_comm, abs_of_nonneg] <;> push_cast
            · rfl
            · linarith
        _ < x * 2 ^ s - m.units := by linarith
        _ ≤ |(m.units : ℚ) - x * 2 ^ s| := by
            rw [abs_sub_comm]
            exact le_abs_self _
    exact ⟨hstrict.le, fun _ htie => absurd htie hstrict.ne'⟩
  · obtain ⟨n, hn⟩ := exists_units_eq_mul hge
    rw [hn, abs_mul_two_pow_sub, abs_mul_two_pow_sub]
    refine ⟨mul_le_mul_of_nonneg_right (hk.abs_sub_le n) hpow.le, fun hne htie => ?_⟩
    exact hk.even_of_tie (fun h => hne (by rw [h])) (mul_right_cancel₀ hpow.ne' htie)

end Multiples

theorem add_le_units_of_lt {m m' : Magnitude} (h : m.units < m'.units) : m.units + 2 ^ m.scale ≤ m'.units := by
  rcases Nat.lt_or_ge m'.scale m.scale with hlt | hge
  · have hnormal : 2 ^ 52 ≤ m.significand := m.normal.resolve_left (by omega)
    have hbelow := units_lt_of_scale_lt hlt
    have hle : 2 ^ 52 * 2 ^ m.scale ≤ m.units := Nat.mul_le_mul_right _ hnormal
    omega
  · obtain ⟨n, hn⟩ := exists_units_eq_mul hge
    rw [hn, units_eq] at h ⊢
    rw [← Nat.succ_mul]
    exact Nat.mul_le_mul_right _ (Nat.lt_of_mul_lt_mul_right h)

theorem exists_next {m : Magnitude} (h : m.significand + 1 < 2 ^ 53) :
    ∃ next : Magnitude, next.significand = m.significand + 1 ∧ next.units = m.units + 2 ^ m.scale :=
  ⟨⟨m.significand + 1, m.scale, h, m.normal.imp_right fun hn => Nat.le_succ_of_le hn, m.inRange⟩, rfl,
    Nat.succ_mul _ _⟩

theorem value_lt_iff {m m' : Magnitude} : m.value < m'.value ↔ m.units < m'.units := by
  rw [value, value, div_lt_div_iff_of_pos_right cast_unitsPerOne_pos, Nat.cast_lt]

theorem IsNearest.not_units_lt {m m' : Magnitude} {q : ℚ} (h : m.IsNearest q) (h' : m'.IsNearest q) :
    ¬ m.units < m'.units := by
  intro hlt
  have htie : |m'.value - q| = |m.value - q| := le_antisymm (h'.nearest m) (h.nearest m')
  have hne : m' ≠ m := fun heq => absurd hlt (by rw [heq]; exact lt_irrefl _)
  have heven := h.even m' hne htie
  have hbound : m.significand < 2 ^ 53 := m.bounded
  -- the neighbour above is odd, so it is not `m'`, and lies between the two
  obtain ⟨next, hsignificand, hunits⟩ := exists_next (m := m) (by omega)
  have hle : next.units ≤ m'.units := hunits ▸ add_le_units_of_lt hlt
  have hnext : next ≠ m' := by
    rintro rfl
    have := h'.even m (Ne.symm hne) htie.symm
    omega
  have hlow : m.value < next.value := value_lt_iff.2 (by have := Nat.two_pow_pos m.scale; omega)
  have hhigh : next.value < m'.value :=
    value_lt_iff.2 (lt_of_le_of_ne hle fun heq => hnext (units_injective heq))
  have hmid : q - m.value = m'.value - q := by
    rcases abs_eq_abs.1 htie with heq | heq <;> linarith
  have hnearer : |next.value - q| < |m.value - q| := by
    rw [abs_sub_comm m.value, abs_of_pos (a := q - m.value) (by linarith)]
    exact abs_lt.2 ⟨by linarith, by linarith⟩
  exact absurd hnearer (not_lt.2 (h.nearest next))

theorem IsNearest.unique {m m' : Magnitude} {q : ℚ} (h : m.IsNearest q) (h' : m'.IsNearest q) : m = m' :=
  units_injective (le_antisymm (not_lt.1 (h'.not_units_lt h)) (not_lt.1 (h.not_units_lt h')))

theorem nearestEven_bounds (hs : s = (num / den).log2 - 52) (hd : 0 < den) :
    nearestEven num (den * 2 ^ s) ≤ 2 ^ 53 ∧ (0 < s → 2 ^ 52 ≤ nearestEven num (den * 2 ^ s)) := by
  have hd' : 0 < den * 2 ^ s := Nat.mul_pos hd (Nat.two_pow_pos s)
  constructor
  · have hfloor := (Nat.div_lt_iff_lt_mul hd').2 (lt_mul_of_log2 hs hd)
    rcases nearestEven_cases num (den * 2 ^ s) with h | h <;> omega
  · intro hpos
    exact ((Nat.le_div_iff_mul_le hd').2 (mul_le_of_log2 hs hd hpos)).trans (div_le_nearestEven _ _)

theorem quotient_bounds (hs : s = (num / den).log2 - 52) (hd : 0 < den) :
    (num : ℚ) / (den * 2 ^ s : ℕ) < 2 ^ 53 ∧ (0 < s → 2 ^ 52 ≤ (num : ℚ) / (den * 2 ^ s : ℕ)) := by
  have hd' : (0 : ℚ) < (den * 2 ^ s : ℕ) := Nat.cast_pos.2 (Nat.mul_pos hd (Nat.two_pow_pos s))
  constructor
  · rw [div_lt_iff₀ hd']
    exact_mod_cast lt_mul_of_log2 hs hd
  · intro hpos
    rw [le_div_iff₀ hd']
    exact_mod_cast mul_le_of_log2 hs hd hpos

theorem quotient_mul_two_pow (num den s : ℕ) :
    (num : ℚ) / (den * 2 ^ s : ℕ) * 2 ^ s = num / den := by
  have hpow : (2 : ℚ) ^ s ≠ 0 := by positivity
  rw [Nat.cast_mul, Nat.cast_pow, Nat.cast_ofNat, div_mul_eq_mul_div, mul_div_mul_right _ _ hpow]

theorem significand_of_round? {m : Magnitude} (h : round? num den = some m) :
    m.significand = nearestEven num (den * 2 ^ ((num / den).log2 - 52)) ∨ m.significand = 2 ^ 52 := by
  simp only [round?, Nat.pow_eq] at h
  split at h
  · exact .inr (of?_eq_some h).1
  · exact .inl (of?_eq_some h).1

theorem isNearest_of_round? {m : Magnitude} {q : ℚ} (hd : 0 < den) (h : round? num den = some m)
    (hq : q * unitsPerOne = num / den) : m.IsNearest q := by
  obtain ⟨s, hs⟩ : ∃ s, s = (num / den).log2 - 52 := ⟨_, rfl⟩
  obtain ⟨hunits, -⟩ := units_of_round? h
  have hsignificand := significand_of_round? h
  rw [← hs] at hunits hsignificand
  have hwhole := isNearestWhole_nearestEven num (Nat.mul_pos hd (Nat.two_pow_pos s))
  have hnear := fun m' => abs_multiple_sub_le hwhole (quotient_bounds hs hd).2 m'
  rw [← quotient_mul_two_pow num den s] at hq
  refine .of_units (fun m' => ?_) fun m' hne htie => ?_
  · rw [hunits, hq]
    exact (hnear m').1
  · rw [hunits] at hne
    rw [hunits, hq] at htie
    rcases hsignificand with heq | heq
    · rw [heq]
      exact (hnear m').2 hne htie
    · rw [heq]
      rfl

theorem of?_eq_none_iff {significand scale : ℕ} (hb : significand < 2 ^ 53)
    (hn : 0 < scale → 2 ^ 52 ≤ significand) : of? significand scale = none ↔ 2045 < scale := by
  have hnormal : scale = 0 ∨ Nat.pow 2 52 ≤ significand :=
    (Nat.eq_zero_or_pos scale).imp_right hn
  have hbound : significand < Nat.pow 2 53 := hb
  simp only [of?, hbound, hnormal, true_and]
  split <;> simp_all

theorem round?_eq_none_iff (hd : 0 < den) {t : ℕ} (ht : t = 2044) :
    round? num den = none ↔ (2 ^ 54 - 1) * 2 ^ t ≤ (num : ℚ) / den := by
  obtain ⟨s, hs⟩ : ∃ s, s = (num / den).log2 - 52 := ⟨_, rfl⟩
  obtain ⟨hle, hge⟩ := nearestEven_bounds hs hd
  obtain ⟨hlt, hnormal⟩ := quotient_bounds hs hd
  have hwhole := isNearestWhole_nearestEven num (Nat.mul_pos hd (Nat.two_pow_pos s))
  have hnone : round? num den = none ↔ t + 1 < s ∨ t + 1 = s ∧ nearestEven num (den * 2 ^ s) = 2 ^ 53 := by
    simp only [round?, Nat.pow_eq, ← hs]
    split
    · rename_i htop
      rw [of?_eq_none_iff (by decide) (by simp), htop]
      omega
    · rename_i htop
      rw [of?_eq_none_iff (by omega) hge]
      omega
  rw [hnone, ← quotient_mul_two_pow num den s]
  generalize (num : ℚ) / (den * 2 ^ s : ℕ) = x at *
  have hpow : (0 : ℚ) < 2 ^ t := by positivity
  rcases Nat.lt_trichotomy (t + 1) s with hgt | rfl | hlt'
  · have hscale : (2 : ℚ) ^ (t + 2) ≤ 2 ^ s := pow_le_pow_right₀ (by norm_num) hgt
    have hx := hnormal (by omega)
    refine iff_of_true (.inl hgt) ?_
    calc ((2 : ℚ) ^ 54 - 1) * 2 ^ t ≤ 2 ^ 52 * 2 ^ (t + 2) := by rw [pow_add]; linarith
      _ ≤ x * 2 ^ s := mul_le_mul hx hscale (by positivity) (by linarith)
  · have hiff := hwhole.eq_iff_of_le hle rfl
    have hhalf : (2 ^ 54 - 1) * 2 ^ t ≤ x * 2 ^ (t + 1) ↔ (2 : ℚ) ^ 54 - 1 ≤ x * 2 := by
      rw [pow_succ' (2 : ℚ) t, ← mul_assoc, mul_le_mul_iff_left₀ hpow]
    rw [hhalf, eq_self_iff_true, true_and, or_iff_right (lt_irrefl _), hiff]
    push_cast
    constructor <;> intro h <;> linarith
  · have hscale : (2 : ℚ) ^ s ≤ 2 ^ t := pow_le_pow_right₀ (by norm_num) (by omega)
    refine iff_of_false (by omega) (not_le.2 ?_)
    calc x * 2 ^ s < 2 ^ 53 * 2 ^ s := mul_lt_mul_of_pos_right hlt (by positivity)
      _ ≤ (2 ^ 54 - 1) * 2 ^ t := mul_le_mul (by norm_num) hscale (by positivity) (by norm_num)

end Magnitude

def overflowBound : ℚ := (2 ^ 54 - 1) * 2 ^ 970

def Decimal.size (d : Decimal) : ℚ := d.coefficient * 10 ^ d.exponent

def Magnitude.IsRounded (q : ℚ) : Option Magnitude → Prop
  | some m => q < overflowBound ∧ m.IsNearest q
  | none => overflowBound ≤ q

def Decimal.RoundsTo (d : Decimal) (x : Binary64) : Prop :=
  ∃ m, Magnitude.IsRounded d.size m ∧ x = .ofMagnitude? d.negative m

theorem overflowBound_mul_unitsPerOne :
    ∃ t, t = 2044 ∧ overflowBound * unitsPerOne = (2 ^ 54 - 1) * 2 ^ t := by
  obtain ⟨e, he, hone⟩ := unitsPerOne_eq_two_pow
  refine ⟨970 + e, by omega, ?_⟩
  rw [overflowBound, hone, Nat.cast_pow, Nat.cast_ofNat, mul_assoc, ← pow_add]

theorem overflowBound_le_ten_pow : ∃ high : ℤ, high = 310 ∧ overflowBound ≤ 10 ^ high := by
  obtain ⟨high, top, hhigh, htop, h⟩ :
      ∃ high top, high = 310 ∧ top = 970 ∧ (2 ^ 54 - 1) * 2 ^ top ≤ 10 ^ high :=
    ⟨310, 970, rfl, rfl, by decide +kernel⟩
  refine ⟨high, by omega, ?_⟩
  have hcast : (((2 ^ 54 - 1) * 2 ^ top : ℕ) : ℚ) ≤ (10 ^ high : ℕ) := Nat.cast_le.2 h
  rw [overflowBound, zpow_natCast, ← htop]
  norm_num at hcast ⊢
  exact hcast

theorem ten_pow_le_half_unit : ∃ low : ℤ, low = -331 ∧ 2 * (10 : ℚ) ^ low ≤ 1 / unitsPerOne := by
  obtain ⟨e, low, he, hlow, h⟩ : ∃ e low, e = 1074 ∧ low = 331 ∧ 2 * 2 ^ e ≤ 10 ^ low :=
    ⟨1074, 331, rfl, rfl, by decide +kernel⟩
  obtain ⟨e', he', hone⟩ := unitsPerOne_eq_two_pow
  obtain rfl : e' = e := by omega
  refine ⟨-low, by omega, ?_⟩
  have hten : (0 : ℚ) < 10 ^ low := by positivity
  rw [zpow_neg, zpow_natCast, ← div_eq_mul_inv, div_le_div_iff₀ hten cast_unitsPerOne_pos, one_mul, hone]
  exact_mod_cast h

theorem one_lt_overflowBound : 1 < overflowBound := by
  have hpow : (1 : ℚ) ≤ 2 ^ 970 := one_le_pow₀ (by norm_num)
  rw [overflowBound]
  generalize (2 : ℚ) ^ 970 = bound at *
  linarith

namespace Magnitude

theorem lt_pow_digitCount (c : ℕ) : c < 10 ^ digitCount c := by
  rcases Nat.eq_zero_or_pos c with rfl | hc
  · exact Nat.pow_pos (by decide)
  · exact (digitCount_le_iff (digitCount_pos hc)).1 le_rfl

theorem pow_digitCount_sub_one_le {c : ℕ} (hc : 0 < c) : 10 ^ (digitCount c - 1) ≤ c := by
  rcases Nat.eq_zero_or_pos (digitCount c - 1) with h | h
  · rw [h]
    exact hc
  · exact Nat.not_lt.1 fun hlt => absurd ((digitCount_le_iff h).2 hlt) (by omega)

theorem size_bounds {c : ℕ} (hc : 0 < c) (e : ℤ) :
    (10 : ℚ) ^ ((digitCount c : ℤ) + e - 1) ≤ c * 10 ^ e ∧ (c : ℚ) * 10 ^ e < 10 ^ ((digitCount c : ℤ) + e) := by
  have hpow : (0 : ℚ) < 10 ^ e := by positivity
  have hcount : (digitCount c : ℤ) + e - 1 = ((digitCount c - 1 : ℕ) : ℤ) + e := by
    have := digitCount_pos hc
    omega
  have hten : (10 : ℚ) ≠ 0 := by norm_num
  rw [hcount, zpow_add₀ hten, zpow_add₀ hten, zpow_natCast, zpow_natCast]
  constructor
  · refine mul_le_mul_of_nonneg_right ?_ hpow.le
    exact_mod_cast pow_digitCount_sub_one_le hc
  · refine mul_lt_mul_of_pos_right ?_ hpow
    exact_mod_cast lt_pow_digitCount c

theorem value_of_units_eq_zero {m : Magnitude} (h : m.units = 0) : m.value = 0 := by
  rw [value, h, Nat.cast_zero, zero_div]

theorem value_zero : zero.value = 0 := value_of_units_eq_zero (Nat.zero_mul _)

theorem value_eq_zero_or_le (m : Magnitude) : m.value = 0 ∨ 1 / (unitsPerOne : ℚ) ≤ m.value := by
  rcases Nat.eq_zero_or_pos m.units with h | h
  · exact .inl (value_of_units_eq_zero h)
  · right
    rw [value, div_le_div_iff_of_pos_right cast_unitsPerOne_pos]
    exact_mod_cast h

theorem isNearest_zero {q : ℚ} (h0 : 0 ≤ q) (hq : 2 * q ≤ 1 / unitsPerOne) : zero.IsNearest q where
  nearest m' := by
    rw [value_zero, zero_sub, abs_neg, abs_of_nonneg h0]
    rcases m'.value_eq_zero_or_le with h | h
    · rw [h, zero_sub, abs_neg, abs_of_nonneg h0]
    · refine le_trans ?_ (le_abs_self _)
      linarith
  even _ _ _ := rfl

theorem isNearest_of_lt {c : ℕ} {e : ℤ} (hc : 0 < c) (h : (digitCount c : ℤ) + e < -330) :
    (c : ℚ) * 10 ^ e < overflowBound ∧ zero.IsNearest (c * 10 ^ e) := by
  obtain ⟨low, hlow, hunit⟩ := ten_pow_le_half_unit
  have hreach : (10 : ℚ) ^ ((digitCount c : ℤ) + e) ≤ 10 ^ low := zpow_le_zpow_right₀ (by norm_num) (by omega)
  have hhalf : 2 * ((c : ℚ) * 10 ^ e) ≤ 1 / unitsPerOne := by linarith [(size_bounds hc e).2]
  have hone : 1 / (unitsPerOne : ℚ) ≤ 1 :=
    (div_le_one cast_unitsPerOne_pos).2 (by exact_mod_cast unitsPerOne_pos)
  have hpos : (0 : ℚ) ≤ c * 10 ^ e := by positivity
  exact ⟨by linarith [one_lt_overflowBound], isNearest_zero hpos hhalf⟩

theorem overflowBound_le_of_lt {c : ℕ} {e : ℤ} (hc : 0 < c) (h : 310 < (digitCount c : ℤ) + e) :
    overflowBound ≤ c * 10 ^ e := by
  obtain ⟨high, hhigh, hbound⟩ := overflowBound_le_ten_pow
  calc overflowBound ≤ 10 ^ high := hbound
    _ ≤ 10 ^ ((digitCount c : ℤ) + e - 1) := zpow_le_zpow_right₀ (by norm_num) (by omega)
    _ ≤ c * 10 ^ e := (size_bounds hc e).1

theorem size_mul_unitsPerOne (c : ℕ) (e : ℤ) : (c : ℚ) * 10 ^ e * unitsPerOne =
    (c * Nat.pow 10 e.toNat * unitsPerOne : ℕ) / (Nat.pow 10 (-e).toNat : ℕ) := by
  have hpow : (10 : ℚ) ^ e = 10 ^ e.toNat / 10 ^ (-e).toNat := by
    rw [← zpow_natCast, ← zpow_natCast, ← zpow_sub₀ (by norm_num)]
    congr 1
    omega
  rw [Nat.pow_eq, Nat.pow_eq, hpow]
  push_cast
  ring

theorem isRounded_of_quotient {q : ℚ} {num den : ℕ} (hd : 0 < den) (hq : q * unitsPerOne = num / den) :
    IsRounded q (round? num den) := by
  obtain ⟨t, ht, hbound⟩ := overflowBound_mul_unitsPerOne
  have hnone : round? num den = none ↔ _ := round?_eq_none_iff hd ht
  rw [← hbound, ← hq, mul_le_mul_iff_left₀ cast_unitsPerOne_pos] at hnone
  cases hr : round? num den with
  | none => exact hnone.1 hr
  | some m => exact ⟨not_le.1 (hnone.not.1 (by rw [hr]; nofun)), isNearest_of_round? hd hr hq⟩

theorem isRounded_round? {c : ℕ} {e : ℤ} : IsRounded (c * 10 ^ e)
    (round? (c * Nat.pow 10 e.toNat * unitsPerOne) (Nat.pow 10 (-e).toNat)) :=
  isRounded_of_quotient (Nat.pow_pos (by decide)) (size_mul_unitsPerOne c e)

/-- The bounds on the digits only save the division. -/
theorem isRounded_ofDecimal? (c : ℕ) (e : ℤ) : IsRounded (c * 10 ^ e) (ofDecimal? c e) := by
  rw [ofDecimal?]
  rcases Nat.eq_zero_or_pos c with rfl | hc
  · rw [if_pos (.inl rfl), Nat.cast_zero, zero_mul]
    exact ⟨zero_lt_one.trans one_lt_overflowBound, isNearest_zero le_rfl (by rw [mul_zero]; positivity)⟩
  · split
    · rename_i hsmall
      exact isNearest_of_lt hc (hsmall.resolve_left hc.ne')
    · split
      · rename_i hlarge
        exact overflowBound_le_of_lt hc hlarge
      · exact isRounded_round?

theorem IsRounded.unique {q : ℚ} {o o' : Option Magnitude} (h : IsRounded q o) (h' : IsRounded q o') :
    o = o' := by
  cases o with
  | none =>
      cases o' with
      | none => rfl
      | some m' => exact absurd h'.1 (not_lt.2 h)
  | some m =>
      cases o' with
      | none => exact absurd h.1 (not_lt.2 h')
      | some m' => rw [h.2.unique h'.2]

end Magnitude

theorem Decimal.roundsTo_iff {d : Decimal} {x : Binary64} : d.RoundsTo x ↔ x = d.toBinary64 := by
  have hread := Magnitude.isRounded_ofDecimal? d.coefficient d.exponent
  constructor
  · rintro ⟨o, ho, rfl⟩
    rw [ho.unique hread]
    rfl
  · rintro rfl
    exact ⟨_, hread, rfl⟩

end RecordSieve
