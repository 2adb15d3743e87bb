import RecordSieve.Number
import Mathlib.Tactic.Ring

namespace RecordSieve

-- the exponent is kept behind an equation, since no tactic should evaluate the power
theorem unitsPerOne_eq_two_pow : ∃ e, e = 1074 ∧ unitsPerOne = 2 ^ e := by
  unfold unitsPerOne
  generalize 1074 = n
  exact ⟨n, rfl, Nat.pow_eq⟩

theorem unitsPerOne_pos : 0 < unitsPerOne := by
  obtain ⟨e, -, h⟩ := unitsPerOne_eq_two_pow
  exact h ▸ Nat.two_pow_pos e

theorem nearestEven_mul_right {num den k : Nat} (hk : 0 < k) :
    nearestEven (num * k) (den * k) = nearestEven num den := by
  have hr : 2 * (num * k % (den * k)) = 2 * (num % den) * k := by
    rw [Nat.mul_mod_mul_right, Nat.mul_assoc]
  simp only [nearestEven, hr, Nat.mul_div_mul_right num den hk, Nat.mul_lt_mul_right hk]

theorem nearestEven_mul_self {n den : Nat} (hd : 0 < den) : nearestEven (n * den) den = n := by
  simp [nearestEven, Nat.mul_div_cancel n hd, hd]

theorem nearestEven_cases (num den : Nat) :
    nearestEven num den = num / den ∨ nearestEven num den = num / den + 1 := by
  simp only [nearestEven]
  split
  · exact .inl rfl
  · split
    · exact .inr rfl
    · split
      · exact .inl rfl
      · exact .inr rfl

theorem div_le_nearestEven (num den : Nat) : num / den ≤ nearestEven num den := by
  rcases nearestEven_cases num den with h | h <;> omega

namespace Magnitude

theorem of?_self (m : Magnitude) : of? m.significand m.scale = some m :=
  dif_pos ⟨m.bounded, m.normal, m.inRange⟩

theorem of?_eq_some {significand scale : Nat} {m : Magnitude}
    (h : of? significand scale = some m) : m.significand = significand ∧ m.scale = scale := by
  unfold of? at h
  split at h
  · cases h
    exact ⟨rfl, rfl⟩
  · simp at h

theorem units_eq (m : Magnitude) : m.units = m.significand * 2 ^ m.scale := rfl

theorem log2_units_sub (m : Magnitude) : m.units.log2 - 52 = m.scale := by
  have hb : m.significand < 2 ^ 53 := m.bounded
  rw [units_eq]
  rcases Nat.eq_zero_or_pos m.scale with h0 | hpos
  · rw [h0, Nat.pow_zero, Nat.mul_one]
    have : m.significand.log2 ≤ 52 := by
      by_cases hz : m.significand = 0
      · simp [hz]
      · exact Nat.le_of_lt_succ ((Nat.log2_lt hz).2 hb)
    omega
  · have hn : 2 ^ 52 ≤ m.significand := m.normal.resolve_left (by omega)
    have hp : 0 < 2 ^ m.scale := Nat.two_pow_pos _
    have hl : (m.significand * 2 ^ m.scale).log2 = 52 + m.scale := by
      rw [Nat.log2_eq_iff (Nat.mul_ne_zero (by omega) (by omega))]
      constructor
      · rw [Nat.pow_add]
        exact Nat.mul_le_mul_right _ hn
      · rw [show 52 + m.scale + 1 = 53 + m.scale by omega, Nat.pow_add]
        exact Nat.mul_lt_mul_of_pos_right hb hp
    omega

theorem round?_units (m : Magnitude) (den : Nat) (hd : 0 < den) :
    round? (m.units * den) den = some m := by
  have hb : m.significand < 2 ^ 53 := m.bounded
  have hs : (m.units * den / den).log2 - 52 = m.scale := by
    rw [Nat.mul_div_cancel _ hd, log2_units_sub]
  have hn : nearestEven (m.units * den) (den * 2 ^ m.scale) = m.significand := by
    rw [units_eq, show m.significand * 2 ^ m.scale * den = m.significand * (den * 2 ^ m.scale) by ring]
    exact nearestEven_mul_self (Nat.mul_pos hd (Nat.two_pow_pos _))
  simp only [round?, hs, Nat.pow_eq, hn]
  rw [if_neg (by omega), of?_self]

theorem units_injective {m m' : Magnitude} (h : m.units = m'.units) : m = m' := by
  have hm := m.round?_units 1 (by decide)
  rw [h, m'.round?_units 1 (by decide)] at hm
  exact (Option.some.inj hm).symm

theorem round?_mul_right {num den k : Nat} (hk : 0 < k) :
    round? (num * k) (den * k) = round? num den := by
  have hd : ∀ s, den * k * Nat.pow 2 s = den * Nat.pow 2 s * k := fun s => by ring
  simp only [round?, Nat.mul_div_mul_right num den hk, hd, nearestEven_mul_right hk]

theorem round?_congr {num den num' den' : Nat} (hd : 0 < den) (hd' : 0 < den')
    (h : num * den' = num' * den) : round? num den = round? num' den' := by
  calc round? num den = round? (num * den') (den * den') := (round?_mul_right hd').symm
    _ = round? (num' * den) (den' * den) := by rw [h, Nat.mul_comm den den']
    _ = round? num' den' := round?_mul_right hd

theorem units_of_round? {num den : Nat} {m : Magnitude} (h : round? num den = some m) :
    m.units = nearestEven num (den * 2 ^ ((num / den).log2 - 52)) * 2 ^ ((num / den).log2 - 52) ∧
      (num / den).log2 - 52 ≤ m.scale := by
  simp only [round?, Nat.pow_eq] at h
  generalize (num / den).log2 - 52 = s at *
  split at h
  · rename_i hc
    obtain ⟨hsig, hscale⟩ := of?_eq_some h
    rw [units_eq, hsig, hscale, hc]
    exact ⟨by ring, by omega⟩
  · obtain ⟨hsig, hscale⟩ := of?_eq_some h
    rw [units_eq, hsig, hscale]
    exact ⟨rfl, Nat.le_refl _⟩

theorem two_pow_le_units {num den j : Nat} {m : Magnitude} (h : round? num den = some m)
    (hj : 2 ^ j ≤ num / den) : 2 ^ j ≤ m.units := by
  have hq : num / den ≠ 0 := fun h0 => by rw [h0] at hj; exact absurd hj (by simp)
  have hl : j ≤ (num / den).log2 := (Nat.le_log2 hq).2 hj
  have hself := Nat.log2_self_le hq
  obtain ⟨hu, -⟩ := units_of_round? h
  generalize hs : (num / den).log2 - 52 = s at *
  have hfloor : num / den / 2 ^ s ≤ nearestEven num (den * 2 ^ s) := by
    rw [Nat.div_div_eq_div_mul]
    exact div_le_nearestEven _ _
  rw [hu]
  refine Nat.le_trans ?_ (Nat.mul_le_mul_right _ hfloor)
  rcases Nat.eq_zero_or_pos s with rfl | hpos
  · simpa using hj
  · have h52 : 2 ^ 52 ≤ num / den / 2 ^ s := by
      rw [Nat.le_div_iff_mul_le (Nat.two_pow_pos _), ← Nat.pow_add]
      rwa [show 52 + s = (num / den).log2 by omega]
    calc 2 ^ j ≤ 2 ^ (52 + s) := Nat.pow_le_pow_right (by decide) (by omega)
      _ = 2 ^ 52 * 2 ^ s := Nat.pow_add ..
      _ ≤ num / den / 2 ^ s * 2 ^ s := Nat.mul_le_mul_right _ h52

theorem exists_units_eq {n : Nat} (hn : n < 2 ^ 53) : ∃ m : Magnitude, m.units = n * unitsPerOne := by
  rcases Nat.eq_zero_or_pos n with rfl | hpos
  · exact ⟨zero, by simp [units, zero]⟩
  · have hne : n ≠ 0 := by omega
    have hl : n.log2 < 53 := (Nat.log2_lt hne).2 hn
    have hlow := Nat.log2_self_le hne
    have hhigh := Nat.lt_log2_self (n := n)
    have hp : 0 < 2 ^ (52 - n.log2) := Nat.two_pow_pos _
    have hsig : n * 2 ^ (52 - n.log2) < Nat.pow 2 53 := by
      calc n * 2 ^ (52 - n.log2) < 2 ^ (n.log2 + 1) * 2 ^ (52 - n.log2) :=
            Nat.mul_lt_mul_of_pos_right hhigh hp
        _ = 2 ^ 53 := by rw [← Nat.pow_add]; congr 1; omega
    have hnorm : Nat.pow 2 52 ≤ n * 2 ^ (52 - n.log2) := by
      calc 2 ^ 52 = 2 ^ n.log2 * 2 ^ (52 - n.log2) := by rw [← Nat.pow_add]; congr 1; omega
        _ ≤ n * 2 ^ (52 - n.log2) := Nat.mul_le_mul_right _ hlow
    obtain ⟨e, he, hone⟩ := unitsPerOne_eq_two_pow
    refine ⟨⟨_, 1022 + n.log2, hsig, .inr hnorm, by omega⟩, ?_⟩
    have hexp : 52 - n.log2 + (1022 + n.log2) = e := by omega
    rw [units_eq, Nat.mul_assoc, ← Nat.pow_add, hone, ← hexp]

theorem units_of_round?_natural {n : Nat} {m : Magnitude} (hn : n < 2 ^ 53)
    (h : round? (n * unitsPerOne) 1 = some m) : m.units = n * unitsPerOne := by
  obtain ⟨m', hm'⟩ := exists_units_eq hn
  rw [← hm', ← Nat.mul_one m'.units, m'.round?_units 1 (by decide)] at h
  exact Option.some.inj h ▸ hm'

theorem two_pow_mul_unitsPerOne (k : Nat) : ∃ j, j = k + 1074 ∧ 2 ^ k * unitsPerOne = 2 ^ j := by
  obtain ⟨e, he, hone⟩ := unitsPerOne_eq_two_pow
  exact ⟨k + e, by omega, hone ▸ (Nat.pow_add ..).symm⟩

theorem natural_of_round? {n k : Nat} {m : Magnitude} (hk : k < 2 ^ 53)
    (hm : m.units = k * unitsPerOne) (h : round? (n * unitsPerOne) 1 = some m) : n = k := by
  rcases Nat.lt_or_ge n (2 ^ 53) with hn | hn
  · have := units_of_round?_natural hn h
    exact Nat.eq_of_mul_eq_mul_right unitsPerOne_pos (this.symm.trans hm)
  · obtain ⟨j, -, hj⟩ := two_pow_mul_unitsPerOne 53
    have hge : 2 ^ j ≤ n * unitsPerOne := hj ▸ Nat.mul_le_mul_right _ hn
    have hlow := two_pow_le_units h (by rwa [Nat.div_one])
    have hhigh := Nat.mul_lt_mul_of_pos_right hk unitsPerOne_pos
    rw [← hj, hm] at hlow
    exact absurd hhigh (Nat.not_lt.2 hlow)

theorem unitsPerOne_dvd_units {n : Nat} {m : Magnitude} (h : round? (n * unitsPerOne) 1 = some m) :
    unitsPerOne ∣ m.units := by
  rcases Nat.lt_or_ge n (2 ^ 53) with hn | hn
  · exact units_of_round?_natural hn h ▸ Nat.dvd_mul_left _ _
  · obtain ⟨j, hj, hpow⟩ := two_pow_mul_unitsPerOne 53
    have hge : 2 ^ j ≤ n * unitsPerOne := hpow ▸ Nat.mul_le_mul_right _ hn
    have hs := (units_of_round? h).2
    rw [Nat.div_one] at hs
    have hne : n * unitsPerOne ≠ 0 := Nat.ne_of_gt (Nat.lt_of_lt_of_le (Nat.two_pow_pos _) hge)
    have hl := (Nat.le_log2 hne).2 hge
    obtain ⟨e, he, hone⟩ := unitsPerOne_eq_two_pow
    rw [units_eq, hone]
    exact Nat.dvd_mul_left_of_dvd (Nat.pow_dvd_pow 2 (by omega)) _

end Magnitude

namespace Binary64

theorem signed_natAbs (n : Int) : signed (decide (n < 0)) n.natAbs = n := by
  rw [signed]
  split
  · rename_i h
    have hneg : n < 0 := of_decide_eq_true h
    omega
  · rename_i h
    have hnonneg : ¬ n < 0 := fun hneg => h (decide_eq_true hneg)
    omega

theorem natAbs_signed (negative : Bool) (k : Nat) : (signed negative k).natAbs = k := by
  cases negative <;> simp [signed]

theorem integer?_eq_some {x : Binary64} {n : Int} (h : x.integer? = some n) :
    ∃ negative m, x = .finite negative m ∧ m.units = n.natAbs * unitsPerOne ∧
      n = signed negative n.natAbs := by
  cases x with
  | nan => simp [integer?] at h
  | infinite => simp [integer?] at h
  | finite negative m =>
      simp only [integer?, Option.ite_none_right_eq_some, Option.some.injEq] at h
      obtain ⟨hdvd, rfl⟩ := h
      refine ⟨negative, m, rfl, ?_, by rw [natAbs_signed]⟩
      rw [natAbs_signed, Nat.div_mul_cancel (Nat.dvd_of_mod_eq_zero hdvd)]

theorem safeInteger?_eq_some {x : Binary64} {n : Int} :
    x.safeInteger? = some n ↔ x.integer? = some n ∧ isSafe n = true := Option.filter_eq_some_iff

theorem natAbs_lt_of_isSafe {n : Int} (h : isSafe n = true) : n.natAbs < 2 ^ 53 := by
  have : n.natAbs ≤ 2 ^ 53 - 1 := of_decide_eq_true h
  omega

theorem ofInt_of_isSafe {n : Int} (h : isSafe n = true) :
    ∃ m, ofInt n = .finite (decide (n < 0)) m ∧ m.units = n.natAbs * unitsPerOne := by
  obtain ⟨m, hm⟩ := Magnitude.exists_units_eq (natAbs_lt_of_isSafe h)
  refine ⟨m, ?_, hm⟩
  rw [ofInt, ofRatio, ← hm, ← Nat.mul_one m.units, m.round?_units 1 (by decide)]
  rfl

theorem integer?_of_units {n : Int} {m : Magnitude} (hm : m.units = n.natAbs * unitsPerOne) :
    (finite (decide (n < 0)) m).integer? = some n := by
  rw [integer?, hm, Nat.mul_mod_left, if_pos rfl, Nat.mul_div_cancel _ unitsPerOne_pos, signed_natAbs]

theorem integer?_ofInt {n : Int} (h : isSafe n = true) : (ofInt n).integer? = some n := by
  obtain ⟨m, hx, hm⟩ := ofInt_of_isSafe h
  rw [hx, integer?_of_units hm]

theorem integer?_ofInt_of_integer? {x : Binary64} {n : Int} (h : x.integer? = some n) :
    (ofInt n).integer? = some n := by
  obtain ⟨-, m, -, hm, -⟩ := integer?_eq_some h
  rw [ofInt, ofRatio, ← hm, ← Nat.mul_one m.units, m.round?_units 1 (by decide)]
  exact integer?_of_units hm

theorem safeInteger?_ofInt {n : Int} (h : isSafe n = true) : (ofInt n).safeInteger? = some n :=
  safeInteger?_eq_some.2 ⟨integer?_ofInt h, h⟩

theorem truncate?_eq_of_integer? {x : Binary64} {n : Int} (h : x.integer? = some n) :
    x.truncate? = some n := by
  obtain ⟨negative, m, rfl, hm, hn⟩ := integer?_eq_some h
  rw [truncate?, hm, Nat.mul_div_cancel _ unitsPerOne_pos, ← hn]

theorem signed_mul (negative : Bool) (a b : Nat) : signed negative (a * b) = signed negative a * b := by
  cases negative with
  | true => rw [signed, signed, if_pos rfl, if_pos rfl, Int.natCast_mul, Int.neg_mul]
  | false => rw [signed, signed, if_neg Bool.false_ne_true, if_neg Bool.false_ne_true, Int.natCast_mul]

theorem place?_eq_of_integer? {x : Binary64} {n : Int} (h : x.integer? = some n) :
    x.place? = (Number.integer n).place? := by
  obtain ⟨negative, m, rfl, hm, hn⟩ := integer?_eq_some h
  rw [place?, Number.place?, hm, signed_mul, ← hn]

theorem integer?_of_place? {x : Binary64} {n : Int} (h : x.place? = (Number.integer n).place?) :
    x.integer? = some n := by
  rcases x with _ | negative | ⟨negative, m⟩
  · cases h
  · cases negative <;> cases h
  · have hunits : signed negative m.units = n * unitsPerOne := Place.within.inj (Option.some.inj h)
    have hm : m.units = n.natAbs * unitsPerOne := by
      rw [← natAbs_signed negative m.units, hunits, Int.natAbs_mul, Int.natAbs_natCast]
    rw [hm, signed_mul] at hunits
    have hpos : (0 : Int) < unitsPerOne := Int.natCast_pos.2 unitsPerOne_pos
    rw [integer?, hm, Nat.mul_mod_left, if_pos rfl, Nat.mul_div_cancel _ unitsPerOne_pos,
      Int.eq_of_mul_eq_mul_right hpos.ne' hunits]

end Binary64

end RecordSieve
