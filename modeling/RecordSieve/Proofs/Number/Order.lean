import RecordSieve.Proofs.Number.Nearest
import Mathlib.Data.EReal.Operations
import Mathlib.Data.Rat.Floor

namespace RecordSieve

def Magnitude.signedValue (negative : Bool) (m : Magnitude) : ℚ := if negative then -m.value else m.value

namespace Number

def rational? : Number → Option ℚ
  | .integer n => some n
  | .float (.finite negative m) => some (m.signedValue negative)
  | .float _ => none

noncomputable def value? : Number → Option EReal
  | .integer n => some ((n : ℝ) : EReal)
  | .float (.finite negative m) => some ((m.signedValue negative : ℝ) : EReal)
  | .float (.infinite negative) => some (if negative then ⊥ else ⊤)
  | .float .nan => none

end Number

noncomputable def Place.value : Place → EReal
  | .below => ⊥
  | .within units => (((units : ℚ) / unitsPerOne : ℚ) : ℝ)
  | .above => ⊤

theorem Magnitude.signedValue_eq (negative : Bool) (m : Magnitude) :
    m.signedValue negative = (Binary64.signed negative m.units : ℚ) / unitsPerOne := by
  cases negative with
  | false => exact congrArg (· / (unitsPerOne : ℚ)) (Int.cast_natCast m.units).symm
  | true =>
      rw [signedValue, if_pos rfl, Binary64.signed, if_pos rfl, Int.cast_neg, neg_div, Int.cast_natCast]
      rfl

theorem Number.value?_eq (n : Number) : n.value? = n.place?.map Place.value := by
  rcases n with n | _ | negative | ⟨negative, m⟩
  · have hcancel : ((n * unitsPerOne : ℤ) : ℚ) / unitsPerOne = n := by
      rw [Int.cast_mul, Int.cast_natCast, mul_div_cancel_right₀ _ cast_unitsPerOne_pos.ne']
    rw [value?, place?, Option.map_some, Place.value, hcancel, Rat.cast_intCast]
  · rfl
  · cases negative <;> rfl
  · rw [value?, Magnitude.signedValue_eq]
    rfl

theorem Number.value?_eq_of_rational? {n : Number} {q : ℚ} (h : n.rational? = some q) :
    n.value? = some ((q : ℝ) : EReal) := by
  rcases n with n | _ | negative | ⟨negative, m⟩
  · cases h
    rw [value?, Rat.cast_intCast]
  · cases h
  · cases h
  · cases h
    rfl

theorem compares_compareOfLessAndEq (a b : ℤ) : (compareOfLessAndEq a b).Compares a b := by
  have h := cmp_compares a b
  rwa [cmp_eq_compare, LinearOrder.compare_eq_compareOfLessAndEq] at h

theorem Binary64.rational?_of_integer? {x : Binary64} {n : ℤ} (h : x.integer? = some n) :
    (Number.float x).rational? = some (n : ℚ) := by
  obtain ⟨negative, m, rfl, hm, hn⟩ := integer?_eq_some h
  rw [Number.rational?, Magnitude.signedValue_eq, hm, signed_mul, ← hn, Int.cast_mul, Int.cast_natCast,
    mul_div_cancel_right₀ _ cast_unitsPerOne_pos.ne']

theorem Binary64.value?_of_integer? {x : Binary64} {n : ℤ} (h : x.integer? = some n) :
    (Number.float x).value? = some ((n : ℝ) : EReal) := by
  rw [Number.value?_eq_of_rational? (rational?_of_integer? h), Rat.cast_intCast]

namespace Place

theorem value_within_lt {a b : ℤ} (h : a < b) : (Place.within a).value < (Place.within b).value := by
  have hdiv : (a : ℚ) / unitsPerOne < b / unitsPerOne :=
    div_lt_div_of_pos_right (Int.cast_lt.2 h) cast_unitsPerOne_pos
  exact EReal.coe_lt_coe_iff.2 (Rat.cast_lt.2 hdiv)

theorem compares (p q : Place) : (p.compare q).Compares p.value q.value := by
  rcases p with _ | a | _ <;> rcases q with _ | b | _
  case within.within =>
    have hmono : StrictMono fun units : ℤ => (Place.within units).value := fun _ _ => value_within_lt
    exact hmono.compares.2 (compares_compareOfLessAndEq a b)
  case below.below | above.above => rfl
  case below.within => exact EReal.bot_lt_coe _
  case within.below => exact EReal.bot_lt_coe _
  case above.within => exact EReal.coe_lt_top _
  case within.above => exact EReal.coe_lt_top _
  case below.above | above.below => exact bot_lt_top

end Place

theorem Number.exists_compare? {m n : Number} {a b : EReal} (hm : m.value? = some a)
    (hn : n.value? = some b) : ∃ o, m.compare? n = some o ∧ o.Compares a b := by
  rw [value?_eq] at hm hn
  obtain ⟨p, hp, rfl⟩ := Option.map_eq_some_iff.1 hm
  obtain ⟨q, hq, rfl⟩ := Option.map_eq_some_iff.1 hn
  refine ⟨p.compare q, ?_, p.compares q⟩
  rw [compare?, hp, hq]
  rfl

theorem add_le_two_mul_of_abs_sub_le {a b q : ℚ} (hab : a < b) (h : |b - q| ≤ |a - q|) :
    a + b ≤ 2 * q := by
  rcases abs_cases (b - q) with ⟨hb, hb'⟩ | ⟨hb, hb'⟩ <;>
    rcases abs_cases (a - q) with ⟨ha, ha'⟩ | ⟨ha, ha'⟩ <;> rw [ha, hb] at h <;> linarith

theorem two_mul_le_add_of_abs_sub_le {a b q : ℚ} (hab : a < b) (h : |a - q| ≤ |b - q|) :
    2 * q ≤ a + b := by
  rcases abs_cases (b - q) with ⟨hb, hb'⟩ | ⟨hb, hb'⟩ <;>
    rcases abs_cases (a - q) with ⟨ha, ha'⟩ | ⟨ha, ha'⟩ <;> rw [ha, hb] at h <;> linarith

namespace Magnitude

variable {m m' : Magnitude} {q q' : ℚ}

theorem value_nonneg (m : Magnitude) : 0 ≤ m.value := div_nonneg (Nat.cast_nonneg _) cast_unitsPerOne_pos.le

theorem IsNearest.value_le (h : m.IsNearest q) (h' : m'.IsNearest q') (hle : q ≤ q') :
    m.value ≤ m'.value := by
  by_contra hgt
  have hlt := not_le.1 hgt
  have habove := add_le_two_mul_of_abs_sub_le hlt (h.nearest m')
  have hbelow := two_mul_le_add_of_abs_sub_le hlt (h'.nearest m)
  obtain rfl : q = q' := by linarith
  rw [h.unique h'] at hlt
  exact lt_irrefl _ hlt

theorem isRounded_natCast (n : ℕ) : IsRounded n (round? (n * unitsPerOne) 1) := by
  refine isRounded_of_quotient one_pos ?_
  rw [Nat.cast_mul, Nat.cast_one, div_one]

theorem isRounded_value (m : Magnitude) : IsRounded m.value (some m) := by
  rw [← m.round?_units 1 one_pos]
  refine isRounded_of_quotient one_pos ?_
  rw [Nat.mul_one, Nat.cast_one, div_one, value, div_mul_cancel₀ _ cast_unitsPerOne_pos.ne']

noncomputable def reach : Option Magnitude → EReal
  | some m => ((m.value : ℝ) : EReal)
  | none => ⊤

variable {o o' : Option Magnitude}

theorem reach_nonneg (o : Option Magnitude) : 0 ≤ reach o := by
  cases o with
  | none => exact le_top
  | some m => exact EReal.coe_nonneg.2 (Rat.cast_nonneg.2 m.value_nonneg)

theorem IsRounded.reach_le (h : IsRounded q o) (h' : IsRounded q' o') (hle : q ≤ q') :
    reach o ≤ reach o' := by
  cases o' with
  | none => exact le_top
  | some m' =>
      cases o with
      | none => exact absurd (hle.trans_lt h'.1) (not_lt.2 h)
      | some m => exact EReal.coe_le_coe_iff.2 (Rat.cast_le.2 (h.2.value_le h'.2 hle))

theorem IsRounded.reach_eq_zero (h : IsRounded 0 o) : reach o = 0 := by
  have hzero : reach (some zero) = 0 := by
    rw [reach, value_zero, Rat.cast_zero, EReal.coe_zero]
  refine le_antisymm (hzero ▸ h.reach_le zero.isRounded_value ?_) (reach_nonneg o)
  exact zero.value_nonneg

end Magnitude

namespace Binary64

open Magnitude (IsRounded reach)

/-- What a rational number is rounded to. Zero is rounded to either zero. -/
inductive IsRoundingOf (q : ℚ) : Binary64 → Prop
  | positive {o : Option Magnitude} (hq : 0 ≤ q) (h : IsRounded q o) : IsRoundingOf q (.ofMagnitude? false o)
  | negative {o : Option Magnitude} (hq : q ≤ 0) (h : IsRounded (-q) o) : IsRoundingOf q (.ofMagnitude? true o)

theorem isRoundingOf_ofInt (n : ℤ) : IsRoundingOf n (ofInt n) := by
  have hrounded := Magnitude.isRounded_natCast n.natAbs
  rw [Nat.cast_natAbs] at hrounded
  rw [ofInt, ofRatio]
  by_cases hn : n < 0
  · rw [decide_eq_true hn]
    refine .negative (Int.cast_nonpos.2 hn.le) ?_
    rwa [abs_of_neg hn, Int.cast_neg] at hrounded
  · rw [decide_eq_false hn]
    refine .positive (Int.cast_nonneg (not_lt.1 hn)) ?_
    rwa [abs_of_nonneg (not_lt.1 hn)] at hrounded

theorem isRoundingOf_finite (negative : Bool) (m : Magnitude) :
    IsRoundingOf (m.signedValue negative) (.finite negative m) := by
  cases negative with
  | false => exact .positive (o := some m) m.value_nonneg m.isRounded_value
  | true =>
      refine .negative (o := some m) (neg_nonpos.2 m.value_nonneg) ?_
      rw [Magnitude.signedValue, if_pos rfl, neg_neg]
      exact m.isRounded_value

theorem value?_ofMagnitude? (negative : Bool) (o : Option Magnitude) :
    (Number.float (.ofMagnitude? negative o)).value? = some (if negative then -reach o else reach o) := by
  cases o with
  | none =>
      cases negative with
      | false => rfl
      | true => exact congrArg some EReal.neg_top.symm
  | some m =>
      cases negative with
      | false => rfl
      | true =>
          refine congrArg some ?_
          rw [Magnitude.signedValue, if_pos rfl, Rat.cast_neg, EReal.coe_neg]
          rfl

variable {q q' : ℚ} {x x' : Binary64} {a a' : EReal}

theorem IsRoundingOf.exists_value? (h : IsRoundingOf q x) : ∃ a, (Number.float x).value? = some a := by
  cases h <;> exact ⟨_, value?_ofMagnitude? _ _⟩

theorem IsRoundingOf.value_le (h : IsRoundingOf q x) (h' : IsRoundingOf q' x') (hle : q ≤ q')
    (ha : (Number.float x).value? = some a) (ha' : (Number.float x').value? = some a') : a ≤ a' := by
  cases h with
  | positive hq h =>
      obtain rfl := Option.some.inj ((value?_ofMagnitude? _ _).symm.trans ha)
      cases h' with
      | positive hq' h' =>
          obtain rfl := Option.some.inj ((value?_ofMagnitude? _ _).symm.trans ha')
          exact h.reach_le h' hle
      | negative hq' h' =>
          obtain rfl := Option.some.inj ((value?_ofMagnitude? _ _).symm.trans ha')
          obtain rfl : q = 0 := le_antisymm (hle.trans hq') hq
          obtain rfl : q' = 0 := le_antisymm hq' hle
          rw [neg_zero] at h'
          rw [if_pos rfl, if_neg Bool.false_ne_true, h.reach_eq_zero, h'.reach_eq_zero, neg_zero]
  | negative hq h =>
      obtain rfl := Option.some.inj ((value?_ofMagnitude? _ _).symm.trans ha)
      cases h' with
      | positive hq' h' =>
          obtain rfl := Option.some.inj ((value?_ofMagnitude? _ _).symm.trans ha')
          exact (EReal.neg_le_zero.2 (Magnitude.reach_nonneg _)).trans (Magnitude.reach_nonneg _)
      | negative hq' h' =>
          obtain rfl := Option.some.inj ((value?_ofMagnitude? _ _).symm.trans ha')
          exact EReal.neg_le_neg_iff.2 (h'.reach_le h (neg_le_neg hle))

theorem IsRoundingOf.same_side (h : IsRoundingOf q x) {y : Binary64} (ha : (Number.float x).value? = some a)
    (ha' : (Number.float y).value? = some a') :
    (a' ≤ ((q : ℝ) : EReal) → a' ≤ a) ∧ (((q : ℝ) : EReal) ≤ a' → a ≤ a') := by
  rcases y with _ | negative | ⟨negative, m⟩
  · cases ha'
  · cases ha'
    cases negative with
    | false => exact ⟨fun hle => absurd (top_le_iff.1 hle) (EReal.coe_ne_top _), fun _ => le_top⟩
    | true => exact ⟨fun _ => bot_le, fun hle => absurd (le_bot_iff.1 hle) (EReal.coe_ne_bot _)⟩
  · have hfinite := isRoundingOf_finite negative m
    obtain rfl := Option.some.inj (Number.value?_eq_of_rational? (n := .float (.finite negative m)) rfl ▸ ha')
    exact ⟨fun hle => hfinite.value_le h (Rat.cast_le.1 (EReal.coe_le_coe_iff.1 hle)) ha' ha,
      fun hle => h.value_le hfinite (Rat.cast_le.1 (EReal.coe_le_coe_iff.1 hle)) ha ha'⟩

end Binary64

def integerPart (q : ℚ) : ℤ := if 0 ≤ q then ⌊q⌋ else ⌈q⌉

theorem integerPart_le_integerPart {q q' : ℚ} (hle : q ≤ q') : integerPart q ≤ integerPart q' := by
  rw [integerPart, integerPart]
  split
  · rename_i hq
    rw [if_pos (hq.trans hle)]
    exact Int.floor_mono hle
  · rename_i hq
    split
    · rename_i hq'
      exact (Int.ceil_nonpos.2 (not_le.1 hq).le).trans (Int.floor_nonneg.2 hq')
    · exact Int.ceil_mono hle

theorem integerPart_of_nonneg {q : ℚ} (h : 0 ≤ q) : integerPart q = ⌊q⌋ := if_pos h

theorem integerPart_neg_of_nonneg {q : ℚ} (h : 0 ≤ q) : integerPart (-q) = -⌊q⌋ := by
  rcases h.eq_or_lt with rfl | hpos
  · rfl
  · rw [integerPart, if_neg (not_le.2 (neg_neg_iff_pos.2 hpos)), Int.ceil_neg]

theorem integerPart_intCast (n : ℤ) : integerPart n = n := by
  rw [integerPart, Int.floor_intCast, Int.ceil_intCast, ite_self]

theorem Number.truncate?_eq {n : Number} {q : ℚ} (h : n.rational? = some q) :
    n.truncate? = some (integerPart q) := by
  rcases n with n | _ | _ | ⟨negative, m⟩
  · cases h
    rw [integerPart_intCast]
    rfl
  · cases h
  · cases h
  · cases h
    have hfloor : ⌊m.value⌋ = (m.units / unitsPerOne : ℕ) := by
      rw [Magnitude.value, Rat.floor_natCast_div_natCast]
      rfl
    cases negative with
    | false =>
        refine congrArg some ?_
        rw [Magnitude.signedValue, if_neg Bool.false_ne_true, integerPart_of_nonneg m.value_nonneg, hfloor]
        rfl
    | true =>
        refine congrArg some ?_
        rw [Magnitude.signedValue, if_pos rfl, integerPart_neg_of_nonneg m.value_nonneg, hfloor]
        rfl

end RecordSieve
