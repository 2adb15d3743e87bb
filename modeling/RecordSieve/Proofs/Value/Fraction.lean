import RecordSieve.Proofs.Value.Operand

namespace RecordSieve

abbrev orderOf (a b : Int) : Ordering := compareOfLessAndEq a b

theorem orderOf_of_lt {a b : Int} (h : a < b) : orderOf a b = .lt := if_pos h

theorem orderOf_self (a : Int) : orderOf a a = .eq := by
  rw [orderOf, compareOfLessAndEq, if_neg (Int.lt_irrefl a), if_pos rfl]

theorem orderOf_of_gt {a b : Int} (h : b < a) : orderOf a b = .gt := by
  rw [orderOf, compareOfLessAndEq, if_neg (by omega), if_neg (by omega)]

theorem orderOf_mul {u : Nat} (hu : 0 < u) (a b : Int) : orderOf (a * u) (b * u) = orderOf a b := by
  have hpos : (0 : Int) < u := Int.natCast_pos.2 hu
  simp only [orderOf, compareOfLessAndEq, Int.mul_lt_mul_right hpos, Int.mul_eq_mul_right_iff hpos.ne']

theorem orderOf_neg (a b : Int) : orderOf a (-b) = (orderOf (-a) b).swap := by
  rcases Int.lt_trichotomy (-a) b with h | rfl | h
  · rw [orderOf_of_lt h, orderOf_of_gt (by omega)]
    rfl
  · rw [Int.neg_neg, orderOf_self, orderOf_self]
    rfl
  · rw [orderOf_of_gt h, orderOf_of_lt (by omega)]
    rfl

theorem orderOf_of_natAbs_lt {a b : Int} (h : a.natAbs < b.natAbs) :
    orderOf a b = if b < 0 then .gt else .lt := by
  split
  · exact orderOf_of_gt (by omega)
  · exact orderOf_of_lt (by omega)

theorem orderOf_fraction {u r : Nat} (hr : 0 < r) (hu : r < u) (n : Int) (q : Nat) :
    orderOf (n * u) (q * u + r : Nat) = if n ≤ q then .lt else .gt := by
  have hpos : (0 : Int) ≤ u := Int.natCast_nonneg u
  rw [Int.natCast_add, Int.natCast_mul]
  split
  · rename_i hle
    have := Int.mul_le_mul_of_nonneg_right hle hpos
    exact orderOf_of_lt (by omega)
  · rename_i hle
    have hge : (q : Int) + 1 ≤ n := by omega
    have := Int.mul_le_mul_of_nonneg_right hge hpos
    rw [Int.add_mul, Int.one_mul] at this
    exact orderOf_of_gt (by omega)

namespace Binary64

theorem place?_ofInt_of_isSafe {m : Int} (h : isSafe m = true) :
    (ofInt m).place? = some (.within (m * unitsPerOne)) :=
  place?_eq_of_integer? (integer?_ofInt h)

theorem place?_ofInt_of_not_isSafe {m : Int} (h : ¬ isSafe m = true) :
    (ofInt m).place? = some (if m < 0 then .below else .above) ∨
      ∃ units, 2 ^ 53 * unitsPerOne ≤ units ∧
        (ofInt m).place? = some (.within (if m < 0 then -(units : Int) else units)) := by
  have hm : 2 ^ 53 ≤ m.natAbs := by
    have : ¬ m.natAbs ≤ 2 ^ 53 - 1 := fun hle => h (decide_eq_true hle)
    omega
  rw [ofInt, ofRatio]
  cases hr : Magnitude.round? (m.natAbs * unitsPerOne) 1 with
  | none =>
      left
      simp only [ofMagnitude?, place?, decide_eq_true_eq]
  | some mag =>
      right
      obtain ⟨j, -, hj⟩ := Magnitude.two_pow_mul_unitsPerOne 53
      have hge : 2 ^ j ≤ m.natAbs * unitsPerOne := hj ▸ Nat.mul_le_mul_right _ hm
      refine ⟨mag.units, hj ▸ Magnitude.two_pow_le_units hr (by rwa [Nat.div_one]), ?_⟩
      simp only [ofMagnitude?, place?, signed, decide_eq_true_eq]

theorem compare_place?_ofInt {n : Int} (hn : isSafe n = true) (m : Int) :
    (ofInt m).place?.map (Place.within (n * unitsPerOne)).compare = some (orderOf n m) := by
  by_cases hm : isSafe m = true
  · rw [place?_ofInt_of_isSafe hm, Option.map_some, Place.compare]
    exact congrArg some (orderOf_mul unitsPerOne_pos n m)
  · have hn := natAbs_lt_of_isSafe hn
    have hlt : n.natAbs < m.natAbs := by
      have : ¬ m.natAbs ≤ 2 ^ 53 - 1 := fun hle => hm (decide_eq_true hle)
      omega
    rw [orderOf_of_natAbs_lt hlt]
    rcases place?_ofInt_of_not_isSafe hm with hplace | ⟨units, hunits, hplace⟩
    · rw [hplace, Option.map_some]
      split <;> rfl
    · have habs : (n * unitsPerOne).natAbs < units := by
        rw [Int.natAbs_mul, Int.natAbs_natCast]
        exact Nat.lt_of_lt_of_le (Nat.mul_lt_mul_of_pos_right hn unitsPerOne_pos) hunits
      rw [hplace, Option.map_some, Place.compare]
      generalize n * (unitsPerOne : Int) = a at habs
      have hb : a.natAbs < (if m < 0 then -(units : Int) else units).natAbs := by split <;> omega
      have hsign : (if m < 0 then -(units : Int) else units) < 0 ↔ m < 0 := by split <;> omega
      have horder := orderOf_of_natAbs_lt hb
      simp only [hsign] at horder
      exact congrArg some horder

end Binary64

theorem orderOf_units {m : Magnitude} (hm : m.units % unitsPerOne ≠ 0) (negative : Bool) (n : Int) :
    orderOf (n * unitsPerOne) (Binary64.signed negative m.units) =
      if n = Binary64.signed negative (m.units / unitsPerOne) then (if negative then .gt else .lt)
      else orderOf n (Binary64.signed negative (m.units / unitsPerOne)) := by
  have hfraction : ∀ k : Int, orderOf (k * unitsPerOne) m.units =
      if k ≤ (m.units / unitsPerOne : Nat) then .lt else .gt := fun k => by
    have h := orderOf_fraction (Nat.pos_of_ne_zero hm) (Nat.mod_lt m.units unitsPerOne_pos) k
      (m.units / unitsPerOne)
    rwa [Nat.div_add_mod'] at h
  generalize m.units / unitsPerOne = q at hfraction ⊢
  cases negative with
  | false =>
      simp only [Binary64.signed, Bool.false_eq_true, if_false, hfraction]
      rcases Int.lt_trichotomy n q with h | rfl | h
      · rw [if_pos (by omega), if_neg (by omega), orderOf_of_lt h]
      · rw [if_pos (Int.le_refl _), if_pos rfl]
      · rw [if_neg (by omega), if_neg (by omega), orderOf_of_gt h]
  | true =>
      simp only [Binary64.signed, if_true, orderOf_neg, ← Int.neg_mul, hfraction]
      rcases Int.lt_trichotomy (-n) q with h | h | h
      · rw [if_pos (by omega), if_neg (by omega), orderOf_of_lt h]
      · rw [if_pos (by omega), if_pos (by omega)]
        rfl
      · rw [if_neg (by omega), if_neg (by omega), orderOf_of_gt h]

theorem Magnitude.isSafe_of_fraction {m : Magnitude} (hm : m.units % unitsPerOne ≠ 0) (negative : Bool) :
    isSafe (Binary64.signed negative (m.units / unitsPerOne)) = true := by
  obtain ⟨e, -, hone⟩ := unitsPerOne_eq_two_pow
  have hscale : m.scale ≤ e := by
    by_contra hgt
    refine hm (Nat.mod_eq_zero_of_dvd ?_)
    rw [m.units_eq, hone]
    exact Nat.dvd_mul_left_of_dvd (Nat.pow_dvd_pow 2 (by omega)) _
  have hlt : m.units / unitsPerOne < 2 ^ 53 := by
    rw [Nat.div_lt_iff_lt_mul unitsPerOne_pos, m.units_eq, hone]
    calc m.significand * 2 ^ m.scale < 2 ^ 53 * 2 ^ m.scale :=
          Nat.mul_lt_mul_of_pos_right m.bounded (Nat.two_pow_pos _)
      _ ≤ 2 ^ 53 * 2 ^ e := Nat.mul_le_mul_left _ (Nat.pow_le_pow_right (by decide) hscale)
  rw [isSafe, Binary64.natAbs_signed]
  exact decide_eq_true (Nat.le_pred_of_lt hlt)

namespace OrderOp

theorem holdsFor_integer (op : OrderOp) (n : Int) (v : Value) :
    op.holdsFor (.integer n) v = v.toInteger?.any (op.holds ∘ orderOf n) := by
  simp only [holdsFor, Value.number?, Value.toKindOf?]
  cases v.toInteger? with
  | none => rfl
  | some m =>
      have hcompare : (Number.integer n).compare? (.integer m) = some (orderOf n m) :=
        congrArg some (orderOf_mul unitsPerOne_pos n m)
      simp [hcompare]

theorem holdsFor_float {x : Binary64} {n : Int} (hx : x.integer? = some n) (op : OrderOp) (v : Value) :
    op.holdsFor (.float x) v = (v.toFloat?.bind fun y =>
      y.place?.map (Place.within (n * unitsPerOne)).compare).any op.holds := by
  have hplace : x.place? = some (.within (n * unitsPerOne)) := Binary64.place?_eq_of_integer? hx
  simp only [holdsFor, Value.number?, Value.toKindOf?]
  cases v.toFloat? with
  | none => rfl
  | some y =>
      have hcompare : (Number.float x).compare? (.float y) =
          y.place?.map (Place.within (n * unitsPerOne)).compare := by
        rw [Number.compare?, Number.place?, hplace]
        cases hy : y.place? with
        | none => rw [Number.place?, hy]; rfl
        | some p => rw [Number.place?, hy]; rfl
      rw [Option.bind_some, ← hcompare]
      rfl

/-- Whether a test of a whole number gives the same answer when the operand's fraction is cut off. -/
def ignoresFraction (op : OrderOp) : Binary64 → Bool
  | .nan => true
  | .infinite negative => (op == .gt || op == .gte) != negative
  | .finite negative m => m.units % unitsPerOne == 0 || (op == .gt || op == .lte) != negative

def ignoresFractionOf (op : OrderOp) (operand : Value) : Bool :=
  match operand.toNumber? with
  | some (.float y) => op.ignoresFraction y
  | _ => true

theorem ignoresFractionOf_eq {v : Value} {y : Binary64} (h : v.toNumber? = some (.float y))
    (op : OrderOp) : op.ignoresFractionOf v = op.ignoresFraction y := by
  rw [ignoresFractionOf, h]

variable {op : OrderOp} {x : Binary64} {n : Int}

theorem holdsFor_infinite (op : OrderOp) (hx : x.integer? = some n) {v : Value} {negative : Bool}
    (h : v.toNumber? = some (.float (.infinite negative))) :
    op.holdsFor (.integer n) v = false ∧
      op.holdsFor (.float x) v = !op.ignoresFraction (.infinite negative) := by
  rw [holdsFor_integer, holdsFor_float hx, Value.toInteger?, Value.toFloat?, h]
  cases op <;> cases negative <;> exact ⟨rfl, rfl⟩

theorem holdsFor_finite (op : OrderOp) (hx : x.integer? = some n) {v : Value} {negative : Bool}
    {m : Magnitude} (h : v.toNumber? = some (.float (.finite negative m))) :
    op.holdsFor (.integer n) v =
        op.holds (orderOf n (Binary64.signed negative (m.units / unitsPerOne))) ∧
      op.holdsFor (.float x) v =
        op.holds (orderOf (n * unitsPerOne) (Binary64.signed negative m.units)) := by
  rw [holdsFor_integer, holdsFor_float hx, Value.toInteger?, Value.toFloat?, h]
  exact ⟨rfl, rfl⟩

theorem holdsFor_whole (hx : x.integer? = some n) {v : Value} {negative : Bool} {m : Magnitude}
    (h : v.toNumber? = some (.float (.finite negative m))) (hm : m.units % unitsPerOne = 0) :
    op.holdsFor (.float x) v = op.holdsFor (.integer n) v := by
  obtain ⟨hinteger, hfloat⟩ := holdsFor_finite op hx h
  have hplace := Binary64.place?_eq_of_integer? (x := .finite negative m) (if_pos hm)
  have hunits := Place.within.inj (Option.some.inj hplace)
  rw [hinteger, hfloat, hunits, orderOf_mul unitsPerOne_pos]

theorem holdsFor_fraction (hx : x.integer? = some n) {v : Value} {negative : Bool} {m : Magnitude}
    (h : v.toNumber? = some (.float (.finite negative m))) (hm : m.units % unitsPerOne ≠ 0) :
    op.holdsFor (.float x) v = op.holdsFor (.integer n) v ↔
      n = Binary64.signed negative (m.units / unitsPerOne) →
        op.ignoresFraction (.finite negative m) = true := by
  obtain ⟨hinteger, hfloat⟩ := holdsFor_finite op hx h
  rw [hinteger, hfloat, orderOf_units hm]
  split
  · rename_i heq
    rw [heq, orderOf_self, ignoresFraction, beq_eq_false_iff_ne.2 hm]
    cases op <;> cases negative <;> simp [holds]
  · rename_i hne
    exact ⟨fun _ heq => absurd heq hne, fun _ => rfl⟩

theorem holdsFor_of_ignoresFractionOf (hx : x.safeInteger? = some n) {v : Value}
    (h : op.ignoresFractionOf v = true) : op.holdsFor (.float x) v = op.holdsFor (.integer n) v := by
  obtain ⟨hint, hsafe⟩ := Binary64.safeInteger?_eq_some.1 hx
  match hv : v.toNumber? with
  | none => rw [holdsFor_integer, holdsFor_float hint, Value.toInteger?, Value.toFloat?, hv]; rfl
  | some (.integer m) =>
      rw [holdsFor_integer, holdsFor_float hint, Value.toInteger?, Value.toFloat?, hv, Option.map_some,
        Option.bind_some, Number.toBinary64, Binary64.compare_place?_ofInt hsafe m]
      rfl
  | some (.float .nan) =>
      rw [holdsFor_integer, holdsFor_float hint, Value.toInteger?, Value.toFloat?, hv]; rfl
  | some (.float (.infinite negative)) =>
      obtain ⟨hinteger, hfloat⟩ := holdsFor_infinite op hint hv
      rw [hinteger, hfloat, ← ignoresFractionOf_eq hv, h]
      rfl
  | some (.float (.finite negative m)) =>
      by_cases hm : m.units % unitsPerOne = 0
      · exact holdsFor_whole hint hv hm
      · exact (holdsFor_fraction hint hv hm).2 fun _ => ignoresFractionOf_eq hv op ▸ h

theorem exists_holdsFor_ne {v : Value} (h : op.ignoresFractionOf v = false) :
    ∃ x n, x.safeInteger? = some n ∧ op.holdsFor (.float x) v ≠ op.holdsFor (.integer n) v := by
  match hv : v.toNumber? with
  | none | some (.integer _) => simp [ignoresFractionOf, hv] at h
  | some (.float .nan) => simp [ignoresFractionOf, hv, ignoresFraction] at h
  | some (.float (.infinite negative)) =>
      have hsafe : (Binary64.ofInt 0).safeInteger? = some 0 := Binary64.safeInteger?_ofInt (by decide)
      obtain ⟨hinteger, hfloat⟩ :=
        holdsFor_infinite op (Binary64.safeInteger?_eq_some.1 hsafe).1 hv
      refine ⟨_, _, hsafe, ?_⟩
      rw [hinteger, hfloat, ← ignoresFractionOf_eq hv, h]
      decide
  | some (.float (.finite negative m)) =>
      rw [ignoresFractionOf_eq hv] at h
      have hm : m.units % unitsPerOne ≠ 0 := fun h0 => by simp [ignoresFraction, h0] at h
      have hsafe := Binary64.safeInteger?_ofInt (Magnitude.isSafe_of_fraction hm negative)
      have hint := (Binary64.safeInteger?_eq_some.1 hsafe).1
      exact ⟨_, _, hsafe, fun hsame => by simp [(holdsFor_fraction hint hv hm).1 hsame rfl] at h⟩

end OrderOp

end RecordSieve
