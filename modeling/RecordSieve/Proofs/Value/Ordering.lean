import RecordSieve.Proofs.Number.Order
import RecordSieve.Proofs.Text.Order
import RecordSieve.Proofs.Value.Fraction

namespace RecordSieve

namespace OrderOp

instance {α : Type} [LE α] [LT α] [DecidableLE α] [DecidableLT α] :
    (op : OrderOp) → (a b : α) → Decidable (op.Relates a b)
  | .gt, a, b => inferInstanceAs (Decidable (b < a))
  | .gte, a, b => inferInstanceAs (Decidable (b ≤ a))
  | .lt, a, b => inferInstanceAs (Decidable (a < b))
  | .lte, a, b => inferInstanceAs (Decidable (a ≤ b))

theorem holds_iff {α : Type} [LinearOrder α] {a b : α} {o : Ordering} (h : o.Compares a b) (op : OrderOp) :
    op.holds o = true ↔ op.Relates a b := by
  cases op with
  | gt => exact Ordering.isGT_iff_eq_gt.trans h.eq_gt
  | gte => exact Ordering.isGE_iff_ne_lt.trans h.ne_lt
  | lt => exact Ordering.isLT_iff_eq_lt.trans h.eq_lt
  | lte => exact Ordering.isLE_iff_ne_gt.trans h.ne_gt

theorem holdsFor_iff {f v : Value} {m n : Number} {b : EReal} (hf : f.number? = some m)
    (hv : Value.toKindOf? f v = some n) (hb : n.value? = some b) (op : OrderOp) :
    op.holdsFor f v = true ↔ ∃ a, m.value? = some a ∧ op.Relates a b := by
  have hcompare : op.holdsFor f v = (m.compare? n).any op.holds := by
    simp only [holdsFor, hf, hv, Option.bind_some]
  rw [hcompare]
  cases ha : m.value? with
  | none =>
      rw [Number.value?_eq, Option.map_eq_none_iff] at ha
      rw [Number.compare?, ha]
      exact iff_of_false Bool.false_ne_true (by rintro ⟨_, ⟨⟩, _⟩)
  | some a =>
      obtain ⟨o, ho, hcompares⟩ := Number.exists_compare? ha hb
      rw [ho, Option.any_some, op.holds_iff hcompares]
      refine ⟨fun h => ⟨a, rfl, h⟩, ?_⟩
      rintro ⟨_, ⟨⟩, h⟩
      exact h

end OrderOp

namespace Value

variable {v w : Value} {q q' : ℚ}

def rational? (v : Value) : Option ℚ := v.toNumber?.bind Number.rational?

theorem rational?_float_of_integer? {x : Binary64} {n : ℤ} (h : x.integer? = some n) :
    (Value.float x).rational? = some (n : ℚ) := by
  have hread : (Value.float x).toNumber? = some (.float x) := rfl
  rw [rational?, hread, Option.bind_some, Binary64.rational?_of_integer? h]

theorem toInteger?_of_rational? (h : v.rational? = some q) : v.toInteger? = some (integerPart q) := by
  obtain ⟨n, hn, hq⟩ := Option.bind_eq_some_iff.1 h
  rw [toInteger?, hn, Option.bind_some, Number.truncate?_eq hq]

theorem toFloat?_of_rational? (h : v.rational? = some q) :
    ∃ y, v.toFloat? = some y ∧ Binary64.IsRoundingOf q y := by
  obtain ⟨n, hn, hq⟩ := Option.bind_eq_some_iff.1 h
  refine ⟨n.toBinary64, by rw [toFloat?, hn, Option.map_some], ?_⟩
  rcases n with n | _ | _ | ⟨negative, m⟩
  · cases hq
    exact Binary64.isRoundingOf_ofInt n
  · cases hq
  · cases hq
  · cases hq
    exact Binary64.isRoundingOf_finite negative m

theorem exists_toKindOf?_le {f : Value} (hf : (∃ k, f = .integer k) ∨ ∃ x, f = .float x)
    (hv : v.rational? = some q) (hw : w.rational? = some q') (hle : q ≤ q') :
    ∃ m n b b', toKindOf? f v = some m ∧ m.value? = some b ∧ toKindOf? f w = some n ∧
      n.value? = some b' ∧ b ≤ b' := by
  rcases hf with ⟨k, rfl⟩ | ⟨x, rfl⟩
  · refine ⟨.integer (integerPart q), .integer (integerPart q'), _, _, ?_, rfl, ?_, rfl, ?_⟩
    · rw [toKindOf?, toInteger?_of_rational? hv, Option.map_some]
    · rw [toKindOf?, toInteger?_of_rational? hw, Option.map_some]
    · exact EReal.coe_le_coe_iff.2 (Int.cast_le.2 (integerPart_le_integerPart hle))
  · obtain ⟨y, hy, hround⟩ := toFloat?_of_rational? hv
    obtain ⟨y', hy', hround'⟩ := toFloat?_of_rational? hw
    obtain ⟨b, hb⟩ := hround.exists_value?
    obtain ⟨b', hb'⟩ := hround'.exists_value?
    refine ⟨.float y, .float y', b, b', ?_, hb, ?_, hb', hround.value_le hround' hle hb hb'⟩
    · rw [toKindOf?, hy, Option.map_some]
    · rw [toKindOf?, hy', Option.map_some]

end Value

namespace OrderOp

/-- A greater operand is a stronger lower bound and a weaker upper bound. -/
theorem holdsFor_of_rational?_le {f v w : Value} {q q' : ℚ}
    (hf : (∃ k, f = .integer k) ∨ ∃ x, f = .float x) (hv : v.rational? = some q)
    (hw : w.rational? = some q') (hle : q ≤ q') :
    (OrderOp.gt.holdsFor f w = true → OrderOp.gt.holdsFor f v = true) ∧
    (OrderOp.gte.holdsFor f w = true → OrderOp.gte.holdsFor f v = true) ∧
    (OrderOp.lt.holdsFor f v = true → OrderOp.lt.holdsFor f w = true) ∧
    (OrderOp.lte.holdsFor f v = true → OrderOp.lte.holdsFor f w = true) := by
  obtain ⟨m, n, b, b', hm, hb, hn, hb', hbound⟩ := Value.exists_toKindOf?_le hf hv hw hle
  obtain ⟨k, hk⟩ : ∃ k, f.number? = some k := by
    rcases hf with ⟨k, rfl⟩ | ⟨x, rfl⟩
    · exact ⟨_, rfl⟩
    · exact ⟨_, rfl⟩
  have hbelow := holdsFor_iff hk hm hb
  have habove := holdsFor_iff hk hn hb'
  simp only [hbelow, habove]
  refine ⟨?_, ?_, ?_, ?_⟩ <;> rintro ⟨a, ha, h⟩ <;> refine ⟨a, ha, ?_⟩
  · exact hbound.trans_lt h
  · exact hbound.trans h
  · exact lt_of_lt_of_le h hbound
  · exact le_trans h hbound

theorem holdsFor_of_rational?_le_mixed :
    let v : Value := .float (.ofInt (-6))
    let w : Value := .integer 9007199254740993
    (OrderOp.lt.holdsFor (.integer (-7)) v = true ∧ OrderOp.lt.holdsFor (.integer (-7)) w = true) ∧
      (OrderOp.gte.holdsFor (.float (.ofInt 9007199254740992)) w = true ∧
        OrderOp.gte.holdsFor (.float (.ofInt 9007199254740992)) v = true) := by
  intro v w
  have hv : v.rational? = some ((-6 : ℤ) : ℚ) :=
    Value.rational?_float_of_integer? (by decide +kernel)
  have hw : w.rational? = some ((9007199254740993 : ℤ) : ℚ) := rfl
  have hle : ((-6 : ℤ) : ℚ) ≤ ((9007199254740993 : ℤ) : ℚ) := Int.cast_le.2 (by decide)
  have hlt : OrderOp.lt.holdsFor (.integer (-7)) v = true := by decide +kernel
  have hgte : OrderOp.gte.holdsFor (.float (.ofInt 9007199254740992)) w = true := by decide +kernel
  exact ⟨⟨hlt, (holdsFor_of_rational?_le (.inl ⟨_, rfl⟩) hv hw hle).2.2.1 hlt⟩,
    hgte, (holdsFor_of_rational?_le (.inr ⟨_, rfl⟩) hv hw hle).2.1 hgte⟩

theorem holdsFor_integer_integer (op : OrderOp) (k n : ℤ) :
    op.holdsFor (.integer k) (.integer n) = true ↔ op.Relates k n := by
  rw [holdsFor_integer]
  exact op.holds_iff (compares_compareOfLessAndEq k n)

theorem holdsFor_float_integer {x : Binary64} {n : ℤ} {a b : EReal} (ha : (Number.float x).value? = some a)
    (hb : (Number.float (.ofInt n)).value? = some b) (op : OrderOp) :
    op.holdsFor (.float x) (.integer n) = true ↔ op.Relates a b := by
  rw [holdsFor_iff rfl rfl hb, ha]
  refine ⟨?_, fun h => ⟨a, rfl, h⟩⟩
  rintro ⟨_, ⟨⟩, h⟩
  exact h

theorem exists_compares_ofInt {x : Binary64} {n : ℤ} {a b : EReal} (ha : (Number.float x).value? = some a)
    (hb : (Number.float (.ofInt n)).value? = some b) (hexact : b = a → a = ((n : ℝ) : EReal)) :
    ∃ o : Ordering, o.Compares a b ∧ o.Compares a ((n : ℝ) : EReal) := by
  obtain ⟨hbelow, habove⟩ := (Binary64.isRoundingOf_ofInt n).same_side hb ha
  rw [Rat.cast_intCast] at hbelow habove
  rcases lt_trichotomy a ((n : ℝ) : EReal) with h | h | h
  · exact ⟨.lt, lt_of_le_of_ne (hbelow h.le) fun heq => h.ne (hexact heq.symm), h⟩
  · exact ⟨.eq, le_antisymm (hbelow h.le) (habove h.ge), h⟩
  · exact ⟨.gt, lt_of_le_of_ne (habove h.le) fun heq => h.ne' (hexact heq), h⟩

/-- An integer operand is compared exactly with an integer field. With a binary64 field it is unless it
is rounded to that field's number without being equal to it. -/
theorem holdsFor_integer_exact_iff (n : ℤ) :
    (∀ (k : ℤ) (op : OrderOp), op.holdsFor (.integer k) (.integer n) = true ↔ op.Relates k n) ∧
    ∀ (x : Binary64) (a : EReal), (Number.float x).value? = some a →
      ((∀ op : OrderOp, op.holdsFor (.float x) (.integer n) = true ↔ op.Relates a ((n : ℝ) : EReal)) ↔
        ((Number.float (.ofInt n)).value? = some a → a = ((n : ℝ) : EReal))) := by
  refine ⟨fun k op => op.holdsFor_integer_integer k n, fun x a ha => ?_⟩
  constructor
  · intro hexact hrounded
    have hgte := (hexact .gte).1 ((OrderOp.gte.holdsFor_float_integer ha hrounded).2 (le_refl a))
    have hlte := (hexact .lte).1 ((OrderOp.lte.holdsFor_float_integer ha hrounded).2 (le_refl a))
    exact le_antisymm hlte hgte
  · intro hrounded op
    obtain ⟨b, hb⟩ := (Binary64.isRoundingOf_ofInt n).exists_value?
    obtain ⟨o, hob, hon⟩ := exists_compares_ofInt ha hb fun heq => hrounded (heq ▸ hb)
    rw [op.holdsFor_float_integer ha hb, ← op.holds_iff hob, op.holds_iff hon]

theorem holdsFor_integer_exact_iff_above :
    OrderOp.lt.holdsFor (.integer 9007199254740992) (.integer 9007199254740993) = true ∧
      ∀ op : OrderOp, op.holdsFor (.float (.ofInt 9007199254740994)) (.integer 9007199254740993) = true ↔
        op.Relates (((9007199254740994 : ℤ) : ℝ) : EReal) (((9007199254740993 : ℤ) : ℝ) : EReal) := by
  have hexact := holdsFor_integer_exact_iff 9007199254740993
  have hfield : (Number.float (.ofInt 9007199254740994)).value? =
      some (((9007199254740994 : ℤ) : ℝ) : EReal) := Binary64.value?_of_integer? (by decide +kernel)
  have hoperand : (Number.float (.ofInt 9007199254740993)).value? =
      some (((9007199254740992 : ℤ) : ℝ) : EReal) := Binary64.value?_of_integer? (by decide +kernel)
  refine ⟨(hexact.1 _ .lt).2 (by decide), (hexact.2 _ _ hfield).2 fun hrounded => ?_⟩
  have heq := Int.cast_injective (EReal.coe_injective (Option.some.inj (hoperand.symm.trans hrounded)))
  exact absurd heq (by decide)

/-- The operand is rounded to the field that is smaller by one. -/
theorem holdsFor_integer_rounded :
    (Number.float (.ofInt 9007199254740992)).value? = some (((9007199254740992 : ℤ) : ℝ) : EReal) ∧
      ¬ (OrderOp.lt.holdsFor (.float (.ofInt 9007199254740992)) (.integer 9007199254740993) = true ↔
        OrderOp.lt.Relates (((9007199254740992 : ℤ) : ℝ) : EReal) (((9007199254740993 : ℤ) : ℝ) : EReal)) := by
  refine ⟨Binary64.value?_of_integer? (by decide +kernel), fun h => ?_⟩
  have hless : (((9007199254740992 : ℤ) : ℝ) : EReal) < (((9007199254740993 : ℤ) : ℝ) : EReal) :=
    EReal.coe_lt_coe_iff.2 (Int.cast_lt.2 (by decide))
  have hfalse : OrderOp.lt.holdsFor (.float (.ofInt 9007199254740992)) (.integer 9007199254740993) = false := by
    decide +kernel
  exact Bool.false_ne_true (hfalse.symm.trans (h.2 hless))

end OrderOp

end RecordSieve
