import RecordSieve.Proofs.Number.Numeral
import RecordSieve.Query.Evaluation

namespace RecordSieve

namespace Value

/-- Values that every test of a field treats alike. -/
structure Interchangeable (v w : Value) : Prop where
  null : v = .null ↔ w = .null
  equals : ∀ f : Value, f.equals v = f.equals w
  text : v.text = w.text
  place : ∀ f : Value, (toKindOf? f v).bind Number.place? = (toKindOf? f w).bind Number.place?

theorem Interchangeable.symm {v w : Value} (h : Interchangeable v w) : Interchangeable w v where
  null := h.null.symm
  equals f := (h.equals f).symm
  text := h.text.symm
  place f := (h.place f).symm

theorem Interchangeable.trans {u v w : Value} (h : Interchangeable u v) (h' : Interchangeable v w) :
    Interchangeable u w where
  null := h.null.trans h'.null
  equals f := (h.equals f).trans (h'.equals f)
  text := h.text.trans h'.text
  place f := (h.place f).trans (h'.place f)

theorem Interchangeable.refl (v : Value) : Interchangeable v v := ⟨Iff.rfl, fun _ => rfl, rfl, fun _ => rfl⟩

def isNull : Value → Bool
  | .null => true
  | _ => false

theorem isNull_iff {v : Value} : v.isNull = true ↔ v = .null := by
  cases v <;> simp [isNull]

theorem isMatch_eq (loose : Bool) (f v : Value) :
    f.isMatch loose v = (v.isNull && f.isEmptyish || f.equals v || loose && f.text == v.text) := rfl

theorem isMatch_of_ne_null {v : Value} (hv : v ≠ .null) (f : Value) :
    f.isMatch false v = f.equals v := by
  have hnull : v.isNull = false := by
    rw [Bool.eq_false_iff, ne_eq, isNull_iff]
    exact hv
  rw [isMatch_eq, hnull, Bool.false_and, Bool.false_and, Bool.false_or, Bool.or_false]

theorem Interchangeable.isMatch {v w : Value} (h : Interchangeable v w) (loose : Bool) (f : Value) :
    f.isMatch loose v = f.isMatch loose w := by
  have hnull : v.isNull = w.isNull := by
    rw [Bool.eq_iff_iff, isNull_iff, isNull_iff, h.null]
  rw [isMatch_eq, isMatch_eq, hnull, h.equals f, h.text]

end Value

namespace MatchOp

theorem holds_contains {v : Value} (hv : v ≠ .null) (loose : Bool) (f : Value) :
    MatchOp.contains.holds loose f v = (match f with
      | .list items => items.any (·.equals v)
      | .string s => Text.contains s v.text
      | _ => false) := by
  cases v with
  | null => exact absurd rfl hv
  | _ => cases f <;> rfl

theorem holds_congr {v w : Value} (h : v.Interchangeable w) (op : MatchOp) (loose : Bool) (f : Value) :
    op.holds loose f v = op.holds loose f w := by
  cases op with
  | is => exact h.isMatch loose f
  | isNot => exact congrArg (!·) (h.isMatch loose f)
  | contains =>
      by_cases hv : v = .null
      · rw [hv, h.null.1 hv]
      · rw [holds_contains hv, holds_contains (hv ∘ h.null.2)]
        simp only [h.equals, h.text]
  | iContains => simp only [holds, h.text]

end MatchOp

namespace Number

theorem bind_compare? (o : Option Number) (n : Number) :
    o.bind n.compare? = n.place?.bind fun p => (o.bind place?).map p.compare := by
  cases o with
  | none => cases n.place? <;> rfl
  | some m =>
      simp only [compare?, Option.bind_some]
      cases n.place? <;> cases m.place? <;> rfl

end Number

namespace OrderOp

theorem holdsFor_congr {v w : Value} (htext : v.text = w.text) {f : Value}
    (hplace : (Value.toKindOf? f v).bind Number.place? = (Value.toKindOf? f w).bind Number.place?)
    (op : OrderOp) : op.holdsFor f v = op.holdsFor f w := by
  simp only [holdsFor, Number.bind_compare?, hplace, htext]

end OrderOp

namespace Value

theorem toKindOf?_of_toNumber? {v w : Value} (h : v.toNumber? = w.toNumber?) (f : Value) :
    toKindOf? f v = toKindOf? f w := by
  simp only [toKindOf?, toInteger?, toUnsigned?, toFloat?, h]

theorem equals_of_place? {v w : Value} {m n : Number} (hv : v.number? = some m)
    (hw : w.number? = some n) (h : m.place? = n.place?) (f : Value) : f.equals v = f.equals w := by
  have hsame : ∀ k : Number, sameNumber k m = sameNumber k n := fun k => by
    simp only [sameNumber, Number.compare?, h]
  have hequals : ∀ {x : Value} {k : Number}, x.number? = some k →
      f.equals x = f.number?.any (sameNumber · k) := by
    intro x k hx
    cases x <;> simp only [number?, reduceCtorEq] at hx <;> cases f <;> simp [equals, number?, hx]
  rw [hequals hv, hequals hw]
  exact congrArg (Option.any · f.number?) (funext hsame)

theorem interchangeable_unsigned (n : Nat) : Interchangeable (.integer n) (.unsigned n) where
  null := by simp
  equals := equals_of_place? rfl rfl rfl
  text := rfl
  place f := congrArg (Option.bind · Number.place?) (toKindOf?_of_toNumber? rfl f)

theorem text_of_safeInteger? {x : Binary64} {n : Int} (h : x.safeInteger? = some n) :
    (Value.integer n).text = (Value.float x).text := by
  simp only [text, Binary64.text_eq_intText h]

theorem toInteger?_of_integer? {x : Binary64} {n : Int} (h : x.integer? = some n) :
    (Value.integer n).toInteger? = (Value.float x).toInteger? := by
  simp only [toInteger?, toNumber?, number?, Option.bind_some, Number.truncate?,
    Binary64.truncate?_eq_of_integer? h]

theorem toFloat?_integer (n : Int) : (Value.integer n).toFloat? = some (.ofInt n) := rfl

theorem toFloat?_float (x : Binary64) : (Value.float x).toFloat? = some x := rfl

theorem toFloat?_of_integer? {x : Binary64} {n : Int} (h : x.integer? = some n) :
    (Value.integer n).toFloat?.bind Binary64.place? = (Value.float x).toFloat?.bind Binary64.place? := by
  rw [toFloat?_integer, toFloat?_float, Option.bind_some, Option.bind_some,
    Binary64.place?_eq_of_integer? (Binary64.integer?_ofInt_of_integer? h), Binary64.place?_eq_of_integer? h]

theorem toKindOf?_float (y : Binary64) (v : Value) :
    (toKindOf? (.float y) v).bind Number.place? = v.toFloat?.bind Binary64.place? := by
  cases h : v.toFloat? <;> simp [toKindOf?, h, Number.place?]

theorem place_of_integer? {x : Binary64} {n : Int} (h : x.integer? = some n) (f : Value) :
    (toKindOf? f (.integer n)).bind Number.place? = (toKindOf? f (.float x)).bind Number.place? := by
  have hinteger := toInteger?_of_integer? h
  cases f with
  | integer => simp only [toKindOf?, hinteger]
  | unsigned => simp only [toKindOf?, toUnsigned?, hinteger]
  | float y => rw [toKindOf?_float, toKindOf?_float, toFloat?_of_integer? h]
  | _ => simp only [toKindOf?]

theorem interchangeable_integer {x : Binary64} {n : Int} (h : x.integer? = some n)
    (htext : (Value.integer n).text = (Value.float x).text) :
    Interchangeable (.integer n) (.float x) where
  null := by simp
  equals := equals_of_place? rfl rfl (Binary64.place?_eq_of_integer? h).symm
  text := htext
  place := place_of_integer? h

theorem interchangeable_float {x : Binary64} {n : Int} (h : x.safeInteger? = some n) :
    Interchangeable (.integer n) (.float x) :=
  interchangeable_integer (Binary64.safeInteger?_eq_some.1 h).1 (text_of_safeInteger? h)

theorem interchangeable_ofBinary64 (x : Binary64) : Interchangeable (.ofBinary64 x) (.float x) := by
  cases h : x.safeInteger? with
  | none => rw [ofBinary64, h]; exact .refl _
  | some n => rw [ofBinary64, h]; exact interchangeable_float h

end Value

end RecordSieve
