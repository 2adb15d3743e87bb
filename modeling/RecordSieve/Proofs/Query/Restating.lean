import RecordSieve.Proofs.Query.Shape
import RecordSieve.Proofs.Value.Fraction
import RecordSieve.Proofs.Value.Restating

namespace RecordSieve

def Number.IsIntegerForm (m n : Number) : Prop :=
  ∃ x i, Binary64.safeInteger? x = some i ∧ m = .float x ∧ n = .integer i

abbrev Json.SameDocument (j k : Json) : Prop := Restates Number.IsIntegerForm j k

theorem Number.equals_projected_of_place? {m n : Number} (h : m.place? = n.place?) :
    (Json.projected (.number m)).equals = (Json.projected (.number n)).equals := by
  have hsame : ∀ b, Value.sameNumber m b = Value.sameNumber n b := fun b => by
    rw [Value.sameNumber, Value.sameNumber, Number.compare?, Number.compare?, h]
  rw [Json.projected_number, Json.projected_number]
  funext v
  cases m <;> cases n <;> cases v <;> simp only [Value.equals, Value.number?, hsame]

namespace Number.IsIntegerForm

variable {m n : Number}

theorem equals_projected (h : m.IsIntegerForm n) :
    (Json.projected (.number m)).equals = (Json.projected (.number n)).equals := by
  obtain ⟨x, i, h, rfl, rfl⟩ := h
  exact equals_projected_of_place? (Binary64.place?_eq_of_integer? (Binary64.safeInteger?_eq_some.1 h).1)

theorem chars_projected (h : m.IsIntegerForm n) :
    (Json.projected (.number m)).toJson.chars = (Json.projected (.number n)).toJson.chars := by
  obtain ⟨x, i, h, rfl, rfl⟩ := h
  simp only [Json.projected_number, Value.chars_integer]
  rw [Value.toJson, Json.chars, Value.numberText_of_safeInteger? h]

theorem text_projected (h : m.IsIntegerForm n) :
    (Json.projected (.number m)).text = (Json.projected (.number n)).text := by
  obtain ⟨x, i, h, rfl, rfl⟩ := h
  rw [Json.projected_number, Json.projected_number]
  exact (Value.text_of_safeInteger? h).symm

end Number.IsIntegerForm

structure Number.Alike (m n : Number) : Prop where
  equals : (Json.projected (.number m)).equals = (Json.projected (.number n)).equals
  chars : (Json.projected (.number m)).toJson.chars = (Json.projected (.number n)).toJson.chars
  text : (Json.projected (.number m)).text = (Json.projected (.number n)).text

theorem Number.IsIntegerForm.alike {m n : Number} (h : m.IsIntegerForm n) : m.Alike n :=
  ⟨h.equals_projected, h.chars_projected, h.text_projected⟩

section

variable {R : Number → Number → Prop} (hR : ∀ {m n}, R m n → m.Alike n) {j k : Json} (h : j.Restates R k)

include hR

theorem Json.isBlind_equals : Json.IsBlind R fun j => j.projected.equals :=
  Value.isBlind_equals Value.isReading_projected fun h => (hR h).equals

include h

namespace Json.Restates

theorem equals : j.projected.equals = k.projected.equals := h.congr (Json.isBlind_equals hR)

theorem text : j.projected.text = k.projected.text :=
  Value.text_restated Value.isReading_projected (fun h => (hR h).chars) (fun h => (hR h).text) h

omit hR in
theorem isEmptyish : j.projected.isEmptyish = k.projected.isEmptyish := by
  cases h with
  | same => rfl
  | @number m n =>
      rw [projected_number, projected_number]
      cases m <;> cases n <;> rfl
  | array h =>
      rw [projected_array, projected_array]
      cases h <;> rfl
  | object h =>
      rw [projected_object, projected_object]
      cases h <;> rfl

theorem isMatch (loose : Bool) (v : Value) : j.projected.isMatch loose v = k.projected.isMatch loose v := by
  rw [Value.isMatch_eq, Value.isMatch_eq, h.isEmptyish, h.equals hR, h.text hR]

end Json.Restates

theorem MatchOp.holds_restated (op : MatchOp) (loose : Bool) (v : Value) :
    op.holds loose j.projected v = op.holds loose k.projected v := by
  cases op with
  | is => exact h.isMatch hR loose v
  | isNot => exact congrArg (!·) (h.isMatch hR loose v)
  | contains =>
      cases h with
      | same => rfl
      | @number m n =>
          rw [Json.projected_number, Json.projected_number]
          cases m <;> cases n <;> cases v <;> rfl
      | array h =>
          have hany : ∀ js : List Json, (js.map Json.projected).any (·.equals v) =
              (js.map fun j => j.projected.equals).any (· v) := fun js => by
            rw [List.any_map, List.any_map]
            rfl
          rw [Json.projected_array, Json.projected_array]
          by_cases hv : v = .null
          · rw [hv]
            rfl
          · rw [holds_contains hv, holds_contains hv]
            dsimp only
            rw [hany, hany, h.congr (Json.isBlind_equals hR)]
      | object => rw [Json.projected_object, Json.projected_object]; cases v <;> rfl
  | iContains =>
      cases h with
      | same => rfl
      | @number m n =>
          rw [Json.projected_number, Json.projected_number]
          cases m <;> cases n <;> rfl
      | array => rw [Json.projected_array, Json.projected_array]; rfl
      | object => rw [Json.projected_object, Json.projected_object]; rfl

omit hR in
theorem OrderOp.holdsFor_restated {op : OrderOp} {v : Value}
    (hnumber : ∀ {m n}, R m n →
      op.holdsFor (Json.projected (.number m)) v = op.holdsFor (Json.projected (.number n)) v) :
    op.holdsFor j.projected v = op.holdsFor k.projected v := by
  cases h with
  | same => rfl
  | number h => exact hnumber h
  | array => rw [Json.projected_array, Json.projected_array]; rfl
  | object => rw [Json.projected_object, Json.projected_object]; rfl

end

namespace Query

theorem test_ofJson (j : Json) (name : String) (passes : Value → Bool) :
    (Input.ofJson j).subject.test name passes =
      .ok (((j.property? name).map fun p => passes p.projected).getD false) := by
  rw [Input.test_subject, Input.lookup_ofJson, Except.map]
  cases j.property? name <;> rfl

theorem test_ofJson_single (field : String) (j : Json) (passes : Value → Bool) :
    (Input.ofJson (.object [(field, j)])).subject.test field passes = .ok (passes j.projected) := by
  rw [test_ofJson, Json.property?, Entries.find?, if_pos rfl, Option.map_some, Option.getD_some]

theorem test_restated {R : Number → Number → Prop} {j k : Json} (h : j.Restates R k) (name : String)
    {passes : Value → Bool} (hpasses : ∀ {j k}, Json.Restates R j k → passes j.projected = passes k.projected) :
    (Input.ofJson j).subject.test name passes = (Input.ofJson k).subject.test name passes := by
  rw [test_ofJson, test_ofJson, h.property? hpasses]

theorem eval_restates {R : Number → Number → Prop} {p : Query → Bool} (hR : ∀ {m n}, R m n → m.Alike n)
    (horder : ∀ {op field operand}, p (.order op field operand) = true → ∀ {m n}, R m n →
      op.holdsFor (Json.projected (.number m)) operand = op.holdsFor (Json.projected (.number n)) operand)
    {q : Query} (hq : q.everywhere (!·.isComparison) = true) (hp : q.everywhere p = true) {j k : Json}
    (h : j.Restates R k) (options : Options) : q.eval options (.ofJson j) = q.eval options (.ofJson k) := by
  induction q using byChildren with
  | empty => rw [eval_empty, eval_empty]
  | check op field operand =>
      rw [eval_check, eval_check,
        test_restated h field fun h => op.holds_restated hR h options.looseEquality operand]
  | order op field operand =>
      rw [eval_order, eval_order, test_restated h field fun h => OrderOp.holdsFor_restated h (horder hp)]
  | joined joint children ih =>
      have hchildren := (everywhere_joined.1 hq).2
      have hnodes := (everywhere_joined.1 hp).2
      rw [eval_joined, eval_joined]
      refine List.foldr_ext _ _ _ fun q hin rest => ?_
      rw [ih q hin (hchildren q hin) (hnodes q hin)]
  | not child ih => rw [eval_not, eval_not, ih (everywhere_not.1 hq).2 (everywhere_not.1 hp).2]
  | compare => simp [everywhere, isComparison] at hq

def ignoresFraction : Query → Bool
  | .order op _ operand => op.ignoresFractionOf operand
  | _ => true

theorem eval_restated_of_ignoresFraction {q : Query} (hq : q.everywhere (!·.isComparison) = true)
    (hf : q.everywhere ignoresFraction = true) {j k : Json} (h : j.SameDocument k) (options : Options) :
    q.eval options (.ofJson j) = q.eval options (.ofJson k) := by
  refine eval_restates (fun h => h.alike) (fun hv m n h => ?_) hq hf h options
  obtain ⟨x, i, h, rfl, rfl⟩ := h
  rw [Json.projected_number, Json.projected_number]
  exact OrderOp.holdsFor_of_ignoresFractionOf h hv

theorem eval_order_number (op : OrderOp) (field : String) (operand : Value) (options : Options)
    (n : Number) : (order op field operand).eval options (.ofJson (.object [(field, .number n)])) =
      .ok (op.holdsFor (match n with | .integer i => .integer i | .float x => .float x) operand) := by
  have hprojected : Json.projected (.number n) =
      match n with | .integer i => .integer i | .float x => .float x := by
    cases n with
    | integer => exact Json.projected_number _
    | float => exact Json.projected_number _
  rw [Query.eval_order, test_ofJson_single, hprojected]

theorem exists_eval_restated_ne {op : OrderOp} {field : String} {operand : Value}
    (h : op.ignoresFractionOf operand = false) : ∃ j k : Json, j.SameDocument k ∧ ∀ options,
      (order op field operand).eval options (.ofJson j) ≠
        (order op field operand).eval options (.ofJson k) := by
  obtain ⟨x, n, hsafe, hne⟩ := OrderOp.exists_holdsFor_ne h
  refine ⟨.object [(field, .number (.float x))], .object [(field, .number (.integer n))],
    .object (.cons (.number ⟨_, _, hsafe, rfl, rfl⟩) .nil), fun options hsame => hne ?_⟩
  rw [eval_order_number, eval_order_number] at hsame
  exact Except.ok.inj hsame

/-- Restating a document does not change what a query without comparisons answers if every operand whose
order is tested is free of a fraction that counts; every other operand tells some document from its
restatement. -/
theorem eval_restated :
    (∀ q : Query, q.everywhere (!·.isComparison) = true → q.everywhere ignoresFraction = true →
      ∀ j k : Json, j.SameDocument k → ∀ options,
        q.eval options (.ofJson j) = q.eval options (.ofJson k)) ∧
    ∀ op field operand, (order op field operand).ignoresFraction = false →
      ∃ j k : Json, j.SameDocument k ∧ ∀ options,
        (order op field operand).eval options (.ofJson j) ≠
          (order op field operand).eval options (.ofJson k) :=
  ⟨fun _ hq hf _ _ h options => eval_restated_of_ignoresFraction hq hf h options,
    fun _ _ _ h => exists_eval_restated_ne h⟩

theorem eval_restated_five :
    (∀ options, (all [.check .is "a" (.integer 5), .order .gt "a" (.float (.ofRatio false 11 2))]).eval
        options (.ofJson (.object [("a", .number (.float (.ofInt 5)))])) =
      (all [.check .is "a" (.integer 5), .order .gt "a" (.float (.ofRatio false 11 2))]).eval
        options (.ofJson (.object [("a", .number (.integer 5))]))) ∧
    ∃ j k : Json, j.SameDocument k ∧ ∀ options,
      (order .lt "a" (.float (.ofRatio false 11 2))).eval options (.ofJson j) ≠
        (order .lt "a" (.float (.ofRatio false 11 2))).eval options (.ofJson k) :=
  ⟨eval_restated.1 _ (by decide +kernel) (by decide +kernel) _ _
      (.object (.cons (.number ⟨_, _, Binary64.safeInteger?_ofInt (by decide), rfl, rfl⟩) .nil)),
    eval_restated.2 .lt "a" (.float (.ofRatio false 11 2)) (by decide +kernel)⟩

/-- Five is less than five and a half as a binary64 number, but not as an integer, to which the operand
is cut off. -/
theorem eval_restated_fraction :
    Json.SameDocument (.object [("a", .number (.float (.ofInt 5)))])
        (.object [("a", .number (.integer 5))]) ∧
      (order .lt "a" (.float (.ofRatio false 11 2))).eval {}
        (.ofJson (.object [("a", .number (.float (.ofInt 5)))])) = .ok true ∧
      (order .lt "a" (.float (.ofRatio false 11 2))).eval {}
        (.ofJson (.object [("a", .number (.integer 5))])) = .ok false :=
  ⟨.object (.cons (.number ⟨_, _, Binary64.safeInteger?_ofInt (by decide), rfl, rfl⟩) .nil),
    (eval_order_number ..).trans (by decide +kernel), (eval_order_number ..).trans (by decide +kernel)⟩

end Query

end RecordSieve
