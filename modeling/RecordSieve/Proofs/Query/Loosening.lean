import RecordSieve.Proofs.Query.Dependence
import Mathlib.Algebra.Group.Nat.Even

namespace RecordSieve

namespace Query

/-- Whether a query has a test with an operator under so many negations. -/
inductive HasCheck (op : MatchOp) : ℕ → Query → Prop
  | check (field : String) (operand : Value) : HasCheck op 0 (.check op field operand)
  | joined {n : ℕ} {joint : Joint} {children : List Query} {q : Query} (hq : q ∈ children)
      (h : HasCheck op n q) : HasCheck op n (.joined joint children)
  | not {n : ℕ} {child : Query} (h : HasCheck op n child) : HasCheck op (n + 1) (.not child)

section

variable {op : MatchOp} {n : ℕ}

@[simp]
theorem hasCheck_check_iff {op' : MatchOp} {field : String} {operand : Value} :
    (check op' field operand).HasCheck op n ↔ op' = op ∧ n = 0 :=
  ⟨fun | .check _ _ => ⟨rfl, rfl⟩, by rintro ⟨rfl, rfl⟩; exact .check field operand⟩

@[simp]
theorem hasCheck_joined_iff {joint : Joint} {children : List Query} :
    (joined joint children).HasCheck op n ↔ ∃ q ∈ children, q.HasCheck op n :=
  ⟨fun | .joined hq h => ⟨_, hq, h⟩, fun ⟨_, hq, h⟩ => .joined hq h⟩

@[simp]
theorem hasCheck_not_iff {child : Query} :
    (Query.not child).HasCheck op n ↔ ∃ m, child.HasCheck op m ∧ m + 1 = n :=
  ⟨fun | .not h => ⟨_, h, rfl⟩, by rintro ⟨m, h, rfl⟩; exact .not h⟩

end

structure Favours (gained lost : MatchOp) (q : Query) : Prop where
  even : ∀ n, q.HasCheck gained n → Even n
  odd : ∀ n, q.HasCheck lost n → Odd n

namespace Favours

variable {gained lost : MatchOp}

theorem child {joint : Joint} {children : List Query}
    (h : (Query.joined joint children).Favours gained lost) {q : Query} (hq : q ∈ children) :
    q.Favours gained lost where
  even n hn := h.even n (.joined hq hn)
  odd n hn := h.odd n (.joined hq hn)

theorem negated {child : Query} (h : (Query.not child).Favours gained lost) :
    child.Favours lost gained where
  even _ hn := Nat.not_odd_iff_even.1 (Nat.odd_add_one.1 (h.odd _ (.not hn)))
  odd _ hn := Nat.not_even_iff_odd.1 (Nat.even_add_one.1 (h.even _ (.not hn)))

theorem ne_lost {op : MatchOp} {field : String} {operand : Value}
    (h : (Query.check op field operand).Favours gained lost) : op ≠ lost := by
  rintro rfl
  exact absurd (h.odd 0 (.check field operand)) (by decide)

end Favours

def Gains (a b : Except Failure Bool) : Prop := ∃ x y, a = .ok x ∧ b = .ok y ∧ (x = true → y = true)

namespace Gains

variable {a a' b b' : Except Failure Bool}

theorem refl (x : Bool) : Gains (.ok x) (.ok x) := ⟨x, x, rfl, rfl, id⟩

theorem true_of_true (h : Gains a b) (ha : a = .ok true) : b = .ok true := by
  obtain ⟨x, y, rfl, rfl, hxy⟩ := h
  rw [hxy (Except.ok.inj ha)]

theorem negated (h : Gains a b) : Gains (b.map (!·)) (a.map (!·)) := by
  obtain ⟨x, y, rfl, rfl, hxy⟩ := h
  exact ⟨!y, !x, rfl, rfl, by cases x <;> cases y <;> simp_all⟩

theorem combine (h : Gains a b) (h' : Gains a' b') (joint : Joint) :
    Gains (joint.combine a a') (joint.combine b b') := by
  obtain ⟨x, y, rfl, rfl, hxy⟩ := h
  obtain ⟨x', y', rfl, rfl, hxy'⟩ := h'
  cases joint with
  | all =>
      refine ⟨x && x', y && y', by cases x <;> rfl, by cases y <;> rfl, ?_⟩
      rw [Bool.and_eq_true, Bool.and_eq_true]
      exact And.imp hxy hxy'
  | any =>
      refine ⟨x || x', y || y', by cases x <;> rfl, by cases y <;> rfl, ?_⟩
      rw [Bool.or_eq_true, Bool.or_eq_true]
      exact Or.imp hxy hxy'

theorem joined {options options' : Options} {input : Input} {joint : Joint} {qs : List Query}
    (h : ∀ q ∈ qs, Gains (q.eval options input) (q.eval options' input)) :
    Gains (eval options input (.joined joint qs)) (eval options' input (.joined joint qs)) := by
  induction qs with
  | nil =>
      rw [eval_joined, eval_joined]
      exact refl _
  | cons q qs ih =>
      obtain ⟨hq, hqs⟩ := List.forall_mem_cons.1 h
      rw [eval_joined_cons, eval_joined_cons]
      exact combine hq (ih hqs) joint

theorem test {input : Input} {view : Option RecordView} (hview : input.view? = .ok view) {field : String}
    {passes passes' : Value → Bool} (h : ∀ f, passes f = true → passes' f = true) :
    Gains (input.subject.test field passes) (input.subject.test field passes') := by
  rw [Input.test_subject, Input.test_subject, Input.lookup, hview]
  refine ⟨_, _, rfl, rfl, ?_⟩
  dsimp only
  cases (view.bind (·.field? field)).map (Datum.project input.objects) with
  | none => exact id
  | some f => exact h f

end Gains

end Query

theorem Value.isMatch_of_strict {f v : Value} (h : f.isMatch false v = true) :
    f.isMatch true v = true := by
  rw [isMatch_eq, Bool.false_and, Bool.or_false] at h
  rw [isMatch_eq, h, Bool.true_or]

namespace MatchOp

variable {op : MatchOp} {f v : Value}

theorem holds_of_strict (hop : op ≠ .isNot) (h : op.holds false f v = true) : op.holds true f v = true := by
  cases op with
  | is => exact Value.isMatch_of_strict h
  | isNot => exact absurd rfl hop
  | contains | iContains => exact h

theorem holds_of_loose (hop : op ≠ .is) (h : op.holds true f v = true) : op.holds false f v = true := by
  cases op with
  | is => exact absurd rfl hop
  | isNot =>
      rw [holds, Bool.not_eq_true'] at h ⊢
      rw [Bool.eq_false_iff] at h ⊢
      exact fun hstrict => h (Value.isMatch_of_strict hstrict)
  | contains | iContains => exact h

end MatchOp

namespace Query

variable {input : Input}

theorem gains_eval {view : Option RecordView} (hview : input.view? = .ok view) (context : Context)
    {q : Query} (hq : q.everywhere (!·.isComparison) = true) :
    (q.Favours .is .isNot → Gains (q.eval ⟨context, false⟩ input) (q.eval ⟨context, true⟩ input)) ∧
      (q.Favours .isNot .is → Gains (q.eval ⟨context, true⟩ input) (q.eval ⟨context, false⟩ input)) := by
  induction q using byChildren with
  | empty =>
      rw [eval_empty, eval_empty]
      exact ⟨fun _ => .refl false, fun _ => .refl false⟩
  | check op field operand =>
      rw [eval_check, eval_check]
      exact ⟨fun h => .test hview fun _ => MatchOp.holds_of_strict h.ne_lost,
        fun h => .test hview fun _ => MatchOp.holds_of_loose h.ne_lost⟩
  | order op field operand =>
      rw [eval_order, eval_order]
      exact ⟨fun _ => .test hview fun _ => id, fun _ => .test hview fun _ => id⟩
  | joined joint children ih =>
      have hchildren := (everywhere_joined.1 hq).2
      exact ⟨fun h => .joined fun q hin => (ih q hin (hchildren q hin)).1 (h.child hin),
        fun h => .joined fun q hin => (ih q hin (hchildren q hin)).2 (h.child hin)⟩
  | not child ih =>
      obtain ⟨hpositive, hnegative⟩ := ih (everywhere_not.1 hq).2
      rw [eval_not, eval_not]
      exact ⟨fun h => (hnegative h.negated).negated, fun h => (hpositive h.negated).negated⟩
  | compare => simp [everywhere, isComparison] at hq

theorem eval_of_view?_eq_error {e : Failure} (hview : input.view? = .error e) {options options' : Options}
    {q : Query} (hq : q.everywhere (!·.isComparison) = true) :
    q.eval options input = q.eval options' input := by
  have htest : ∀ field passes, input.subject.test field passes = .error e := fun field passes => by
    rw [Input.test_subject, Input.lookup, hview]
    rfl
  induction q using byChildren with
  | empty => rw [eval_empty, eval_empty]
  | check => rw [eval_check, eval_check, htest, htest]
  | order => rw [eval_order, eval_order]
  | joined joint children ih =>
      exact eval_joined_congr fun q hin => ih q hin ((everywhere_joined.1 hq).2 q hin)
  | not child ih => rw [eval_not, eval_not, ih (everywhere_not.1 hq).2]
  | compare => simp [everywhere, isComparison] at hq

end Query

end RecordSieve
