import RecordSieve.Proofs.Text.Order

namespace RecordSieve

namespace Place

theorem compare_swap (p q : Place) : q.compare p = (p.compare q).swap := by
  cases p <;> cases q
  case within.within a b => exact compareOfLessAndEq_eq_swap Int.le_antisymm Int.le_total Int.not_le
  all_goals rfl

end Place

namespace Number

theorem place?_eq_none_iff {n : Number} : n.place? = none ↔ n = .float .nan := by
  cases n with
  | integer n => exact iff_of_false (Option.some_ne_none _) (by rintro ⟨⟩)
  | float x =>
      cases x with
      | nan => exact iff_of_true rfl rfl
      | infinite | finite => exact iff_of_false (Option.some_ne_none _) (by rintro ⟨⟩)

theorem compare?_swap (m n : Number) : n.compare? m = (m.compare? n).map Ordering.swap := by
  rw [compare?, compare?]
  cases m.place? with
  | none => cases n.place? <;> rfl
  | some p =>
      cases n.place? with
      | none => rfl
      | some q => exact congrArg some (p.compare_swap q)

theorem compare?_eq_none_iff {m n : Number} :
    m.compare? n = none ↔ m = .float .nan ∨ n = .float .nan := by
  rw [← place?_eq_none_iff, ← place?_eq_none_iff, compare?]
  cases m.place? <;> cases n.place? <;> simp

end Number

namespace CompareOp

def IsUnordered (a b : Value) : Prop :=
  ∃ m n, a.toNumber? = some m ∧ b.toNumber? = some n ∧ (m = .float .nan ∨ n = .float .nan)

theorem order?_swap (a b : Value) : order? b a = (order? a b).map Ordering.swap := by
  rw [order?, order?]
  cases a.toNumber? with
  | none => cases b.toNumber? <;> exact congrArg some (Text.compareBytes_swap _ _)
  | some m =>
      cases b.toNumber? with
      | none => exact congrArg some (Text.compareBytes_swap _ _)
      | some n => exact m.compare?_swap n

theorem order?_eq_none_iff {a b : Value} : order? a b = none ↔ IsUnordered a b := by
  rw [order?, IsUnordered]
  cases a.toNumber? <;> cases b.toNumber? <;> simp [Number.compare?_eq_none_iff]

variable {a b : Value} {o : Ordering}

theorem mem_orders_iff {op : CompareOp} : op ∈ [lt, eq, gt] ↔ op = .lt ∨ op = .eq ∨ op = .gt := by
  simp only [List.mem_cons, List.not_mem_nil, or_false]

theorem not_holds_of_isUnordered (h : IsUnordered a b) {op : CompareOp} (hop : op ∈ [lt, eq, gt]) :
    op.holds a b = false := by
  rw [← order?_eq_none_iff] at h
  rcases mem_orders_iff.1 hop with rfl | rfl | rfl <;> simp only [holds, h, Option.any_none]

def mirrored : CompareOp → CompareOp
  | .gt => .lt
  | .gte => .lte
  | .lt => .gt
  | .lte => .gte
  | op => op

def asksOrder : CompareOp → Bool
  | .contains => false
  | .iContains => false
  | _ => true

theorem mirrored_holds (op : CompareOp) (hop : op.asksOrder = true) (a b : Value) :
    op.mirrored.holds b a = op.holds a b := by
  have hswap := order?_swap a b
  cases op with
  | contains => cases hop
  | iContains => cases hop
  | _ =>
      simp only [mirrored, holds, hswap]
      rcases order? a b with _ | _ | _ | _ <;> rfl

def ofOrdering : Ordering → CompareOp
  | .lt => .lt
  | .eq => .eq
  | .gt => .gt

theorem holds_iff_eq_ofOrdering (h : order? a b = some o) {op : CompareOp} (hop : op ∈ [lt, eq, gt]) :
    op.holds a b = true ↔ op = ofOrdering o := by
  rcases mem_orders_iff.1 hop with rfl | rfl | rfl <;> cases o <;> simp [holds, h, ofOrdering]

theorem exists_holds (h : order? a b = some o) :
    ofOrdering o ∈ [lt, eq, gt] ∧ (ofOrdering o).holds a b = true := by
  have hmem : ofOrdering o ∈ [lt, eq, gt] := by cases o <;> simp [ofOrdering]
  exact ⟨hmem, (holds_iff_eq_ofOrdering h hmem).2 rfl⟩

theorem existsUnique_holds_iff :
    (∃! op : CompareOp, op ∈ [lt, eq, gt] ∧ op.holds a b = true) ↔ ¬ IsUnordered a b := by
  constructor
  · rintro ⟨op, ⟨hop, hholds⟩, -⟩ h
    rw [not_holds_of_isUnordered h hop] at hholds
    cases hholds
  · intro h
    rw [← order?_eq_none_iff] at h
    obtain ⟨o, ho⟩ := Option.ne_none_iff_exists'.1 h
    refine ⟨ofOrdering o, exists_holds ho, ?_⟩
    rintro op ⟨hop, hholds⟩
    exact (holds_iff_eq_ofOrdering ho hop).1 hholds

theorem forall_not_holds_iff :
    (∀ op ∈ [lt, eq, gt], op.holds a b = false) ↔ IsUnordered a b := by
  refine ⟨fun h => ?_, fun h _ => not_holds_of_isUnordered h⟩
  by_contra hordered
  obtain ⟨op, ⟨hop, hholds⟩, -⟩ := existsUnique_holds_iff.2 hordered
  rw [h op hop] at hholds
  cases hholds

example : CompareOp.eq.holds (.float .nan) (.string "NaN") = true ∧
    CompareOp.eq.holds (.float .nan) (.string "1") = false := by decide +kernel

end CompareOp

end RecordSieve
