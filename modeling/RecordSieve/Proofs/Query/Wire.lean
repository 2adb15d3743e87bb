import RecordSieve.Proofs.Query.WireForm

namespace RecordSieve

namespace Json

def isPlain (j : Json) : Bool := j.everywhere isPlainNode

theorem isPlain_float {x : Binary64} (h : x ≠ .nan) : isPlain (.number (.float x)) = true := by
  cases x with
  | nan => exact absurd rfl h
  | infinite | finite => rfl

theorem isPlain_ofInteger (n : Int) : isPlain (.number (.ofInteger n)) = true := by
  rw [Number.ofInteger]
  split
  · rename_i hsafe
    refine isPlain_float fun hnan => ?_
    have hread := Binary64.safeInteger?_ofInt hsafe
    rw [hnan] at hread
    cases hread
  · rfl

end Json

namespace Value

theorem toWireItems_eq_ok {items : List Value}
    (h : ∀ v ∈ items, ∀ path j, v.toWire path = .ok j →
      j = v.toJson ∧ v.everywhere isFiniteNode = true)
    {path : Path} {i : Nat} {js : List Json} (hjs : toWireItems path i items = .ok js) :
    js = items.map toJson ∧ ∀ v ∈ items, v.everywhere isFiniteNode = true := by
  induction items generalizing i js with
  | nil =>
      cases hjs
      exact ⟨rfl, fun _ hin => absurd hin List.not_mem_nil⟩
  | cons v vs ih =>
      obtain ⟨hv, hvs⟩ := List.forall_mem_cons.1 h
      rw [toWireItems] at hjs
      split at hjs
      · cases hjs
      · rename_i j hj
        obtain ⟨rest, hrest, rfl⟩ := Except.map_eq_ok_iff.1 hjs
        obtain ⟨rfl, hfinite⟩ := hv _ _ hj
        obtain ⟨rfl, hall⟩ := ih hvs hrest
        exact ⟨rfl, List.forall_mem_cons.2 ⟨hfinite, hall⟩⟩

theorem toWireEntries_eq_ok {entries : List (String × Value)}
    (h : ∀ e ∈ entries, ∀ path j, e.2.toWire path = .ok j →
      j = e.2.toJson ∧ e.2.everywhere isFiniteNode = true)
    {path : Path} {ps : List (String × Json)} (hps : toWireEntries path entries = .ok ps) :
    ps = Entries.mapValues toJson entries ∧ ∀ e ∈ entries, e.2.everywhere isFiniteNode = true := by
  induction entries generalizing ps with
  | nil =>
      cases hps
      exact ⟨rfl, fun _ hin => absurd hin List.not_mem_nil⟩
  | cons e es ih =>
      obtain ⟨he, hes⟩ := List.forall_mem_cons.1 h
      rw [toWireEntries] at hps
      split at hps
      · cases hps
      · rename_i j hj
        obtain ⟨rest, hrest, rfl⟩ := Except.map_eq_ok_iff.1 hps
        obtain ⟨rfl, hfinite⟩ := he _ _ hj
        obtain ⟨rfl, hall⟩ := ih hes hrest
        exact ⟨rfl, List.forall_mem_cons.2 ⟨hfinite, hall⟩⟩

theorem toWire_eq_ok {v : Value} {path : Path} {j : Json} (h : v.toWire path = .ok j) :
    j = v.toJson ∧ v.everywhere isFiniteNode = true := by
  induction v using byParts generalizing path j with
  | integer | unsigned | string | boolean | null =>
      cases h
      exact ⟨by rw [toJson], by simp only [everywhere, isFiniteNode]⟩
  | float x =>
      rw [toWire] at h
      split at h
      · cases h
        exact ⟨by rw [toJson], by simpa only [everywhere]⟩
      · cases h
  | list items ih =>
      rw [toWire] at h
      obtain ⟨js, hjs, rfl⟩ := Except.map_eq_ok_iff.1 h
      obtain ⟨rfl, hall⟩ := toWireItems_eq_ok (fun v hin _ _ => ih v hin) hjs
      exact ⟨(toJson_list items).symm, everywhere_list.2 ⟨rfl, hall⟩⟩
  | map entries ih =>
      rw [toWire] at h
      obtain ⟨ps, hps, rfl⟩ := Except.map_eq_ok_iff.1 h
      obtain ⟨rfl, hall⟩ := toWireEntries_eq_ok (fun e hin _ _ => ih e hin) hps
      rw [Entries.inPropertyOrder_mapValues]
      exact ⟨(toJson_map entries).symm, everywhere_map.2 ⟨rfl, hall⟩⟩

theorem isPlain_toJson {v : Value} (hf : v.everywhere isFiniteNode = true)
    (hd : v.everywhere hasDistinctKeys = true) (hp : v.everywhere lacksPrototypeKey = true) :
    v.toJson.isPlain = true := by
  refine everywhere_toJson (fun v h => ?_) hd (everywhere_and (everywhere_and hf hp) hd)
  simp only [Bool.and_eq_true] at h
  obtain ⟨⟨hf, hp⟩, hd⟩ := h
  cases v with
  | integer n => rw [toJson]; exact Json.everywhere_self (Json.isPlain_ofInteger n)
  | unsigned n => rw [toJson]; exact Json.everywhere_self (Json.isPlain_ofInteger n)
  | float x =>
      rw [toJson]
      refine Json.everywhere_self (Json.isPlain_float ?_)
      rintro rfl
      cases hf
  | map entries =>
      rw [toJson_map]
      refine List.all_eq_true.2 fun e he => ?_
      obtain ⟨e', hin, rfl⟩ := List.mem_map.1 he
      have hmem := (Entries.perm_inPropertyOrder (of_decide_eq_true hd)).mem_iff.1 hin
      exact List.all_eq_true.1 hp e' hmem
  | _ => rfl

end Value

namespace Query

def hasDistinctKeys (q : Query) : Bool := q.operand?.all (·.everywhere Value.hasDistinctKeys)

def isCanonical (q : Query) : Bool := q.operand?.all (·.everywhere Value.isCanonicalNode)

def isWritable (q : Query) : Bool :=
  !q.isComparison && q.operand?.all (·.everywhere Value.isFiniteNode)

section

variable (f : Value → Json)

mutual

def expressionForm : Query → Json
  | .empty => .null
  | .check op field operand => typed op.name [("Field", .string field), ("Value", f operand)]
  | .order op field operand => typed op.name [("Field", .string field), ("Value", f operand)]
  | .joined joint children => typed joint.name [("Expressions", .array (expressionForms children))]
  | .not child => typed "Not" [("Expression", wrap (expressionForm child))]
  | .compare _ _ _ => .null

def expressionForms : List Query → List Json
  | [] => []
  | q :: qs => wrap (expressionForm q) :: expressionForms qs

end

def form (q : Query) : Json := wrap (q.expressionForm f)

theorem expressionForms_eq_map (qs : List Query) : expressionForms f qs = qs.map (form f) := by
  induction qs with
  | nil => rfl
  | cons q qs ih => rw [expressionForms, ih]; rfl

end

theorem leafToWire_eq_ok {place : Path} {name field : String} {operand : Value} {j : Json}
    (h : leafToWire place name field operand = .ok j) :
    j = typed name [("Field", .string field), ("Value", operand.toJson)] ∧
      operand.everywhere Value.isFiniteNode = true := by
  rw [leafToWire] at h
  obtain ⟨v, hv, rfl⟩ := Except.map_eq_ok_iff.1 h
  obtain ⟨rfl, hfinite⟩ := Value.toWire_eq_ok hv
  exact ⟨rfl, hfinite⟩

theorem childrenToWire_eq_ok {qs : List Query}
    (h : ∀ q ∈ qs, ∀ place j, expressionToWire place q = .ok j →
      j = q.expressionForm Value.toJson ∧ q.everywhere isWritable = true)
    {place : Path} {i : Nat} {items : List Json} (hitems : childrenToWire place i qs = .ok items) :
    items = qs.map (form Value.toJson) ∧ ∀ q ∈ qs, q.everywhere isWritable = true := by
  induction qs generalizing i items with
  | nil =>
      cases hitems
      exact ⟨rfl, fun _ hin => absurd hin List.not_mem_nil⟩
  | cons q qs ih =>
      obtain ⟨hq, hqs⟩ := List.forall_mem_cons.1 h
      rw [childrenToWire] at hitems
      split at hitems
      · cases hitems
      · rename_i j hj
        obtain ⟨rest, hrest, rfl⟩ := Except.map_eq_ok_iff.1 hitems
        obtain ⟨rfl, hwritable⟩ := hq _ _ hj
        obtain ⟨rfl, hall⟩ := ih hqs hrest
        exact ⟨rfl, List.forall_mem_cons.2 ⟨hwritable, hall⟩⟩

theorem expressionToWire_eq_ok {q : Query} {place : Path} {j : Json}
    (h : q.expressionToWire place = .ok j) :
    j = q.expressionForm Value.toJson ∧ q.everywhere isWritable = true := by
  induction q using byChildren generalizing place j with
  | empty =>
      cases h
      exact ⟨rfl, rfl⟩
  | compare => cases h
  | check op field operand =>
      obtain ⟨rfl, hfinite⟩ := leafToWire_eq_ok h
      exact ⟨rfl, hfinite⟩
  | order op field operand =>
      obtain ⟨rfl, hfinite⟩ := leafToWire_eq_ok h
      exact ⟨rfl, hfinite⟩
  | joined joint children ih =>
      rw [expressionToWire] at h
      obtain ⟨items, hitems, rfl⟩ := Except.map_eq_ok_iff.1 h
      obtain ⟨rfl, hall⟩ := childrenToWire_eq_ok (fun q hin _ _ => ih q hin) hitems
      rw [expressionForm, expressionForms_eq_map]
      exact ⟨rfl, everywhere_joined.2 ⟨rfl, hall⟩⟩
  | not child ih =>
      rw [expressionToWire] at h
      obtain ⟨e, he, rfl⟩ := Except.map_eq_ok_iff.1 h
      obtain ⟨rfl, hchild⟩ := ih he
      exact ⟨rfl, everywhere_not.2 ⟨rfl, hchild⟩⟩

theorem toWire_eq_ok {q : Query} {j : Json} (h : q.toWire = .ok j) :
    j = q.form Value.toJson ∧ q.everywhere isWritable = true := by
  obtain ⟨e, he, rfl⟩ := Except.map_eq_ok_iff.1 h
  obtain ⟨rfl, hwritable⟩ := expressionToWire_eq_ok he
  exact ⟨rfl, hwritable⟩

theorem hasExpression_wrap_typed (name : String) (payload : Entries Json) :
    HasExpression (wrap (typed name payload)) name payload :=
  ⟨_, _, rfl, rfl, rfl, rfl⟩

theorem isLeafPayload_of_fits {field : String} {j : Json} (hfield : fieldFits field = true)
    (hj : j.everywhere Json.isDefinite = true) :
    IsLeafPayload [("Field", .string field), ("Value", j)] field (.ofJson j.withoutPrototypes) :=
  ⟨rfl, hfield, hj, rfl⟩

theorem haveForms_map {g : Query → Json} {g' : Query → Query} {qs : List Query}
    (h : ∀ q ∈ qs, HasForm (g q) (g' q)) : HaveForms (qs.map g) (qs.map g') := by
  induction qs with
  | nil => rfl
  | cons q qs ih =>
      obtain ⟨hq, hqs⟩ := List.forall_mem_cons.1 h
      exact ⟨hq, ih hqs⟩

def hasReadableForm (f : Value → Json) (q : Query) : Bool :=
  !q.isComparison && isWithinLimits q && q.operand?.all fun v => (f v).isPlain

def hasDefiniteForm (f : Value → Json) (q : Query) : Bool :=
  !q.isComparison && isWithinSizes q && q.operand?.all fun v => (f v).everywhere Json.isDefinite

theorem hasDefiniteForm_leaf {f : Value → Json} {q : Query} {field : String} {operand : Value}
    (hfield : q.field? = some field) (hoperand : q.operand? = some operand)
    (hq : hasDefiniteForm f q = true) : IsLeafPayload [("Field", .string field), ("Value", f operand)] field
      (.ofJson (f operand).withoutPrototypes) := by
  simp only [hasDefiniteForm, isWithinSizes, hfield, hoperand, Option.all_some, Bool.and_eq_true] at hq
  exact isLeafPayload_of_fits hq.1.2.1 hq.2

theorem hasForm_form_definite {f : Value → Json} {q : Query} (hq : q.everywhere (hasDefiniteForm f) = true) :
    HasForm (q.form f) (q.mapOperands fun v => .ofJson (f v).withoutPrototypes) := by
  induction q using byChildren with
  | empty => exact ⟨_, rfl, .inr rfl⟩
  | compare => cases hq
  | check op field operand =>
      exact ⟨_, hasExpression_wrap_typed _ _, hasDefiniteForm_leaf rfl rfl hq⟩
  | order op field operand =>
      exact ⟨_, hasExpression_wrap_typed _ _, hasDefiniteForm_leaf rfl rfl hq⟩
  | joined joint children ih =>
      obtain ⟨hnode, hall⟩ := everywhere_joined.1 hq
      have hcount : children.length ≤ greatestChildCount := by
        simpa [hasDefiniteForm, isComparison, isWithinSizes, field?, operand?] using hnode
      rw [form, expressionForm, expressionForms_eq_map, mapOperands, mapOperandsIn_eq_map]
      refine ⟨_, _, hasExpression_wrap_typed _ _, ⟨rfl, ?_⟩, haveForms_map fun q hin => ih q hin (hall q hin)⟩
      rwa [List.length_map]
  | not child ih => exact ⟨_, _, hasExpression_wrap_typed _ _, rfl, ih (everywhere_not.1 hq).2⟩

theorem hasForm_form {f : Value → Json} {q : Query} (hq : q.everywhere (hasReadableForm f) = true) :
    HasForm (q.form f) (q.mapOperands (Value.ofJson ∘ f)) := by
  have hplain : q.everywhere (·.operand?.all fun v => (f v).isPlain) = true :=
    everywhere_imp (fun s hs => (Bool.and_eq_true_iff.1 hs).2) q hq
  have hkept : q.mapOperands (fun v => .ofJson (f v).withoutPrototypes) =
      q.mapOperands (Value.ofJson ∘ f) :=
    mapOperands_congr (fun v hv => congrArg Value.ofJson (Json.withoutPrototypes_eq_self hv)) q hplain
  refine hkept ▸ hasForm_form_definite (everywhere_imp (fun s hs => ?_) q hq)
  rw [hasReadableForm, Bool.and_eq_true, Bool.and_eq_true] at hs
  rw [hasDefiniteForm, hs.1.1, isWithinSizes_of_isWithinLimits hs.1.2]
  refine (Option.all_eq_true _ _).2 fun v hv => ?_
  exact Json.everywhere_isDefinite_of_isPlain ((Option.all_eq_true _ _).1 hs.2 v hv)

theorem height_mapOperands (g : Value → Value) (q : Query) : (q.mapOperands g).height = q.height := by
  induction q using byChildren with
  | empty | check | order | compare => simp only [mapOperands, height]
  | joined joint children ih =>
      rw [mapOperands, height, height]
      induction children with
      | nil => rfl
      | cons q qs ih' =>
          obtain ⟨hq, hqs⟩ := List.forall_mem_cons.1 ih
          rw [mapOperandsIn, heightIn, heightIn, hq, ih' hqs]
  | not child ih => rw [mapOperands, height, height, ih]

theorem ofWire_form_definite {f : Value → Json} {q : Query} (hheight : q.height ≤ greatestDepth)
    (hq : q.everywhere (hasDefiniteForm f) = true) :
    ofWire (q.form f) = .ok (q.mapOperands fun v => .ofJson (f v).withoutPrototypes) := by
  refine ofWireAt_eq_ok_iff.2 ⟨?_, hasForm_form_definite hq⟩
  rw [height_mapOperands]
  exact Nat.lt_succ_of_le hheight

theorem ofWire_form {f : Value → Json} {q : Query} (hheight : q.height ≤ greatestDepth)
    (hq : q.everywhere (hasReadableForm f) = true) :
    ofWire (q.form f) = .ok (q.mapOperands (Value.ofJson ∘ f)) := by
  refine ofWireAt_eq_ok_iff.2 ⟨?_, hasForm_form hq⟩
  rw [height_mapOperands]
  exact Nat.lt_succ_of_le hheight

theorem hasReadableForm_of_isWritable {f : Value → Json} {q : Query}
    (hf : ∀ v : Value, v.everywhere Value.isFiniteNode = true →
      v.everywhere Value.hasDistinctKeys = true →
      v.everywhere Value.lacksPrototypeKey = true → (f v).isPlain = true)
    (hwritable : q.everywhere isWritable = true) (hlimits : q.everywhere isWithinLimits = true)
    (hkeys : q.everywhere hasDistinctKeys = true) : q.everywhere (hasReadableForm f) = true := by
  refine everywhere_imp (fun s hs => ?_) q (everywhere_and (everywhere_and hwritable hlimits) hkeys)
  simp only [Bool.and_eq_true] at hs
  obtain ⟨⟨hwritable, hlimits⟩, hkeys⟩ := hs
  rw [hasReadableForm, hlimits, (Bool.and_eq_true_iff.1 hwritable).1]
  cases hv : s.operand? with
  | none => rfl
  | some v =>
      simp only [isWritable, isWithinLimits, hasDistinctKeys, hv, Option.all_some,
        Bool.and_eq_true] at hwritable hlimits hkeys
      exact hf v hwritable.2 hkeys hlimits.1.2

/-- A query that is written within the limits of reading comes back with the same answers, and as it
was if all its operands are canonical. -/
theorem ofWire_of_toWire {q : Query} {j : Json} (hj : q.toWire = .ok j)
    (hheight : q.height ≤ greatestDepth) (hlimits : q.everywhere isWithinLimits = true)
    (hkeys : q.everywhere hasDistinctKeys = true) :
    ∃ r, ofWire j = .ok r ∧ (∀ options input, r.eval options input = q.eval options input) ∧
      (q.everywhere isCanonical = true → r = q) := by
  obtain ⟨rfl, hwritable⟩ := toWire_eq_ok hj
  refine ⟨q.mapOperands Value.recoded, ?_, fun options input => ?_, fun hcanonical => ?_⟩
  · exact ofWire_form hheight (hasReadableForm_of_isWritable (fun _ => Value.isPlain_toJson) hwritable
      hlimits hkeys)
  · exact eval_mapOperands (fun v => Value.interchangeable_recoded) q hkeys
  · -- canonical operands are the ones that recoding leaves as they are
    refine mapOperands_eq_self
      (fun v hv => Value.recoded_eq_self (Bool.and_eq_true _ _ ▸ hv).1 (Bool.and_eq_true _ _ ▸ hv).2) q ?_
    refine (everywhere_congr (fun s hs => ?_) q hkeys).1 hcanonical
    rw [operand?_all_and, ← hasDistinctKeys, hs, Bool.true_and, isCanonical]

theorem ofWire_of_toWire_nested :
    (∃ j r, toWire (.any [.not (.check .is "a" (.map [("b", .list [.null]), ("2", .unsigned 7)])),
        .empty]) = .ok j ∧ ofWire j = .ok r ∧
      ∀ options input, r.eval options input = eval options input
        (.any [.not (.check .is "a" (.map [("b", .list [.null]), ("2", .unsigned 7)])), .empty])) ∧
    ∃ j, toWire (.all [.order .lt "c" (.float (.ofRatio false 1 2)), .check .contains "d"
        (.map [("2", .integer 7), ("b", .null)])]) = .ok j ∧
      ofWire j = .ok (.all [.order .lt "c" (.float (.ofRatio false 1 2)), .check .contains "d"
        (.map [("2", .integer 7), ("b", .null)])]) := by
  constructor
  · obtain ⟨j, hj⟩ := Except.isOk_iff.1 (show (toWire (.any [.not (.check .is "a"
      (.map [("b", .list [.null]), ("2", .unsigned 7)])), .empty])).isOk = true by decide +kernel)
    obtain ⟨r, hr, heval, -⟩ := ofWire_of_toWire hj (by decide +kernel) (by decide +kernel)
      (by decide +kernel)
    exact ⟨j, r, hj, hr, heval⟩
  · obtain ⟨j, hj⟩ := Except.isOk_iff.1 (show (toWire (.all [.order .lt "c"
      (.float (.ofRatio false 1 2)), .check .contains "d"
        (.map [("2", .integer 7), ("b", .null)])])).isOk = true by decide +kernel)
    obtain ⟨r, hr, -, hself⟩ := ofWire_of_toWire hj (by decide +kernel) (by decide +kernel)
      (by decide +kernel)
    exact ⟨j, hj, hself (by decide +kernel) ▸ hr⟩

end Query

end RecordSieve
