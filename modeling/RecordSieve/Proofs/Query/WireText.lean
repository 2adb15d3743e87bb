import RecordSieve.Proofs.Query.Restating
import RecordSieve.Proofs.Query.Wire
import RecordSieve.Proofs.Value.Distinction

namespace RecordSieve

namespace Json

theorem isPlainNode_of_isFinite {n : Number} (h : n.isFinite = true) :
    (Json.number n).isPlainNode = true := by
  rcases n with _ | (_ | _ | _)
  · rfl
  · cases h
  · rfl
  · rfl

theorem isPlain_reread {j : Json} (hp : j.isPlain = true) (hf : j.everywhere isFiniteNode = true) :
    j.reread.isPlain = true := by
  induction j using byParts with
  | null | boolean | string => simp only [reread]; exact hp
  | number n =>
      rw [reread, if_pos (show n.isFinite = true from hf)]
      exact isPlainNode_of_isFinite (Number.isFinite_reread hf)
  | array items ih =>
      obtain ⟨-, hp⟩ := everywhere_array.1 hp
      obtain ⟨-, hf⟩ := everywhere_array.1 hf
      rw [reread_array]
      refine everywhere_array.2 ⟨rfl, fun j hj => ?_⟩
      obtain ⟨k, hin, rfl⟩ := List.mem_map.1 hj
      exact ih k hin (hp k hin) (hf k hin)
  | object properties ih =>
      obtain ⟨hkeys, hp⟩ := everywhere_object.1 hp
      obtain ⟨-, hf⟩ := everywhere_object.1 hf
      rw [reread_object]
      refine everywhere_object.2 ⟨List.all_eq_true.2 fun e he => ?_, fun e he => ?_⟩
      · obtain ⟨e', hin, rfl⟩ := List.mem_map.1 he
        exact List.all_eq_true.1 hkeys e' hin
      · obtain ⟨e', hin, rfl⟩ := List.mem_map.1 he
        exact ih e' hin (hp e' hin) (hf e' hin)

end Json

namespace Query

theorem hasOrderedKeys_pair {k l : String} (hkl : k ≠ l) (hlk : Entries.precedes l k = false) {a b : Json}
    (ha : a.everywhere Json.hasOrderedKeys = true) (hb : b.everywhere Json.hasOrderedKeys = true) :
    (Json.object [(k, a), (l, b)]).everywhere Json.hasOrderedKeys = true := by
  simp [Json.everywhere, Json.everywhereUnder, Json.hasOrderedKeys, Entries.Distinct, Entries.InOrder,
    hkl, hlk, ha, hb]

theorem hasOrderedKeys_single (k : String) {a : Json}
    (ha : a.everywhere Json.hasOrderedKeys = true) :
    (Json.object [(k, a)]).everywhere Json.hasOrderedKeys = true := by
  simp [Json.everywhere, Json.everywhereUnder, Json.hasOrderedKeys, Entries.Distinct, Entries.InOrder, ha]

theorem hasOrderedKeys_typed (name : String) {payload : Entries Json}
    (hpayload : (Json.object payload).everywhere Json.hasOrderedKeys = true) :
    (typed name payload).everywhere Json.hasOrderedKeys = true :=
  hasOrderedKeys_pair (by decide) (by decide) rfl hpayload

theorem hasOrderedKeys_form {f : Value → Json} {q : Query}
    (hq : q.everywhere (·.operand?.all fun v => (f v).everywhere Json.hasOrderedKeys) = true) :
    (q.form f).everywhere Json.hasOrderedKeys = true := by
  induction q using byChildren with
  | empty | compare => exact hasOrderedKeys_single _ rfl
  | check | order =>
      exact hasOrderedKeys_single _ (hasOrderedKeys_typed _
        (hasOrderedKeys_pair (by decide) (by decide) rfl hq))
  | joined joint children ih =>
      obtain ⟨-, hall⟩ := everywhere_joined.1 hq
      refine hasOrderedKeys_single _ (hasOrderedKeys_typed _ (hasOrderedKeys_single _ ?_))
      rw [expressionForms_eq_map]
      refine Json.everywhere_array.2 ⟨rfl, fun j hj => ?_⟩
      obtain ⟨q, hin, rfl⟩ := List.mem_map.1 hj
      exact ih q hin (hall q hin)
  | not child ih =>
      exact hasOrderedKeys_single _ (hasOrderedKeys_typed _ (hasOrderedKeys_single _
        (ih (everywhere_not.1 hq).2)))

theorem reread_typed (name : String) (payload : Entries Json) :
    (typed name payload).reread = typed name (Entries.mapValues Json.reread payload) := by
  rw [typed, Json.reread_object, Entries.mapValues_cons, Entries.mapValues_cons, Json.reread_object]
  rfl

theorem reread_form (f : Value → Json) (q : Query) :
    (q.form f).reread = q.form (Json.reread ∘ f) := by
  induction q using byChildren with
  | empty | compare => rfl
  | check op field operand =>
      rw [form, form, wrap, Json.reread_object, Entries.mapValues_cons, expressionForm, reread_typed]
      rfl
  | order op field operand =>
      rw [form, form, wrap, Json.reread_object, Entries.mapValues_cons, expressionForm, reread_typed]
      rfl
  | joined joint children ih =>
      have hchildren : (children.map (form f)).map Json.reread = children.map (form (Json.reread ∘ f)) := by
        rw [List.map_map]
        exact List.map_congr_left ih
      rw [form, form, wrap, Json.reread_object, Entries.mapValues_cons, expressionForm, reread_typed,
        expressionForms_eq_map, Entries.mapValues_cons, Json.reread_array, hchildren, expressionForm,
        expressionForms_eq_map]
      rfl
  | not child ih =>
      rw [form, form, wrap, Json.reread_object, Entries.mapValues_cons, expressionForm, reread_typed,
        Entries.mapValues_cons, ← form, ih]
      rfl

theorem hasOrderedKeys_of_toWire {q : Query} {j : Json} (hj : q.toWire = .ok j)
    (hkeys : q.everywhere hasDistinctKeys = true) : j.everywhere Json.hasOrderedKeys = true := by
  obtain ⟨rfl, -⟩ := toWire_eq_ok hj
  refine hasOrderedKeys_form (everywhere_imp (fun s hs => ?_) q hkeys)
  refine (Option.all_eq_true _ _).2 fun v hv => ?_
  have hdistinct := (Option.all_eq_true _ _).1 hs v hv
  exact Value.everywhere_toJson (fun _ => Value.hasOrderedKeys_toJson) hdistinct hdistinct

theorem deserialize_eq_ok {q : Query} {text : String} (htext : q.serialize = .ok text)
    (hheight : q.height ≤ greatestDepth) (hlimits : q.everywhere isWithinLimits = true)
    (hkeys : q.everywhere hasDistinctKeys = true) :
    deserialize text = .ok (q.mapOperands Value.rewritten) := by
  obtain ⟨j, hj, rfl⟩ := Except.map_eq_ok_iff.1 htext
  have hordered := hasOrderedKeys_of_toWire hj hkeys
  obtain ⟨rfl, hwritable⟩ := toWire_eq_ok hj
  have hreadable := hasReadableForm_of_isWritable (f := Json.reread ∘ Value.toJson)
    (fun v hf hd hp => Json.isPlain_reread (Value.isPlain_toJson hf hd hp)
      (Value.everywhere_toJson (fun _ => Value.isFiniteNode_toJson) hd hf)) hwritable hlimits hkeys
  rw [deserialize, Json.parse_eq_reread hordered, reread_form]
  exact ofWire_form hheight hreadable

/-- Whether a query's own test gets the numbers it depends on back: equality depends on every number of
an operand, order on the operand being a number, and a search without case on the text alone. -/
def keepsNumbers : Query → Bool
  | .check .iContains _ _ => true
  | .check _ _ operand => operand.everywhere Value.isExactNode
  | .order _ _ operand => operand.isExactNode
  | _ => true

theorem keepsTests_rewritten {q : Query} (hfinite : q.operand?.all (·.everywhere Value.isFiniteNode) = true)
    (hkeys : q.hasDistinctKeys = true) (hq : q.keepsNumbers = true) : q.KeepsTests Value.rewritten := by
  cases q with
  | check op field v =>
      intro loose f
      cases op with
      | iContains => simp only [MatchOp.holds, Value.text_rewritten hkeys hfinite]
      | is | isNot | contains =>
          exact MatchOp.holds_congr (Value.interchangeable_rewritten hkeys hq) _ loose f
  | order op field v =>
      intro f
      exact OrderOp.holdsFor_congr (Value.text_rewritten hkeys hfinite) (Value.place_rewritten hkeys hq f) op
  | _ => trivial

theorem isExactNode_of_check {op : MatchOp} {field : String} {v : Value} (hop : op ≠ .iContains)
    (hfinite : v.everywhere Value.isFiniteNode = true) (hkeys : v.everywhere Value.hasDistinctKeys = true)
    (h : ∀ input, (check op field v.rewritten).eval {} input = (check op field v).eval {} input) :
    v.everywhere Value.isExactNode = true := by
  by_cases hv : v = .null
  · rw [hv]
    rfl
  have hv' : v.rewritten ≠ .null := fun h =>
    hv ((Value.rewritten_eq_null_iff (Value.everywhere_self hfinite)).1 h)
  have hholds : ∀ j : Json, op.holds false j.projected v.rewritten = op.holds false j.projected v :=
    fun j => by
      have hsame := h (.ofJson (.object [(field, j)]))
      simpa only [eval_check, test_ofJson_single, Except.ok.injEq] using hsame
  refine Value.isExactNode_of_equals_rewritten hkeys hfinite ?_
  -- equality notices a change where the field holds the operand, containment where it lists it
  have hsame : v.held.equals v.rewritten = v.held.equals v := by
    cases op with
    | is =>
        have hmatch : v.held.isMatch false v.rewritten = v.held.isMatch false v := hholds v.toJson
        rwa [Value.isMatch_of_ne_null hv', Value.isMatch_of_ne_null hv] at hmatch
    | isNot =>
        have hmatch : v.held.isMatch false v.rewritten = v.held.isMatch false v :=
          Bool.not_inj (hholds v.toJson)
        rwa [Value.isMatch_of_ne_null hv', Value.isMatch_of_ne_null hv] at hmatch
    | contains =>
        have hlist := hholds (.array [v.toJson])
        rw [MatchOp.holds_contains hv', MatchOp.holds_contains hv, Json.projected_array] at hlist
        simpa [Value.held] using hlist
    | iContains => exact absurd rfl hop
  rw [hsame, (Value.equals_held_iff hkeys).2 (Value.everywhere_imp Value.isNumberNode_of_isFiniteNode hfinite)]

theorem keepsNumbers_of_same_answers {q : Query} (hleaf : q.operand?.isSome = true)
    (hfinite : q.operand?.all (·.everywhere Value.isFiniteNode) = true) (hkeys : q.hasDistinctKeys = true)
    (h : ∀ options input, (q.mapOperands Value.rewritten).eval options input = q.eval options input) :
    q.keepsNumbers = true := by
  cases q with
  | check op field v =>
      by_cases hop : op = .iContains
      · rw [hop, keepsNumbers]
      · have hexact := isExactNode_of_check hop hfinite hkeys (h {})
        cases op with
        | iContains => exact absurd rfl hop
        | _ => exact hexact
  | order op field v =>
      refine Value.isExactNode_of_holdsFor_rewritten op (Value.everywhere_self hfinite) fun k => ?_
      have hsame := h {} (.ofJson (.object [(field, .number (.integer k))]))
      simp only [mapOperands, eval_order_number, Except.ok.injEq] at hsame
      exact hsame
  | _ => cases hleaf

/-- A query that is written within the limits of reading is read back from its text, and with the same
answers if each of its tests keeps its numbers; for a query that is one test, only then. -/
theorem deserialize_of_serialize {q : Query} {text : String} (htext : q.serialize = .ok text)
    (hheight : q.height ≤ greatestDepth) (hlimits : q.everywhere isWithinLimits = true)
    (hkeys : q.everywhere hasDistinctKeys = true) :
    ∃ r, deserialize text = .ok r ∧
      (q.everywhere keepsNumbers = true →
        ∀ options input, r.eval options input = q.eval options input) ∧
      (q.operand?.isSome = true → (∀ options input, r.eval options input = q.eval options input) →
        q.keepsNumbers = true) := by
  obtain ⟨j, hj, -⟩ := Except.map_eq_ok_iff.1 htext
  obtain ⟨-, hwritable⟩ := toWire_eq_ok hj
  refine ⟨q.mapOperands Value.rewritten, deserialize_eq_ok htext hheight hlimits hkeys,
    fun hkeeps options input => ?_, fun hleaf hsame => ?_⟩
  · refine eval_mapOperands_of_keepsTests (fun s hs => ?_) q
      (everywhere_and (everywhere_and hwritable hkeys) hkeeps)
    simp only [Bool.and_eq_true] at hs
    exact keepsTests_rewritten (Bool.and_eq_true_iff.1 hs.1.1).2 hs.1.2 hs.2
  · have hfinite := (Bool.and_eq_true_iff.1 (everywhere_self hwritable)).2
    exact keepsNumbers_of_same_answers hleaf hfinite (everywhere_self hkeys) hsame

theorem deserialize_of_serialize_nested :
    (∃ text r, serialize (.all [.not (.check .is "a"
          (.list [.integer (2 ^ 60 + 1), .float (.ofRatio false 1 2)])),
        .check .iContains "b" (.float (.ofInt (2 ^ 60)))]) = .ok text ∧
      deserialize text = .ok r ∧ ∀ options input, r.eval options input = eval options input
        (.all [.not (.check .is "a" (.list [.integer (2 ^ 60 + 1), .float (.ofRatio false 1 2)])),
          .check .iContains "b" (.float (.ofInt (2 ^ 60)))])) ∧
    ∃ text r, serialize (.order .gt "c" (.float (.ofInt (2 ^ 60)))) = .ok text ∧
      deserialize text = .ok r ∧ ¬∀ options input, r.eval options input =
        eval options input (.order .gt "c" (.float (.ofInt (2 ^ 60)))) := by
  constructor
  · obtain ⟨text, htext⟩ := Except.isOk_iff.1 (show (serialize (.all [.not (.check .is "a"
      (.list [.integer (2 ^ 60 + 1), .float (.ofRatio false 1 2)])),
        .check .iContains "b" (.float (.ofInt (2 ^ 60)))])).isOk = true by decide +kernel)
    obtain ⟨r, hr, hsame, -⟩ := deserialize_of_serialize htext (by decide +kernel) (by decide +kernel)
      (by decide +kernel)
    exact ⟨text, r, htext, hr, hsame (by decide +kernel)⟩
  · obtain ⟨text, htext⟩ := Except.isOk_iff.1
      (show (serialize (.order .gt "c" (.float (.ofInt (2 ^ 60))))).isOk = true by decide +kernel)
    obtain ⟨r, hr, -, honly⟩ := deserialize_of_serialize htext (by decide +kernel) (by decide +kernel)
      (by decide +kernel)
    exact ⟨text, r, htext, hr, fun h => absurd (honly rfl h) (by decide +kernel)⟩

/-- The text of `2 ^ 60` has the digits 1152921504606847, and zeros in place of the others, so an integer
is read that differs from it. -/
theorem deserialize_of_serialize_rounded :
    ∃ text, serialize (.check .is "a" (.float (.ofInt (2 ^ 60)))) = .ok text ∧
      deserialize text = .ok (.check .is "a" (.integer 1152921504606847000)) ∧
      (check .is "a" (.float (.ofInt (2 ^ 60)))).eval {}
        (.ofJson (.object [("a", .number (.float (.ofInt (2 ^ 60))))])) = .ok true ∧
      (check .is "a" (.integer 1152921504606847000)).eval {}
        (.ofJson (.object [("a", .number (.float (.ofInt (2 ^ 60))))])) = .ok false := by
  obtain ⟨text, htext⟩ := Except.isOk_iff.1
    (show (serialize (.check .is "a" (.float (.ofInt (2 ^ 60))))).isOk = true by decide +kernel)
  have hread := deserialize_eq_ok htext (by decide +kernel) (by decide +kernel) (by decide +kernel)
  rw [mapOperands, Value.rewritten_float (by decide +kernel)
    (show integer? (Binary64.ofInt (2 ^ 60)).text = some 1152921504606847000 by decide +kernel)] at hread
  refine ⟨text, htext, hread, ?_, ?_⟩
  · rw [eval_check, test_ofJson_single, Json.projected_number]
    decide +kernel
  · rw [eval_check, test_ofJson_single, Json.projected_number]
    decide +kernel

end Query

end RecordSieve
