import RecordSieve.Proofs.Query.WireText

namespace RecordSieve

namespace Json

theorem isPlain_reread_number (n : Number) : (number n).reread.isPlain = true := by
  rw [reread]
  split
  · rename_i h
    exact isPlainNode_of_isFinite (Number.isFinite_reread h)
  · rfl

theorem everywhere_isDefinite_reread (j : Json) : j.reread.everywhere isDefinite = true := by
  induction j using byParts with
  | null | boolean | string => rfl
  | number n => exact everywhere_isDefinite_of_isPlain (isPlain_reread_number n)
  | array items ih =>
      rw [reread_array]
      exact everywhere_array.2 ⟨rfl, List.forall_mem_map.2 ih⟩
  | object properties ih =>
      rw [reread_object]
      exact everywhere_object.2 ⟨rfl, List.forall_mem_map.2 ih⟩

def arrived (j : Json) : Json := j.reread.withoutPrototypes

theorem arrived_array (items : List Json) : arrived (.array items) = .array (items.map arrived) := by
  rw [arrived, reread_array, withoutPrototypes, withoutPrototypesIn_eq_map, List.map_map]
  rfl

theorem arrived_object (properties : List (String × Json)) : arrived (.object properties) =
    .object ((Entries.mapValues arrived properties).filter (·.1 ≠ "__proto__")) := by
  rw [arrived, reread_object, withoutPrototypes, withoutPrototypesUnder_eq, Entries.mapValues_mapValues]
  rfl

end Json

namespace Value

theorem toJson_ofJson_reread {n : Number} (h : n.isFinite = true) :
    (ofJson (.number n.reread)).toJson = .number n.reread := by
  have hinteger (k : Int) : (ofJson (.number (.ofInteger k))).toJson = .number (.ofInteger k) := by
    rw [ofJson_ofInteger, toJson]
  cases n with
  | integer k => exact hinteger k
  | float x =>
      rw [Number.reread]
      split
      · exact hinteger _
      · rename_i htext
        -- the text of a safe integer would have been read as that integer
        have hunsafe : x.safeInteger? = none := by
          refine Option.eq_none_iff_forall_ne_some.2 fun k hk => ?_
          have hk := numberText_of_safeInteger? hk
          rw [Json.numberText, if_pos (show x.isFinite = true from h)] at hk
          rw [hk, integer?_intText] at htext
          cases htext
        rw [ofJson, ofBinary64, hunsafe, toJson]

theorem toJson_ofJson_arrived {j : Json} (h : j.everywhere Json.hasOrderedKeys = true) :
    (ofJson j.arrived).toJson = j.arrived := by
  induction j using Json.byParts with
  | null | boolean | string => rfl
  | number n =>
      rw [Json.arrived, Json.reread]
      split
      · rename_i hfinite
        exact toJson_ofJson_reread hfinite
      · rfl
  | array items ih =>
      obtain ⟨-, hall⟩ := Json.everywhere_array.1 h
      rw [Json.arrived_array, ofJson, ofJsonItems_eq_map, toJson_list, List.map_map, List.map_map]
      exact congrArg Json.array (List.map_congr_left fun j hin => ih j hin (hall j hin))
  | object properties ih =>
      obtain ⟨hkeys, hall⟩ := Json.everywhere_object.1 h
      obtain ⟨hd, ho⟩ := Bool.and_eq_true_iff.1 hkeys
      rw [Json.arrived_object]
      generalize hkept : (Entries.mapValues Json.arrived properties).filter (·.1 ≠ "__proto__") = kept
      have hsub : kept.Sublist (Entries.mapValues Json.arrived properties) := hkept ▸ List.filter_sublist
      have hdistinct : Entries.Distinct kept :=
        (Entries.distinct_mapValues _ (of_decide_eq_true hd)).sublist (hsub.map Prod.fst)
      have hordered : Entries.InOrder kept :=
        (Entries.inOrder_mapValues _ (of_decide_eq_true ho)).sublist hsub
      rw [ofJson, ofJsonProperties_eq, toJson_map, Entries.inPropertyOrder_mapValues,
        Entries.inPropertyOrder_of_inOrder hdistinct hordered, Entries.mapValues_mapValues]
      refine congrArg Json.object (Entries.mapValues_eq_self fun e he => ?_)
      obtain ⟨e', hin, rfl⟩ := List.mem_map.1 (hsub.subset he)
      exact ih e' hin (hall e' hin)

theorem isFiniteNode_ofJson_number {n : Number} (h : n.isFinite = true) :
    (ofJson (.number n)).everywhere isFiniteNode = true := by
  cases n with
  | integer k => rfl
  | float x =>
      rw [ofJson, ofBinary64]
      split
      · rfl
      · exact h

theorem isFiniteNode_ofJson_arrived (j : Json) : (ofJson j.arrived).everywhere isFiniteNode = true := by
  induction j using Json.byParts with
  | null | boolean | string => rfl
  | number n =>
      rw [Json.arrived, Json.reread]
      split
      · rename_i hfinite
        exact isFiniteNode_ofJson_number (Number.isFinite_reread hfinite)
      · rfl
  | array items ih =>
      rw [Json.arrived_array, ofJson, ofJsonItems_eq_map, List.map_map]
      exact everywhere_list.2 ⟨rfl, List.forall_mem_map.2 ih⟩
  | object properties ih =>
      rw [Json.arrived_object, ofJson, ofJsonProperties_eq]
      refine everywhere_map.2 ⟨rfl, List.forall_mem_map.2 fun e he => ?_⟩
      obtain ⟨e', hin, rfl⟩ := List.mem_map.1 (List.mem_filter.1 he).1
      exact ih e' hin

theorem isPlain_reread_toJson_iff {v : Value} (hd : v.everywhere hasDistinctKeys = true) :
    v.toJson.reread.isPlain = true ↔ v.everywhere lacksPrototypeKey = true := by
  induction v using byParts with
  | string | boolean | null => exact Iff.rfl
  | integer n | unsigned n | float n =>
      rw [toJson]
      exact iff_of_true (Json.isPlain_reread_number _) rfl
  | list items ih =>
      obtain ⟨-, hd⟩ := everywhere_list.1 hd
      rw [toJson_list, Json.reread_array, Json.isPlain, Json.everywhere_array, everywhere_list,
        List.forall_mem_map, List.forall_mem_map]
      exact and_congr Iff.rfl (forall₂_congr fun v hin => ih v hin (hd v hin))
  | map entries ih =>
      obtain ⟨hkeys, hd⟩ := everywhere_map.1 hd
      have hperm := Entries.perm_inPropertyOrder (of_decide_eq_true hkeys)
      rw [toJson_map, Json.reread_object, Json.isPlain, Json.everywhere_object, everywhere_map,
        Entries.mapValues_mapValues, Entries.mapValues, List.forall_mem_map]
      refine and_congr ?_ ?_
      · rw [Json.isPlainNode, lacksPrototypeKey, List.all_map, ← hperm.all_eq]
        rfl
      · refine Iff.trans (forall_congr' fun e => imp_congr_left hperm.mem_iff) ?_
        exact forall₂_congr fun e hin => ih e hin (hd e hin)

theorem toWireItems_of_finite {items : List Value} (h : ∀ v ∈ items, ∀ path, v.toWire path = .ok v.toJson)
    (path : Path) (i : Nat) : toWireItems path i items = .ok (items.map toJson) := by
  induction items generalizing i with
  | nil => rfl
  | cons v vs ih =>
      obtain ⟨hv, hvs⟩ := List.forall_mem_cons.1 h
      rw [toWireItems, hv, ih hvs]
      rfl

theorem toWireEntries_of_finite {entries : List (String × Value)}
    (h : ∀ e ∈ entries, ∀ path, e.2.toWire path = .ok e.2.toJson) (path : Path) :
    toWireEntries path entries = .ok (Entries.mapValues toJson entries) := by
  induction entries with
  | nil => rfl
  | cons e es ih =>
      obtain ⟨he, hes⟩ := List.forall_mem_cons.1 h
      rw [toWireEntries, he, ih hes]
      rfl

theorem toWire_of_finite {v : Value} (h : v.everywhere isFiniteNode = true) (path : Path) :
    v.toWire path = .ok v.toJson := by
  induction v using byParts generalizing path with
  | integer | unsigned | string | boolean | null => rw [toWire, toJson]
  | float x => rw [toWire, toJson, if_pos (show x.isFinite = true from h)]
  | list items ih =>
      obtain ⟨-, hall⟩ := everywhere_list.1 h
      rw [toWire, toJson_list, toWireItems_of_finite fun v hin => ih v hin (hall v hin)]
      rfl
  | map entries ih =>
      obtain ⟨-, hall⟩ := everywhere_map.1 h
      rw [toWire, toJson_map, toWireEntries_of_finite fun e hin => ih e hin (hall e hin),
        ← Entries.inPropertyOrder_mapValues]
      rfl

end Value

namespace Query

theorem leafToWire_of_finite {operand : Value} (h : operand.everywhere Value.isFiniteNode = true)
    (place : Path) (name field : String) : leafToWire place name field operand =
      .ok (typed name [("Field", .string field), ("Value", operand.toJson)]) := by
  rw [leafToWire, Value.toWire_of_finite h]
  rfl

theorem childrenToWire_of_writable {qs : List Query}
    (h : ∀ q ∈ qs, ∀ place, expressionToWire place q = .ok (q.expressionForm Value.toJson))
    (place : Path) (i : Nat) : childrenToWire place i qs = .ok (expressionForms Value.toJson qs) := by
  induction qs generalizing i with
  | nil => rfl
  | cons q qs ih =>
      obtain ⟨hq, hqs⟩ := List.forall_mem_cons.1 h
      rw [childrenToWire, hq, ih hqs]
      rfl

theorem expressionToWire_of_writable {q : Query} (h : q.everywhere isWritable = true) (place : Path) :
    q.expressionToWire place = .ok (q.expressionForm Value.toJson) := by
  induction q using byChildren generalizing place with
  | empty => rfl
  | compare => cases h
  | check | order => exact leafToWire_of_finite h _ _ _
  | joined joint children ih =>
      obtain ⟨-, hall⟩ := everywhere_joined.1 h
      rw [expressionToWire, childrenToWire_of_writable fun q hin => ih q hin (hall q hin)]
      rfl
  | not child ih =>
      rw [expressionToWire, ih (everywhere_not.1 h).2]
      rfl

theorem serialize_of_writable {q : Query} (h : q.everywhere isWritable = true) :
    q.serialize = .ok (q.form Value.toJson).text := by
  rw [serialize, toWire, expressionToWire_of_writable h]
  rfl

theorem form_mapOperands (f : Value → Json) (g : Value → Value) (q : Query) :
    (q.mapOperands g).form f = q.form (f ∘ g) := by
  induction q using byChildren with
  | empty | compare => simp only [mapOperands]; rfl
  | check | order => rw [mapOperands]; rfl
  | joined joint children ih =>
      have hforms : expressionForms f (mapOperandsIn g children) = expressionForms (f ∘ g) children := by
        rw [expressionForms_eq_map, expressionForms_eq_map, mapOperandsIn_eq_map, List.map_map]
        exact List.map_congr_left ih
      rw [mapOperands, form, form, expressionForm, expressionForm, hforms]
  | not child ih =>
      rw [form, form] at ih
      rw [mapOperands, form, form, expressionForm, expressionForm, ih]

theorem form_congr {p : Value → Bool} {f f' : Value → Json} (h : ∀ v, p v = true → f v = f' v) {q : Query}
    (hq : q.everywhere (·.operand?.all p) = true) : q.form f = q.form f' := by
  induction q using byChildren with
  | empty | compare => rfl
  | check op field operand | order op field operand =>
      rw [form, form, expressionForm, expressionForm, h operand hq]
  | joined joint children ih =>
      have hforms : expressionForms f children = expressionForms f' children := by
        rw [expressionForms_eq_map, expressionForms_eq_map]
        exact List.map_congr_left fun q hin => ih q hin ((everywhere_joined.1 hq).2 q hin)
      rw [form, form, expressionForm, expressionForm, hforms]
  | not child ih =>
      have hchild := ih (everywhere_not.1 hq).2
      rw [form, form] at hchild
      rw [form, form, expressionForm, expressionForm, hchild]

theorem everywhere_mapOperands {p : Query → Bool} {g : Value → Value} {q : Query}
    (h : q.everywhere (fun s => p (s.mapOperands g)) = true) : (q.mapOperands g).everywhere p = true := by
  induction q using byChildren with
  | empty | check | order | compare => exact h
  | joined joint children ih =>
      obtain ⟨hp, hall⟩ := everywhere_joined.1 h
      rw [mapOperands, mapOperandsIn_eq_map] at hp ⊢
      exact everywhere_joined.2 ⟨hp, List.forall_mem_map.2 fun q hin => ih q hin (hall q hin)⟩
  | not child ih =>
      obtain ⟨hp, hchild⟩ := everywhere_not.1 h
      rw [mapOperands] at hp ⊢
      exact everywhere_not.2 ⟨hp, ih hchild⟩

theorem isPlain_single {k : String} (hk : k ≠ "__proto__") {a : Json} :
    (Json.object [(k, a)]).isPlain = true ↔ a.isPlain = true := by
  simp [Json.isPlain, Json.everywhere_object, Json.isPlainNode, hk]

theorem isPlain_pair {k l : String} (hk : k ≠ "__proto__") (hl : l ≠ "__proto__") {a b : Json} :
    (Json.object [(k, a), (l, b)]).isPlain = true ↔ a.isPlain = true ∧ b.isPlain = true := by
  simp [Json.isPlain, Json.everywhere_object, Json.isPlainNode, hk, hl]

theorem isPlain_wrap_typed {name : String} {payload : Entries Json} :
    (wrap (typed name payload)).isPlain = true ↔ (Json.object payload).isPlain = true := by
  rw [wrap, isPlain_single (by decide), typed, isPlain_pair (by decide) (by decide)]
  exact and_iff_right rfl

theorem isPlain_leaf {name field : String} {j : Json} :
    (wrap (typed name [("Field", .string field), ("Value", j)])).isPlain = true ↔ j.isPlain = true := by
  rw [isPlain_wrap_typed, isPlain_pair (by decide) (by decide)]
  exact and_iff_right rfl

theorem isPlain_form_iff (f : Value → Json) (q : Query) :
    (q.form f).isPlain = true ↔ q.everywhere (·.operand?.all fun v => (f v).isPlain) = true := by
  induction q using byChildren with
  | empty | compare => exact Iff.rfl
  | check | order => exact isPlain_leaf
  | joined joint children ih =>
      rw [form, expressionForm, isPlain_wrap_typed, isPlain_single (by decide), Json.isPlain,
        Json.everywhere_array, expressionForms_eq_map, List.forall_mem_map, everywhere_joined]
      exact and_congr Iff.rfl (forall₂_congr ih)
  | not child ih =>
      rw [form, expressionForm, isPlain_wrap_typed, isPlain_single (by decide), ← form, ih, everywhere_not]
      exact (and_iff_right rfl).symm

theorem withoutPrototypes_single {k : String} (hk : k ≠ "__proto__") (a : Json) :
    (Json.object [(k, a)]).withoutPrototypes = .object [(k, a.withoutPrototypes)] := by
  simp [Json.withoutPrototypes, Json.withoutPrototypesUnder, hk]

theorem withoutPrototypes_pair {k l : String} (hk : k ≠ "__proto__") (hl : l ≠ "__proto__") (a b : Json) :
    (Json.object [(k, a), (l, b)]).withoutPrototypes =
      .object [(k, a.withoutPrototypes), (l, b.withoutPrototypes)] := by
  simp [Json.withoutPrototypes, Json.withoutPrototypesUnder, hk, hl]

theorem withoutPrototypes_typed {name : String} {payload payload' : Entries Json}
    (h : (Json.object payload).withoutPrototypes = .object payload') :
    (wrap (typed name payload)).withoutPrototypes = wrap (typed name payload') := by
  rw [wrap, withoutPrototypes_single (by decide), typed, withoutPrototypes_pair (by decide) (by decide), h]
  rfl

theorem withoutPrototypes_form (f : Value → Json) (q : Query) :
    (q.form f).withoutPrototypes = q.form (Json.withoutPrototypes ∘ f) := by
  induction q using byChildren with
  | empty | compare => rfl
  | check | order => exact withoutPrototypes_typed (withoutPrototypes_pair (by decide) (by decide) _ _)
  | joined joint children ih =>
      have hchildren : (children.map (form f)).map Json.withoutPrototypes =
          children.map (form (Json.withoutPrototypes ∘ f)) := by
        rw [List.map_map]
        exact List.map_congr_left ih
      rw [form, expressionForm, withoutPrototypes_typed (withoutPrototypes_single (by decide) _),
        Json.withoutPrototypes, Json.withoutPrototypesIn_eq_map, expressionForms_eq_map, hchildren, form,
        expressionForm, expressionForms_eq_map]
  | not child ih =>
      rw [form, expressionForm, withoutPrototypes_typed (withoutPrototypes_single (by decide) _), ← form, ih]
      rfl

def lacksPrototypeKeys (q : Query) : Bool := q.operand?.all (·.everywhere Value.lacksPrototypeKey)

theorem isPlain_reread_form_iff {q : Query} (hkeys : q.everywhere hasDistinctKeys = true) :
    (q.form Value.toJson).reread.isPlain = true ↔ q.everywhere lacksPrototypeKeys = true := by
  rw [reread_form, isPlain_form_iff]
  refine everywhere_congr (fun s hs => ?_) q hkeys
  rw [hasDistinctKeys] at hs
  rw [lacksPrototypeKeys]
  cases hv : s.operand? with
  | none => rfl
  | some v =>
      rw [hv] at hs
      exact Value.isPlain_reread_toJson_iff hs

section Written

variable {q : Query} {text : String} (htext : q.serialize = .ok text)
  (hkeys : q.everywhere hasDistinctKeys = true)

include htext hkeys

theorem deserialize_eq_arrived (hheight : q.height ≤ greatestDepth)
    (hsizes : q.everywhere isWithinSizes = true) :
    deserialize text = .ok (q.mapOperands fun v => .ofJson v.toJson.arrived) := by
  obtain ⟨j, hj, rfl⟩ := Except.map_eq_ok_iff.1 htext
  have hordered := hasOrderedKeys_of_toWire hj hkeys
  obtain ⟨rfl, hwritable⟩ := toWire_eq_ok hj
  have hdefinite : q.everywhere (hasDefiniteForm (Json.reread ∘ Value.toJson)) = true := by
    refine everywhere_imp (fun s hs => ?_) q (everywhere_and hwritable hsizes)
    obtain ⟨hwritable, hsizes⟩ := Bool.and_eq_true_iff.1 hs
    rw [hasDefiniteForm, hsizes, (Bool.and_eq_true_iff.1 hwritable).1]
    exact (Option.all_eq_true _ _).2 fun v _ => Json.everywhere_isDefinite_reread v.toJson
  rw [deserialize, Json.parse_eq_reread hordered, reread_form]
  exact ofWire_form_definite hheight hdefinite

theorem serialize_arrived : (q.mapOperands fun v => .ofJson v.toJson.arrived).serialize =
    .ok (q.form Value.toJson).arrived.text := by
  obtain ⟨j, hj, rfl⟩ := Except.map_eq_ok_iff.1 htext
  obtain ⟨rfl, hwritable⟩ := toWire_eq_ok hj
  have harrived : (q.mapOperands fun v => .ofJson v.toJson.arrived).everywhere isWritable = true := by
    refine everywhere_mapOperands (everywhere_imp (fun s hs => ?_) q hwritable)
    cases s with
    | compare => cases hs
    | check | order => exact Value.isFiniteNode_ofJson_arrived _
    | _ => rfl
  rw [serialize_of_writable harrived, form_mapOperands, Json.arrived, reread_form, withoutPrototypes_form]
  refine congrArg (fun form => Except.ok form.text) (form_congr (fun v hv => ?_) hkeys)
  exact Value.toJson_ofJson_arrived (Value.everywhere_toJson (fun _ => Value.hasOrderedKeys_toJson) hv hv)

end Written

/-- Within the limits of reading every query that is written is read and written again, and with the same
text exactly if no operand of it has a key `__proto__`. -/
theorem serialize_of_deserialize {q : Query} {text : String} (htext : q.serialize = .ok text)
    (hheight : q.height ≤ greatestDepth) (hsizes : q.everywhere isWithinSizes = true)
    (hkeys : q.everywhere hasDistinctKeys = true) :
    ∃ r text', deserialize text = .ok r ∧ r.serialize = .ok text' ∧
      (text' = text ↔ q.everywhere lacksPrototypeKeys = true) := by
  refine ⟨_, _, deserialize_eq_arrived htext hkeys hheight hsizes, serialize_arrived htext hkeys, ?_⟩
  obtain ⟨j, hj, rfl⟩ := Except.map_eq_ok_iff.1 htext
  obtain ⟨rfl, -⟩ := toWire_eq_ok hj
  have htext : (q.form Value.toJson).text = (q.form Value.toJson).reread.text :=
    congrArg String.ofList (Json.chars_reread _).symm
  rw [htext, Json.arrived, Json.text_withoutPrototypes_eq_iff (Json.everywhere_isDefinite_reread _)]
  exact isPlain_reread_form_iff hkeys

theorem serialize_of_deserialize_nested :
    let q : Query := .any [.not (.check .is "a" (.list [.float (.ofInt (2 ^ 60)), .integer (2 ^ 60 + 1)])),
      .check .contains "b" (.map [("k", .float (.ofRatio true 1 3)), ("10", .null), ("2", .unsigned 7)])]
    ∃ text r, q.serialize = .ok text ∧ deserialize text = .ok r ∧ r.serialize = .ok text := by
  intro q
  obtain ⟨text, htext⟩ := Except.isOk_iff.1 (show q.serialize.isOk = true by decide +kernel)
  obtain ⟨r, text', hr, htext', hsame⟩ := serialize_of_deserialize htext (by decide +kernel)
    (by decide +kernel) (by decide +kernel)
  have hlacks : q.everywhere lacksPrototypeKeys = true := by decide +kernel
  exact ⟨text, r, htext, hr, hsame.2 hlacks ▸ htext'⟩

theorem serialize_of_deserialize_prototype :
    let text := "\x7b\x22Expression\x22:\x7b\x22Type\x22:\x22Is\x22,\x22Expression\x22:\x7b\x22Field\x22:" ++
      "\x22a\x22,\x22Value\x22:\x7b\x22__proto__\x22:1\x7d\x7d\x7d\x7d"
    let text' := "\x7b\x22Expression\x22:\x7b\x22Type\x22:\x22Is\x22,\x22Expression\x22:\x7b\x22Field\x22:" ++
      "\x22a\x22,\x22Value\x22:\x7b\x7d\x7d\x7d\x7d"
    (check .is "a" (.map [("__proto__", .integer 1)])).serialize = .ok text ∧
      deserialize text = .ok (.check .is "a" (.map [])) ∧
      (check .is "a" (.map [])).serialize = .ok text' ∧ text' ≠ text := by
  intro text text'
  have htext : (check .is "a" (.map [("__proto__", .integer 1)])).serialize = .ok text := by decide +kernel
  refine ⟨htext, ?_, by rfl, by decide⟩
  exact deserialize_eq_arrived htext (by decide) (by decide) (by decide)

end Query

end RecordSieve
