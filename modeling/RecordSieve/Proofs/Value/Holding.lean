import RecordSieve.Proofs.Json.Reading
import RecordSieve.Proofs.Value.Distinction

namespace RecordSieve

theorem Number.ofInteger_of_not_isSafe {n : Int} (h : isSafe n = false) : ofInteger n = .integer n :=
  if_neg (by rw [h]; exact Bool.false_ne_true)

namespace Json

theorem toJson_projected {j : Json} (hj : j.everywhere isReadNode = true) : j.projected.toJson = j := by
  induction j using byParts with
  | null | boolean | string => simp only [projected, Datum.ofJson, Datum.project, Value.toJson]
  | number n =>
      rw [projected_number]
      cases n with
      | integer n =>
          have hunsafe : isSafe n = false := by simpa [everywhere, isReadNode] using hj
          rw [Value.toJson, Number.ofInteger_of_not_isSafe hunsafe]
      | float x => rw [Value.toJson]
  | array items ih =>
      obtain ⟨-, hall⟩ := everywhere_array.1 hj
      have hitems : items.map (Value.toJson ∘ projected) = items.map id :=
        List.map_congr_left fun j hin => ih j hin (hall j hin)
      rw [projected_array, Value.toJson_list, List.map_map, hitems, List.map_id]
  | object properties ih =>
      obtain ⟨hkeys, hall⟩ := everywhere_object.1 hj
      obtain ⟨hdistinct, hordered⟩ := isReadNode_object.1 hkeys
      have hentries : Entries.inPropertyOrder (Entries.mapValues projected properties) =
          Entries.mapValues projected properties :=
        Entries.inPropertyOrder_of_inOrder (Entries.distinct_mapValues projected hdistinct)
          (Entries.inOrder_mapValues projected hordered)
      rw [projected_object, Value.toJson_map, hentries, Entries.mapValues_mapValues,
        Entries.mapValues_eq_self fun e hin => ih e hin (hall e hin)]

end Json

namespace Value

theorem isReadNode_ofInteger (n : Int) : (Json.number (.ofInteger n)).isReadNode = true := by
  rw [Number.ofInteger]
  split
  · rfl
  · rename_i h
    rw [Json.isReadNode, eq_false_of_ne_true h, Bool.not_false]

theorem isReadNode_toJson {v : Value} (h : v.hasDistinctKeys = true) : v.toJson.isReadNode = true := by
  cases v with
  | integer n => rw [toJson]; exact isReadNode_ofInteger n
  | unsigned n => rw [toJson]; exact isReadNode_ofInteger n
  | list items => rw [toJson_list]; rfl
  | map entries =>
      have hkeys := hasOrderedKeys_toJson h
      rw [toJson_map] at hkeys ⊢
      exact hkeys
  | _ => rw [toJson]; rfl

theorem text_projected_ofInteger (n : Int) :
    (Json.projected (.number (.ofInteger n))).text = (Value.integer n).text := by
  rw [Number.ofInteger]
  split
  · rename_i h
    rw [Json.projected_number]
    exact (text_of_safeInteger? (Binary64.safeInteger?_ofInt h)).symm
  · rw [Json.projected_number]

section Held

variable {v : Value} (hd : v.everywhere hasDistinctKeys = true)

include hd

theorem toJson_held : v.held.toJson = v.toJson :=
  Json.toJson_projected (everywhere_toJson (fun _ => isReadNode_toJson) hd hd)

theorem text_held : v.held.text = v.text := by
  have hjson := congrArg Json.text (toJson_held hd)
  cases v with
  | integer n => rw [held, toJson, text_projected_ofInteger]
  | unsigned n => rw [held, toJson, text_projected_ofInteger]; rfl
  | float x => rw [held, toJson, Json.projected_number]
  | string s => rw [isRewriting_held.string]
  | boolean b => rw [isRewriting_held.boolean]
  | null => rw [isRewriting_held.null]
  | list items =>
      rw [isRewriting_held.list] at hjson ⊢
      exact hjson
  | map entries =>
      rw [isRewriting_held.map] at hjson ⊢
      exact hjson

end Held

/-- Data that was read is given back by its value in full, property order and the form of each number
included. A value's own data is read as a value with the same text, and as an equal one exactly if every
number in it is one. -/
theorem toValue_toJson :
    (∀ (s : String) (j : Json), Json.parse s = .ok j → (Input.ofJson j).toValue.toJson = j) ∧
    ∀ v : Value, v.everywhere hasDistinctKeys = true →
      (Input.ofJson v.toJson).toValue.text = v.text ∧
      ((Input.ofJson v.toJson).toValue.equals v = true ↔ v.everywhere isNumberNode = true) :=
  ⟨fun _ _ hparse => Json.toJson_projected (Json.everywhere_of_parse hparse),
    fun _ hd => ⟨text_held hd, equals_held_iff hd⟩⟩

theorem toValue_toJson_nested :
    let v : Value := .map [("b", .list [.integer 5, .unsigned 9007199254740993, .float (.ofRatio true 3 2)]),
      ("2", .map [("__proto__", .null)])]
    let j := v.toJson.reread
    v.toJson.text = "\x7b\"2\":\x7b\"__proto__\":null\x7d,\"b\":[5,9007199254740993,-1.5]\x7d" ∧
      Json.parse v.toJson.text = .ok j ∧ (Input.ofJson j).toValue.toJson = j ∧
      v.everywhere hasDistinctKeys = true ∧ v.everywhere isNumberNode = true ∧
      (Input.ofJson v.toJson).toValue.text = v.text ∧ (Input.ofJson v.toJson).toValue.equals v = true := by
  intro v j
  have hkeys : v.toJson.everywhere Json.hasOrderedKeys = true := by decide +kernel
  have hparse : Json.parse v.toJson.text = .ok j := Json.parse_eq_reread hkeys
  have hd : v.everywhere hasDistinctKeys = true := by decide +kernel
  have hnumber : v.everywhere isNumberNode = true := by decide +kernel
  obtain ⟨htext, hequals⟩ := toValue_toJson.2 v hd
  exact ⟨by decide +kernel, hparse, toValue_toJson.1 _ _ hparse, hd, hnumber, htext, hequals.2 hnumber⟩

end Value

end RecordSieve
