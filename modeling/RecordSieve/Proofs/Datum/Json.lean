import RecordSieve.Datum.Shape
import RecordSieve.Datum.Text
import RecordSieve.Proofs.Json.Parts

namespace RecordSieve

namespace Json

def isDefinite : Json → Bool
  | .number (.float .nan) => false
  | _ => true

mutual

def withoutPrototypes : Json → Json
  | .array items => .array (withoutPrototypesIn items)
  | .object properties => .object ((withoutPrototypesUnder properties).filter (·.1 ≠ "__proto__"))
  | j => j

def withoutPrototypesIn : List Json → List Json
  | [] => []
  | j :: js => j.withoutPrototypes :: withoutPrototypesIn js

def withoutPrototypesUnder : List (String × Json) → List (String × Json)
  | [] => []
  | (k, j) :: rest => (k, j.withoutPrototypes) :: withoutPrototypesUnder rest

end

theorem withoutPrototypesIn_eq_map (items : List Json) :
    withoutPrototypesIn items = items.map withoutPrototypes := by
  induction items with
  | nil => rfl
  | cons j js ih => rw [withoutPrototypesIn, ih, List.map_cons]

theorem withoutPrototypesUnder_eq (properties : List (String × Json)) :
    withoutPrototypesUnder properties = Entries.mapValues withoutPrototypes properties := by
  induction properties with
  | nil => rfl
  | cons e es ih => rw [withoutPrototypesUnder, ih]; rfl

def isPlainNode : Json → Bool
  | .object properties => properties.all (·.1 != "__proto__")
  | j => j.isDefinite

theorem isDefinite_of_isPlainNode {j : Json} (h : j.isPlainNode = true) : j.isDefinite = true := by
  cases j with
  | object => rfl
  | _ => exact h

theorem everywhere_isDefinite_of_isPlain {j : Json} (h : j.everywhere isPlainNode = true) :
    j.everywhere isDefinite = true := by
  induction j using byParts with
  | null | boolean | number | string => exact h
  | array items ih =>
      obtain ⟨hp, hall⟩ := everywhere_array.1 h
      exact everywhere_array.2 ⟨isDefinite_of_isPlainNode hp, fun j hin => ih j hin (hall j hin)⟩
  | object properties ih =>
      obtain ⟨hp, hall⟩ := everywhere_object.1 h
      exact everywhere_object.2 ⟨isDefinite_of_isPlainNode hp, fun e hin => ih e hin (hall e hin)⟩

theorem withoutPrototypes_eq_self {j : Json} (h : j.everywhere isPlainNode = true) :
    j.withoutPrototypes = j := by
  induction j using byParts with
  | null | boolean | number | string => simp only [withoutPrototypes]
  | array items ih =>
      obtain ⟨-, hall⟩ := everywhere_array.1 h
      rw [withoutPrototypes, withoutPrototypesIn_eq_map,
        List.map_congr_left fun j hin => ih j hin (hall j hin), List.map_id']
  | object properties ih =>
      obtain ⟨hp, hall⟩ := everywhere_object.1 h
      have hkeys : properties.filter (·.1 ≠ "__proto__") = properties := by
        refine List.filter_eq_self.2 fun e he => ?_
        simpa using List.all_eq_true.1 hp e he
      rw [withoutPrototypes, withoutPrototypesUnder_eq,
        Entries.mapValues_eq_self fun e hin => ih e hin (hall e hin), hkeys]

theorem length_charsOfItems_cons (j : Json) (js : List Json) :
    (charsOfItems (j :: js)).length = j.chars.length + (min 1 js.length + (charsOfItems js).length) := by
  cases js with
  | nil => simp [charsOfItems]
  | cons k ks =>
      rw [charsOfItems_cons_cons, List.length_append, List.length_cons, List.length_cons]
      omega

theorem length_charsOfProperties_cons (key : String) (j : Json) (es : List (String × Json)) :
    (charsOfProperties ((key, j) :: es)).length = (Text.quoteList key.toList).length + 1 + j.chars.length +
      (min 1 es.length + (charsOfProperties es).length) := by
  cases es with
  | nil =>
      simp only [charsOfProperties, List.length_append, List.length_cons, List.length_nil]
      omega
  | cons e es =>
      rw [charsOfProperties_cons_cons]
      simp only [List.length_append, List.length_cons]
      omega

def ShowsPrototypes (j : Json) : Prop :=
  j.everywhere isPlainNode = true ∨ j.withoutPrototypes.chars.length < j.chars.length

theorem length_charsOfItems_withoutPrototypes {items : List Json} (h : ∀ j ∈ items, j.ShowsPrototypes) :
    (∀ j ∈ items, j.everywhere isPlainNode = true) ∨
      (charsOfItems (items.map withoutPrototypes)).length < (charsOfItems items).length := by
  induction items with
  | nil => exact .inl (List.forall_mem_nil _)
  | cons j js ih =>
      obtain ⟨hj, hjs⟩ := List.forall_mem_cons.1 h
      rw [List.map_cons, length_charsOfItems_cons, length_charsOfItems_cons, List.length_map]
      rcases hj, ih hjs with ⟨hj | hj, hjs | hjs⟩
      · exact .inl (List.forall_mem_cons.2 ⟨hj, hjs⟩)
      · rw [withoutPrototypes_eq_self hj]
        omega
      · rw [List.map_congr_left fun k hk => withoutPrototypes_eq_self (hjs k hk), List.map_id']
        omega
      · omega

def keptProperties (properties : List (String × Json)) : List (String × Json) :=
  (Entries.mapValues withoutPrototypes properties).filter (·.1 ≠ "__proto__")

theorem keptProperties_eq_self {properties : List (String × Json)}
    (h : ∀ e ∈ properties, e.1 ≠ "__proto__" ∧ e.2.everywhere isPlainNode = true) :
    keptProperties properties = properties := by
  rw [keptProperties, Entries.mapValues_eq_self fun e he => withoutPrototypes_eq_self (h e he).2]
  exact List.filter_eq_self.2 fun e he => by simpa using (h e he).1

theorem length_charsOfProperties_kept {properties : List (String × Json)}
    (h : ∀ e ∈ properties, e.2.ShowsPrototypes) :
    (∀ e ∈ properties, e.1 ≠ "__proto__" ∧ e.2.everywhere isPlainNode = true) ∨
      (charsOfProperties (keptProperties properties)).length < (charsOfProperties properties).length := by
  induction properties with
  | nil => exact .inl (List.forall_mem_nil _)
  | cons e es ih =>
      obtain ⟨key, j⟩ := e
      obtain ⟨hj, hes⟩ : j.ShowsPrototypes ∧ ∀ e ∈ es, e.2.ShowsPrototypes := List.forall_mem_cons.1 h
      have hcount : (keptProperties es).length ≤ es.length := by
        simpa [keptProperties, Entries.mapValues] using
          List.length_filter_le (·.1 ≠ "__proto__") (Entries.mapValues withoutPrototypes es)
      have hkept : (charsOfProperties (keptProperties es)).length ≤ (charsOfProperties es).length := by
        rcases ih hes with hplain | hless
        · exact Nat.le_of_eq (by rw [keptProperties_eq_self hplain])
        · exact Nat.le_of_lt hless
      rw [length_charsOfProperties_cons]
      by_cases hkey : key = "__proto__"
      · have hdropped : keptProperties ((key, j) :: es) = keptProperties es := by
          simp [keptProperties, Entries.mapValues_cons, hkey]
        rw [hdropped]
        omega
      · have hcons : keptProperties ((key, j) :: es) = (key, j.withoutPrototypes) :: keptProperties es := by
          simp [keptProperties, Entries.mapValues_cons, hkey]
        rw [hcons, length_charsOfProperties_cons]
        rcases hj, ih hes with ⟨hj | hj, hplain | hless⟩
        · exact .inl (List.forall_mem_cons.2 ⟨⟨hkey, hj⟩, hplain⟩)
        · rw [withoutPrototypes_eq_self hj]
          omega
        · omega
        · omega

theorem showsPrototypes {j : Json} (h : j.everywhere isDefinite = true) : j.ShowsPrototypes := by
  induction j using byParts with
  | null | boolean | number | string => exact .inl h
  | array items ih =>
      obtain ⟨hp, hall⟩ := everywhere_array.1 h
      rw [ShowsPrototypes, withoutPrototypes, withoutPrototypesIn_eq_map]
      rcases length_charsOfItems_withoutPrototypes fun j hin => ih j hin (hall j hin) with hplain | hless
      · exact .inl (everywhere_array.2 ⟨hp, hplain⟩)
      · simp only [chars, List.length_append, List.length_cons]
        omega
  | object properties ih =>
      obtain ⟨-, hall⟩ := everywhere_object.1 h
      rw [ShowsPrototypes, withoutPrototypes, withoutPrototypesUnder_eq, ← keptProperties]
      rcases length_charsOfProperties_kept fun e hin => ih e hin (hall e hin) with hplain | hless
      · refine .inl (everywhere_object.2 ⟨List.all_eq_true.2 fun e he => ?_, fun e he => (hplain e he).2⟩)
        simpa using (hplain e he).1
      · simp only [chars, List.length_append, List.length_cons]
        omega

theorem text_withoutPrototypes_eq_iff {j : Json} (h : j.everywhere isDefinite = true) :
    j.withoutPrototypes.text = j.text ↔ j.everywhere isPlainNode = true := by
  constructor
  · intro htext
    have hlength := congrArg (fun s : String => s.toList.length) htext
    simp only [text, String.toList_ofList] at hlength
    exact (showsPrototypes h).resolve_right (by omega)
  · exact fun hplain => congrArg text (withoutPrototypes_eq_self hplain)

end Json

namespace Datum

theorem ofJsonItems_eq_map (items : List Json) : ofJsonItems items = items.map ofJson := by
  induction items with
  | nil => rfl
  | cons j js ih => rw [ofJsonItems, ih, List.map_cons]

theorem ofJsonProperties_eq (properties : List (String × Json)) :
    ofJsonProperties properties = Entries.mapValues (fun j => .ok (ofJson j)) properties := by
  induction properties with
  | nil => rfl
  | cons e es ih => rw [ofJsonProperties, ih]; rfl

theorem ofJson_array (items : List Json) : ofJson (.array items) = .array (items.map ofJson) := by
  rw [ofJson, ofJsonItems_eq_map]

theorem ofJson_object (properties : List (String × Json)) : ofJson (.object properties) =
    .object (Entries.mapValues (fun j => .ok (ofJson j)) properties) [] := by
  rw [ofJson, ofJsonProperties_eq]

theorem resolve_ofJson (objects : Objects) (j : Json) : (ofJson j).resolve objects = ofJson j := by
  cases j <;> simp only [ofJson, resolve]

theorem isObject_ofJson (properties : List (String × Json)) :
    (ofJson (.object properties)).isObject = true := by
  rw [ofJson]
  rfl

theorem property?_ofJson (name : String) (properties : List (String × Json)) :
    (ofJson (.object properties)).property? name =
      (Entries.find? name properties).map fun j => .ok (ofJson j) := by
  simp only [ofJson_object, property?, ownProperty?, inheritedProperty?, Datum.properties,
    Entries.find?_mapValues, Entries.find?, Option.or_none]

theorem member_ofJson (objects : Objects) (name : String) (properties : List (String × Json)) :
    (ofJson (.object properties)).member objects name =
      .ok (((Entries.find? name properties).map ofJson).getD .undefined) := by
  rw [member, property?_ofJson]
  cases Entries.find? name properties with
  | none => rfl
  | some j => simp only [Option.map_some, Option.getD_some, resolve_ofJson]

theorem toJsonItems?_map_ofJson {objects : Objects} {items : List Json}
    (h : ∀ j ∈ items, toJson? objects (ofJson j) =
      .ok (if j.everywhere Json.isDefinite then some j.withoutPrototypes else none)) :
    toJsonItems? objects (items.map ofJson) = .ok (if Json.everywhereIn Json.isDefinite items then
      some (items.map Json.withoutPrototypes) else none) := by
  induction items with
  | nil => rw [List.map_nil, toJsonItems?]; rfl
  | cons j js ih =>
      obtain ⟨hj, hjs⟩ := List.forall_mem_cons.1 h
      rw [List.map_cons, toJsonItems?, hj, ih hjs, Json.everywhereIn]
      cases j.everywhere Json.isDefinite <;> cases Json.everywhereIn Json.isDefinite js <;> rfl

theorem toJsonProperties?_ofJson {objects : Objects} {properties : List (String × Json)}
    (h : ∀ e ∈ properties, toJson? objects (ofJson e.2) =
      .ok (if e.2.everywhere Json.isDefinite then some e.2.withoutPrototypes else none)) :
    toJsonProperties? objects (Entries.mapValues (fun j => .ok (ofJson j)) properties) =
      .ok (if Json.everywhereUnder Json.isDefinite properties then
        some (Entries.mapValues Json.withoutPrototypes properties) else none) := by
  induction properties with
  | nil => rw [Entries.mapValues, List.map_nil, toJsonProperties?]; rfl
  | cons e es ih =>
      obtain ⟨k, j⟩ := e
      obtain ⟨hj, hes⟩ := List.forall_mem_cons.1 h
      have hrest := ih hes
      simp only [Entries.mapValues, List.map_cons] at hrest ⊢
      rw [toJsonProperties?, hj, hrest, Json.everywhereUnder]
      cases j.everywhere Json.isDefinite <;> cases Json.everywhereUnder Json.isDefinite es <;> rfl

theorem toJson?_ofJson (objects : Objects) (j : Json) : toJson? objects (ofJson j) =
    .ok (if j.everywhere Json.isDefinite then some j.withoutPrototypes else none) := by
  induction j using Json.byParts with
  | null | boolean | string => simp [ofJson, toJson?, Json.everywhere, Json.isDefinite, Json.withoutPrototypes]
  | number n =>
      rcases n with n | (_ | _ | _) <;>
        simp [ofJson, toJson?, Json.everywhere, Json.isDefinite, Json.withoutPrototypes]
  | array items ih =>
      rw [ofJson_array, toJson?, toJsonItems?_map_ofJson ih, Json.everywhere, Json.withoutPrototypes,
        Json.withoutPrototypesIn_eq_map]
      cases Json.everywhereIn Json.isDefinite items <;> rfl
  | object properties ih =>
      rw [ofJson_object, toJson?, toJsonProperties?_ofJson ih, Json.everywhere,
        Json.withoutPrototypes, Json.withoutPrototypesUnder_eq]
      cases Json.everywhereUnder Json.isDefinite properties <;> rfl

mutual

theorem written_ofJson (objects : Objects) (j : Json) : written objects (ofJson j) = .ok (some j) := by
  cases j with
  | array items =>
      rw [ofJson, written, writtenItems_ofJson]
      rfl
  | object properties =>
      rw [ofJson, written, writtenProperties_ofJson]
      rfl
  | _ => rw [ofJson, written]

theorem writtenItems_ofJson (objects : Objects) (items : List Json) :
    writtenItems objects (ofJsonItems items) = .ok items := by
  cases items with
  | nil => rw [ofJsonItems, writtenItems]
  | cons j js =>
      rw [ofJsonItems, writtenItems, written_ofJson, writtenItems_ofJson]
      rfl

theorem writtenProperties_ofJson (objects : Objects) (properties : List (String × Json)) :
    writtenProperties objects (ofJsonProperties properties) = .ok properties := by
  cases properties with
  | nil => rw [ofJsonProperties, writtenProperties]
  | cons e rest =>
      rw [ofJsonProperties, writtenProperties, written_ofJson, writtenProperties_ofJson]
      rfl

end

end Datum

theorem Input.text_ofJson (j : Json) : (ofJson j).text = .ok j.text := by
  rw [text, ofJson, Datum.written_ofJson]
  rfl

end RecordSieve
