import RecordSieve.Proofs.Json.Restating
import RecordSieve.Proofs.Value.Recoding

namespace RecordSieve.Value

theorem equalsItems_congr_left {as as' : List Value} (h : as.map equals = as'.map equals)
    (bs : List Value) : equalsItems as bs = equalsItems as' bs := by
  induction as generalizing as' bs with
  | nil => rw [List.map_eq_nil_iff.1 h.symm]
  | cons a as ih =>
      cases as' with
      | nil => simp at h
      | cons a' as' =>
          obtain ⟨ha, has⟩ := List.cons_eq_cons.1 h
          cases bs with
          | nil => rfl
          | cons b bs => rw [equalsItems, equalsItems, ha, ih has]

theorem equalsEntries_eq_all (as bs : List (String × Value)) :
    equalsEntries as bs = (Entries.mapValues equals as).all fun e =>
      (Entries.find? e.1 bs).any e.2 := by
  induction as with
  | nil => rfl
  | cons e es ih =>
      obtain ⟨k, a⟩ := e
      rw [equalsEntries_cons, ih, Entries.mapValues_cons, List.all_cons]

structure IsReading (g : Json → Value) : Prop where
  array : ∀ items, g (.array items) = .list (items.map g)
  object : ∀ properties, g (.object properties) = .map (Entries.mapValues g properties)

theorem isReading_ofJson : IsReading ofJson where
  array items := by rw [ofJson, ofJsonItems_eq_map]
  object properties := by rw [ofJson, ofJsonProperties_eq]

theorem isReading_projected : IsReading Json.projected := ⟨Json.projected_array, Json.projected_object⟩

open Json (Restates IsBlind)

variable {R : Number → Number → Prop} {g : Json → Value} (hg : IsReading g)

include hg

theorem isBlind_equals (h : ∀ {m n}, R m n → (g (.number m)).equals = (g (.number n)).equals) :
    IsBlind R fun j => (g j).equals where
  number := h
  array {js ks} h := by
    have hequals : (js.map g).map equals = (ks.map g).map equals := by rwa [List.map_map, List.map_map]
    rw [hg.array, hg.array]
    funext v
    cases v with
    | list bs => rw [equals, equals, equalsItems_congr_left hequals]
    | _ => simp only [equals, number?]
  object {ps qs} h := by
    have hequals : Entries.mapValues equals (Entries.mapValues g ps) =
        Entries.mapValues equals (Entries.mapValues g qs) := by
      rwa [Entries.mapValues_mapValues, Entries.mapValues_mapValues]
    have hlength := congrArg List.length h
    simp only [Entries.mapValues, List.length_map] at hlength
    rw [hg.object, hg.object]
    funext v
    cases v with
    | map bs =>
        rw [equals, equals, equalsEntries_eq_all, equalsEntries_eq_all, hequals]
        simp only [Entries.mapValues, List.length_map, hlength]
    | _ => simp only [equals, number?]

theorem isBlind_equalsTo (h : ∀ {m n}, R m n → (g (.number m)).equalsTo = (g (.number n)).equalsTo) :
    IsBlind R fun j => (g j).equalsTo where
  number := h
  array {js ks} h := by
    rw [hg.array, hg.array]
    refine equalsTo_list ?_
    rwa [List.map_map, List.map_map]
  object {ps qs} h := by
    have hlength := congrArg List.length h
    rw [hg.object, hg.object]
    refine equalsTo_map (by simpa only [Entries.mapValues, List.length_map] using hlength) fun key => ?_
    have hfind := congrArg (Entries.find? key) h
    rw [Entries.find?_mapValues, Entries.find?_mapValues] at hfind
    rw [Entries.find?_mapValues, Entries.find?_mapValues, Option.map_map, Option.map_map]
    exact hfind

theorem isBlind_chars (h : ∀ {m n}, R m n →
      (g (.number m)).toJson.chars = (g (.number n)).toJson.chars) :
    IsBlind R fun j => (g j).toJson.chars where
  number := h
  array {js ks} h := by
    have hchars : ((js.map g).map toJson).map Json.chars = ((ks.map g).map toJson).map Json.chars := by
      simpa only [List.map_map, Function.comp_def] using h
    simp only [hg.array, toJson_list, Json.chars, Json.charsOfItems_eq_of_map hchars]
  object {ps qs} h := by
    have hchars : ∀ es : List (String × Json), Entries.mapValues Json.chars (Entries.mapValues toJson
        (Entries.inPropertyOrder (Entries.mapValues g es))) =
          Entries.inPropertyOrder (Entries.mapValues (fun j => (g j).toJson.chars) es) := fun es => by
      rw [← Entries.inPropertyOrder_mapValues, ← Entries.inPropertyOrder_mapValues,
        Entries.mapValues_mapValues, Entries.mapValues_mapValues]
      rfl
    have hsame := (hchars ps).trans ((congrArg Entries.inPropertyOrder h).trans (hchars qs).symm)
    simp only [hg.object, toJson_map, Json.chars, Json.charsOfProperties_eq_of_mapValues hsame]

theorem text_restated (hchars : ∀ {m n}, R m n →
      (g (.number m)).toJson.chars = (g (.number n)).toJson.chars)
    (htext : ∀ {m n}, R m n → (g (.number m)).text = (g (.number n)).text) {j k : Json}
    (h : Restates R j k) : (g j).text = (g k).text := by
  have hsame := h.congr (isBlind_chars hg hchars)
  cases h with
  | same => rfl
  | number h => exact htext h
  | array =>
      rw [hg.array, hg.array] at hsame ⊢
      exact congrArg String.ofList hsame
  | object =>
      rw [hg.object, hg.object] at hsame ⊢
      exact congrArg String.ofList hsame

end RecordSieve.Value
