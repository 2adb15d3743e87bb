import RecordSieve.Json
import RecordSieve.Proofs.Entries

namespace RecordSieve.Json

@[elab_as_elim]
theorem byParts {motive : Json → Prop} (null : motive .null) (boolean : ∀ b, motive (.boolean b))
    (number : ∀ n, motive (.number n)) (string : ∀ s, motive (.string s))
    (array : ∀ items, (∀ j ∈ items, motive j) → motive (.array items))
    (object : ∀ properties, (∀ e ∈ properties, motive e.2) → motive (.object properties))
    (j : Json) : motive j :=
  match j with
  | .null => null
  | .boolean b => boolean b
  | .number n => number n
  | .string s => string s
  | .array items => array items fun j _ => byParts null boolean number string array object j
  | .object properties =>
      object properties fun e _ => byParts null boolean number string array object e.2
  termination_by sizeOf j
  decreasing_by
    · have := List.sizeOf_lt_of_mem ‹j ∈ items›
      simp only [Json.array.sizeOf_spec]
      omega
    · have := List.sizeOf_lt_of_mem ‹e ∈ properties›
      obtain ⟨k, j⟩ := e
      simp only [Json.object.sizeOf_spec, Prod.mk.sizeOf_spec] at *
      omega

mutual

def everywhere (p : Json → Bool) : Json → Bool
  | .array items => p (.array items) && everywhereIn p items
  | .object properties => p (.object properties) && everywhereUnder p properties
  | j => p j

def everywhereIn (p : Json → Bool) : List Json → Bool
  | [] => true
  | j :: js => everywhere p j && everywhereIn p js

def everywhereUnder (p : Json → Bool) : List (String × Json) → Bool
  | [] => true
  | (_, j) :: rest => everywhere p j && everywhereUnder p rest

end

variable {p : Json → Bool}

theorem everywhereIn_iff {items : List Json} :
    everywhereIn p items = true ↔ ∀ j ∈ items, everywhere p j = true := by
  induction items with
  | nil => simp [everywhereIn]
  | cons j js ih => simp [everywhereIn, ih]

theorem everywhereUnder_iff {properties : List (String × Json)} :
    everywhereUnder p properties = true ↔ ∀ e ∈ properties, everywhere p e.2 = true := by
  induction properties with
  | nil => simp [everywhereUnder]
  | cons e es ih => simp [everywhereUnder, ih]

theorem everywhere_array {items : List Json} :
    everywhere p (.array items) = true ↔
      p (.array items) = true ∧ ∀ j ∈ items, everywhere p j = true := by
  rw [everywhere, Bool.and_eq_true, everywhereIn_iff]

theorem everywhere_object {properties : List (String × Json)} :
    everywhere p (.object properties) = true ↔
      p (.object properties) = true ∧ ∀ e ∈ properties, everywhere p e.2 = true := by
  rw [everywhere, Bool.and_eq_true, everywhereUnder_iff]

theorem everywhere_self {j : Json} (h : j.everywhere p = true) : p j = true := by
  cases j with
  | array items => exact (everywhere_array.1 h).1
  | object properties => exact (everywhere_object.1 h).1
  | _ => exact h

theorem everywhere_imp {p' : Json → Bool} (himp : ∀ {j}, p j = true → p' j = true) {j : Json}
    (h : j.everywhere p = true) : j.everywhere p' = true := by
  induction j using byParts with
  | array items ih =>
      obtain ⟨hp, hall⟩ := everywhere_array.1 h
      exact everywhere_array.2 ⟨himp hp, fun j hin => ih j hin (hall j hin)⟩
  | object properties ih =>
      obtain ⟨hp, hall⟩ := everywhere_object.1 h
      exact everywhere_object.2 ⟨himp hp, fun e hin => ih e hin (hall e hin)⟩
  | _ => exact himp h

theorem everywhere_and {p' : Json → Bool} {j : Json} (h : j.everywhere p = true)
    (h' : j.everywhere p' = true) : j.everywhere (fun j => p j && p' j) = true := by
  induction j using byParts with
  | array items ih =>
      obtain ⟨hp, hall⟩ := everywhere_array.1 h
      obtain ⟨hp', hall'⟩ := everywhere_array.1 h'
      exact everywhere_array.2 ⟨by rw [hp, hp', Bool.and_self],
        fun j hin => ih j hin (hall j hin) (hall' j hin)⟩
  | object properties ih =>
      obtain ⟨hp, hall⟩ := everywhere_object.1 h
      obtain ⟨hp', hall'⟩ := everywhere_object.1 h'
      exact everywhere_object.2 ⟨by rw [hp, hp', Bool.and_self],
        fun e hin => ih e hin (hall e hin) (hall' e hin)⟩
  | _ => exact Bool.and_eq_true_iff.2 ⟨h, h'⟩

theorem charsOfItems_cons_cons (j k : Json) (js : List Json) :
    charsOfItems (j :: k :: js) = j.chars ++ ',' :: charsOfItems (k :: js) := by
  rw [charsOfItems]
  simp

theorem charsOfProperties_cons_cons (key : String) (j : Json) (e : String × Json)
    (es : List (String × Json)) : charsOfProperties ((key, j) :: e :: es) =
      Text.quoteList key.toList ++ ':' :: j.chars ++ ',' :: charsOfProperties (e :: es) := by
  rw [charsOfProperties]
  simp

theorem charsOfItems_eq_of_map {xs ys : List Json} (h : xs.map chars = ys.map chars) :
    charsOfItems xs = charsOfItems ys := by
  induction xs generalizing ys with
  | nil =>
      cases ys with
      | nil => rfl
      | cons => simp at h
  | cons x xs ih =>
      cases ys with
      | nil => simp at h
      | cons y ys =>
          obtain ⟨hx, hxs⟩ := List.cons_eq_cons.1 h
          have hrest := ih hxs
          cases xs <;> cases ys <;> simp_all [charsOfItems]

theorem charsOfProperties_eq_of_mapValues {ps qs : List (String × Json)}
    (h : Entries.mapValues chars ps = Entries.mapValues chars qs) :
    charsOfProperties ps = charsOfProperties qs := by
  simp only [Entries.mapValues] at h
  induction ps generalizing qs with
  | nil =>
      cases qs with
      | nil => rfl
      | cons => simp at h
  | cons e es ih =>
      cases qs with
      | nil => simp at h
      | cons f fs =>
          obtain ⟨he, hes⟩ := List.cons_eq_cons.1 h
          obtain ⟨hkey, hchars⟩ := Prod.mk.inj he
          have hrest := ih hes
          cases es <;> cases fs <;> simp_all [charsOfProperties]

end RecordSieve.Json
