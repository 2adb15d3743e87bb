import RecordSieve.Proofs.Datum.Json

namespace RecordSieve

theorem Datum.projectItems_eq (objects : Objects) (items : List Datum) :
    projectItems objects items = items.map (project objects) := by
  induction items with
  | nil => rw [projectItems, List.map_nil]
  | cons d ds ih => rw [projectItems, ih, List.map_cons]

namespace Json

def property? (name : String) : Json → Option Json
  | .object properties => Entries.find? name properties
  | _ => none

def projected (j : Json) : Value := (Datum.ofJson j).project []

theorem projected_number (n : Number) : projected (.number n) = (match n with
    | .integer i => .integer i
    | .float x => .float x) := by
  cases n <;> simp only [projected, Datum.ofJson, Datum.project]

theorem projected_array (items : List Json) :
    projected (.array items) = .list (items.map projected) := by
  rw [projected, Datum.ofJson_array, Datum.project, Datum.projectItems_eq, List.map_map]
  rfl

theorem projectProperties_cons (key : String) (j : Json) (rest : List (String × Slot)) :
    Datum.projectProperties [] ((key, .ok (.ofJson j)) :: rest) =
      (key, j.projected) :: Datum.projectProperties [] rest := by
  cases j <;> simp only [Datum.ofJson, Datum.projectProperties, projected]

theorem projected_object (properties : List (String × Json)) :
    projected (.object properties) = .map (Entries.mapValues projected properties) := by
  have hproperties : Datum.projectProperties []
      (Entries.mapValues (fun j => .ok (.ofJson j)) properties) =
        Entries.mapValues projected properties := by
    induction properties with
    | nil => simp only [Entries.mapValues, List.map_nil, Datum.projectProperties]
    | cons e es ih =>
        simp only [Entries.mapValues, List.map_cons] at ih ⊢
        rw [projectProperties_cons, ih]
  rw [projected, Datum.ofJson_object, Datum.project, hproperties]

end Json

namespace Datum

theorem fieldOf?_ofJson (name : String) (properties : List (String × Json)) :
    (ofJson (.object properties)).fieldOf? name = (Entries.find? name properties).map ofJson := by
  simp only [ofJson_object, fieldOf?, ownProperty?, inheritedProperty?, Datum.properties,
    Entries.find?_mapValues, Entries.find?]
  cases Entries.find? name properties <;> simp

end Datum

namespace Input

theorem view?_ofJson_object (properties : List (String × Json)) :
    (Input.ofJson (.object properties)).view? =
      .ok (some ⟨.fields, fun name => (Datum.ofJson (.object properties)).fieldOf? name⟩) := by
  have hgetter := Datum.property?_ofJson "getField" properties
  rw [view?, Input.ofJson, Datum.resolve_ofJson]
  rw [Datum.ofJson_object] at hgetter ⊢
  dsimp only
  rw [hgetter]
  cases Entries.find? "getField" properties with
  | none => rfl
  | some j => cases j <;> rfl

theorem view?_ofJson {j : Json} (h : ∀ properties, j ≠ .object properties) :
    (Input.ofJson j).view? = .ok none := by
  cases j with
  | object properties => exact absurd rfl (h properties)
  | _ => rfl

theorem lookup_ofJson (j : Json) (name : String) :
    (Input.ofJson j).lookup name = .ok ((j.property? name).map Json.projected) := by
  rw [lookup]
  cases j with
  | object properties =>
      simp only [view?_ofJson_object, Except.map, Option.bind_some, Datum.fieldOf?_ofJson, Option.map_map]
      rfl
  | _ => rw [view?_ofJson (by simp)]; rfl

end Input

end RecordSieve
