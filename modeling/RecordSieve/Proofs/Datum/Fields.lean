import RecordSieve.Proofs.Datum.Unfolding
import RecordSieve.Proofs.Json.Reading

namespace RecordSieve

namespace Objects

theorem erase_eq_without (objects : Objects) (name : Nat) : objects.erase name = objects.without {name} := by
  rw [← objects.without_empty, erase_without, insert_empty_eq, without_empty]

end Objects

namespace Datum

mutual

/-- A datum that is JSON data, of which a part may stand in several places, but not inside of itself. -/
inductive Holds : Objects → Datum → Json → Prop
  | null {objects : Objects} : Holds objects .null .null
  | boolean {objects : Objects} (b : Bool) : Holds objects (.boolean b) (.boolean b)
  | number {objects : Objects} (n : Number) : Holds objects (.number n) (.number n)
  | string {objects : Objects} (s : String) : Holds objects (.string s) (.string s)
  | array {objects : Objects} {items : List Datum} {js : List Json} : HoldsIn objects items js →
      Holds objects (.array items) (.array js)
  | object {objects : Objects} {own : List (String × Slot)} {properties : List (String × Json)} :
      HoldsUnder objects own properties → Holds objects (.object own []) (.object properties)
  | ref {objects : Objects} {name : Nat} {d : Datum} {j : Json} : objects.find? name = some d →
      Holds (objects.erase name) d j → Holds objects (.ref name) j

inductive HoldsIn : Objects → List Datum → List Json → Prop
  | nil {objects : Objects} : HoldsIn objects [] []
  | cons {objects : Objects} {d : Datum} {j : Json} {ds : List Datum} {js : List Json} :
      Holds objects d j → HoldsIn objects ds js → HoldsIn objects (d :: ds) (j :: js)

inductive HoldsUnder : Objects → List (String × Slot) → List (String × Json) → Prop
  | nil {objects : Objects} : HoldsUnder objects [] []
  | cons {objects : Objects} {key : String} {d : Datum} {j : Json} {own : List (String × Slot)}
      {properties : List (String × Json)} : Holds objects d j → HoldsUnder objects own properties →
      HoldsUnder objects ((key, .ok d) :: own) ((key, j) :: properties)

end

theorem Holds.isFunction {objects : Objects} {d : Datum} {j : Json} (h : Holds objects d j) :
    d.isFunction = false := by
  cases h <;> rfl

theorem projectProperties_cons {d : Datum} (h : d.isFunction = false) (objects : Objects) (key : String)
    (rest : List (String × Slot)) : projectProperties objects ((key, .ok d) :: rest) =
      (key, d.project objects) :: projectProperties objects rest := by
  cases d with
  | function => cases h
  | _ => rw [projectProperties]; simp

-- Data is projected part by part, and an object that is named as one that is not.
mutual

theorem Holds.project_eq {objects : Objects} {d : Datum} {j : Json} :
    Holds objects d j → d.project objects = j.projected
  | .null | .boolean _ | .string _ => by simp only [project, Json.projected, ofJson]
  | .number n => by cases n <;> simp only [project, Json.projected, ofJson]
  | .array h => by rw [project, projectItems_eq, h.project_eq, Json.projected_array]
  | .object h => by rw [project, h.project_eq, Json.projected_object]
  | .ref hfind h => by rw [project_ref, hfind, Option.elim_some, h.project_eq]

theorem HoldsIn.project_eq {objects : Objects} {items : List Datum} {js : List Json} :
    HoldsIn objects items js → items.map (project objects) = js.map Json.projected
  | .nil => rfl
  | .cons h hs => by rw [List.map_cons, List.map_cons, h.project_eq, hs.project_eq]

theorem HoldsUnder.project_eq {objects : Objects} {own : List (String × Slot)}
    {properties : List (String × Json)} : HoldsUnder objects own properties →
      projectProperties objects own = Entries.mapValues Json.projected properties
  | .nil => by rw [projectProperties]; rfl
  | .cons h hs => by
      rw [projectProperties_cons h.isFunction, h.project_eq, hs.project_eq, Entries.mapValues_cons]

end

-- Data inside of some objects is the same data inside of fewer.
mutual

theorem Holds.mono {objects outside : Objects} {inside inside' : Finset Nat} (hsub : inside' ⊆ inside)
    {d : Datum} {j : Json} (houtside : outside = objects.without inside) :
    Holds outside d j → Holds (objects.without inside') d j
  | .null => .null
  | .boolean b => .boolean b
  | .number n => .number n
  | .string s => .string s
  | .array h => .array (h.mono hsub houtside)
  | .object h => .object (h.mono hsub houtside)
  | @Holds.ref _ name _ _ hfind h => by
      rw [houtside] at hfind
      have hout : name ∉ inside := fun hin => by
        rw [Objects.find?_without_of_mem objects hin] at hfind
        cases hfind
      rw [Objects.find?_without objects hout] at hfind
      refine .ref ((Objects.find?_without objects fun hin => hout (hsub hin)).trans hfind) ?_
      rw [Objects.erase_without]
      exact h.mono (Finset.insert_subset_insert name hsub) (by rw [houtside, Objects.erase_without])

theorem HoldsIn.mono {objects outside : Objects} {inside inside' : Finset Nat} (hsub : inside' ⊆ inside)
    {items : List Datum} {js : List Json} (houtside : outside = objects.without inside) :
    HoldsIn outside items js → HoldsIn (objects.without inside') items js
  | .nil => .nil
  | .cons h hs => .cons (h.mono hsub houtside) (hs.mono hsub houtside)

theorem HoldsUnder.mono {objects outside : Objects} {inside inside' : Finset Nat} (hsub : inside' ⊆ inside)
    {own : List (String × Slot)} {properties : List (String × Json)}
    (houtside : outside = objects.without inside) :
    HoldsUnder outside own properties → HoldsUnder (objects.without inside') own properties
  | .nil => .nil
  | .cons h hs => .cons (h.mono hsub houtside) (hs.mono hsub houtside)

end

theorem Holds.of_without {objects : Objects} {inside : Finset Nat} {d : Datum} {j : Json}
    (h : Holds (objects.without inside) d j) : Holds objects d j :=
  objects.without_empty ▸ h.mono (Finset.empty_subset inside) rfl

theorem HoldsUnder.of_without {objects : Objects} {inside : Finset Nat} {own : List (String × Slot)}
    {properties : List (String × Json)} (h : HoldsUnder (objects.without inside) own properties) :
    HoldsUnder objects own properties :=
  objects.without_empty ▸ h.mono (Finset.empty_subset inside) rfl

mutual

theorem holds_ofJson (objects : Objects) (j : Json) : Holds objects (ofJson j) j := by
  cases j with
  | null => rw [ofJson]; exact .null
  | boolean b => rw [ofJson]; exact .boolean b
  | number n => rw [ofJson]; exact .number n
  | string s => rw [ofJson]; exact .string s
  | array items => rw [ofJson]; exact .array (holdsIn_ofJsonItems objects items)
  | object properties => rw [ofJson]; exact .object (holdsUnder_ofJsonProperties objects properties)

theorem holdsIn_ofJsonItems (objects : Objects) (items : List Json) :
    HoldsIn objects (ofJsonItems items) items := by
  cases items with
  | nil => exact .nil
  | cons j js => exact .cons (holds_ofJson objects j) (holdsIn_ofJsonItems objects js)

theorem holdsUnder_ofJsonProperties (objects : Objects) (properties : List (String × Json)) :
    HoldsUnder objects (ofJsonProperties properties) properties := by
  cases properties with
  | nil => exact .nil
  | cons e rest =>
      exact .cons (holds_ofJson objects e.2) (holdsUnder_ofJsonProperties objects rest)

end

theorem HoldsUnder.find? {objects : Objects} {own : List (String × Slot)} {properties : List (String × Json)}
    (h : HoldsUnder objects own properties) (name : String) :
    (Entries.find? name own = none ∧ Entries.find? name properties = none) ∨
      ∃ d j, Entries.find? name own = some (.ok d) ∧ Entries.find? name properties = some j ∧
        Holds objects d j := by
  induction properties generalizing own with
  | nil =>
      cases h
      exact .inl ⟨rfl, rfl⟩
  | cons e es ih =>
      obtain @⟨⟩ | @⟨_, key, d, j, own, _, h, hs⟩ := h
      rw [Entries.find?, Entries.find?]
      by_cases hkey : key = name
      · rw [if_pos hkey, if_pos hkey]
        exact .inr ⟨d, j, rfl, rfl, h⟩
      · rw [if_neg hkey, if_neg hkey]
        exact ih hs

theorem mem_of_mem_textEntries {entries : List (Datum × Datum)} {e : String × Datum}
    (h : e ∈ textEntries entries) : (.string e.1, e.2) ∈ entries := by
  obtain ⟨⟨key, d⟩, hin, hkey⟩ := List.mem_filterMap.1 (Entries.mem_ofList h)
  split at hkey <;> cases hkey
  rename_i hpair
  exact hpair ▸ hin

def IsPlainRecord (objects : Objects) : Datum → Prop
  | .object own inherited => inherited = [] ∧ ∃ text properties,
      Json.parse text = .ok (.object properties) ∧ HoldsUnder objects own properties
  | .keyed entries => ∀ e ∈ entries, ∃ key text j,
      e.1 = .string key ∧ Json.parse text = .ok j ∧ Holds objects e.2 j
  | _ => False

end Datum

namespace Input

variable {input : Input}

def IsPlainRecord (input : Input) : Prop :=
  match input.root with
  | .ref name => ∃ d, input.objects.find? name = some d ∧ d.IsPlainRecord (input.objects.erase name)
  | d => d.IsPlainRecord input.objects

theorem isPlainRecord_ofJson {text : String} {properties : List (String × Json)}
    (h : Json.parse text = .ok (.object properties)) : (ofJson (.object properties)).IsPlainRecord :=
  ⟨rfl, text, properties, h, Datum.holdsUnder_ofJsonProperties [] properties⟩

theorem lookup_object {own : List (String × Slot)} {properties : List (String × Json)}
    (hroot : input.root.resolve input.objects = .object own [])
    (h : Datum.HoldsUnder input.objects own properties) (name : String) :
    input.lookup name = .ok ((Entries.find? name properties).map Json.projected) := by
  -- a name of a function that records may offer is a name like any other here
  have hview : input.view? = .ok (some ⟨.fields, fun name => (Datum.object own []).fieldOf? name⟩) := by
    rw [view?, hroot]
    dsimp only [Datum.property?, Datum.ownProperty?, Datum.inheritedProperty?, Datum.properties]
    rcases h.find? "getField" with ⟨hnone, -⟩ | ⟨d, j, hsome, -, hd⟩
    · rw [hnone]
      rfl
    · rw [hsome]
      cases hd <;> rfl
  have hfield : (Datum.object own []).fieldOf? name =
      (Entries.find? name own).bind Except.toOption := by
    simp only [Datum.fieldOf?, Datum.ownProperty?, Datum.inheritedProperty?, Datum.properties]
    rcases Entries.find? name own with _ | _ | _ <;> simp [Entries.find?, Except.toOption]
  rw [lookup, hview]
  change Except.ok (((Datum.object own []).fieldOf? name).map _) = _
  rw [hfield]
  rcases h.find? name with ⟨hnone, hnone'⟩ | ⟨d, j, hsome, hsome', hd⟩
  · rw [hnone, hnone']
    rfl
  · rw [hsome, hsome', Option.map_some, ← hd.project_eq]
    rfl

theorem lookup_keyed {entries : List (Datum × Datum)}
    (hroot : input.root.resolve input.objects = .keyed entries) (name : String) : input.lookup name =
      .ok ((Entries.find? name (Datum.textEntries entries)).map (Datum.project input.objects)) := by
  rw [lookup, view?, hroot]
  rfl

theorem lookup_of_isPlainRecord {inside : Finset Nat} {d : Datum}
    (hroot : input.root.resolve input.objects = d) (h : d.IsPlainRecord (input.objects.without inside)) :
    ∃ entries, d.project (input.objects.without inside) = .map entries ∧ Entries.Distinct entries ∧
      ∀ name, input.lookup name = .ok (Entries.find? name entries) := by
  cases d with
  | object own inherited =>
      obtain ⟨rfl, text, properties, hparse, hunder⟩ := h
      have hkeys := (Json.isReadNode_object.1 (Json.everywhere_self (Json.everywhere_of_parse hparse))).1
      refine ⟨Entries.mapValues Json.projected properties, by rw [Datum.project, hunder.project_eq],
        Entries.distinct_mapValues _ hkeys, fun name => ?_⟩
      rw [lookup_object hroot hunder.of_without, Entries.find?_mapValues]
  | keyed entries =>
      refine ⟨Entries.mapValues (Datum.project input.objects) (Datum.textEntries entries), ?_,
        Entries.distinct_mapValues _ (Entries.distinct_ofList _), fun name => ?_⟩
      · rw [Datum.project, Datum.ofList_projectEntries]
        refine congrArg Value.map (Entries.mapValues_congr fun e he => ?_)
        obtain ⟨-, -, j, -, -, hj⟩ := h _ (Datum.mem_of_mem_textEntries he)
        rw [hj.project_eq, hj.of_without.project_eq]
      · rw [lookup_keyed hroot, Entries.find?_mapValues]
  | _ => exact h.elim

/-- A record of data as texts are read gives a value under a name just when its projection has the value
under the name, whatever the name is. -/
theorem lookup_iff_mem_toValue (h : input.IsPlainRecord) :
    ∃ entries, input.toValue = .map entries ∧ Entries.Distinct entries ∧
      ∀ name, input.lookup name = .ok (Entries.find? name entries) ∧
        ∀ v, input.lookup name = .ok (some v) ↔ (name, v) ∈ entries := by
  have hentries : ∃ entries, input.toValue = .map entries ∧ Entries.Distinct entries ∧
      ∀ name, input.lookup name = .ok (Entries.find? name entries) := by
    rw [toValue]
    rw [IsPlainRecord] at h
    split at h
    · next name hname =>
        obtain ⟨d, hfind, hd⟩ := h
        rw [Objects.erase_eq_without] at hd
        have hroot : input.root.resolve input.objects = d := by
          rw [hname, Datum.resolve, hfind, Option.getD_some]
        rw [hname, Datum.project_ref, hfind, Option.elim_some, Objects.erase_eq_without]
        exact lookup_of_isPlainRecord hroot hd
    · next hne =>
        have hroot : input.root.resolve input.objects = input.root := by
          rw [Datum.resolve.eq_def]
          split
          · next name hname => exact absurd hname (hne name)
          · rfl
        rw [← input.objects.without_empty] at h ⊢
        exact lookup_of_isPlainRecord hroot h
  obtain ⟨entries, hvalue, hdistinct, hlookup⟩ := hentries
  refine ⟨entries, hvalue, hdistinct, fun name => ⟨hlookup name, fun v => ?_⟩⟩
  rw [hlookup, ← Entries.find?_eq_some_iff hdistinct, Except.ok.injEq]

def inheritedNames : Json :=
  .object [("__proto__", .null), ("getField", .string "x"), ("toString", .boolean true)]

def shelf : Input where
  objects := [(0, .ofJson inheritedNames)]
  root := .keyed [(.string "first", .ref 0), (.string "__proto__", .ref 0)]

theorem lookup_iff_mem_toValue_inherited_names :
    (ofJson inheritedNames).IsPlainRecord ∧ shelf.IsPlainRecord ∧
    (ofJson inheritedNames).lookup "getField" = .ok (some (.string "x")) ∧
    (ofJson inheritedNames).lookup "valueOf" = .ok none ∧
    shelf.lookup "__proto__" = .ok (some inheritedNames.projected) := by
  have hparse : Json.parse inheritedNames.text = .ok inheritedNames :=
    Json.parse_eq_reread (by decide)
  have hnames : (ofJson inheritedNames).IsPlainRecord := isPlainRecord_ofJson hparse
  have hshelf : shelf.IsPlainRecord := by
    intro e he
    have hheld : Datum.Holds shelf.objects (.ref 0) inheritedNames := .ref rfl (Datum.holds_ofJson _ _)
    rcases List.mem_pair.1 he with rfl | rfl
    · exact ⟨_, _, _, rfl, hparse, hheld⟩
    · exact ⟨_, _, _, rfl, hparse, hheld⟩
  obtain ⟨entries, hvalue, -, hlookup⟩ := lookup_iff_mem_toValue hnames
  obtain ⟨held, hvalue', -, hfind⟩ := lookup_iff_mem_toValue hshelf
  obtain rfl : _ = entries := Value.map.inj ((Json.projected_object _).symm.trans hvalue)
  have hstring : Json.projected (.string "x") = .string "x" := by
    simp only [Json.projected, Datum.ofJson, Datum.project]
  have hshelfValue : shelf.toValue =
      .map [("first", inheritedNames.projected), ("__proto__", inheritedNames.projected)] := by
    simp [toValue, shelf, Datum.project, Datum.projectEntries, Datum.project_ref, Objects.find?,
      Objects.erase, Entries.ofList, Entries.insert, Json.projected]
  obtain rfl : _ = held := Value.map.inj (hshelfValue.symm.trans hvalue')
  refine ⟨hnames, hshelf, ((hlookup "getField").2 _).2 ?_, (hlookup "valueOf").1,
    ((hfind "__proto__").2 _).2 ?_⟩
  · simp [Entries.mapValues, hstring]
  · simp

end Input

end RecordSieve
