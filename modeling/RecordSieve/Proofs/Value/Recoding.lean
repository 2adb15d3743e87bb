import RecordSieve.Proofs.Json.Parts
import RecordSieve.Proofs.Value.Operand

namespace RecordSieve

namespace Value

@[elab_as_elim]
theorem byParts {motive : Value → Prop} (integer : ∀ n, motive (.integer n))
    (unsigned : ∀ n, motive (.unsigned n)) (float : ∀ x, motive (.float x))
    (string : ∀ s, motive (.string s)) (boolean : ∀ b, motive (.boolean b)) (null : motive .null)
    (list : ∀ items, (∀ v ∈ items, motive v) → motive (.list items))
    (map : ∀ entries, (∀ e ∈ entries, motive e.2) → motive (.map entries)) (v : Value) : motive v :=
  match v with
  | .integer n => integer n
  | .unsigned n => unsigned n
  | .float x => float x
  | .string s => string s
  | .boolean b => boolean b
  | .null => null
  | .list items =>
      list items fun v _ => byParts integer unsigned float string boolean null list map v
  | .map entries =>
      map entries fun e _ => byParts integer unsigned float string boolean null list map e.2
  termination_by sizeOf v
  decreasing_by
    · have := List.sizeOf_lt_of_mem ‹v ∈ items›
      simp only [Value.list.sizeOf_spec]
      omega
    · have := List.sizeOf_lt_of_mem ‹e ∈ entries›
      obtain ⟨k, v⟩ := e
      simp only [Value.map.sizeOf_spec, Prod.mk.sizeOf_spec] at *
      omega

mutual

def everywhere (p : Value → Bool) : Value → Bool
  | .list items => p (.list items) && everywhereIn p items
  | .map entries => p (.map entries) && everywhereUnder p entries
  | v => p v

def everywhereIn (p : Value → Bool) : List Value → Bool
  | [] => true
  | v :: vs => everywhere p v && everywhereIn p vs

def everywhereUnder (p : Value → Bool) : List (String × Value) → Bool
  | [] => true
  | (_, v) :: rest => everywhere p v && everywhereUnder p rest

end

theorem everywhere_list {p : Value → Bool} {items : List Value} :
    everywhere p (.list items) = true ↔
      p (.list items) = true ∧ ∀ v ∈ items, everywhere p v = true := by
  have hin : everywhereIn p items = true ↔ ∀ v ∈ items, everywhere p v = true := by
    induction items with
    | nil => simp [everywhereIn]
    | cons v vs ih => simp [everywhereIn, ih]
  rw [everywhere, Bool.and_eq_true, hin]

theorem everywhere_map {p : Value → Bool} {entries : List (String × Value)} :
    everywhere p (.map entries) = true ↔
      p (.map entries) = true ∧ ∀ e ∈ entries, everywhere p e.2 = true := by
  have hin : everywhereUnder p entries = true ↔ ∀ e ∈ entries, everywhere p e.2 = true := by
    induction entries with
    | nil => simp [everywhereUnder]
    | cons e es ih => simp [everywhereUnder, ih]
  rw [everywhere, Bool.and_eq_true, hin]

theorem everywhere_self {p : Value → Bool} {v : Value} (h : v.everywhere p = true) : p v = true := by
  cases v with
  | list items => exact (everywhere_list.1 h).1
  | map entries => exact (everywhere_map.1 h).1
  | _ => exact h

theorem everywhere_imp {p p' : Value → Bool} (himp : ∀ {v}, p v = true → p' v = true) {v : Value}
    (h : v.everywhere p = true) : v.everywhere p' = true := by
  induction v using byParts with
  | list items ih =>
      obtain ⟨hp, hall⟩ := everywhere_list.1 h
      exact everywhere_list.2 ⟨himp hp, fun v hin => ih v hin (hall v hin)⟩
  | map entries ih =>
      obtain ⟨hp, hall⟩ := everywhere_map.1 h
      exact everywhere_map.2 ⟨himp hp, fun e hin => ih e hin (hall e hin)⟩
  | _ => exact himp h

theorem everywhere_and {p p' : Value → Bool} {v : Value} (h : v.everywhere p = true)
    (h' : v.everywhere p' = true) : v.everywhere (fun v => p v && p' v) = true := by
  induction v using byParts with
  | list items ih =>
      obtain ⟨hp, hall⟩ := everywhere_list.1 h
      obtain ⟨hp', hall'⟩ := everywhere_list.1 h'
      exact everywhere_list.2 ⟨by rw [hp, hp', Bool.and_self],
        fun v hin => ih v hin (hall v hin) (hall' v hin)⟩
  | map entries ih =>
      obtain ⟨hp, hall⟩ := everywhere_map.1 h
      obtain ⟨hp', hall'⟩ := everywhere_map.1 h'
      exact everywhere_map.2 ⟨by rw [hp, hp', Bool.and_self],
        fun e hin => ih e hin (hall e hin) (hall' e hin)⟩
  | _ => exact Bool.and_eq_true_iff.2 ⟨h, h'⟩

def isFiniteNode : Value → Bool
  | .float x => x.isFinite
  | _ => true

def hasDistinctKeys : Value → Bool
  | .map entries => decide (Entries.Distinct entries)
  | _ => true

theorem toJsonItems_eq_map (items : List Value) : toJsonItems items = items.map toJson := by
  induction items with
  | nil => rfl
  | cons v vs ih => rw [toJsonItems, ih, List.map_cons]

theorem toJsonEntries_eq (entries : List (String × Value)) :
    toJsonEntries entries = Entries.mapValues toJson entries := by
  induction entries with
  | nil => rfl
  | cons e es ih => rw [toJsonEntries, ih]; rfl

theorem ofJsonItems_eq_map (items : List Json) : ofJsonItems items = items.map ofJson := by
  induction items with
  | nil => rfl
  | cons j js ih => rw [ofJsonItems, ih, List.map_cons]

theorem ofJsonProperties_eq (properties : List (String × Json)) :
    ofJsonProperties properties = Entries.mapValues ofJson properties := by
  induction properties with
  | nil => rfl
  | cons e es ih => rw [ofJsonProperties, ih]; rfl

theorem toJson_map (entries : List (String × Value)) :
    toJson (.map entries) =
      .object (Entries.mapValues toJson (Entries.inPropertyOrder entries)) := by
  rw [toJson, toJsonEntries_eq, Entries.inPropertyOrder_mapValues]

theorem toJson_list (items : List Value) : toJson (.list items) = .array (items.map toJson) := by
  rw [toJson, toJsonItems_eq_map]

theorem everywhere_toJson {p : Value → Bool} {p' : Json → Bool}
    (h : ∀ v, p v = true → p' v.toJson = true) {v : Value} (hd : v.everywhere hasDistinctKeys = true)
    (hp : v.everywhere p = true) : v.toJson.everywhere p' = true := by
  induction v using byParts with
  | list items ih =>
      obtain ⟨-, hd⟩ := everywhere_list.1 hd
      obtain ⟨hlist, hp⟩ := everywhere_list.1 hp
      have hself := h _ hlist
      rw [toJson_list] at hself ⊢
      refine Json.everywhere_array.2 ⟨hself, fun j hj => ?_⟩
      obtain ⟨v, hin, rfl⟩ := List.mem_map.1 hj
      exact ih v hin (hd v hin) (hp v hin)
  | map entries ih =>
      obtain ⟨hdistinct, hd⟩ := everywhere_map.1 hd
      obtain ⟨hmap, hp⟩ := everywhere_map.1 hp
      have hself := h _ hmap
      rw [toJson_map] at hself ⊢
      refine Json.everywhere_object.2 ⟨hself, fun e he => ?_⟩
      obtain ⟨e', hin, rfl⟩ := List.mem_map.1 he
      have hmem := (Entries.perm_inPropertyOrder (of_decide_eq_true hdistinct)).mem_iff.1 hin
      exact ih e' hmem (hd e' hmem) (hp e' hmem)
  | _ =>
      have hself := h _ hp
      rw [toJson] at hself ⊢
      exact hself

def recoded (v : Value) : Value := ofJson v.toJson

theorem recoded_list (items : List Value) : recoded (.list items) = .list (items.map recoded) := by
  rw [recoded, toJson_list, ofJson, ofJsonItems_eq_map, List.map_map]
  rfl

theorem recoded_map (entries : List (String × Value)) :
    recoded (.map entries) =
      .map (Entries.mapValues recoded (Entries.inPropertyOrder entries)) := by
  rw [recoded, toJson_map, ofJson, ofJsonProperties_eq, Entries.mapValues_mapValues]
  rfl

theorem ofJson_ofInteger (n : Int) : ofJson (.number (.ofInteger n)) = .integer n := by
  rw [Number.ofInteger]
  split
  · rename_i h
    rw [ofJson, ofBinary64, Binary64.safeInteger?_ofInt h]
  · rw [ofJson]

theorem recoded_integer (n : Int) : recoded (.integer n) = .integer n := ofJson_ofInteger n

theorem recoded_unsigned (n : Nat) : recoded (.unsigned n) = .integer n := ofJson_ofInteger n

theorem recoded_float (x : Binary64) : recoded (.float x) = .ofBinary64 x := rfl

def equalsTo (v f : Value) : Bool := f.equals v

theorem equalsItems_congr {bs cs : List Value} (h : bs.map equalsTo = cs.map equalsTo)
    (as : List Value) : equalsItems as bs = equalsItems as cs := by
  induction bs generalizing cs as with
  | nil => rw [List.map_eq_nil_iff.1 h.symm]
  | cons b bs ih =>
      cases cs with
      | nil => simp at h
      | cons c cs =>
          obtain ⟨hb, hbs⟩ := List.cons_eq_cons.1 h
          cases as with
          | nil => rfl
          | cons a as =>
              have hequals : a.equals b = a.equals c := congrFun hb a
              rw [equalsItems, equalsItems, hequals, ih hbs]

theorem equalsEntries_cons (k : String) (a : Value) (as bs : List (String × Value)) :
    equalsEntries ((k, a) :: as) bs = ((Entries.find? k bs).any a.equals && equalsEntries as bs) := by
  rw [equalsEntries]
  cases Entries.find? k bs <;> rfl

theorem equalsEntries_congr {bs cs : List (String × Value)}
    (h : ∀ key, (Entries.find? key bs).map equalsTo = (Entries.find? key cs).map equalsTo)
    (as : List (String × Value)) : equalsEntries as bs = equalsEntries as cs := by
  induction as with
  | nil => simp only [equalsEntries]
  | cons e as ih =>
      obtain ⟨k, a⟩ := e
      have hany : ∀ o : Option Value, o.any a.equals = (o.map equalsTo).any (· a) := fun o => by
        cases o <;> rfl
      rw [equalsEntries_cons, equalsEntries_cons, ih, hany, hany, h]

theorem equalsTo_list {bs cs : List Value} (h : bs.map equalsTo = cs.map equalsTo) :
    equalsTo (.list bs) = equalsTo (.list cs) := by
  funext f
  cases f with
  | list as => rw [equalsTo, equalsTo, equals, equals, equalsItems_congr h]
  | _ => simp only [equalsTo, equals, number?]

theorem equalsTo_map {bs cs : List (String × Value)} (hlength : bs.length = cs.length)
    (h : ∀ key, (Entries.find? key bs).map equalsTo = (Entries.find? key cs).map equalsTo) :
    equalsTo (.map bs) = equalsTo (.map cs) := by
  funext f
  cases f with
  | map as => rw [equalsTo, equalsTo, equals, equals, hlength, equalsEntries_congr h]
  | _ => simp only [equalsTo, equals, number?]

theorem length_recoded {entries : List (String × Value)} (hd : Entries.Distinct entries) :
    (Entries.mapValues recoded (Entries.inPropertyOrder entries)).length = entries.length := by
  rw [Entries.mapValues, List.length_map, (Entries.perm_inPropertyOrder hd).length_eq]

theorem find?_recoded {entries : List (String × Value)} (hd : Entries.Distinct entries) (key : String) :
    Entries.find? key (Entries.mapValues recoded (Entries.inPropertyOrder entries)) =
      (Entries.find? key entries).map recoded := by
  rw [Entries.find?_mapValues, Entries.find?_inPropertyOrder hd]

theorem equalsTo_recoded (v : Value) (hv : v.everywhere hasDistinctKeys = true) :
    v.recoded.equalsTo = v.equalsTo := by
  induction v using byParts with
  | integer n => rw [recoded_integer]
  | unsigned n => rw [recoded_unsigned]; exact funext (interchangeable_unsigned n).equals
  | float x => rw [recoded_float]; exact funext (interchangeable_ofBinary64 x).equals
  | string | boolean | null => rfl
  | list items ih =>
      obtain ⟨-, hall⟩ := everywhere_list.1 hv
      rw [recoded_list]
      refine equalsTo_list ?_
      rw [List.map_map]
      exact List.map_congr_left fun v hin => ih v hin (hall v hin)
  | map entries ih =>
      obtain ⟨hd, hall⟩ := everywhere_map.1 hv
      have hdistinct : Entries.Distinct entries := of_decide_eq_true hd
      rw [recoded_map]
      refine equalsTo_map (length_recoded hdistinct) fun key => ?_
      rw [find?_recoded hdistinct, Option.map_map]
      refine Option.map_congr fun v hv => ?_
      have hin := Entries.mem_of_find? hv
      exact ih _ hin (hall _ hin)

theorem numberText_of_safeInteger? {x : Binary64} {n : Int} (h : x.safeInteger? = some n) :
    Json.numberText (.float x) = intText n := by
  obtain ⟨negative, m, rfl, -, -⟩ := Binary64.integer?_eq_some (Binary64.safeInteger?_eq_some.1 h).1
  rw [Json.numberText, Binary64.isFinite, if_pos rfl, Binary64.text_eq_intText h]

theorem chars_integer (n : Int) : (Value.integer n).toJson.chars = intText n := by
  rw [toJson, Json.chars, Number.ofInteger]
  split
  · rename_i h
    exact numberText_of_safeInteger? (Binary64.safeInteger?_ofInt h)
  · rfl

theorem toJson_recoded_map {entries : List (String × Value)} (hd : Entries.Distinct entries) :
    (recoded (.map entries)).toJson =
      .object (Entries.mapValues (toJson ∘ recoded) (Entries.inPropertyOrder entries)) := by
  have hordered := Entries.inPropertyOrder_of_inOrder (Entries.distinct_inPropertyOrder hd)
    (Entries.inOrder_inPropertyOrder hd)
  rw [recoded_map, toJson_map, Entries.inPropertyOrder_mapValues, hordered,
    Entries.mapValues_mapValues]

theorem chars_recoded (v : Value) (hv : v.everywhere hasDistinctKeys = true) :
    v.recoded.toJson.chars = v.toJson.chars := by
  induction v using byParts with
  | integer n => rw [recoded_integer]
  | unsigned n => rw [recoded_unsigned]; rfl
  | float x =>
      rw [recoded_float]
      cases h : x.safeInteger? with
      | none => rw [ofBinary64, h]
      | some n =>
          rw [ofBinary64, h, chars_integer, toJson, Json.chars]
          exact (numberText_of_safeInteger? h).symm
  | string | boolean | null => rfl
  | list items ih =>
      obtain ⟨-, hall⟩ := everywhere_list.1 hv
      have hchars : ((items.map recoded).map toJson).map Json.chars = (items.map toJson).map Json.chars := by
        rw [List.map_map, List.map_map, List.map_map]
        exact List.map_congr_left fun v hin => ih v hin (hall v hin)
      rw [recoded_list, toJson_list, toJson_list, Json.chars, Json.chars,
        Json.charsOfItems_eq_of_map hchars]
  | map entries ih =>
      obtain ⟨hd, hall⟩ := everywhere_map.1 hv
      have hdistinct : Entries.Distinct entries := of_decide_eq_true hd
      rw [toJson_recoded_map hdistinct, toJson_map, Json.chars, Json.chars,
        Json.charsOfProperties_eq_of_mapValues]
      rw [Entries.mapValues_mapValues, Entries.mapValues_mapValues]
      refine Entries.mapValues_congr fun e he => ?_
      have hin := (Entries.perm_inPropertyOrder hdistinct).mem_iff.1 he
      exact ih e hin (hall e hin)

theorem text_recoded (v : Value) (hv : v.everywhere hasDistinctKeys = true) : v.recoded.text = v.text := by
  cases v with
  | integer n => rw [recoded_integer]
  | unsigned n => rw [recoded_unsigned]; rfl
  | float x => rw [recoded_float, (interchangeable_ofBinary64 x).text]
  | string | boolean | null => rfl
  | list items =>
      have h := chars_recoded _ hv
      rw [recoded_list] at h ⊢
      rw [text, text, Json.text, Json.text, h] <;> simp
  | map entries =>
      have h := chars_recoded _ hv
      rw [recoded_map] at h ⊢
      rw [text, text, Json.text, Json.text, h] <;> simp

theorem toNumber?_recoded {v : Value} (hv : v.number? = none) :
    v.recoded.toNumber? = v.toNumber? := by
  cases v with
  | integer | unsigned | float => simp [number?] at hv
  | string | boolean | null => rfl
  | list => rw [recoded_list]; rfl
  | map => rw [recoded_map]; rfl

theorem interchangeable_recoded {v : Value} (hv : v.everywhere hasDistinctKeys = true) :
    v.recoded.Interchangeable v where
  null := by
    cases v with
    | integer n => simp [recoded_integer]
    | unsigned n => simp [recoded_unsigned]
    | float x => rw [recoded_float]; exact (interchangeable_ofBinary64 x).null
    | string | boolean | null => exact Iff.rfl
    | list items => simp [recoded_list]
    | map entries => simp [recoded_map]
  equals := congrFun (equalsTo_recoded v hv)
  text := text_recoded v hv
  place f := by
    cases v with
    | integer n => rw [recoded_integer]
    | unsigned n => rw [recoded_unsigned, (interchangeable_unsigned n).place]
    | float x => rw [recoded_float, (interchangeable_ofBinary64 x).place]
    | _ => rw [toKindOf?_of_toNumber? (toNumber?_recoded rfl)]

def isCanonicalNode : Value → Bool
  | .unsigned _ => false
  | .float x => x.safeInteger?.isNone
  | .map entries => decide (Entries.InOrder entries)
  | _ => true

theorem recoded_eq_self {v : Value} (hv : v.everywhere hasDistinctKeys = true)
    (hc : v.everywhere isCanonicalNode = true) : v.recoded = v := by
  induction v using byParts with
  | integer n => exact recoded_integer n
  | unsigned n => simp [everywhere, isCanonicalNode] at hc
  | float x =>
      have hnone : x.safeInteger? = none := by simpa [everywhere, isCanonicalNode] using hc
      rw [recoded_float, ofBinary64, hnone]
  | string | boolean | null => rfl
  | list items ih =>
      obtain ⟨-, hv⟩ := everywhere_list.1 hv
      obtain ⟨-, hc⟩ := everywhere_list.1 hc
      rw [recoded_list, List.map_congr_left fun v hin => ih v hin (hv v hin) (hc v hin), List.map_id']
  | map entries ih =>
      obtain ⟨hd, hv⟩ := everywhere_map.1 hv
      obtain ⟨ho, hc⟩ := everywhere_map.1 hc
      have hordered := Entries.inPropertyOrder_of_inOrder (of_decide_eq_true hd) (of_decide_eq_true ho)
      rw [recoded_map, hordered, Entries.mapValues_eq_self fun e hin => ih e hin (hv e hin) (hc e hin)]

end Value

end RecordSieve
