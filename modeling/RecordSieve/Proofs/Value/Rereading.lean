import RecordSieve.Proofs.Json.Text
import RecordSieve.Proofs.Value.Restating

namespace RecordSieve

def Binary64.isPrintedExactly (x : Binary64) : Bool :=
  (RecordSieve.integer? x.text).all (x.integer? == some ·)

theorem integer?_intText (n : Int) : integer? (intText n) = some n := by
  rw [← NumeralParts.text_natural_int, NumeralParts.integer?_natural, Binary64.signed_natAbs]

theorem Binary64.isFinite_of_integer? {x : Binary64} {n : Int} (h : x.integer? = some n) :
    x.isFinite = true := by
  obtain ⟨_, _, rfl, -⟩ := integer?_eq_some h
  rfl

namespace Number

theorem isFinite_ofInteger (n : Int) : (ofInteger n).isFinite = true := by
  rw [ofInteger]
  split
  · rename_i hsafe
    exact Binary64.isFinite_of_integer? (Binary64.integer?_ofInt hsafe)
  · rfl

theorem isFinite_reread {n : Number} (h : n.isFinite = true) : n.reread.isFinite = true := by
  cases n with
  | integer n => exact isFinite_ofInteger n
  | float x =>
      rw [reread]
      split
      · exact isFinite_ofInteger _
      · exact h

theorem numberText_ofInteger (n : Int) : Json.numberText (ofInteger n) = intText n := by
  rw [ofInteger]
  split
  · rename_i h
    exact Value.numberText_of_safeInteger? (Binary64.safeInteger?_ofInt h)
  · rfl

theorem numberText_reread {n : Number} (h : n.isFinite = true) :
    Json.numberText n.reread = Json.numberText n := by
  cases n with
  | integer n => exact numberText_ofInteger n
  | float x =>
      rw [reread]
      split
      · rename_i hn
        rw [numberText_ofInteger, Json.numberText, if_pos (show x.isFinite = true from h),
          NumeralParts.text_eq_of_integer? h hn]
      · rfl

def IsReread (m n : Number) : Prop := m.isFinite = true ∧ n = m.reread

def isPrintedExactly : Number → Bool
  | .integer _ => true
  | .float x => x.isPrintedExactly

def IsRereadExactly (m n : Number) : Prop := m.IsReread n ∧ m.isPrintedExactly = true

end Number

namespace Json

def isFiniteNode : Json → Bool
  | .number n => n.isFinite
  | _ => true

def isExactNode : Json → Bool
  | .number n => n.isFinite && n.isPrintedExactly
  | _ => true

theorem chars_number (n : Number) : (number n).chars = numberText n := by
  rw [chars]

theorem chars_reread (j : Json) : j.reread.chars = j.chars := by
  induction j using byParts with
  | null | boolean | string => simp only [reread]
  | number n =>
      rw [reread]
      split
      · rename_i h
        rw [chars_number, chars_number, Number.numberText_reread h]
      · rename_i h
        rw [chars_number, numberText_of_not_isFinite (Bool.not_eq_true _ ▸ h)]
        rfl
  | array items ih =>
      have hchars : (items.map reread).map chars = items.map chars := by
        rw [List.map_map]
        exact List.map_congr_left ih
      rw [reread_array, chars, chars, charsOfItems_eq_of_map hchars]
  | object properties ih =>
      have hchars : Entries.mapValues chars (Entries.mapValues reread properties) =
          Entries.mapValues chars properties := by
        rw [Entries.mapValues_mapValues]
        exact Entries.mapValues_congr ih
      rw [reread_object, chars, chars, charsOfProperties_eq_of_mapValues hchars]

theorem isRereadExactly_of_isExactNode {n : Number} (h : (Json.number n).isExactNode = true) :
    n.isFinite = true ∧ n.IsRereadExactly n.reread := by
  obtain ⟨hfinite, hexact⟩ := Bool.and_eq_true_iff.1 h
  exact ⟨hfinite, ⟨hfinite, rfl⟩, hexact⟩

theorem restatesIn_map {R : Number → Number → Prop} {f : Json → Json} {items : List Json}
    (h : ∀ j ∈ items, Restates R j (f j)) : RestatesIn R items (items.map f) := by
  induction items with
  | nil => exact .nil
  | cons j js ih =>
      obtain ⟨hj, hjs⟩ := List.forall_mem_cons.1 h
      exact .cons hj (ih hjs)

theorem restatesUnder_mapValues {R : Number → Number → Prop} {f : Json → Json}
    {properties : List (String × Json)} (h : ∀ e ∈ properties, Restates R e.2 (f e.2)) :
    RestatesUnder R properties (Entries.mapValues f properties) := by
  induction properties with
  | nil => exact .nil
  | cons e es ih =>
      obtain ⟨he, hes⟩ := List.forall_mem_cons.1 h
      exact .cons he (ih hes)

theorem restates_reread {R : Number → Number → Prop} {p : Json → Bool}
    (h : ∀ n, p (.number n) = true → n.isFinite = true ∧ R n n.reread) {j : Json}
    (hj : j.everywhere p = true) : Restates R j j.reread := by
  induction j using byParts with
  | null | boolean | string => exact .same _
  | number n =>
      obtain ⟨hfinite, hR⟩ := h n hj
      rw [reread, if_pos hfinite]
      exact .number hR
  | array items ih =>
      obtain ⟨-, hall⟩ := everywhere_array.1 hj
      rw [reread_array]
      exact .array (restatesIn_map fun j hin => ih j hin (hall j hin))
  | object properties ih =>
      obtain ⟨-, hall⟩ := everywhere_object.1 hj
      rw [reread_object]
      exact .object (restatesUnder_mapValues fun e hin => ih e hin (hall e hin))

end Json

namespace Value

theorem chars_ofJson_number (n : Number) :
    (ofJson (.number n)).toJson.chars = Json.numberText n := by
  cases n with
  | integer n => exact chars_integer n
  | float x =>
      rw [ofJson, ofBinary64]
      split
      · rename_i h
        rw [chars_integer, numberText_of_safeInteger? h]
      · rw [toJson, Json.chars]

theorem text_ofJson_number {n : Number} (h : n.isFinite = true) :
    (ofJson (.number n)).text = String.ofList (Json.numberText n) := by
  cases n with
  | integer n => rfl
  | float x =>
      rw [ofJson, (interchangeable_ofBinary64 x).text, Json.numberText,
        if_pos (show x.isFinite = true from h)]
      rfl

theorem text_ofJson_reread {j : Json} (h : j.Restates Number.IsReread j.reread) :
    (ofJson j.reread).text = (ofJson j).text := by
  refine (text_restated isReading_ofJson (fun h => ?_) (fun h => ?_) h).symm
  · obtain ⟨hfinite, rfl⟩ := h
    rw [chars_ofJson_number, chars_ofJson_number, Number.numberText_reread hfinite]
  · obtain ⟨hfinite, rfl⟩ := h
    rw [text_ofJson_number hfinite, text_ofJson_number (Number.isFinite_reread hfinite),
      Number.numberText_reread hfinite]

theorem interchangeable_reread_number {m n : Number} (h : m.IsRereadExactly n) :
    (ofJson (.number n)).Interchangeable (ofJson (.number m)) := by
  obtain ⟨⟨hfinite, rfl⟩, hexact⟩ := h
  cases m with
  | integer n =>
      rw [Number.reread, ofJson_ofInteger]
      exact .refl _
  | float x =>
      rw [Number.reread]
      split
      · rename_i n hn
        have hinteger : x.integer? = some n := by
          simpa [Number.isPrintedExactly, Binary64.isPrintedExactly, hn] using hexact
        have htext : (Value.integer n).text = (Value.float x).text :=
          congrArg String.ofList (NumeralParts.text_eq_of_integer? hfinite hn).symm
        rw [ofJson_ofInteger]
        exact (interchangeable_integer hinteger htext).trans (interchangeable_ofBinary64 x).symm
      · exact .refl _

theorem toNumber?_ofJson_reread {j : Json} (h : ∀ n, j ≠ .number n) :
    (ofJson j.reread).toNumber? = (ofJson j).toNumber? := by
  cases j with
  | number n => exact absurd rfl (h n)
  | null | boolean | string => simp only [Json.reread]
  | array items => rw [Json.reread_array, isReading_ofJson.array, isReading_ofJson.array]; rfl
  | object properties => rw [Json.reread_object, isReading_ofJson.object, isReading_ofJson.object]; rfl

theorem ofJson_eq_null_iff {j : Json} : ofJson j = .null ↔ j = .null := by
  cases j with
  | number n =>
      cases n with
      | integer => simp [ofJson]
      | float x => rw [ofJson, ofBinary64]; split <;> simp
  | _ => simp [ofJson]

theorem reread_eq_null_iff {j : Json} (h : j.isFiniteNode = true) : j.reread = .null ↔ j = .null := by
  cases j with
  | null | boolean | string => simp only [Json.reread]
  | number n => rw [Json.reread, if_pos (show n.isFinite = true from h)]; simp
  | array items => rw [Json.reread_array]; simp
  | object properties => rw [Json.reread_object]; simp

theorem place_reread {j : Json} (hj : j.isExactNode = true) (f : Value) :
    (toKindOf? f (ofJson j.reread)).bind Number.place? = (toKindOf? f (ofJson j)).bind Number.place? := by
  by_cases hnumber : ∃ n, j = .number n
  · obtain ⟨n, rfl⟩ := hnumber
    obtain ⟨hfinite, hexact⟩ := Json.isRereadExactly_of_isExactNode hj
    rw [Json.reread, if_pos hfinite]
    exact (interchangeable_reread_number hexact).place f
  · rw [toKindOf?_of_toNumber? (toNumber?_ofJson_reread fun n hn => hnumber ⟨n, hn⟩)]

theorem interchangeable_reread {j : Json} (hfinite : j.everywhere Json.isFiniteNode = true)
    (hexact : j.everywhere Json.isExactNode = true) : (ofJson j.reread).Interchangeable (ofJson j) where
  null := by
    rw [ofJson_eq_null_iff, ofJson_eq_null_iff, reread_eq_null_iff (Json.everywhere_self hfinite)]
  equals := by
    have hblind : Json.IsBlind Number.IsRereadExactly fun j => (ofJson j).equalsTo :=
      isBlind_equalsTo isReading_ofJson fun h => funext (interchangeable_reread_number h).symm.equals
    have hsame := Json.restates_reread (fun _ => Json.isRereadExactly_of_isExactNode) hexact
    exact congrFun (hsame.congr hblind).symm
  text := text_ofJson_reread (Json.restates_reread (fun _ h => ⟨h, h, rfl⟩) hfinite)
  place := place_reread (Json.everywhere_self hexact)

def rewritten (v : Value) : Value := ofJson v.toJson.reread

def isExactNode : Value → Bool
  | .float x => x.isFinite && x.isPrintedExactly
  | _ => true

theorem isFiniteNode_of_isExactNode {v : Value} (h : v.isExactNode = true) : v.isFiniteNode = true := by
  cases v with
  | float x => exact (Bool.and_eq_true_iff.1 h).1
  | _ => rfl

theorem isExactNode_ofInteger (n : Int) : (Json.number (.ofInteger n)).isExactNode = true := by
  rw [Number.ofInteger]
  split
  · rename_i h
    have hint := Binary64.integer?_ofInt h
    have htext := Binary64.text_eq_intText (Binary64.safeInteger?_ofInt h)
    simp [Json.isExactNode, Number.isFinite, Binary64.isFinite_of_integer? hint, Number.isPrintedExactly,
      Binary64.isPrintedExactly, htext, integer?_intText, hint]
  · rfl

theorem isExactNode_toJson {v : Value} (h : v.isExactNode = true) : v.toJson.isExactNode = true := by
  cases v with
  | integer n => rw [toJson]; exact isExactNode_ofInteger n
  | unsigned n => rw [toJson]; exact isExactNode_ofInteger n
  | float x => rw [toJson]; exact h
  | _ => rfl

theorem isFiniteNode_toJson {v : Value} (h : v.isFiniteNode = true) : v.toJson.isFiniteNode = true := by
  cases v with
  | integer n => rw [toJson]; exact Number.isFinite_ofInteger n
  | unsigned n => rw [toJson]; exact Number.isFinite_ofInteger n
  | float x => rw [toJson]; exact h
  | _ => rfl

theorem hasOrderedKeys_toJson {v : Value} (h : v.hasDistinctKeys = true) :
    v.toJson.hasOrderedKeys = true := by
  cases v with
  | map entries =>
      have hd : Entries.Distinct entries := of_decide_eq_true h
      have hdistinct := Entries.distinct_mapValues toJson (Entries.distinct_inPropertyOrder hd)
      have hordered := Entries.inOrder_mapValues toJson (Entries.inOrder_inPropertyOrder hd)
      rw [toJson_map, Json.hasOrderedKeys, decide_eq_true hdistinct, decide_eq_true hordered,
        Bool.and_self]
  | _ => rfl

section Rewritten

variable {v : Value} (hd : v.everywhere hasDistinctKeys = true)

include hd

theorem interchangeable_rewritten (he : v.everywhere isExactNode = true) :
    v.rewritten.Interchangeable v := by
  have hfinite : v.everywhere isFiniteNode = true := everywhere_imp isFiniteNode_of_isExactNode he
  exact (interchangeable_reread (everywhere_toJson (fun _ => isFiniteNode_toJson) hd hfinite)
    (everywhere_toJson (fun _ => isExactNode_toJson) hd he)).trans (interchangeable_recoded hd)

theorem text_rewritten (hf : v.everywhere isFiniteNode = true) : v.rewritten.text = v.text := by
  have hfinite := everywhere_toJson (fun _ => isFiniteNode_toJson) hd hf
  exact (text_ofJson_reread (Json.restates_reread (fun _ h => ⟨h, h, rfl⟩) hfinite)).trans
    (text_recoded v hd)

theorem place_rewritten (he : v.isExactNode = true) (f : Value) :
    (toKindOf? f v.rewritten).bind Number.place? = (toKindOf? f v).bind Number.place? :=
  (place_reread (isExactNode_toJson he) f).trans ((interchangeable_recoded hd).place f)

end Rewritten

end Value

end RecordSieve
