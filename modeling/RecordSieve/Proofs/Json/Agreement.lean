import RecordSieve.Proofs.Json.Spelling
import RecordSieve.Proofs.Number.NumeralText

namespace RecordSieve.Json

namespace Source

inductive Holds : List String → Source → List Char → Prop
  | numeral {cs : List Char} : Holds [] (.numeral cs) cs
  | item {i : Nat} {s : Source} {ss : List Source} {path : List String} {cs : List Char} :
      ss[i]? = some s → Holds path s cs → Holds (Nat.repr i :: path) (.array ss) cs
  | member {key : String} {s : Source} {ms : List (String × Source)} {path : List String} {cs : List Char} :
      (key, s) ∈ ms → Holds path s cs → Holds (key :: path) (.object ms) cs

end Source

def Holds (path : List String) (j : Json) (cs : List Char) : Prop := j.source.Holds path cs

variable {path : List String} {cs : List Char}

theorem holds_number {n : Number} : Holds path (.number n) cs ↔
    path = [] ∧ n.isFinite = true ∧ cs = numberText n := by
  rw [Holds, source]
  constructor
  · intro h
    split at h <;> cases h
    exact ⟨rfl, ‹_›, rfl⟩
  · rintro ⟨rfl, hn, rfl⟩
    rw [if_pos hn]
    exact .numeral

theorem holds_array {items : List Json} : Holds path (.array items) cs ↔
    ∃ i j rest, items[i]? = some j ∧ path = Nat.repr i :: rest ∧ Holds rest j cs := by
  rw [Holds, source_array]
  constructor
  · rintro (_ | ⟨hs, h⟩)
    rw [List.getElem?_map] at hs
    obtain ⟨j, hj, rfl⟩ := Option.map_eq_some_iff.1 hs
    exact ⟨_, j, _, hj, rfl, h⟩
  · rintro ⟨i, j, rest, hj, rfl, h⟩
    exact .item (by rw [List.getElem?_map, hj]; rfl) h

theorem holds_object {properties : List (String × Json)} : Holds path (.object properties) cs ↔
    ∃ key j rest, (key, j) ∈ properties ∧ path = key :: rest ∧ Holds rest j cs := by
  rw [Holds, source_object]
  constructor
  · rintro (_ | _ | ⟨hs, h⟩)
    obtain ⟨e, he, heq⟩ := List.mem_map.1 hs
    cases heq
    exact ⟨_, _, _, he, rfl, h⟩
  · rintro ⟨key, j, rest, hj, rfl, h⟩
    exact .member (List.mem_map.2 ⟨_, hj, rfl⟩) h

theorem text_eq_of_place? {x y : Binary64} (h : x.place? = y.place?) (hsome : x.place?.isSome = true) :
    x.isFinite = y.isFinite ∧ x.text = y.text := by
  cases x with
  | nan => cases hsome
  | infinite negative =>
      cases y with
      | nan => cases h
      | infinite negative' => cases negative <;> cases negative' <;> simp [Binary64.place?] at h ⊢
      | finite => cases negative <;> simp [Binary64.place?] at h
  | finite negative m =>
      cases y with
      | nan => cases h
      | infinite negative' => cases negative' <;> simp [Binary64.place?] at h
      | finite negative' m' =>
          have hsigned : Binary64.signed negative m.units = Binary64.signed negative' m'.units := by
            simpa [Binary64.place?] using h
          have hunits : m.units = m'.units := by
            simpa [Binary64.natAbs_signed] using congrArg Int.natAbs hsigned
          obtain rfl := Magnitude.units_injective hunits
          refine ⟨rfl, ?_⟩
          rcases Nat.eq_zero_or_pos m.units with hzero | hpos
          · rw [Binary64.text, Binary64.text, if_pos hzero, if_pos hzero]
          · have hnegative : decide (Binary64.signed negative m.units < 0) = negative :=
              decide_signed_neg fun _ => hpos
            rw [hsigned, decide_signed_neg fun _ => hpos] at hnegative
            rw [hnegative]

theorem eq_repr_of_index? {key : String} {i : Nat} (h : Entries.index? key = some i) : key = Nat.repr i := by
  rw [Entries.index?] at h
  split at h
  · rename_i hkey
    cases h
    exact ((congrArg String.ofList hkey.2.1).trans String.ofList_toList).symm
  · cases h

theorem repr_injective {i k : Nat} (h : Nat.repr i = Nat.repr k) : i = k := by
  have hvalue (n : Nat) : digitsValue (Nat.repr n).toList = n :=
    (congrArg digitsValue String.toList_ofList).trans (digitsValue_digitsOf n)
  rw [← hvalue i, h, hvalue]

theorem numberText_eq_of_agrees {m n : Number} (h : agrees (.number m) (.number n) = true) :
    m.isFinite = n.isFinite ∧ numberText m = numberText n := by
  cases m <;> cases n <;> simp only [agrees, Bool.and_eq_true, beq_iff_eq, Bool.false_eq_true] at h
  · exact ⟨rfl, congrArg intText h⟩
  · obtain ⟨hfinite, htext⟩ := text_eq_of_place? h.1 h.2
    exact ⟨hfinite, by rw [numberText, numberText, hfinite, htext]⟩

theorem agreesItems_getElem? {xs ys : List Json} (h : agreesItems xs ys = true) {i : Nat} {y : Json}
    (hy : ys[i]? = some y) : ∃ x, xs[i]? = some x ∧ agrees x y = true := by
  induction xs generalizing ys i with
  | nil => cases ys <;> simp [agreesItems] at h hy
  | cons x xs ih =>
      cases ys with
      | nil => simp at hy
      | cons y' ys =>
          rw [agreesItems, Bool.and_eq_true] at h
          cases i with
          | zero =>
              cases hy
              exact ⟨x, rfl, h.1⟩
          | succ i => exact ih h.2 hy

theorem agreesIndexed_getElem? {start : Nat} {xs : List Json} {qs : List (String × Json)}
    (h : agreesIndexed start xs qs = true) {i : Nat} {x : Json} (hx : xs[i]? = some x) :
    ∃ y, Entries.find? (Nat.repr (start + i)) qs = some y ∧ agrees x y = true := by
  induction xs generalizing start i with
  | nil => simp at hx
  | cons x' xs ih =>
      rw [agreesIndexed, Bool.and_eq_true] at h
      cases i with
      | zero =>
          cases hx
          have hfirst := h.1
          split at hfirst
          · exact ⟨_, ‹_›, hfirst⟩
          · cases hfirst
      | succ i =>
          rw [Nat.add_comm i, ← Nat.add_assoc]
          exact ih h.2 hx

theorem agreesByIndex_mem {ps : List (String × Json)} {ys : List Json} (h : agreesByIndex ps ys = true)
    {e : String × Json} (he : e ∈ ps) :
    ∃ i y, e.1 = Nat.repr i ∧ ys[i]? = some y ∧ agrees e.2 y = true := by
  induction ps with
  | nil => cases he
  | cons p ps ih =>
      rw [agreesByIndex, Bool.and_eq_true] at h
      rcases List.mem_cons.1 he with rfl | he
      · have hfirst := h.1
        split at hfirst
        · rename_i y hy
          obtain ⟨i, hi, hy⟩ := Option.bind_eq_some_iff.1 hy
          exact ⟨i, y, eq_repr_of_index? hi, hy, hfirst⟩
        · cases hfirst
      · exact ih h.2 he

theorem agreesMembers_mem {ps qs : List (String × Json)} (h : agreesMembers ps qs = true)
    {e : String × Json} (he : e ∈ ps) :
    ∃ y, Entries.find? e.1 qs = some y ∧ agrees e.2 y = true := by
  induction ps with
  | nil => cases he
  | cons p ps ih =>
      rw [agreesMembers, Bool.and_eq_true] at h
      rcases List.mem_cons.1 he with rfl | he
      · have hfirst := h.1
        split at hfirst
        · exact ⟨_, ‹_›, hfirst⟩
        · cases hfirst
      · exact ih h.2 he

theorem agreesByIndex_getElem? {ps : List (String × Json)} {ys : List Json} (hd : Entries.Distinct ps)
    (h : agreesByIndex ps ys = true) (hlength : ps.length = ys.length) {i : Nat} {y : Json}
    (hy : ys[i]? = some y) : ∃ x, (Nat.repr i, x) ∈ ps ∧ agrees x y = true := by
  have hsub : ps.map Prod.fst ⊆ (List.range ys.length).map Nat.repr := by
    intro key hkey
    obtain ⟨e, he, rfl⟩ := List.mem_map.1 hkey
    obtain ⟨i, y, hrepr, hy, -⟩ := agreesByIndex_mem h he
    exact List.mem_map.2 ⟨i, List.mem_range.2 (List.getElem?_eq_some_iff.1 hy).1, hrepr.symm⟩
  have hrange := List.mem_range.2 (List.getElem?_eq_some_iff.1 hy).1
  obtain ⟨⟨key, x⟩, he, rfl⟩ := List.mem_map.1
    (Entries.subset_of_length hd hsub (by simp [hlength]) (List.mem_map_of_mem hrange))
  obtain ⟨i', y', hrepr, hy', hagree⟩ := agreesByIndex_mem h he
  obtain rfl := repr_injective hrepr
  rw [hy] at hy'
  cases hy'
  exact ⟨x, he, hagree⟩

theorem agreesMembers_find? {ps qs : List (String × Json)} (hd : Entries.Distinct ps)
    (h : agreesMembers ps qs = true) (hlength : ps.length = qs.length) {key : String} {y : Json}
    (hy : Entries.find? key qs = some y) : ∃ x, (key, x) ∈ ps ∧ agrees x y = true := by
  have hsub : ps.map Prod.fst ⊆ qs.map Prod.fst := by
    intro key hkey
    obtain ⟨e, he, rfl⟩ := List.mem_map.1 hkey
    obtain ⟨y, hy, -⟩ := agreesMembers_mem h he
    exact List.mem_map.2 ⟨_, Entries.mem_of_find? hy, rfl⟩
  have hkey : key ∈ qs.map Prod.fst := List.mem_map.2 ⟨_, Entries.mem_of_find? hy, rfl⟩
  obtain ⟨⟨key, x⟩, he, rfl⟩ := List.mem_map.1 (Entries.subset_of_length hd hsub (by simp [hlength]) hkey)
  obtain ⟨y', hy', hagree⟩ := agreesMembers_mem h he
  rw [hy] at hy'
  cases hy'
  exact ⟨x, he, hagree⟩

theorem isReadNode_item {items : List Json} (h : (Json.array items).everywhere isReadNode = true) {i : Nat}
    {j : Json} (hj : items[i]? = some j) : j.everywhere isReadNode = true :=
  (everywhere_array.1 h).2 j (List.mem_of_getElem? hj)

theorem holds_of_agrees {new old : Json} (h : agrees new old = true) (hnew : new.everywhere isReadNode = true)
    (hold : old.everywhere isReadNode = true) (hcs : old.Holds path cs) : new.Holds path cs := by
  induction path generalizing new old with
  | nil =>
      cases old with
      | number n =>
          obtain ⟨-, hfinite, rfl⟩ := holds_number.1 hcs
          cases new with
          | number m =>
              obtain ⟨hm, htext⟩ := numberText_eq_of_agrees h
              exact holds_number.2 ⟨rfl, hm.trans hfinite, htext.symm⟩
          | _ => simp [agrees] at h
      | array => simp [holds_array] at hcs
      | object => simp [holds_object] at hcs
      | _ => cases hcs
  | cons key path ih =>
      cases old with
      | array ys =>
          obtain ⟨i, y, _, hy, heq, hpart⟩ := holds_array.1 hcs
          cases heq
          cases new with
          | array xs =>
              rw [agrees] at h
              obtain ⟨x, hx, hagree⟩ := agreesItems_getElem? h hy
              exact holds_array.2 ⟨i, x, path, hx, rfl,
                ih hagree (isReadNode_item hnew hx) (isReadNode_item hold hy) hpart⟩
          | object ps =>
              rw [agrees, Bool.and_eq_true, beq_iff_eq] at h
              obtain ⟨hkeys, hall⟩ := everywhere_object.1 hnew
              obtain ⟨x, hx, hagree⟩ := agreesByIndex_getElem? (isReadNode_object.1 hkeys).1 h.1 h.2 hy
              exact holds_object.2 ⟨_, x, path, hx, rfl,
                ih hagree (hall _ hx) (isReadNode_item hold hy) hpart⟩
          | _ => simp [agrees] at h
      | object qs =>
          obtain ⟨_, y, _, hy, heq, hpart⟩ := holds_object.1 hcs
          cases heq
          obtain ⟨hqs, hold⟩ := everywhere_object.1 hold
          have hfind := (Entries.find?_eq_some_iff (isReadNode_object.1 hqs).1).2 hy
          cases new with
          | array xs =>
              rw [agrees, Bool.and_eq_true] at h
              obtain ⟨i, hi, hlt⟩ := (Option.any_eq_true _ _).1 (List.all_eq_true.1 h.2 _ hy)
              obtain rfl := eq_repr_of_index? hi
              have hx := List.getElem?_eq_getElem (of_decide_eq_true hlt)
              obtain ⟨y', hy', hagree⟩ := agreesIndexed_getElem? h.1 hx
              rw [Nat.zero_add, hfind] at hy'
              cases hy'
              exact holds_array.2 ⟨i, _, path, hx, rfl,
                ih hagree (isReadNode_item hnew hx) (hold _ hy) hpart⟩
          | object ps =>
              rw [agrees, Bool.and_eq_true, beq_iff_eq] at h
              obtain ⟨hkeys, hall⟩ := everywhere_object.1 hnew
              obtain ⟨x, hx, hagree⟩ := agreesMembers_find? (isReadNode_object.1 hkeys).1 h.1 h.2 hfind
              exact holds_object.2 ⟨_, x, path, hx, rfl, ih hagree (hall _ hx) (hold _ hy) hpart⟩
          | _ => simp [agrees] at h
      | number => simp [holds_number] at hcs
      | _ => cases hcs

theorem holds_of_addMember? {key : String} {j : Json} {before es : Entries Json}
    (h : addMember? key j before = some es) (hj : j.everywhere isReadNode = true)
    (hbefore : (Json.object before).everywhere isReadNode = true) :
    (∀ path cs, (Json.object before).Holds path cs → (Json.object es).Holds path cs) ∧
      ∀ path cs, j.Holds path cs → (Json.object es).Holds (key :: path) cs := by
  obtain rfl := eq_define_of_addMember? h
  have hnew (path : List String) (cs : List Char) (hcs : j.Holds path cs) :
      (Json.object (before.define key j)).Holds (key :: path) cs :=
    holds_object.2 ⟨key, j, path, Entries.mem_define_self key j before, rfl, hcs⟩
  refine ⟨fun path cs hcs => ?_, hnew⟩
  obtain ⟨k, old, rest, hold, rfl, hpart⟩ := holds_object.1 hcs
  by_cases hk : k = key
  · subst hk
    obtain ⟨hkeys, hall⟩ := everywhere_object.1 hbefore
    have hfind := (Entries.find?_eq_some_iff (isReadNode_object.1 hkeys).1).2 hold
    simp only [addMember?, hfind, Option.ite_none_right_eq_some, and_true] at h
    exact hnew _ _ (holds_of_agrees h hj (hall _ hold) hpart)
  · exact holds_object.2 ⟨k, old, rest, Entries.mem_define_of_ne j hold hk, rfl, hpart⟩

end RecordSieve.Json
