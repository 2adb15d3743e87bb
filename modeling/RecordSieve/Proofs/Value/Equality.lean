import RecordSieve.Proofs.Value.Distinction

namespace RecordSieve.Value

theorem sameNumber_symm {m n : Number} (h : sameNumber m n = true) : sameNumber n m = true := by
  obtain ⟨hsome, heq⟩ := sameNumber_iff.1 h
  exact sameNumber_iff.2 ⟨heq ▸ hsome, heq.symm⟩

theorem sameNumber_trans {k m n : Number} (h : sameNumber k m = true) (h' : sameNumber m n = true) :
    sameNumber k n = true := by
  obtain ⟨hsome, heq⟩ := sameNumber_iff.1 h
  exact sameNumber_iff.2 ⟨hsome, heq.trans (sameNumber_iff.1 h').2⟩

theorem equals_number_iff {a b : Value} {m : Number} (ha : a.number? = some m) :
    a.equals b = true ↔ ∃ n, b.number? = some n ∧ sameNumber m n = true := by
  constructor
  · intro h
    cases hb : b.number? with
    | some n => exact ⟨n, rfl, by rwa [equals_of_number? ha hb] at h⟩
    | none =>
        cases a <;> simp only [number?, reduceCtorEq] at ha <;> cases b <;>
          simp [equals, number?] at h hb
  · rintro ⟨n, hb, h⟩
    rwa [equals_of_number? ha hb]

theorem equals_string_iff {s : String} {b : Value} : (Value.string s).equals b = true ↔ b = .string s := by
  cases b with
  | string t =>
      rw [equals, beq_iff_eq, Value.string.injEq]
      exact eq_comm
  | _ => simp [equals, number?]

theorem equals_boolean_iff {x : Bool} {b : Value} :
    (Value.boolean x).equals b = true ↔ b = .boolean x := by
  cases b with
  | boolean y =>
      rw [equals, beq_iff_eq, Value.boolean.injEq]
      exact eq_comm
  | _ => simp [equals, number?]

theorem equals_null_iff {b : Value} : Value.null.equals b = true ↔ b = .null := by
  cases b <;> simp [equals, number?]

theorem equalsItems_iff {as bs : List Value} :
    equalsItems as bs = true ↔ List.Forall₂ (fun a b => a.equals b = true) as bs := by
  induction as generalizing bs with
  | nil => cases bs <;> simp [equalsItems]
  | cons a as ih => cases bs <;> simp [equalsItems, ih]

theorem equals_list_iff {as : List Value} {b : Value} : (Value.list as).equals b = true ↔
    ∃ bs, b = .list bs ∧ List.Forall₂ (fun a b => a.equals b = true) as bs := by
  cases b <;> simp [equals, number?, equalsItems_iff]

theorem equals_map_iff {as : List (String × Value)} {b : Value} : (Value.map as).equals b = true ↔
    ∃ bs, b = .map bs ∧ as.length = bs.length ∧
      ∀ e ∈ as, ∃ v, Entries.find? e.1 bs = some v ∧ e.2.equals v = true := by
  cases b <;> simp [equals, number?, equalsEntries_iff, Option.any_eq_true]

theorem equals_symm_list {as : List Value}
    (ih : ∀ a ∈ as, ∀ b : Value, b.everywhere hasDistinctKeys = true → a.equals b = true → b.equals a = true)
    {bs : List Value} (hb : ∀ b ∈ bs, b.everywhere hasDistinctKeys = true)
    (h : List.Forall₂ (fun a b => a.equals b = true) as bs) :
    List.Forall₂ (fun b a => b.equals a = true) bs as := by
  induction h with
  | nil => exact .nil
  | @cons a b as bs hab _ ihtail =>
      obtain ⟨iha, ihas⟩ := List.forall_mem_cons.1 ih
      obtain ⟨hb, hbs⟩ := List.forall_mem_cons.1 hb
      exact .cons (iha b hb hab) (ihtail ihas hbs)

theorem mem_keys_of_length {as bs : List (String × Value)} (ha : Entries.Distinct as)
    (hlength : as.length = bs.length) (h : ∀ e ∈ as, ∃ v, Entries.find? e.1 bs = some v) :
    ∀ e ∈ bs, ∃ a, (e.1, a) ∈ as := by
  have hsubset : as.map Prod.fst ⊆ bs.map Prod.fst := by
    intro key hkey
    obtain ⟨e, he, rfl⟩ := List.mem_map.1 hkey
    obtain ⟨v, hv⟩ := h e he
    exact List.mem_map.2 ⟨_, Entries.mem_of_find? hv, rfl⟩
  have hall := Entries.subset_of_length ha hsubset (by rw [List.length_map, List.length_map, hlength])
  intro e he
  obtain ⟨⟨key, a⟩, hin, hkey⟩ := List.mem_map.1 (hall (List.mem_map_of_mem he))
  exact ⟨a, by rwa [← hkey]⟩

theorem equals_symm {a b : Value} (ha : a.everywhere hasDistinctKeys = true)
    (hb : b.everywhere hasDistinctKeys = true) (h : a.equals b = true) : b.equals a = true := by
  induction a using byParts generalizing b with
  | integer | unsigned | float =>
      obtain ⟨n, hn, hsame⟩ := (equals_number_iff rfl).1 h
      exact (equals_number_iff hn).2 ⟨_, rfl, sameNumber_symm hsame⟩
  | string s =>
      obtain rfl := equals_string_iff.1 h
      exact h
  | boolean x =>
      obtain rfl := equals_boolean_iff.1 h
      exact h
  | null =>
      obtain rfl := equals_null_iff.1 h
      exact h
  | list as ih =>
      obtain ⟨bs, rfl, hitems⟩ := equals_list_iff.1 h
      obtain ⟨-, ha⟩ := everywhere_list.1 ha
      obtain ⟨-, hb⟩ := everywhere_list.1 hb
      exact equals_list_iff.2
        ⟨as, rfl, equals_symm_list (fun a hin b hb => ih a hin (ha a hin) hb) hb hitems⟩
  | map as ih =>
      obtain ⟨bs, rfl, hlength, hentries⟩ := equals_map_iff.1 h
      obtain ⟨hda, ha⟩ := everywhere_map.1 ha
      obtain ⟨hdb, hb⟩ := everywhere_map.1 hb
      have hda : Entries.Distinct as := of_decide_eq_true hda
      have hdb : Entries.Distinct bs := of_decide_eq_true hdb
      refine equals_map_iff.2 ⟨as, rfl, hlength.symm, fun e he => ?_⟩
      have hkeys := mem_keys_of_length hda hlength fun e he => (hentries e he).imp fun _ hv => hv.1
      obtain ⟨a, hin⟩ := hkeys e he
      obtain ⟨v, hfind, hequals⟩ := hentries _ hin
      obtain rfl : v = e.2 := by
        rw [(Entries.find?_eq_some_iff hdb).2 he, Option.some.injEq] at hfind
        exact hfind.symm
      exact ⟨a, (Entries.find?_eq_some_iff hda).2 hin, ih _ hin (ha _ hin) (hb _ he) hequals⟩

theorem equals_trans_list {as : List Value}
    (ih : ∀ a ∈ as, ∀ b c : Value, a.equals b = true → b.equals c = true → a.equals c = true)
    {bs cs : List Value} (h : List.Forall₂ (fun a b => a.equals b = true) as bs)
    (h' : List.Forall₂ (fun b c => b.equals c = true) bs cs) :
    List.Forall₂ (fun a c => a.equals c = true) as cs := by
  induction h generalizing cs with
  | nil => cases h'; exact .nil
  | @cons a b as bs hab _ ihtail =>
      cases h' with
      | @cons _ c _ cs hbc hrest =>
          obtain ⟨iha, ihas⟩ := List.forall_mem_cons.1 ih
          exact .cons (iha b c hab hbc) (ihtail ihas hrest)

theorem equals_trans {a b c : Value} (h : a.equals b = true) (h' : b.equals c = true) :
    a.equals c = true := by
  induction a using byParts generalizing b c with
  | integer | unsigned | float =>
      obtain ⟨m, hm, hsame⟩ := (equals_number_iff rfl).1 h
      obtain ⟨n, hn, hsame'⟩ := (equals_number_iff hm).1 h'
      exact (equals_number_iff rfl).2 ⟨n, hn, sameNumber_trans hsame hsame'⟩
  | string s => rwa [equals_string_iff.1 h] at h'
  | boolean x => rwa [equals_boolean_iff.1 h] at h'
  | null => rwa [equals_null_iff.1 h] at h'
  | list as ih =>
      obtain ⟨bs, rfl, hitems⟩ := equals_list_iff.1 h
      obtain ⟨cs, rfl, hitems'⟩ := equals_list_iff.1 h'
      exact equals_list_iff.2
        ⟨cs, rfl, equals_trans_list (fun a hin b c => ih a hin) hitems hitems'⟩
  | map as ih =>
      obtain ⟨bs, rfl, hlength, hentries⟩ := equals_map_iff.1 h
      obtain ⟨cs, rfl, hlength', hentries'⟩ := equals_map_iff.1 h'
      refine equals_map_iff.2 ⟨cs, rfl, hlength.trans hlength', fun e he => ?_⟩
      obtain ⟨v, hv, hequals⟩ := hentries e he
      obtain ⟨w, hw, hequals'⟩ := hentries' _ (Entries.mem_of_find? hv)
      exact ⟨w, hw, ih e he hequals hequals'⟩

theorem equals_self_number_iff {a : Value} {m : Number} (ha : a.number? = some m) :
    a.equals a = true ↔ a.isNumberNode = true := by
  rw [equals_of_number? ha ha, sameNumber_iff, and_iff_left rfl, isSome_place?_iff ha]

theorem equals_self_iff {a : Value} (ha : a.everywhere hasDistinctKeys = true) :
    a.equals a = true ↔ a.everywhere isNumberNode = true := by
  induction a using byParts with
  | integer | unsigned | float =>
      simp only [everywhere]
      exact equals_self_number_iff rfl
  | string | boolean | null => simp [equals, everywhere, isNumberNode]
  | list as ih =>
      obtain ⟨-, ha⟩ := everywhere_list.1 ha
      have hitems : equalsItems (as.map id) (as.map id) = true ↔ ∀ v ∈ as, v.equals v = true :=
        equalsItems_map_iff
      rw [List.map_id] at hitems
      rw [equals, hitems, everywhere_list]
      simp only [isNumberNode, true_and]
      exact forall₂_congr fun a hin => ih a hin (ha a hin)
  | map as ih =>
      obtain ⟨hdistinct, ha⟩ := everywhere_map.1 ha
      have hfind : ∀ e ∈ as, Entries.find? e.1 as = some e.2 := fun e he =>
        (Entries.find?_eq_some_iff (of_decide_eq_true hdistinct)).2 he
      rw [equals, beq_self_eq_true, Bool.true_and, equalsEntries_iff, everywhere_map]
      simp only [isNumberNode, true_and]
      refine forall₂_congr fun e he => ?_
      rw [hfind e he]
      exact ih e he (ha e he)

/-- Equality is symmetric and transitive, and a value equals itself exactly when every number in it is
one. -/
theorem equals_laws {a b c : Value} (ha : a.everywhere hasDistinctKeys = true)
    (hb : b.everywhere hasDistinctKeys = true) :
    a.equals b = b.equals a ∧ (a.equals b = true → b.equals c = true → a.equals c = true) ∧
      (a.equals a = true ↔ a.everywhere isNumberNode = true) := by
  refine ⟨?_, equals_trans, equals_self_iff ha⟩
  rw [Bool.eq_iff_iff]
  exact ⟨equals_symm ha hb, equals_symm hb ha⟩

theorem equals_laws_mixed :
    let a : Value := .map [("x", .integer 9007199254740993), ("y", .list [.unsigned 1, .string "s"])]
    let b : Value := .map [("y", .list [.float (.ofInt 1), .string "s"]), ("x", .unsigned 9007199254740993)]
    let c : Value := .map [("y", .list [.integer 1, .string "s"]), ("x", .integer 9007199254740993)]
    a.everywhere hasDistinctKeys = true ∧ b.everywhere hasDistinctKeys = true ∧
      a.equals b = true ∧ b.equals c = true ∧ a.equals b = b.equals a ∧
      (a.equals b = true → b.equals c = true → a.equals c = true) ∧
      (a.equals a = true ↔ a.everywhere isNumberNode = true) := by
  intro a b c
  have ha : a.everywhere hasDistinctKeys = true := by decide +kernel
  have hb : b.everywhere hasDistinctKeys = true := by decide +kernel
  have hab : a.equals b = true := by decide +kernel
  have hbc : b.equals c = true := by decide +kernel
  exact ⟨ha, hb, hab, hbc, equals_laws ha hb⟩

end RecordSieve.Value
