import RecordSieve.Proofs.Value.Fraction
import RecordSieve.Proofs.Value.Rereading

namespace RecordSieve

namespace Binary64

theorem exists_integer?_of_text {x : Binary64} (hx : x.isFinite = true) {n : Int}
    (h : RecordSieve.integer? x.text = some n) : ∃ i, x.integer? = some i := by
  rcases x with _ | _ | ⟨negative, m⟩
  · cases hx
  · cases hx
  · have hdvd : unitsPerOne ∣ m.units := by
      rcases Nat.eq_zero_or_pos m.units with hm | hm
      · exact hm ▸ Nat.dvd_zero _
      · obtain ⟨p, htext, -, hread, hwhole⟩ := NumeralParts.exists_text_of_pos negative hm
        have hp : p.isWhole = true := by
          rw [← htext, NumeralParts.integer?_text] at h
          by_contra hnot
          rw [if_neg hnot] at h
          cases h
        obtain ⟨k, rfl⟩ := hwhole hp
        rw [NumeralParts.decimal_natural] at hread
        rcases Nat.eq_zero_or_pos k with rfl | hk
        · rw [Magnitude.ofDecimal?_of_units Magnitude.units_zero, Option.some.injEq] at hread
          exact ⟨0, by rw [← hread, Magnitude.units_zero, Nat.zero_mul, Nat.mul_zero]⟩
        · exact Magnitude.unitsPerOne_dvd_units (Magnitude.round?_of_ofDecimal? hk hread)
    exact ⟨_, if_pos (Nat.mod_eq_zero_of_dvd hdvd)⟩

end Binary64

namespace Value

structure IsRewriting (g : Value → Value) : Prop where
  string : ∀ s, g (.string s) = .string s
  boolean : ∀ b, g (.boolean b) = .boolean b
  null : g .null = .null
  list : ∀ items, g (.list items) = .list (items.map g)
  map : ∀ entries, g (.map entries) = .map (Entries.mapValues g (Entries.inPropertyOrder entries))

def held (v : Value) : Value := v.toJson.projected

theorem isRewriting_recoded : IsRewriting recoded :=
  ⟨fun _ => rfl, fun _ => rfl, rfl, recoded_list, recoded_map⟩

theorem isRewriting_rewritten : IsRewriting rewritten where
  string s := by rw [rewritten, toJson]; rfl
  boolean b := by rw [rewritten, toJson]; rfl
  null := rfl
  list items := by
    rw [rewritten, toJson_list, Json.reread_array, isReading_ofJson.array, List.map_map, List.map_map]
    rfl
  map entries := by
    rw [rewritten, toJson_map, Json.reread_object, isReading_ofJson.object, Entries.mapValues_mapValues,
      Entries.mapValues_mapValues]
    rfl

theorem isRewriting_held : IsRewriting held where
  string s := by simp only [held, toJson, Json.projected, Datum.ofJson, Datum.project]
  boolean b := by simp only [held, toJson, Json.projected, Datum.ofJson, Datum.project]
  null := by simp only [held, toJson, Json.projected, Datum.ofJson, Datum.project]
  list items := by
    rw [held, toJson_list, Json.projected_array, List.map_map]
    rfl
  map entries := by
    rw [held, toJson_map, Json.projected_object, Entries.mapValues_mapValues]
    rfl

theorem equalsItems_map_iff {g h : Value → Value} {items : List Value} :
    equalsItems (items.map g) (items.map h) = true ↔ ∀ v ∈ items, (g v).equals (h v) = true := by
  induction items with
  | nil => simp [equalsItems]
  | cons v vs ih => simp [equalsItems, ih]

theorem equalsEntries_iff {as bs : List (String × Value)} :
    equalsEntries as bs = true ↔ ∀ e ∈ as, (Entries.find? e.1 bs).any e.2.equals = true := by
  induction as with
  | nil => simp [equalsEntries]
  | cons e es ih =>
      obtain ⟨k, a⟩ := e
      rw [equalsEntries_cons, Bool.and_eq_true, ih, List.forall_mem_cons]

theorem equals_iff_everywhere {g h : Value → Value} (hg : IsRewriting g) (hh : IsRewriting h) {v : Value}
    (hd : v.everywhere hasDistinctKeys = true) : (g v).equals (h v) = true ↔
      v.everywhere (fun w => !w.isNumeric || (g w).equals (h w)) = true := by
  induction v using byParts with
  | integer | unsigned | float => simp [everywhere, isNumeric, number?]
  | string s => simp [everywhere, isNumeric, number?, hg.string, hh.string, equals]
  | boolean b => simp [everywhere, isNumeric, number?, hg.boolean, hh.boolean, equals]
  | null => simp [everywhere, isNumeric, number?, hg.null, hh.null, equals]
  | list items ih =>
      obtain ⟨-, hall⟩ := everywhere_list.1 hd
      rw [hg.list, hh.list, equals, equalsItems_map_iff, everywhere_list]
      simp only [isNumeric, number?, Option.isSome_none, Bool.not_false, Bool.true_or, true_and]
      exact forall₂_congr fun v hin => ih v hin (hall v hin)
  | map entries ih =>
      obtain ⟨hkeys, hall⟩ := everywhere_map.1 hd
      have hdistinct : Entries.Distinct entries := of_decide_eq_true hkeys
      have hperm := Entries.perm_inPropertyOrder hdistinct
      have hfind : ∀ e ∈ Entries.inPropertyOrder entries,
          Entries.find? e.1 (Entries.mapValues h (Entries.inPropertyOrder entries)) = some (h e.2) :=
        fun e he => by
          rw [Entries.find?_mapValues, (Entries.find?_eq_some_iff
            (Entries.distinct_inPropertyOrder hdistinct)).2 he, Option.map_some]
      have hlength : ((Entries.mapValues g (Entries.inPropertyOrder entries)).length ==
          (Entries.mapValues h (Entries.inPropertyOrder entries)).length) = true := by
        simp [Entries.mapValues]
      rw [hg.map, hh.map, equals, hlength, Bool.true_and, equalsEntries_iff, everywhere_map]
      simp only [isNumeric, number?, Option.isSome_none, Bool.not_false, Bool.true_or, true_and]
      constructor
      · intro hequals e he
        have hmem := hperm.mem_iff.2 he
        have hpart := hequals _ (List.mem_map.2 ⟨e, hmem, rfl⟩)
        rw [hfind e hmem] at hpart
        exact (ih e he (hall e he)).1 hpart
      · intro hparts e he
        obtain ⟨e, hmem, rfl⟩ := List.mem_map.1 he
        have hin := hperm.mem_iff.1 hmem
        rw [hfind e hmem]
        exact (ih e hin (hall e hin)).2 (hparts e hin)

theorem equals_of_number? {a b : Value} {m n : Number} (ha : a.number? = some m)
    (hb : b.number? = some n) : a.equals b = sameNumber m n := by
  cases a <;> simp only [number?, reduceCtorEq] at ha <;> cases b <;>
    simp only [number?, reduceCtorEq] at hb <;> simp [equals, number?, Option.some.inj ha, Option.some.inj hb]

theorem sameNumber_iff {m n : Number} :
    sameNumber m n = true ↔ m.place?.isSome = true ∧ m.place? = n.place? := by
  have hcompare : ∀ p q : Place, p.compare q = .eq ↔ p = q := fun p q => by
    cases p <;> cases q <;> simp [Place.compare, compareOfLessAndEq_eq_eq]
  rw [sameNumber, beq_iff_eq, Number.compare?]
  cases m.place? <;> cases n.place? <;> simp [hcompare]

theorem place?_ofInteger (n : Int) : (Number.ofInteger n).place? = (Number.integer n).place? := by
  rw [Number.ofInteger]
  split
  · rename_i h
    exact Binary64.place?_eq_of_integer? (Binary64.integer?_ofInt h)
  · rfl

theorem number?_projected (n : Number) : (Json.projected (.number n)).number? = some n := by
  rw [Json.projected_number]
  cases n <;> rfl

theorem exists_number?_held {v : Value} {m : Number} (h : v.number? = some m) :
    ∃ k, (held v).number? = some k ∧ k.place? = m.place? := by
  cases v <;> simp only [number?, Option.some.injEq, reduceCtorEq] at h <;> subst h <;>
    rw [held, toJson, number?_projected]
  · exact ⟨_, rfl, place?_ofInteger _⟩
  · exact ⟨_, rfl, place?_ofInteger _⟩
  · exact ⟨_, rfl, rfl⟩

def isNumberNode : Value → Bool
  | .float .nan => false
  | _ => true

theorem isNumberNode_of_isFiniteNode {v : Value} (h : v.isFiniteNode = true) : v.isNumberNode = true := by
  rcases v with _ | _ | (_ | _ | _) | _ | _ | _ | _ | _
  case float.nan => cases h
  all_goals rfl

theorem isSome_place?_iff {v : Value} {m : Number} (h : v.number? = some m) :
    m.place?.isSome = true ↔ v.isNumberNode = true := by
  cases v with
  | integer | unsigned => cases h; exact iff_of_true rfl rfl
  | float x =>
      cases h
      cases x with
      | nan => exact iff_of_false nofun nofun
      | infinite | finite => exact iff_of_true rfl rfl
  | _ => cases h

theorem isNumberNode_of_number?_eq_none {v : Value} (h : v.number? = none) : v.isNumberNode = true := by
  cases v with
  | float => cases h
  | _ => rfl

theorem equals_held_recoded {v : Value} {m : Number} (h : v.number? = some m) :
    (held v).equals v.recoded = v.isNumberNode := by
  obtain ⟨k, hk, hplace⟩ := exists_number?_held h
  have hleaf : v.everywhere hasDistinctKeys = true := by
    cases v <;> simp only [number?, reduceCtorEq] at h <;> rfl
  have hequals : (held v).equals v.recoded = (held v).equals v :=
    congrFun (equalsTo_recoded v hleaf) (held v)
  rw [hequals, equals_of_number? hk h, Bool.eq_iff_iff, sameNumber_iff, and_iff_left hplace, hplace,
    isSome_place?_iff h]

theorem equals_held_iff {v : Value} (hd : v.everywhere hasDistinctKeys = true) :
    (held v).equals v = true ↔ v.everywhere isNumberNode = true := by
  have hrecoded : (held v).equals v.recoded = (held v).equals v := congrFun (equalsTo_recoded v hd) (held v)
  have hnode : (fun w : Value => !w.isNumeric || (held w).equals w.recoded) = isNumberNode := by
    funext w
    cases hm : w.number? with
    | none => simp [isNumeric, hm, isNumberNode_of_number?_eq_none hm]
    | some m => simp [isNumeric, hm, equals_held_recoded hm]
  rw [← hrecoded, equals_iff_everywhere isRewriting_held isRewriting_recoded hd, hnode]

theorem rewritten_float {x : Binary64} (hx : x.isFinite = true) {n : Int}
    (h : RecordSieve.integer? x.text = some n) : rewritten (.float x) = .integer n := by
  rw [rewritten, toJson, Json.reread, if_pos (show Number.isFinite (.float x) = true from hx),
    Number.reread, h]
  exact ofJson_ofInteger n

theorem isExactNode_of_equals_rewritten {v : Value} (hd : v.everywhere hasDistinctKeys = true)
    (hf : v.everywhere isFiniteNode = true) (h : (held v).equals v.rewritten = true) :
    v.everywhere isExactNode = true := by
  rw [equals_iff_everywhere isRewriting_held isRewriting_rewritten hd] at h
  refine everywhere_imp (fun {w} hw => ?_) (everywhere_and h hf)
  obtain ⟨hsame, hfinite⟩ := Bool.and_eq_true_iff.1 hw
  cases w with
  | float x =>
      refine Bool.and_eq_true_iff.2 ⟨hfinite, ?_⟩
      rw [Binary64.isPrintedExactly]
      cases hn : RecordSieve.integer? x.text with
      | none => rfl
      | some n =>
          have hheld : (held (.float x)).number? = some (.float x) := by
            rw [held, toJson, number?_projected]
          have hread : (Value.integer n).number? = some (.integer n) := rfl
          rw [rewritten_float hfinite hn, equals_of_number? hheld hread] at hsame
          have hplace := (sameNumber_iff.1 (by simpa [isNumeric, number?] using hsame)).2
          rw [Option.all_some, beq_iff_eq]
          exact Binary64.integer?_of_place? hplace
  | _ => rfl

theorem rewritten_eq_null_iff {v : Value} (hf : v.isFiniteNode = true) :
    v.rewritten = .null ↔ v = .null := by
  rw [rewritten, ofJson_eq_null_iff, reread_eq_null_iff (isFiniteNode_toJson hf)]
  cases v <;> simp [toJson]

theorem eq_of_holds_orderOf {op : OrderOp} {a b : Int}
    (h : ∀ k, op.holds (orderOf k a) = op.holds (orderOf k b)) : a = b := by
  have ha := h a
  have hb := h b
  rcases Int.lt_trichotomy a b with hlt | heq | hlt
  · rw [orderOf_self, orderOf_of_lt hlt] at ha
    rw [orderOf_self, orderOf_of_gt hlt] at hb
    cases op <;> simp [OrderOp.holds] at ha hb
  · exact heq
  · rw [orderOf_self, orderOf_of_gt hlt] at ha
    rw [orderOf_self, orderOf_of_lt hlt] at hb
    cases op <;> simp [OrderOp.holds] at ha hb

theorem isExactNode_of_holdsFor_rewritten (op : OrderOp) {v : Value} (hf : v.isFiniteNode = true)
    (h : ∀ k : Int, op.holdsFor (.integer k) v.rewritten = op.holdsFor (.integer k) v) :
    v.isExactNode = true := by
  cases v with
  | float x =>
      refine Bool.and_eq_true_iff.2 ⟨hf, ?_⟩
      rw [Binary64.isPrintedExactly]
      cases hn : RecordSieve.integer? x.text with
      | none => rfl
      | some n =>
          obtain ⟨i, hi⟩ := Binary64.exists_integer?_of_text hf hn
          rw [rewritten_float hf hn] at h
          simp only [OrderOp.holdsFor_integer, ← toInteger?_of_integer? hi] at h
          rw [Option.all_some, beq_iff_eq, hi, eq_of_holds_orderOf h]
  | _ => rfl

end Value

end RecordSieve
