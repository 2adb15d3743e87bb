import RecordSieve.Entries
import Mathlib.Data.List.Induction
import Mathlib.Data.List.Nodup
import Mathlib.Data.List.Perm.Subperm

namespace RecordSieve.Entries

variable {α β : Type}

def Distinct (es : Entries α) : Prop := (es.map Prod.fst).Nodup

def InOrder (es : Entries α) : Prop := es.Pairwise fun a b => precedes b.1 a.1 = false

instance (es : Entries α) : Decidable (Distinct es) := inferInstanceAs (Decidable (List.Nodup _))

instance (es : Entries α) : Decidable (InOrder es) := inferInstanceAs (Decidable (List.Pairwise _ _))

theorem find?_eq_some_iff {es : Entries α} (hd : Distinct es) {key : String} {value : α} :
    find? key es = some value ↔ (key, value) ∈ es := by
  induction es with
  | nil => simp [find?]
  | cons e es ih =>
      obtain ⟨k, v⟩ := e
      obtain ⟨hk, hes⟩ := List.nodup_cons.1 hd
      by_cases h : k = key
      · subst h
        have hnot : (k, value) ∉ es := fun hin => hk (List.mem_map.2 ⟨_, hin, rfl⟩)
        simp [find?, hnot, eq_comm]
      · simp [find?, h, ih hes, Ne.symm h]

theorem find?_perm {es fs : Entries α} (h : es.Perm fs) (hd : Distinct es) (key : String) :
    find? key es = find? key fs := by
  have hfs : Distinct fs := (h.map Prod.fst).nodup_iff.1 hd
  refine Option.ext fun value => ?_
  rw [find?_eq_some_iff hd, find?_eq_some_iff hfs, h.mem_iff]

theorem find?_eq_none {es : Entries α} {key : String} (h : key ∉ es.map Prod.fst) :
    find? key es = none := by
  induction es with
  | nil => rfl
  | cons e es ih =>
      rw [List.map_cons, List.mem_cons, not_or] at h
      rw [find?, if_neg (Ne.symm h.1), ih h.2]

theorem isSome_find? {es : Entries α} {key : String} (h : key ∈ es.map Prod.fst) :
    (find? key es).isSome = true := by
  induction es with
  | nil => cases h
  | cons e es ih =>
      rw [find?]
      split
      · rfl
      · rename_i hne
        exact ih ((List.mem_cons.1 h).resolve_left (Ne.symm hne))

theorem find?_mapValues (f : α → β) (es : Entries α) (key : String) :
    find? key (mapValues f es) = (find? key es).map f := by
  induction es with
  | nil => rfl
  | cons e es ih =>
      by_cases h : e.1 = key
      · simp [mapValues, find?, h]
      · simpa [mapValues, find?, h] using ih

theorem mem_of_find? {es : Entries α} {key : String} {value : α} (h : find? key es = some value) :
    (key, value) ∈ es := by
  induction es with
  | nil => simp [find?] at h
  | cons e es ih =>
      obtain ⟨k, v⟩ := e
      rw [find?] at h
      split at h
      · rename_i hk
        cases h
        exact hk ▸ List.mem_cons_self
      · exact List.mem_cons_of_mem _ (ih h)

theorem subset_of_length {ks ls : List String} (hk : ks.Nodup) (hsub : ks ⊆ ls)
    (hlength : ks.length = ls.length) : ls ⊆ ks :=
  ((List.subperm_of_subset hk hsub).perm_of_length_le (Nat.le_of_eq hlength.symm)).symm.subset

theorem precedes_asymm {k l : String} (h : precedes k l = true) : precedes l k = false := by
  simp only [precedes] at *
  cases hk : index? k <;> cases hl : index? l <;> simp only [hk, hl] at h ⊢ <;> simp at h ⊢
  omega

theorem precedes_trans {k l m : String} (h : precedes k l = true) (h' : precedes l m = true) :
    precedes k m = true := by
  simp only [precedes] at *
  cases hk : index? k <;> cases hl : index? l <;> cases hm : index? m <;>
    simp only [hk, hl, hm] at h h' ⊢ <;> simp at h h' ⊢
  omega

theorem perm_place (key : String) (value : α) (es : Entries α) :
    (place key value es).Perm ((key, value) :: es) := by
  induction es with
  | nil => exact .refl _
  | cons e es ih =>
      obtain ⟨k, v⟩ := e
      rw [place]
      split
      · exact .refl _
      · exact (ih.cons (k, v)).trans (.swap (key, value) (k, v) es)

theorem place_last {key : String} {es : Entries α} (value : α)
    (h : ∀ e ∈ es, precedes key e.1 = false) : place key value es = es ++ [(key, value)] := by
  induction es with
  | nil => rfl
  | cons e es ih =>
      obtain ⟨he, hes⟩ := List.forall_mem_cons.1 h
      rw [place, if_neg (by simp [he]), ih hes, List.cons_append]

theorem inOrder_place {es : Entries α} (key : String) (value : α) (h : InOrder es) :
    InOrder (place key value es) := by
  induction es with
  | nil => exact List.pairwise_singleton _ _
  | cons e es ih =>
      obtain ⟨k, v⟩ := e
      obtain ⟨hk, hes⟩ := List.pairwise_cons.1 h
      rw [place]
      split
      · rename_i hbefore
        refine List.pairwise_cons.2 ⟨List.forall_mem_cons.2 ⟨precedes_asymm hbefore, ?_⟩, h⟩
        intro f hf
        by_contra hafter
        have := precedes_trans (Bool.not_eq_false _ ▸ hafter) hbefore
        simp [hk f hf] at this
      · rename_i hbefore
        refine List.pairwise_cons.2 ⟨fun f hf => ?_, ih hes⟩
        rcases List.mem_cons.1 ((perm_place key value es).mem_iff.1 hf) with rfl | hf
        · simpa using hbefore
        · exact hk f hf

theorem define_of_notMem {key : String} {es : Entries α} (value : α) (h : key ∉ es.map Prod.fst) :
    define key value es = place key value es := by
  rw [define, has, find?_eq_none h]
  rfl

theorem keys_insert {key : String} (value : α) {es : Entries α} (h : key ∈ es.map Prod.fst) :
    (es.insert key value).map Prod.fst = es.map Prod.fst := by
  induction es with
  | nil => cases h
  | cons e es ih =>
      rw [insert]
      split
      · rfl
      · rename_i hne
        rw [List.map_cons, List.map_cons, ih ((List.mem_cons.1 h).resolve_left (Ne.symm hne))]

theorem define_of_mem {key : String} {es : Entries α} (value : α) (h : key ∈ es.map Prod.fst) :
    define key value es = es.insert key value :=
  if_pos (isSome_find? h)

theorem inOrder_iff_keys {es : Entries α} :
    InOrder es ↔ (es.map Prod.fst).Pairwise fun k l => precedes l k = false := by
  rw [InOrder, List.pairwise_map]

theorem distinct_define {es : Entries α} (key : String) (value : α) (h : Distinct es) :
    Distinct (define key value es) := by
  by_cases hkey : key ∈ es.map Prod.fst
  · rwa [define_of_mem value hkey, Distinct, keys_insert value hkey]
  · rw [define_of_notMem value hkey]
    exact ((perm_place key value es).map Prod.fst).nodup_iff.2 (List.nodup_cons.2 ⟨hkey, h⟩)

theorem inOrder_define {es : Entries α} (key : String) (value : α) (h : InOrder es) :
    InOrder (define key value es) := by
  by_cases hkey : key ∈ es.map Prod.fst
  · rwa [define_of_mem value hkey, inOrder_iff_keys, keys_insert value hkey, ← inOrder_iff_keys]
  · rw [define_of_notMem value hkey]
    exact inOrder_place key value h

theorem mem_insert {e : String × α} {key : String} {value : α} {es : Entries α}
    (h : e ∈ es.insert key value) : e ∈ es ∨ e = (key, value) := by
  induction es with
  | nil => exact .inr (List.mem_singleton.1 h)
  | cons f fs ih =>
      rw [insert] at h
      split at h
      · rename_i hkey
        rcases List.mem_cons.1 h with rfl | h
        · exact .inr (by rw [hkey])
        · exact .inl (List.mem_cons_of_mem _ h)
      · rcases List.mem_cons.1 h with rfl | h
        · exact .inl List.mem_cons_self
        · exact (ih h).imp (List.mem_cons_of_mem _) id

theorem mem_define {e : String × α} {key : String} {value : α} {es : Entries α}
    (h : e ∈ es.define key value) : e ∈ es ∨ e = (key, value) := by
  rw [define] at h
  split at h
  · exact mem_insert h
  · exact (List.mem_cons.1 ((perm_place key value es).mem_iff.1 h)).symm

theorem mem_insert_self (key : String) (value : α) (es : Entries α) : (key, value) ∈ es.insert key value := by
  induction es with
  | nil => exact List.mem_singleton_self _
  | cons e es ih =>
      rw [insert]
      split
      · rename_i hkey
        exact hkey ▸ List.mem_cons_self
      · exact List.mem_cons_of_mem _ ih

theorem mem_insert_of_ne {e : String × α} {key : String} {es : Entries α} (value : α) (h : e ∈ es)
    (hne : e.1 ≠ key) : e ∈ es.insert key value := by
  induction es with
  | nil => cases h
  | cons f fs ih =>
      rw [insert]
      rcases List.mem_cons.1 h with rfl | h
      · rw [if_neg hne]
        exact List.mem_cons_self
      · split
        · exact List.mem_cons_of_mem _ h
        · exact List.mem_cons_of_mem _ (ih h)

theorem mem_define_self (key : String) (value : α) (es : Entries α) : (key, value) ∈ es.define key value := by
  rw [define]
  split
  · exact mem_insert_self key value es
  · exact (perm_place key value es).mem_iff.2 List.mem_cons_self

theorem mem_define_of_ne {e : String × α} {key : String} {es : Entries α} (value : α) (h : e ∈ es)
    (hne : e.1 ≠ key) : e ∈ es.define key value := by
  rw [define]
  split
  · exact mem_insert_of_ne value h hne
  · exact (perm_place key value es).mem_iff.2 (List.mem_cons_of_mem _ h)

theorem mem_ofList {e : String × α} {es : List (String × α)} (h : e ∈ ofList es) : e ∈ es := by
  induction es using List.reverseRecOn with
  | nil => cases h
  | append_singleton es last ih =>
      rw [ofList, List.foldl_append] at h
      rcases mem_insert h with h | rfl
      · exact List.mem_append_left _ (ih h)
      · exact List.mem_append_right _ List.mem_cons_self

theorem insert_of_notMem {key : String} (value : α) {es : Entries α} (h : key ∉ es.map Prod.fst) :
    es.insert key value = es ++ [(key, value)] := by
  induction es with
  | nil => rfl
  | cons e es ih =>
      rw [List.map_cons, List.mem_cons, not_or] at h
      rw [insert, if_neg (Ne.symm h.1), ih h.2, List.cons_append]

theorem distinct_insert {es : Entries α} (key : String) (value : α) (h : Distinct es) :
    Distinct (es.insert key value) := by
  by_cases hkey : key ∈ es.map Prod.fst
  · rwa [Distinct, keys_insert value hkey]
  · rw [insert_of_notMem value hkey, Distinct, List.map_append]
    exact List.Nodup.append h (List.nodup_singleton key) (List.disjoint_singleton.2 hkey)

theorem distinct_ofList (es : List (String × α)) : Distinct (ofList es) := by
  induction es using List.reverseRecOn with
  | nil => exact List.nodup_nil
  | append_singleton es last ih =>
      rw [ofList, List.foldl_append]
      exact distinct_insert last.1 last.2 ih

theorem distinct_place_append {key : String} {value : α} {acc es : Entries α}
    (h : Distinct (acc ++ (key, value) :: es)) : Distinct (place key value acc ++ es) := by
  have hperm : (acc ++ (key, value) :: es).Perm (place key value acc ++ es) :=
    List.perm_middle.trans ((perm_place key value acc).symm.append_right es)
  exact (hperm.map Prod.fst).nodup_iff.1 h

theorem notMem_of_distinct {key : String} {value : α} {acc es : Entries α}
    (h : Distinct (acc ++ (key, value) :: es)) : key ∉ acc.map Prod.fst := by
  have hperm : (acc ++ (key, value) :: es).Perm ((key, value) :: (acc ++ es)) := List.perm_middle
  have hnot := (List.nodup_cons.1 ((hperm.map Prod.fst).nodup_iff.1 h)).1
  exact fun hin => hnot (by simpa using Or.inl (List.mem_map.1 hin))

def defineAll (acc es : Entries α) : Entries α := es.foldl (fun acc (k, v) => acc.define k v) acc

theorem defineAll_cons (acc : Entries α) (key : String) (value : α) (es : Entries α) :
    defineAll acc ((key, value) :: es) = defineAll (define key value acc) es := rfl

theorem inPropertyOrder_eq (es : Entries α) : inPropertyOrder es = defineAll [] es := rfl

-- no key is met twice, so every entry is placed and none is overwritten
theorem perm_defineAll {acc es : Entries α} (hd : Distinct (acc ++ es)) :
    (defineAll acc es).Perm (acc ++ es) := by
  induction es generalizing acc with
  | nil => rw [List.append_nil]; exact .refl _
  | cons e es ih =>
      obtain ⟨k, v⟩ := e
      rw [defineAll_cons, define_of_notMem v (notMem_of_distinct hd)]
      refine (ih (distinct_place_append hd)).trans ?_
      exact ((perm_place k v acc).append_right es).trans List.perm_middle.symm

theorem inOrder_defineAll {acc es : Entries α} (hd : Distinct (acc ++ es)) (ho : InOrder acc) :
    InOrder (defineAll acc es) := by
  induction es generalizing acc with
  | nil => exact ho
  | cons e es ih =>
      obtain ⟨k, v⟩ := e
      rw [defineAll_cons, define_of_notMem v (notMem_of_distinct hd)]
      exact ih (distinct_place_append hd) (inOrder_place k v ho)

theorem defineAll_of_inOrder {acc es : Entries α} (hd : Distinct (acc ++ es))
    (ho : InOrder (acc ++ es)) : defineAll acc es = acc ++ es := by
  induction es generalizing acc with
  | nil => rw [List.append_nil]; rfl
  | cons e es ih =>
      obtain ⟨k, v⟩ := e
      have hlast : ∀ f ∈ acc, precedes k f.1 = false := fun f hf =>
        (List.pairwise_append.1 ho).2.2 f hf (k, v) List.mem_cons_self
      rw [defineAll_cons, define_of_notMem v (notMem_of_distinct hd), place_last v hlast,
        ih (by simpa using hd) (by simpa using ho), List.append_assoc, List.singleton_append]

theorem perm_inPropertyOrder {es : Entries α} (hd : Distinct es) : (inPropertyOrder es).Perm es := by
  rw [inPropertyOrder_eq]
  exact perm_defineAll hd

theorem inOrder_inPropertyOrder {es : Entries α} (hd : Distinct es) : InOrder (inPropertyOrder es) := by
  rw [inPropertyOrder_eq]
  exact inOrder_defineAll hd List.Pairwise.nil

theorem inPropertyOrder_of_inOrder {es : Entries α} (hd : Distinct es) (ho : InOrder es) :
    inPropertyOrder es = es := by
  rw [inPropertyOrder_eq]
  exact defineAll_of_inOrder hd ho

theorem distinct_inPropertyOrder {es : Entries α} (hd : Distinct es) : Distinct (inPropertyOrder es) :=
  ((perm_inPropertyOrder hd).map Prod.fst).nodup_iff.2 hd

theorem find?_inPropertyOrder {es : Entries α} (hd : Distinct es) (key : String) :
    find? key (inPropertyOrder es) = find? key es :=
  find?_perm (perm_inPropertyOrder hd) (distinct_inPropertyOrder hd) key

theorem mapValues_cons (f : α → β) (key : String) (value : α) (es : Entries α) :
    mapValues f ((key, value) :: es) = (key, f value) :: mapValues f es := rfl

theorem keys_mapValues (f : α → β) (es : Entries α) :
    (mapValues f es).map Prod.fst = es.map Prod.fst := by
  rw [mapValues, List.map_map]
  rfl

theorem distinct_mapValues (f : α → β) {es : Entries α} (h : Distinct es) :
    Distinct (mapValues f es) := by
  rwa [Distinct, keys_mapValues]

theorem inOrder_mapValues (f : α → β) {es : Entries α} (h : InOrder es) : InOrder (mapValues f es) :=
  List.pairwise_map.2 h

theorem mapValues_mapValues {γ : Type} (g : β → γ) (f : α → β) (es : Entries α) :
    mapValues g (mapValues f es) = mapValues (g ∘ f) es := by
  rw [mapValues, mapValues, List.map_map]
  rfl

theorem mapValues_congr {f g : α → β} {es : Entries α} (h : ∀ e ∈ es, f e.2 = g e.2) :
    mapValues f es = mapValues g es :=
  List.map_congr_left fun e he => congrArg (Prod.mk e.1) (h e he)

theorem mapValues_eq_self {f : α → α} {es : Entries α} (h : ∀ e ∈ es, f e.2 = e.2) :
    mapValues f es = es := by
  rw [mapValues_congr (g := id) h]
  exact List.map_id' es

theorem insert_mapValues (f : α → β) (key : String) (value : α) (es : Entries α) :
    insert key (f value) (mapValues f es) = mapValues f (insert key value es) := by
  induction es with
  | nil => rfl
  | cons e es ih =>
      by_cases h : e.1 = key
      · simp [mapValues, insert, h]
      · simpa [mapValues, insert, h] using ih

theorem ofList_mapValues (f : α → β) (es : Entries α) :
    ofList (mapValues f es) = mapValues f (ofList es) := by
  rw [ofList, ofList, mapValues, List.foldl_map]
  change es.foldl _ (mapValues f []) = _
  exact List.foldl_hom (mapValues f) fun acc e => insert_mapValues f e.1 e.2 acc

theorem place_mapValues (f : α → β) (key : String) (value : α) (es : Entries α) :
    place key (f value) (mapValues f es) = mapValues f (place key value es) := by
  induction es with
  | nil => rfl
  | cons e es ih =>
      by_cases h : precedes key e.1 = true
      · simp [mapValues, place, h]
      · simpa [mapValues, place, h] using ih

theorem define_mapValues (f : α → β) (key : String) (value : α) (es : Entries α) :
    define key (f value) (mapValues f es) = mapValues f (define key value es) := by
  simp only [define, has, find?_mapValues, Option.isSome_map, insert_mapValues, place_mapValues]
  exact (apply_ite (mapValues f) _ _ _).symm

theorem defineAll_mapValues (f : α → β) (acc es : Entries α) :
    defineAll (mapValues f acc) (mapValues f es) = mapValues f (defineAll acc es) := by
  induction es generalizing acc with
  | nil => rfl
  | cons e es ih =>
      obtain ⟨k, v⟩ := e
      rw [defineAll_cons, ← ih, ← define_mapValues]
      rfl

theorem inPropertyOrder_mapValues (f : α → β) (es : Entries α) :
    inPropertyOrder (mapValues f es) = mapValues f (inPropertyOrder es) :=
  defineAll_mapValues f [] es

end RecordSieve.Entries
