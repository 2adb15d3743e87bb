import RecordSieve.Proofs.Query.Failures
import RecordSieve.Proofs.Yaml.Marks
import RecordSieve.Yaml.Data

namespace RecordSieve

def Datum.IsPlain : Datum → Prop
  | .object own inherited => inherited = [] ∧ ∃ data, own = Entries.mapValues .ok data
  | _ => True

theorem Datum.IsPlain.property?_ne_error {d : Datum} (h : d.IsPlain) (name message : String) :
    d.property? name ≠ some (.error message) := by
  intro hp
  cases d with
  | object own inherited =>
      obtain ⟨rfl, data, rfl⟩ := h
      simp only [Datum.property?, Datum.ownProperty?, Datum.properties, Datum.inheritedProperty?,
        Entries.find?, Option.or_none, Entries.find?_mapValues] at hp
      obtain ⟨d, -, hd⟩ := Option.map_eq_some_iff.1 hp
      cases hd
  | boxed content => exact Input.property?_boxed_ne_error content name message hp
  | _ => cases hp

namespace Yaml

namespace Expansion

def known (s : Expansion) : List Nat := s.anchored.map Prod.fst

structure IsPlain (s : Expansion) : Prop where
  objects : ∀ p ∈ s.objects, p.2.IsPlain
  anchored : ∀ p ∈ s.anchored, p.2.datum.IsPlain

end Expansion

/-- What a computation does that meets certain marks: it gives a result of some kind, with every alias
resolved and the anchors set, or fails by an alias among them. -/
def Meets {α : Type} (x : Expand α) (ms : List Mark) (p : α → Prop) : Prop :=
  ∀ s : Expansion, s.IsPlain →
    (∃ a s', x.run s = .ok (a, s') ∧ p a ∧ s'.IsPlain ∧
      unresolved? s.known ms = none ∧ s'.known = knownBehind s.known ms) ∨
    (∃ name, x.run s = .error (.unresolved name) ∧ unresolved? s.known ms = some name) ∨
    (x.run s = .error .excessive ∧ ∃ name number, .alias name number ∈ ms)

section

variable {α β : Type} {p : α → Prop} {q : β → Prop} {ms others : List Mark}

theorem meets_pure {a : α} (h : p a) : Meets (pure a) [] p :=
  fun s hs => .inl ⟨a, s, rfl, h, hs, rfl, rfl⟩

theorem Meets.bind {x : Expand α} {f : α → Expand β} (hx : Meets x ms p)
    (hf : ∀ a, p a → Meets (f a) others q) : Meets (x >>= f) (ms ++ others) q := by
  intro s hs
  simp only [StateT.run_bind, unresolved?_append, knownBehind_append]
  obtain ⟨a, s', hrun, ha, hs', hnone, hknown⟩ | ⟨name, hrun, hsome⟩ | ⟨hrun, name, number, hmem⟩ :=
    hx s hs
  · rw [hrun, hnone, Option.none_or, ← hknown]
    refine (hf a ha s' hs').imp_right (Or.imp_right fun ⟨hrest, name, number, hmem⟩ => ?_)
    exact ⟨hrest, name, number, List.mem_append_right _ hmem⟩
  · refine .inr (.inl ⟨name, ?_, ?_⟩)
    · rw [hrun]
      rfl
    · rw [hsome]
      rfl
  · refine .inr (.inr ⟨?_, name, number, List.mem_append_left _ hmem⟩)
    rw [hrun]
    rfl

theorem Meets.map {x : Expand α} {f : α → β} (hx : Meets x ms p) (hf : ∀ a, p a → q (f a)) :
    Meets (x >>= fun a => pure (f a)) ms q := by
  have h : Meets (x >>= fun a => pure (f a)) (ms ++ []) q := hx.bind fun a ha => meets_pure (hf a ha)
  rwa [List.append_nil] at h

end

theorem meets_register (number : Option Nat) (node : Node) {d : Datum} (hd : d.IsPlain) :
    Meets (register number node d) (anchorMarks number) fun _ => True := by
  intro s hs
  cases number with
  | none => exact .inl ⟨(), s, rfl, trivial, hs, rfl, rfl⟩
  | some n =>
      have hplain : Expansion.IsPlain { s with anchored := (n, { node, datum := d }) :: s.anchored } :=
        ⟨hs.objects, List.forall_mem_cons.2 ⟨hd, hs.anchored⟩⟩
      exact .inl ⟨(), _, rfl, trivial, hplain, rfl, rfl⟩

theorem meets_complete (number : Option Nat) {d : Datum} (hd : d.IsPlain) :
    Meets (complete number d) [] Datum.IsPlain := by
  intro s hs
  cases number with
  | none => exact .inl ⟨d, s, rfl, hd, hs, rfl, rfl⟩
  | some n =>
      have hplain : Expansion.IsPlain { s with objects := (n, d) :: s.objects } :=
        ⟨List.forall_mem_cons.2 ⟨hd, hs.objects⟩, hs.anchored⟩
      exact .inl ⟨.ref n, _, rfl, trivial, hplain, rfl, rfl⟩

theorem Meets.complete {α : Type} {p : α → Prop} {ms : List Mark} {x : Expand α} {f : α → Datum}
    {number : Option Nat} (hx : Meets x ms p) (hf : ∀ a, p a → (f a).IsPlain) :
    Meets (x >>= fun a => complete number (f a)) ms Datum.IsPlain := by
  have h : Meets (x >>= fun a => Yaml.complete number (f a)) (ms ++ []) Datum.IsPlain :=
    hx.bind fun a ha => meets_complete number (hf a ha)
  rwa [List.append_nil] at h

theorem map_fst_replace (n : Nat) (a : Anchored) (anchored : List (Nat × Anchored)) :
    (replace n a anchored).map Prod.fst = anchored.map Prod.fst := by
  induction anchored with
  | nil => rfl
  | cons entry rest ih =>
      rw [replace]
      split
      · rfl
      · rw [List.map_cons, List.map_cons, ih]

theorem mem_replace {n : Nat} {a : Anchored} {anchored : List (Nat × Anchored)} {p : Nat × Anchored}
    (h : p ∈ replace n a anchored) : p.2 = a ∨ p ∈ anchored := by
  induction anchored with
  | nil => cases h
  | cons entry rest ih =>
      rw [replace] at h
      split at h
      · rcases List.mem_cons.1 h with rfl | h
        · exact .inl rfl
        · exact .inr (List.mem_cons_of_mem _ h)
      · rcases List.mem_cons.1 h with rfl | h
        · exact .inr List.mem_cons_self
        · exact (ih h).imp_right (List.mem_cons_of_mem _)

theorem mem_known_iff {s : Expansion} {n : Nat} : n ∈ s.known ↔ s.anchored.lookup n ≠ none := by
  rw [Expansion.known, Ne, List.lookup_eq_none_iff, List.mem_map]
  simp

theorem run_expandAlias_of_lookup {s : Expansion} {n : Nat} {a : Anchored} (name : String)
    (h : s.anchored.lookup n = some a) : (expandAlias name (some n)).run s = .error .excessive ∨
      ∃ b c : Anchored, (expandAlias name (some n)).run s =
          .ok (a.datum, { s with anchored := replace n b (replace n c s.anchored) }) ∧
        b.datum = a.datum ∧ c.datum = a.datum := by
  simp only [expandAlias, StateT.run_bind, StateT.run_get, pure_bind, h, StateT.run_set]
  split <;> split
  exacts [.inl rfl, .inr ⟨_, _, rfl, rfl, rfl⟩, .inl rfl, .inr ⟨_, _, rfl, rfl, rfl⟩]

theorem meets_expandAlias (name : String) (number : Option Nat) :
    Meets (expandAlias name number) [.alias name number] Datum.IsPlain := by
  intro s hs
  cases number with
  | none => exact .inr (.inl ⟨name, rfl, rfl⟩)
  | some n =>
      cases hlookup : s.anchored.lookup n with
      | none =>
          have hunknown : ¬ n ∈ s.known := fun h => mem_known_iff.1 h hlookup
          refine .inr (.inl ⟨name, ?_, if_neg ?_⟩)
          · simp only [expandAlias, StateT.run_bind, StateT.run_get, pure_bind, hlookup]
            rfl
          · simpa using hunknown
      | some a =>
          have hknown : n ∈ s.known := mem_known_iff.2 (by simp [hlookup])
          have ha : a.datum.IsPlain := hs.anchored _ (mem_of_lookup hlookup)
          obtain hrun | ⟨b, c, hrun, hb, hc⟩ := run_expandAlias_of_lookup name hlookup
          · exact .inr (.inr ⟨hrun, name, some n, List.mem_singleton_self _⟩)
          · refine .inl ⟨_, _, hrun, ha, ⟨hs.objects, fun p hp => ?_⟩, if_pos ?_, ?_⟩
            · -- the entry is new, counted, or as before; the first two keep the datum
              obtain hp | hp := mem_replace hp
              · rw [hp, hb]
                exact ha
              · obtain hp | hp := mem_replace hp
                · rw [hp, hc]
                  exact ha
                · exact hs.anchored p hp
            · simpa using hknown
            · rw [Expansion.known, map_fst_replace, map_fst_replace]
              rfl

mutual

theorem meets_expand (node : Node) : Meets (expand node) node.marks Datum.IsPlain := by
  match node with
  | .scalar number content isPlain =>
      have hcontent : (ofContent content).IsPlain := by
        rcases content with _ | _ | _ | _ <;> trivial
      rw [expand, Node.marks]
      exact (meets_register _ _ hcontent).map fun _ _ => hcontent
  | .list number items =>
      rw [expand, Node.marks]
      refine (meets_register _ _ (show (Datum.ref _).IsPlain from trivial)).bind fun _ _ => ?_
      exact (meets_expandItems items).complete fun _ _ => trivial
  | .map number pairs =>
      rw [expand, Node.marks]
      refine (meets_register _ _ (show (Datum.ref _).IsPlain from trivial)).bind fun _ _ => ?_
      refine (meets_expandPairs pairs).complete ?_
      rintro _ ⟨data, rfl⟩
      exact ⟨rfl, _, Entries.inPropertyOrder_mapValues ..⟩
  | .alias name number =>
      rw [expand, Node.marks]
      exact meets_expandAlias name number

theorem meets_expandItems (items : List Node) :
    Meets (expandItems items) (marksOfItems items) fun _ => True := by
  match items with
  | [] =>
      rw [expandItems]
      exact meets_pure trivial
  | n :: ns =>
      rw [expandItems, marksOfItems]
      exact (meets_expand n).bind fun _ _ => (meets_expandItems ns).map fun _ _ => trivial

theorem meets_expandPairs (pairs : List (Node × Option Node)) :
    Meets (expandPairs pairs) (marksOfPairs pairs) fun slots =>
      ∃ data, slots = Entries.mapValues .ok data := by
  match pairs with
  | [] =>
      rw [expandPairs]
      exact meets_pure ⟨[], rfl⟩
  | (k, some v) :: rest =>
      rw [expandPairs, marksOfPairs]
      refine (meets_expand k).bind fun key _ => (meets_expand v).bind fun value _ => ?_
      refine (meets_expandPairs rest).map ?_
      rintro _ ⟨data, rfl⟩
      exact ⟨(keyText k key, value) :: data, rfl⟩
  | (k, none) :: rest =>
      rw [expandPairs, marksOfPairs]
      refine (meets_expand k).bind fun key _ => ?_
      refine (meets_expandPairs rest).map ?_
      rintro _ ⟨data, rfl⟩
      exact ⟨(keyText k key, .null) :: data, rfl⟩

end

theorem getterFault?_of_isPlain {s : Expansion} (hs : s.IsPlain) {root : Datum} (hroot : root.IsPlain) :
    Input.getterFault? ⟨s.objects, root⟩ = none := by
  have hresolved : (root.resolve s.objects).IsPlain := by
    cases root with
    | ref name =>
        rw [Datum.resolve]
        cases hfound : s.objects.find? name with
        | none => trivial
        | some d => exact hs.objects _ (mem_of_lookup hfound)
    | _ => exact hroot
  rw [Input.getterFault?]
  split
  · exact absurd ‹_› (hresolved.property?_ne_error _ _)
  · rfl

namespace Document

variable {d : Document}

theorem data_cases (d : Document) :
    (∃ input, d.data = .ok input ∧ input.getterFault? = none ∧ unresolved? [] d.node.marks = none) ∨
      (∃ name, d.data = .error (.unresolved name) ∧ unresolved? [] d.node.marks = some name) ∨
      (d.data = .error .excessive ∧ ∃ name number, .alias name number ∈ d.node.marks) := by
  have hempty : Expansion.IsPlain {} := ⟨by simp, by simp⟩
  rw [data]
  obtain ⟨root, s, hrun, hroot, hs, hnone, -⟩ | ⟨name, hrun, hsome⟩ | ⟨hrun, hmem⟩ :=
    meets_expand d.node {} hempty
  · refine .inl ⟨⟨s.objects, root⟩, ?_, getterFault?_of_isPlain hs hroot, hnone⟩
    rw [hrun]
    rfl
  · refine .inr (.inl ⟨name, ?_, hsome⟩)
    rw [hrun]
    rfl
  · refine .inr (.inr ⟨?_, hmem⟩)
    rw [hrun]
    rfl

def Expands (d : Document) : Prop :=
  (∀ name, .alias name none ∉ d.node.marks) ∧ d.data ≠ .error .excessive

theorem expands_iff (hback : RefersBack [] d.node.marks) : d.Expands ↔ ∃ input, d.data = .ok input := by
  rw [Expands, ← unresolved?_eq_none_iff hback]
  obtain ⟨input, hdata, -, hnone⟩ | ⟨name, hdata, hsome⟩ | ⟨hdata, -⟩ := d.data_cases
  · simp [hdata, hnone]
  · simp [hdata, hsome]
  · simp [hdata]

theorem getterFault?_of_data {input : Input} (h : d.data = .ok input) : input.getterFault? = none := by
  obtain ⟨other, hdata, hgetter, -⟩ | ⟨name, hdata, -⟩ | ⟨hdata, -⟩ := d.data_cases
  all_goals rw [h] at hdata
  · cases hdata
    exact hgetter
  · cases hdata
  · cases hdata

end Document

end Yaml

end RecordSieve
