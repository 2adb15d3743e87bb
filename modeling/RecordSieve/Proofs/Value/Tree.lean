import RecordSieve.Proofs.Entries
import RecordSieve.Proofs.Value.Recoding

namespace RecordSieve

inductive Layer (α : Type) where
  | leaf (value : Value)
  | list (items : List α)
  | keyed (entries : Entries α)

namespace Layer

variable {α β : Type}

def parts : Layer α → List α
  | .leaf _ => []
  | .list items => items
  | .keyed entries => entries.map Prod.snd

def map (f : α → β) : Layer α → Layer β
  | .leaf v => .leaf v
  | .list items => .list (items.map f)
  | .keyed entries => .keyed (entries.mapValues f)

def shape (layer : Layer α) : Layer Unit := layer.map fun _ => ()

theorem parts_map (f : α → β) (layer : Layer α) : (layer.map f).parts = layer.parts.map f := by
  cases layer with
  | leaf v => rfl
  | list items => rfl
  | keyed entries => simp [map, parts, Entries.mapValues]

theorem map_map {γ : Type} (g : β → γ) (f : α → β) (layer : Layer α) :
    (layer.map f).map g = layer.map (g ∘ f) := by
  cases layer with
  | leaf v => rfl
  | list items => rw [map, map, List.map_map, map]
  | keyed entries => rw [map, map, Entries.mapValues_mapValues, map]

theorem shape_map (f : α → β) (layer : Layer α) : (layer.map f).shape = layer.shape := by
  rw [shape, map_map]
  rfl

theorem length_parts (layer : Layer α) : layer.parts.length = layer.shape.parts.length := by
  rw [shape, parts_map, List.length_map]

theorem keys_of_shape {entries others : Entries α} (h : (keyed entries).shape = (keyed others).shape) :
    entries.map Prod.fst = others.map Prod.fst := by
  have hvalues : entries.mapValues (fun _ => ()) = others.mapValues (fun _ => ()) := by
    simpa only [shape, map, keyed.injEq] using h
  rw [← Entries.keys_mapValues (fun _ => ()), hvalues, Entries.keys_mapValues]

theorem eq_of_parts {layer other : Layer α} (hshape : layer.shape = other.shape)
    (hparts : layer.parts = other.parts) : layer = other := by
  cases layer <;> cases other
  case keyed.keyed entries others =>
    have hentries := List.zip_of_prod (keys_of_shape hshape) hparts
    exact congrArg keyed (hentries.trans (List.zip_of_prod rfl rfl).symm)
  all_goals simp_all [shape, map, parts]

end Layer

def follow {α : Type} (parts : α → List α) (a : α) : List Nat → Option α
  | [] => some a
  | i :: path => (parts a)[i]?.bind fun part => follow parts part path

section Paths

variable {α β : Type} {parts : α → List α}

theorem follow_append (a : α) (path below : List Nat) :
    follow parts a (path ++ below) = (follow parts a path).bind (follow parts · below) := by
  induction path generalizing a with
  | nil => rfl
  | cons i path ih =>
      rw [List.cons_append, follow, follow]
      cases (parts a)[i]? with
      | none => rfl
      | some part => exact ih part

theorem follow_map {parts' : β → List β} {f : α → β} (h : ∀ a, parts' (f a) = (parts a).map f)
    (a : α) (path : List Nat) : follow parts' (f a) path = (follow parts a path).map f := by
  induction path generalizing a with
  | nil => rfl
  | cons i path ih =>
      rw [follow, follow, h, List.getElem?_map]
      cases (parts a)[i]? with
      | none => rfl
      | some part => exact ih part

end Paths

def IsAbove (above path : List Nat) : Prop := above <+: path ∧ above ≠ path

theorem not_isAbove_nil (above : List Nat) : ¬IsAbove above [] := fun h =>
  h.2 (List.prefix_nil.1 h.1)

theorem isAbove_cons {above path : List Nat} {i : Nat} :
    IsAbove above (i :: path) ↔ above = [] ∨ ∃ above', above = i :: above' ∧ IsAbove above' path := by
  rw [IsAbove, List.prefix_cons_iff]
  constructor
  · rintro ⟨rfl | ⟨above', rfl, hprefix⟩, hne⟩
    · exact .inl rfl
    · exact .inr ⟨above', rfl, hprefix, fun heq => hne (heq ▸ rfl)⟩
  · rintro (rfl | ⟨above', rfl, hprefix, hne⟩)
    · exact ⟨.inl rfl, by simp⟩
    · exact ⟨.inr ⟨above', rfl, hprefix⟩, by simpa using hne⟩

theorem isAbove_append {above path below : List Nat} :
    IsAbove above (path ++ below) ↔
      IsAbove above path ∨ ∃ above', above = path ++ above' ∧ IsAbove above' below := by
  induction path generalizing above with
  | nil => simp [not_isAbove_nil]
  | cons i path ih =>
      rw [List.cons_append, isAbove_cons, isAbove_cons, or_assoc]
      refine or_congr_right ?_
      constructor
      · rintro ⟨above, rfl, habove⟩
        rcases ih.1 habove with habove | ⟨above', rfl, habove'⟩
        · exact .inl ⟨above, rfl, habove⟩
        · exact .inr ⟨above', rfl, habove'⟩
      · rintro (⟨above, rfl, habove⟩ | ⟨above', rfl, habove'⟩)
        · exact ⟨above, rfl, ih.2 (.inl habove)⟩
        · exact ⟨path ++ above', rfl, ih.2 (.inr ⟨above', rfl, habove'⟩)⟩

namespace Value

def layer : Value → Layer Value
  | .list items => .list items
  | .map entries => .keyed entries
  | v => .leaf v

def parts (v : Value) : List Value := v.layer.parts

def at? (v : Value) (path : List Nat) : Option Value := follow parts v path

theorem at?_append (v : Value) (path below : List Nat) :
    v.at? (path ++ below) = (v.at? path).bind (·.at? below) := follow_append v path below

theorem layer_injective {v w : Value} (h : v.layer = w.layer) : v = w := by
  cases v <;> cases w <;> simp_all [layer]

@[elab_as_elim]
theorem byLayer {motive : Value → Prop} (h : ∀ v, (∀ part ∈ v.parts, motive part) → motive v)
    (v : Value) : motive v := by
  induction v using byParts with
  | list items ih => exact h _ ih
  | map entries ih =>
      refine h _ fun part hin => ?_
      obtain ⟨e, he, rfl⟩ := List.mem_map.1 hin
      exact ih e he
  | _ => exact h _ (by simp [parts, layer, Layer.parts])

theorem eq_of_shapes {v w : Value}
    (h : ∀ path, (v.at? path).map (·.layer.shape) = (w.at? path).map (·.layer.shape)) : v = w := by
  induction v using byLayer generalizing w with
  | h v ih =>
      have hshape : v.layer.shape = w.layer.shape := Option.some_inj.1 (h [])
      have hlength : v.parts.length = w.parts.length := by
        rw [parts, parts, v.layer.length_parts, w.layer.length_parts, hshape]
      have hparts : v.parts = w.parts := by
        refine List.ext_getElem hlength fun i hi hi' => ih _ (List.getElem_mem hi) fun path => ?_
        have hpath := h (i :: path)
        simpa only [at?, follow, List.getElem?_eq_getElem hi, List.getElem?_eq_getElem hi',
          Option.bind_some] using hpath
      exact layer_injective (Layer.eq_of_parts hshape hparts)

end Value

end RecordSieve
