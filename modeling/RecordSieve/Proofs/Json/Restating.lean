import RecordSieve.Proofs.Datum.Record

namespace RecordSieve.Json

section

variable (R : Number → Number → Prop)

mutual

/-- The same data, some of its numbers being exchanged for related ones. -/
inductive Restates : Json → Json → Prop
  | same (j : Json) : Restates j j
  | number {m n : Number} : R m n → Restates (.number m) (.number n)
  | array {js ks : List Json} : RestatesIn js ks → Restates (.array js) (.array ks)
  | object {ps qs : List (String × Json)} : RestatesUnder ps qs → Restates (.object ps) (.object qs)

inductive RestatesIn : List Json → List Json → Prop
  | nil : RestatesIn [] []
  | cons {j k : Json} {js ks : List Json} : Restates j k → RestatesIn js ks →
      RestatesIn (j :: js) (k :: ks)

inductive RestatesUnder : List (String × Json) → List (String × Json) → Prop
  | nil : RestatesUnder [] []
  | cons {key : String} {j k : Json} {ps qs : List (String × Json)} : Restates j k →
      RestatesUnder ps qs → RestatesUnder ((key, j) :: ps) ((key, k) :: qs)

end

structure IsBlind {α : Type} (f : Json → α) : Prop where
  number : ∀ {m n : Number}, R m n → f (.number m) = f (.number n)
  array : ∀ {js ks : List Json}, js.map f = ks.map f → f (.array js) = f (.array ks)
  object : ∀ {ps qs : List (String × Json)}, Entries.mapValues f ps = Entries.mapValues f qs →
    f (.object ps) = f (.object qs)

end

variable {R : Number → Number → Prop} {α : Type} {f : Json → α}

mutual

theorem Restates.congr (hf : IsBlind R f) {j k : Json} : Restates R j k → f j = f k
  | .same _ => rfl
  | .number h => hf.number h
  | .array h => hf.array (h.congr hf)
  | .object h => hf.object (h.congr hf)

theorem RestatesIn.congr (hf : IsBlind R f) {js ks : List Json} :
    RestatesIn R js ks → js.map f = ks.map f
  | .nil => rfl
  | .cons h hs => by rw [List.map_cons, List.map_cons, h.congr hf, hs.congr hf]

theorem RestatesUnder.congr (hf : IsBlind R f) {ps qs : List (String × Json)} :
    RestatesUnder R ps qs → Entries.mapValues f ps = Entries.mapValues f qs
  | .nil => rfl
  | .cons h hs => by rw [Entries.mapValues_cons, Entries.mapValues_cons, h.congr hf, hs.congr hf]

end

theorem RestatesUnder.find? (hf : ∀ {j k}, Restates R j k → f j = f k) (name : String)
    {ps qs : List (String × Json)} (h : RestatesUnder R ps qs) :
    (Entries.find? name ps).map f = (Entries.find? name qs).map f := by
  induction ps generalizing qs with
  | nil =>
      cases h
      rfl
  | cons p ps ih =>
      cases h with
      | @cons key _ _ _ _ h hs =>
          rw [Entries.find?, Entries.find?]
          by_cases hkey : key = name
          · rw [if_pos hkey, if_pos hkey, Option.map_some, Option.map_some, hf h]
          · rw [if_neg hkey, if_neg hkey, ih hs]

theorem Restates.property? (hf : ∀ {j k}, Restates R j k → f j = f k) (name : String) {j k : Json}
    (h : Restates R j k) : (j.property? name).map f = (k.property? name).map f := by
  cases h with
  | same | number | array => rfl
  | object h => exact h.find? hf name

end RecordSieve.Json
