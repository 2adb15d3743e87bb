import RecordSieve.Yaml.Node

namespace RecordSieve.Yaml

inductive Mark where
  | anchor (number : Nat)
  | alias (name : String) (number : Option Nat)

def anchorMarks (number : Option Nat) : List Mark := (number.map .anchor).toList

mutual

def Node.marks : Node → List Mark
  | .scalar number _ _ => anchorMarks number
  | .list number items => anchorMarks number ++ marksOfItems items
  | .map number pairs => anchorMarks number ++ marksOfPairs pairs
  | .alias name number => [.alias name number]

def marksOfItems : List Node → List Mark
  | [] => []
  | n :: ns => n.marks ++ marksOfItems ns

def marksOfPairs : List (Node × Option Node) → List Mark
  | [] => []
  | (k, some v) :: rest => k.marks ++ (v.marks ++ marksOfPairs rest)
  | (k, none) :: rest => k.marks ++ marksOfPairs rest

end

theorem marksOfItems_concat (items : List Node) (n : Node) :
    marksOfItems (items ++ [n]) = marksOfItems items ++ n.marks := by
  induction items with
  | nil => simp [marksOfItems]
  | cons m items ih => simp [marksOfItems, ih]

def marksOfValue (value : Option Node) : List Mark := (value.map Node.marks).getD []

theorem marksOfPairs_concat (pairs : List (Node × Option Node)) (key : Node) (value : Option Node) :
    marksOfPairs (pairs ++ [(key, value)]) = marksOfPairs pairs ++ key.marks ++ marksOfValue value := by
  induction pairs with
  | nil => cases value <;> simp [marksOfPairs, marksOfValue]
  | cons p pairs ih =>
      obtain ⟨k, v⟩ := p
      cases v <;> simp [marksOfPairs, ih]

theorem mem_of_lookup {κ α : Type} [BEq κ] [LawfulBEq κ] {entries : List (κ × α)} {key : κ} {a : α}
    (h : entries.lookup key = some a) : (key, a) ∈ entries := by
  obtain ⟨before, after, rfl, -⟩ := List.lookup_eq_some_iff.1 h
  exact List.mem_append_right _ List.mem_cons_self

def knownBehind (known : List Nat) : List Mark → List Nat
  | [] => known
  | .anchor n :: ms => knownBehind (n :: known) ms
  | .alias _ _ :: ms => knownBehind known ms

theorem knownBehind_append (known : List Nat) (ms others : List Mark) :
    knownBehind known (ms ++ others) = knownBehind (knownBehind known ms) others := by
  induction ms generalizing known with
  | nil => rfl
  | cons m ms ih => cases m <;> exact ih _

def RefersBack (known : List Nat) : List Mark → Prop
  | [] => True
  | .anchor n :: ms => RefersBack (n :: known) ms
  | .alias _ number :: ms => (∀ n, number = some n → n ∈ known) ∧ RefersBack known ms

theorem refersBack_append {known : List Nat} {ms others : List Mark} :
    RefersBack known (ms ++ others) ↔ RefersBack known ms ∧ RefersBack (knownBehind known ms) others := by
  induction ms generalizing known with
  | nil => simp [RefersBack, knownBehind]
  | cons m ms ih =>
      cases m with
      | anchor n => exact ih
      | «alias» name number => exact (and_congr_right fun _ => ih).trans and_assoc.symm

def unresolved? (known : List Nat) : List Mark → Option String
  | [] => none
  | .anchor n :: ms => unresolved? (n :: known) ms
  | .alias name number :: ms =>
      if number.any (· ∈ known) then unresolved? known ms else some name

theorem unresolved?_append (known : List Nat) (ms others : List Mark) :
    unresolved? known (ms ++ others) =
      (unresolved? known ms).or (unresolved? (knownBehind known ms) others) := by
  induction ms generalizing known with
  | nil => rfl
  | cons m ms ih =>
      cases m with
      | anchor n => exact ih _
      | «alias» name number =>
          rw [List.cons_append, unresolved?, unresolved?]
          split
          · exact ih _
          · rfl

theorem unresolved?_eq_none_iff {known : List Nat} {ms : List Mark} (h : RefersBack known ms) :
    unresolved? known ms = none ↔ ∀ name, .alias name none ∉ ms := by
  induction ms generalizing known with
  | nil => simp [unresolved?]
  | cons m ms ih =>
      cases m with
      | anchor n =>
          rw [unresolved?, ih h]
          simp
      | «alias» name number =>
          obtain ⟨hnumber, hrest⟩ := h
          cases number with
          | none =>
              have hsome : unresolved? known (.alias name none :: ms) = some name := rfl
              exact iff_of_false (by simp [hsome]) fun h => h name List.mem_cons_self
          | some n =>
              have hany : (some n).any (· ∈ known) = true := decide_eq_true (hnumber n rfl)
              rw [unresolved?, if_pos hany, ih hrest]
              simp

end RecordSieve.Yaml
