import RecordSieve.Proofs.Json.Grammar
import RecordSieve.Proofs.Outcome

namespace RecordSieve

namespace Json

theorem exists_digits_of_isInteger {cs : List Char} (h : isInteger cs = true) :
    ∃ negative digits, splitSign cs = (negative, digits) ∧ digits ≠ [] ∧ digits.all Char.isDigit = true := by
  unfold isInteger at h
  split at h <;> rename_i hsign <;> obtain ⟨hne, hdigits⟩ := Bool.and_eq_true_iff.1 h
  · exact ⟨true, _, rfl, by simpa using hne, hdigits⟩
  · obtain ⟨d, ds, rfl, hplus, -⟩ := exists_cons_of_digits (by simpa using hne) hdigits
    exact ⟨false, d :: ds, by simp [splitSign, hplus], by simp, hdigits⟩

theorem numberOf_isInteger {cs : List Char} (h : isInteger cs = true) : ∃ negative n,
    numberOf cs = match (Decimal.toBinary64 ⟨negative, n, 0⟩).safeInteger? with
      | some _ => .float (Decimal.toBinary64 ⟨negative, n, 0⟩)
      | none => .integer (Binary64.signed negative n) := by
  obtain ⟨negative, digits, hsign, hne, hdigits⟩ := exists_digits_of_isInteger h
  obtain ⟨htake, hdrop⟩ := takeWhile_isDigit_append [] hdigits (by simp)
  rw [List.append_nil] at htake hdrop
  have hparse : Decimal.parse? cs = some ⟨negative, digitsValue digits, 0⟩ := by
    simp [Decimal.parse?, hsign, unsignedDecimal?, htake, hdrop, hne, exponentOf?]
  have hinteger : integer? cs = some (Binary64.signed negative (digitsValue digits)) := by
    rw [integer?, hsign]
    exact if_pos ⟨hne, hdigits⟩
  refine ⟨negative, digitsValue digits, ?_⟩
  rw [numberOf, hparse, hinteger]
  exact if_pos h

theorem not_isSafe_of_numberOf {cs : List Char} {n : Int} (h : numberOf cs = .integer n) :
    isSafe n = false := by
  by_cases hinteger : isInteger cs = true
  · obtain ⟨negative, k, hread⟩ := numberOf_isInteger hinteger
    rw [hread] at h
    split at h
    · cases h
    · rename_i hunsafe
      cases h
      rw [isSafe_signed, decide_eq_false_iff_not]
      intro hlt
      rw [safeInteger?_toBinary64, if_pos hlt] at hunsafe
      cases hunsafe
  · rw [numberOf, if_neg hinteger] at h
    cases h

def isReadNode : Json → Bool
  | .number (.integer n) => !isSafe n
  | j => j.hasOrderedKeys

theorem isReadNode_numberOf (cs : List Char) : isReadNode (.number (numberOf cs)) = true := by
  cases h : numberOf cs with
  | integer n => rw [isReadNode, not_isSafe_of_numberOf h]; rfl
  | float => rfl

theorem isReadNode_of_beginning? {cs rest : List Char} {j : Json}
    (h : beginning? cs = .ok (some (.scalar j, rest))) : j.everywhere isReadNode = true := by
  unfold beginning? at h
  split at h
  · obtain ⟨_, -, h⟩ := Except.map_eq_ok_iff.1 h
    cases h
    rfl
  · cases h
  · cases h
  · obtain ⟨⟨taken, more⟩, -, h⟩ := Except.map_eq_ok_iff.1 h
    dsimp only at h
    split at h
    · unfold word? at h
      split at h <;> cases h <;> rfl
    · cases h
      exact isReadNode_numberOf taken

theorem hasOrderedKeys_of_isReadNode {j : Json} (h : j.isReadNode = true) : j.hasOrderedKeys = true := by
  cases j with
  | object => exact h
  | _ => rfl

theorem isReadNode_object {properties : List (String × Json)} :
    isReadNode (.object properties) = true ↔ Entries.Distinct properties ∧ Entries.InOrder properties := by
  simp [isReadNode, hasOrderedKeys]

theorem everywhere_addMember? {key : String} {j : Json} {before members : Entries Json}
    (h : addMember? key j before = some members) (hj : j.everywhere isReadNode = true)
    (hbefore : (Json.object before).everywhere isReadNode = true) :
    (Json.object members).everywhere isReadNode = true := by
  obtain ⟨hkeys, hall⟩ := everywhere_object.1 hbefore
  obtain ⟨hdistinct, hordered⟩ := isReadNode_object.1 hkeys
  rw [eq_define_of_addMember? h]
  refine everywhere_object.2 ⟨isReadNode_object.2
    ⟨Entries.distinct_define key j hdistinct, Entries.inOrder_define key j hordered⟩, fun e he => ?_⟩
  rcases Entries.mem_define he with he | he
  · exact hall e he
  · rwa [he]

def Frame.IsRead : Frame → Prop
  | .array before => ∀ j ∈ before, j.everywhere isReadNode = true
  | .object before _ _ => (Json.object before).everywhere isReadNode = true

theorem isRead_nil : (Frame.array []).IsRead := List.forall_mem_nil _

theorem everywhere_array_reverse {items : List Json} (h : ∀ j ∈ items, j.everywhere isReadNode = true) :
    (Json.array items.reverse).everywhere isReadNode = true :=
  everywhere_array.2 ⟨rfl, fun j hj => h j (List.mem_reverse.1 hj)⟩

-- Each step leaves the stack with frames of read nodes, and takes characters off the text.
mutual

theorem everywhere_readValue {stack : List Frame} {cs : List Char} {j : Json} (hs : ∀ f ∈ stack, f.IsRead)
    (h : readValue stack cs = .ok j) : j.everywhere isReadNode = true := by
  rw [readValue] at h
  split at h
  · cases h
  · cases h
  · rename_i hb
    exact everywhere_readAfter hs (isReadNode_of_beginning? hb) h
  · split at h
    · cases h
    · split at h
      · exact everywhere_readAfter hs rfl h
      · exact everywhere_readValue (List.forall_mem_cons.2 ⟨isRead_nil, hs⟩) h
  · split at h
    · cases h
    · split at h
      · exact everywhere_readAfter hs rfl h
      · exact everywhere_readMember hs rfl h
  termination_by cs.length
  decreasing_by
    all_goals
      have := length_beginning? ‹beginning? (skipSpace cs) = .ok (some (_, _))›
      have := length_skipSpace_le cs
    · omega
    all_goals
      have := length_of_skipSpace ‹skipSpace _ = _ :: _›
      try simp only [List.length_cons]
      omega

theorem everywhere_readMember {stack : List Frame} {before : Entries Json} {cs : List Char} {j : Json}
    (hs : ∀ f ∈ stack, f.IsRead) (hbefore : (Json.object before).everywhere isReadNode = true)
    (h : readMember stack before cs = .ok j) : j.everywhere isReadNode = true := by
  have hframe : ∀ key mark, (Frame.object before key mark).IsRead := fun _ _ => hbefore
  rw [readMember] at h
  split at h
  · cases h
  · exact everywhere_readValue (List.forall_mem_cons.2 ⟨hframe _ _, hs⟩) h
  termination_by cs.length
  decreasing_by
    have := length_memberKey ‹memberKey (skipSpace cs) = .ok (_, _, _)›
    have := length_skipSpace_le cs
    omega

theorem everywhere_readAfter {stack : List Frame} {k : Json} {cs : List Char} {j : Json}
    (hs : ∀ f ∈ stack, f.IsRead) (hk : k.everywhere isReadNode = true)
    (h : readAfter stack k cs = .ok j) : j.everywhere isReadNode = true := by
  rw [readAfter.eq_def] at h
  split at h
  · split at h
    · cases h
      exact hk
    · cases h
  · obtain ⟨hbefore, houter⟩ := List.forall_mem_cons.1 hs
    have hitems : (Frame.array (k :: _)).IsRead := List.forall_mem_cons.2 ⟨hk, hbefore⟩
    split at h
    · cases h
    · split at h
      · exact everywhere_readValue (List.forall_mem_cons.2 ⟨hitems, houter⟩) h
      · split at h
        · exact everywhere_readAfter houter (everywhere_array_reverse hitems) h
        · cases h
  · obtain ⟨hbefore, houter⟩ := List.forall_mem_cons.1 hs
    split at h
    · cases h
    · rename_i hadd
      have hmembers := everywhere_addMember? hadd hk hbefore
      split at h
      · cases h
      · split at h
        · exact everywhere_readMember houter hmembers h
        · split at h
          · exact everywhere_readAfter houter hmembers h
          · cases h
  termination_by cs.length
  decreasing_by
    all_goals exact length_of_skipSpace ‹skipSpace cs = _ :: _›

end

theorem everywhere_of_parse {s : String} {j : Json} (h : parse s = .ok j) : j.everywhere isReadNode = true :=
  everywhere_readValue (List.forall_mem_nil _) (Except.mapError_eq_ok_iff.1 h)

end Json

end RecordSieve
