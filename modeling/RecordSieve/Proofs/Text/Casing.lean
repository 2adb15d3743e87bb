import RecordSieve.Proofs.Value.Operand
import Mathlib.Data.List.Infix

namespace RecordSieve

namespace Text

theorem occursIn_iff {part whole : List Char} : occursIn part whole = true ↔ part <:+: whole := by
  induction whole with
  | nil => rw [occursIn, List.isEmpty_iff, List.infix_nil]
  | cons c cs ih => rw [occursIn, Bool.or_eq_true, List.isPrefixOf_iff_prefix, ih, List.infix_cons_iff]

theorem contains_iff {whole part : String} : contains whole part = true ↔ part.toList <:+: whole.toList :=
  occursIn_iff

/-- Whether a capital sigma between two texts takes its final form, the text before it being reversed. -/
def isFinalBetween (before after : List Char) : Bool := meetsCased before && !meetsCased after

def finalForms (before : List Char) : List Char → List Char → List Bool
  | [], _ => []
  | c :: cs, after =>
      if c.toNat = 0x3a3 then isFinalBetween before (cs ++ after) :: finalForms (c :: before) cs after
      else finalForms (c :: before) cs after

def lowerBetween (before : List Char) : List Char → List Char → List Char
  | [], _ => []
  | c :: cs, after =>
      (if c.toNat = 0x3a3 then [Char.ofNat (if isFinalBetween before (cs ++ after) then 0x3c2 else 0x3c3)]
        else lowerChar c) ++ lowerBetween (c :: before) cs after

theorem lowerFrom_append (before cs after : List Char) : lowerFrom before (cs ++ after) =
    lowerBetween before cs after ++ lowerFrom (cs.reverse ++ before) after := by
  induction cs generalizing before with
  | nil => rfl
  | cons c cs ih =>
      rw [List.cons_append, lowerFrom, ih, lowerBetween, List.reverse_cons, List.append_assoc,
        List.append_assoc, List.singleton_append]
      rfl

theorem lowerFrom_eq (before cs : List Char) : lowerFrom before cs = lowerBetween before cs [] := by
  have happend := lowerFrom_append before cs []
  rwa [List.append_nil, lowerFrom, List.append_nil] at happend

section Between

variable (before before' after after' : List Char)

theorem length_lowerBetween (cs : List Char) :
    (lowerBetween before cs after).length = (lowerBetween before' cs after').length := by
  induction cs generalizing before before' with
  | nil => rfl
  | cons c cs ih =>
      rw [lowerBetween, lowerBetween, List.length_append, List.length_append, ih (c :: before) (c :: before')]
      split <;> rfl

theorem lowerBetween_eq_iff (cs : List Char) : lowerBetween before cs after = lowerBetween before' cs after' ↔
    finalForms before cs after = finalForms before' cs after' := by
  induction cs generalizing before before' with
  | nil => exact iff_of_true rfl rfl
  | cons c cs ih =>
      rw [lowerBetween, lowerBetween, finalForms, finalForms]
      by_cases hc : c.toNat = 0x3a3
      · simp only [if_pos hc, List.singleton_append, List.cons.injEq, ih (c :: before) (c :: before')]
        refine and_congr_left fun _ => ?_
        cases isFinalBetween before (cs ++ after) <;> cases isFinalBetween before' (cs ++ after') <;> decide
      · simp only [if_neg hc, List.append_cancel_left_eq, ih (c :: before) (c :: before')]

end Between

theorem meetsCased_append (cs ds : List Char) :
    meetsCased (cs ++ ds) = if cs.all isCaseIgnorable then meetsCased ds else meetsCased cs := by
  induction cs with
  | nil => rfl
  | cons c cs ih =>
      by_cases hc : isCaseIgnorable c = true
      · simpa only [meetsCased, List.cons_append, List.dropWhile_cons_of_pos hc, List.all_cons, hc,
          Bool.true_and] using ih
      · simp [meetsCased, List.dropWhile_cons_of_neg hc, hc]

theorem meetsCased_of_all {cs : List Char} (h : cs.all isCaseIgnorable = true) : meetsCased cs = false := by
  have happend := meetsCased_append cs []
  rwa [List.append_nil, if_pos h] at happend

def isSettledBetween (before after : List Char) : Bool :=
  meetsCased after ||
    (!before.all isCaseIgnorable && (!meetsCased before || !after.all isCaseIgnorable))

def settlesSigmas (before : List Char) : List Char → Bool
  | [] => true
  | c :: cs => (c.toNat != 0x3a3 || isSettledBetween before cs) && settlesSigmas (c :: before) cs

theorem meetsCased_append_of_meets {cs : List Char} (h : meetsCased cs = true) (ds : List Char) :
    meetsCased (cs ++ ds) = true := by
  rw [meetsCased_append]
  split
  · rename_i hall
    rw [meetsCased_of_all hall] at h
    cases h
  · exact h

theorem isFinalBetween_append {before after : List Char} (h : isSettledBetween before after = true)
    (farther beyond : List Char) :
    isFinalBetween (before ++ farther) (after ++ beyond) = isFinalBetween before after := by
  rw [isFinalBetween, isFinalBetween]
  rcases Bool.or_eq_true_iff.1 h with hafter | hbefore
  · rw [hafter, meetsCased_append_of_meets hafter, Bool.not_true, Bool.and_false, Bool.and_false]
  · obtain ⟨hstops, hrest⟩ := Bool.and_eq_true_iff.1 hbefore
    rw [meetsCased_append before, if_neg (by simpa using hstops)]
    rcases Bool.or_eq_true_iff.1 hrest with huncased | hstops'
    · have huncased : meetsCased before = false := by simpa using huncased
      rw [huncased, Bool.false_and, Bool.false_and]
    · rw [meetsCased_append after, if_neg (by simpa using hstops')]

theorem isFinalBetween_ne {before after : List Char} (h : isSettledBetween before after = false) :
    (∀ x, meetsCased [x] = true → isFinalBetween before (after ++ [x]) ≠ isFinalBetween before after) ∨
      ∀ x, meetsCased [x] = true → isFinalBetween (before ++ [x]) after ≠ isFinalBetween before after := by
  obtain ⟨hafter, hopen⟩ := Bool.or_eq_false_iff.1 h
  simp only [isFinalBetween, meetsCased_append, hafter]
  rcases Bool.and_eq_false_iff.1 hopen with hbefore | hrest
  · have hall : before.all isCaseIgnorable = true := by simpa using hbefore
    refine .inr fun x hx => ?_
    simp [hall, hx, meetsCased_of_all hall]
  · obtain ⟨hcased, hall⟩ := Bool.or_eq_false_iff.1 hrest
    have hcased : meetsCased before = true := by simpa using hcased
    have hall : after.all isCaseIgnorable = true := by simpa using hall
    refine .inl fun x hx => ?_
    simp [hall, hx, hcased]

theorem finalForms_of_settlesSigmas {before cs : List Char} (h : settlesSigmas before cs = true)
    (farther after : List Char) : finalForms (before ++ farther) cs after = finalForms before cs [] := by
  induction cs generalizing before with
  | nil => rfl
  | cons c cs ih =>
      obtain ⟨hc, hcs⟩ := Bool.and_eq_true_iff.1 h
      have hrest := ih hcs
      rw [List.cons_append] at hrest
      rw [finalForms, finalForms, hrest, List.append_nil]
      by_cases hsigma : c.toNat = 0x3a3
      · have hsettled : isSettledBetween before cs = true := by simpa [hsigma] using hc
        rw [isFinalBetween_append hsettled]
      · rw [if_neg hsigma, if_neg hsigma]

theorem finalForms_ne {before cs : List Char} (h : settlesSigmas before cs = false) :
    (∀ x, meetsCased [x] = true → finalForms before cs [x] ≠ finalForms before cs []) ∨
      ∀ x, meetsCased [x] = true → finalForms (before ++ [x]) cs [] ≠ finalForms before cs [] := by
  induction cs generalizing before with
  | nil => cases h
  | cons c cs ih =>
      simp only [finalForms, List.append_nil]
      rcases Bool.and_eq_false_iff.1 h with hc | hcs
      · obtain ⟨hsigma, hopen⟩ := Bool.or_eq_false_iff.1 hc
        have hsigma : c.toNat = 0x3a3 := by simpa using hsigma
        simp only [if_pos hsigma, ne_eq, List.cons.injEq, not_and_or]
        exact (isFinalBetween_ne hopen).imp (fun hx x hcased => .inl (hx x hcased))
          fun hx x hcased => .inl (hx x hcased)
      · have hrest := ih hcs
        by_cases hsigma : c.toNat = 0x3a3
        · simp only [if_pos hsigma, ne_eq, List.cons.injEq, not_and_or]
          exact hrest.imp (fun hx x hcased => .inr (hx x hcased)) fun hx x hcased => .inr (hx x hcased)
        · simp only [if_neg hsigma]
          exact hrest

/-- Somewhere in a text another one occurs with each of its capital sigmas in the form that it has in the
other text alone. -/
def OccursInForm (part whole : List Char) : Prop :=
  ∃ before after, whole = before ++ part ++ after ∧
    finalForms before.reverse part after = finalForms [] part []

variable {part whole : List Char}

theorem lowerFrom_infix (h : OccursInForm part whole) : lowerFrom [] part <:+: lowerFrom [] whole := by
  obtain ⟨before, after, rfl, hforms⟩ := h
  have hpart := (lowerBetween_eq_iff before.reverse [] after [] part).2 hforms
  rw [List.append_assoc, lowerFrom_append, lowerFrom_append, List.append_nil, hpart, ← lowerFrom_eq]
  exact ⟨_, _, List.append_assoc _ _ _⟩

theorem occursInForm_of_settlesSigmas (hpart : settlesSigmas [] part = true) (h : part <:+: whole) :
    OccursInForm part whole := by
  obtain ⟨before, after, rfl⟩ := h
  exact ⟨before, after, rfl, finalForms_of_settlesSigmas hpart before.reverse after⟩

section Overlap

variable {α : Type} {xs ys : List α} {x : α} (hlength : xs.length = ys.length) (hne : xs ≠ ys)

include hlength hne

theorem getLast?_of_infix_concat (h : xs <:+: ys ++ [x]) : xs.getLast? = some x := by
  rcases List.infix_concat_iff.1 h with hsuffix | hinside
  · rcases List.suffix_concat_iff.1 hsuffix with rfl | ⟨front, rfl, -⟩
    · exact absurd (List.length_eq_zero_iff.1 hlength.symm).symm hne
    · exact List.getLast?_concat
  · exact absurd (hinside.eq_of_length hlength) hne

theorem head?_of_infix_cons (h : xs <:+: x :: ys) : xs.head? = some x := by
  rcases List.infix_cons_iff.1 h with hprefix | hinside
  · rcases List.prefix_cons_iff.1 hprefix with rfl | ⟨rest, rfl, -⟩
    · exact absurd (List.length_eq_zero_iff.1 hlength.symm).symm hne
    · rfl
  · exact absurd (hinside.eq_of_length hlength) hne

end Overlap

def IsPlainLetter (x : Char) : Prop :=
  meetsCased [x] = true ∧ ∀ before cs, lowerFrom before (x :: cs) = x :: lowerFrom (x :: before) cs

theorem isPlainLetter_of {x : Char} (hcased : meetsCased [x] = true) (hlower : lowerChar x = [x])
    (hsigma : x.toNat ≠ 0x3a3) : IsPlainLetter x := by
  refine ⟨hcased, fun before cs => ?_⟩
  rw [lowerFrom, if_neg hsigma, hlower, List.singleton_append]

theorem isPlainLetter_a : IsPlainLetter 'a' :=
  isPlainLetter_of (by decide +kernel) (by decide +kernel) (by decide +kernel)

theorem isPlainLetter_b : IsPlainLetter 'b' :=
  isPlainLetter_of (by decide +kernel) (by decide +kernel) (by decide +kernel)

theorem exists_isPlainLetter (o : Option Char) : ∃ x, IsPlainLetter x ∧ o ≠ some x := by
  by_cases ho : o = some 'a'
  · exact ⟨'b', isPlainLetter_b, by rw [ho]; decide⟩
  · exact ⟨'a', isPlainLetter_a, ho⟩

theorem exists_not_lowerFrom_infix (h : settlesSigmas [] part = false) :
    ∃ whole, part <:+: whole ∧ ¬ lowerFrom [] part <:+: lowerFrom [] whole := by
  rcases finalForms_ne h with hforms | hforms
  · obtain ⟨x, ⟨hcased, hlower⟩, hlast⟩ := exists_isPlainLetter (lowerFrom [] part).getLast?
    refine ⟨part ++ [x], (List.prefix_append part [x]).isInfix, fun hinside => hlast ?_⟩
    rw [lowerFrom_append, hlower, lowerFrom] at hinside
    rw [lowerFrom_eq] at hinside ⊢
    refine getLast?_of_infix_concat (length_lowerBetween _ _ _ _ part) (fun heq => ?_) hinside
    exact hforms x hcased ((lowerBetween_eq_iff _ _ _ _ part).1 heq).symm
  · obtain ⟨x, ⟨hcased, hlower⟩, hfirst⟩ := exists_isPlainLetter (lowerFrom [] part).head?
    refine ⟨x :: part, (List.suffix_cons x part).isInfix, fun hinside => hfirst ?_⟩
    rw [hlower, lowerFrom_eq, lowerFrom_eq] at hinside
    rw [lowerFrom_eq]
    refine head?_of_infix_cons (length_lowerBetween _ _ _ _ part) (fun heq => ?_) hinside
    exact hforms x hcased ((lowerBetween_eq_iff _ _ _ _ part).1 heq).symm

theorem settlesSigmas_iff : settlesSigmas [] part = true ↔
    ∀ whole, part <:+: whole → lowerFrom [] part <:+: lowerFrom [] whole := by
  constructor
  · exact fun hpart whole h => lowerFrom_infix (occursInForm_of_settlesSigmas hpart h)
  · intro h
    by_contra hopen
    obtain ⟨whole, hinside, hnot⟩ := exists_not_lowerFrom_infix (eq_false_of_ne_true hopen)
    exact hnot (h whole hinside)

end Text

namespace Value

theorem containsIgnoringCase_iff {whole part : String} : containsIgnoringCase whole part = true ↔
    Text.lowerFrom [] part.toList <:+: Text.lowerFrom [] whole.toList := by
  rw [containsIgnoringCase, Text.contains_iff, Text.lower, Text.lower, String.toList_ofList,
    String.toList_ofList]

/-- Somewhere in a text a value's text occurs with each of its capital sigmas in the form that it has in the
value's text alone. -/
def OccursInForm (v : Value) (s : String) : Prop := Text.OccursInForm v.text.toList s.toList

def settlesSigmas (v : Value) : Bool := Text.settlesSigmas [] v.text.toList

theorem OccursInForm.contains {v : Value} {s : String} (h : v.OccursInForm s) :
    Text.contains s v.text = true ∧ containsIgnoringCase s v.text = true := by
  refine ⟨?_, containsIgnoringCase_iff.2 (Text.lowerFrom_infix h)⟩
  obtain ⟨before, after, hwhole, -⟩ := h
  exact Text.contains_iff.2 ⟨before, after, hwhole.symm⟩

theorem settlesSigmas_iff {v : Value} : v.settlesSigmas = true ↔
    ∀ s, Text.contains s v.text = true → containsIgnoringCase s v.text = true := by
  simp only [settlesSigmas, Text.settlesSigmas_iff, Text.contains_iff, containsIgnoringCase_iff]
  refine ⟨fun h s => h s.toList, fun h whole => ?_⟩
  have hwhole := h (String.ofList whole)
  rwa [String.toList_ofList] at hwhole

end Value

namespace MatchOp

/-- A string that contains a text contains it ignoring case, if somewhere in it the text's sigmas keep the
form that they have in the text alone. This holds of every string exactly for the texts that settle their
sigmas by themselves. -/
theorem iContains_of_contains (loose : Bool) (v : Value) :
    (∀ s, v ≠ .null → v.OccursInForm s → MatchOp.contains.holds loose (.string s) v = true ∧
      MatchOp.iContains.holds loose (.string s) v = true) ∧
    (∀ a : Value, v.OccursInForm a.text →
      CompareOp.contains.holds a v = true ∧ CompareOp.iContains.holds a v = true) ∧
    ((∀ s, MatchOp.contains.holds loose (.string s) v = true →
      MatchOp.iContains.holds loose (.string s) v = true) ↔ v.settlesSigmas = true) ∧
    ((∀ a : Value, CompareOp.contains.holds a v = true → CompareOp.iContains.holds a v = true) ↔
      v.settlesSigmas = true) := by
  refine ⟨fun s hv h => ?_, fun a h => h.contains, ?_, ?_⟩
  · rw [holds_contains hv]
    exact h.contains
  · by_cases hv : v = .null
    · rw [hv]
      exact iff_of_true (fun _ h => absurd h Bool.false_ne_true) (by decide +kernel)
    · simp only [holds_contains hv]
      exact Value.settlesSigmas_iff.symm
  · rw [Value.settlesSigmas_iff]
    exact ⟨fun h s => h (.string s), fun h a => h a.text⟩

theorem iContains_of_contains_settled :
    let v : Value := .string "ΣΟΦΟΣ ΝΑΙ"
    let w : Value := .string "ΑΣ"
    v.settlesSigmas = true ∧ contains.holds false (.string "Ο ΣΟΦΟΣ ΝΑΙ") v = true ∧
      iContains.holds false (.string "Ο ΣΟΦΟΣ ΝΑΙ") v = true ∧
      w.settlesSigmas = false ∧ w.OccursInForm "ΑΣΑ ΑΣ" ∧
      CompareOp.iContains.holds (.string "ΑΣΑ ΑΣ") w = true := by
  intro v w
  have hv : v.settlesSigmas = true := by decide +kernel
  have hcontains : contains.holds false (.string "Ο ΣΟΦΟΣ ΝΑΙ") v = true := by decide +kernel
  have hplace : w.OccursInForm "ΑΣΑ ΑΣ" :=
    ⟨"ΑΣΑ ".toList, [], by decide +kernel, by decide +kernel⟩
  exact ⟨hv, hcontains, (iContains_of_contains false v).2.2.1.2 hv _ hcontains, by decide +kernel, hplace,
    ((iContains_of_contains false w).2.1 (.string "ΑΣΑ ΑΣ") hplace).2⟩

/-- A sigma that ends a text, but not the string that it is found in. -/
theorem iContains_of_contains_inner_sigma :
    contains.holds false (.string "ΑΣΑ") (.string "ΑΣ") = true ∧
      iContains.holds false (.string "ΑΣΑ") (.string "ΑΣ") = false ∧
      CompareOp.contains.holds (.string "ΑΣΑ") (.string "ΑΣ") = true ∧
      CompareOp.iContains.holds (.string "ΑΣΑ") (.string "ΑΣ") = false := by
  decide +kernel

end MatchOp

end RecordSieve
