import RecordSieve.Json.Parser
import RecordSieve.Proofs.Number.Numeral

namespace RecordSieve

structure NumeralParts where
  negative : Bool
  whole : List Char
  fraction : List Char
  power : Option Int
  ne_nil : whole ≠ []
  whole_digits : whole.all Char.isDigit = true
  lead : whole.head? = some '0' → whole = ['0']
  fraction_digits : fraction.all Char.isDigit = true

namespace NumeralParts

variable (p : NumeralParts)

def fractionText : List Char := if p.fraction = [] then [] else '.' :: p.fraction

def powerText : List Char :=
  match p.power with
  | none => []
  | some e => 'e' :: (if e < 0 then '-' else '+') :: digitsOf e.natAbs

def text : List Char := signText p.negative ++ (p.whole ++ (p.fractionText ++ p.powerText))

def decimal : Decimal :=
  ⟨p.negative, digitsValue (p.whole ++ p.fraction), p.power.getD 0 - p.fraction.length⟩

def isWhole : Bool := p.fraction.isEmpty && p.power.isNone

def Ends (rest : List Char) : Prop :=
  ∀ c ∈ rest.head?, c.isDigit = false ∧ c ≠ '.' ∧ c ≠ 'e' ∧ c ≠ 'E'

theorem ends_nil : Ends [] := by
  rintro _ ⟨⟩

theorem exists_whole : ∃ c cs, p.whole = c :: cs ∧ c.isDigit = true := by
  obtain ⟨c, cs, hc⟩ := List.exists_cons_of_ne_nil p.ne_nil
  exact ⟨c, cs, hc, List.all_eq_true.1 p.whole_digits c (by simp [hc])⟩

theorem ends_powerText_append {rest : List Char} (hr : Ends rest) :
    ∀ c ∈ (p.powerText ++ rest).head?, c.isDigit = false ∧ c ≠ '.' := by
  intro c hc
  rw [powerText] at hc
  cases hp : p.power with
  | none =>
      rw [hp] at hc
      exact ⟨(hr c hc).1, (hr c hc).2.1⟩
  | some e =>
      simp only [hp, List.cons_append, List.head?_cons, Option.mem_some_iff] at hc
      subst hc
      decide

theorem not_isDigit_fractionText_append {tail : List Char}
    (ht : ∀ c ∈ tail.head?, c.isDigit = false ∧ c ≠ '.') :
    ∀ c ∈ (p.fractionText ++ tail).head?, c.isDigit = false := by
  intro c hc
  rw [fractionText] at hc
  split at hc
  · exact (ht c hc).1
  · cases hc
    rfl

theorem splitSign_text (rest : List Char) :
    splitSign (signText p.negative ++ (p.whole ++ rest)) = (p.negative, p.whole ++ rest) := by
  obtain ⟨c, cs, hwhole, hc⟩ := p.exists_whole
  have hminus : c ≠ '-' := by rintro rfl; simp at hc
  have hplus : c ≠ '+' := by rintro rfl; simp at hc
  rw [hwhole]
  cases p.negative with
  | true => rfl
  | false => simp [signText, splitSign, hminus, hplus]

theorem exponentOf?_powerText : exponentOf? p.powerText = some (p.power.getD 0) := by
  rw [powerText]
  cases hp : p.power with
  | none => rfl
  | some e =>
      have hsplit : splitSign ((if e < 0 then '-' else '+') :: digitsOf e.natAbs) =
          (decide (e < 0), digitsOf e.natAbs) := by
        by_cases h : e < 0 <;> simp [h, splitSign]
      simp only [exponentOf?, hsplit]
      rw [if_pos ⟨.inl trivial, digitsOf_ne_nil _, all_isDigit_digitsOf _⟩, digitsValue_digitsOf,
        Binary64.signed_natAbs]
      rfl

theorem unsignedDecimal?_append {tail : List Char}
    (ht : ∀ c ∈ tail.head?, c.isDigit = false ∧ c ≠ '.') :
    unsignedDecimal? (p.whole ++ (p.fractionText ++ tail)) =
      some (digitsValue (p.whole ++ p.fraction), p.fraction.length, tail) := by
  obtain ⟨hwhole, hrest⟩ := takeWhile_isDigit_append _ p.whole_digits (p.not_isDigit_fractionText_append ht)
  rw [unsignedDecimal?, hwhole, hrest]
  by_cases hf : p.fraction = []
  · have hnone : ∀ cs, tail ≠ '.' :: cs := fun cs h => by simp [h] at ht
    rw [fractionText, if_pos hf, List.nil_append, hf, List.append_nil]
    split
    · exact absurd rfl (hnone _)
    · rw [if_neg p.ne_nil]
      rfl
  · obtain ⟨ht', hd'⟩ := takeWhile_isDigit_append _ p.fraction_digits fun c hc => (ht c hc).1
    rw [fractionText, if_neg hf, List.cons_append]
    simp only [ht', hd', p.ne_nil, false_and, if_false]

theorem unsignedDecimal?_text :
    unsignedDecimal? (p.whole ++ (p.fractionText ++ p.powerText)) =
      some (digitsValue (p.whole ++ p.fraction), p.fraction.length, p.powerText) := by
  have hpower := p.ends_powerText_append ends_nil
  rw [List.append_nil] at hpower
  exact p.unsignedDecimal?_append hpower

theorem parse?_text : Decimal.parse? p.text = some p.decimal := by
  simp only [Decimal.parse?, text, splitSign_text, unsignedDecimal?_text, exponentOf?_powerText, bind,
    Option.bind, decimal]
  rfl

theorem isWhole_iff : p.isWhole = true ↔ p.fraction = [] ∧ p.power = none := by
  simp [isWhole]

theorem all_isDigit_tail : (p.fractionText ++ p.powerText).all Char.isDigit = p.isWhole := by
  rw [isWhole, fractionText, powerText]
  by_cases hf : p.fraction = []
  · cases hp : p.power <;> simp [hf]
  · cases hp : p.power <;> simp [hf]

theorem text_of_isWhole (h : p.isWhole = true) : p.text = signText p.negative ++ p.whole := by
  obtain ⟨hf, hp⟩ := p.isWhole_iff.1 h
  rw [text, fractionText, powerText, if_pos hf, hp, List.append_nil, List.append_nil]

theorem integer?_text : integer? p.text =
    if p.isWhole then some (Binary64.signed p.negative (digitsValue p.whole)) else none := by
  have hne : p.whole ++ (p.fractionText ++ p.powerText) ≠ [] := fun h =>
    p.ne_nil (List.append_eq_nil_iff.1 h).1
  simp only [integer?, text, splitSign_text, List.all_append, p.whole_digits, Bool.true_and, ne_eq, hne,
    not_false_eq_true, true_and]
  rw [← List.all_append, all_isDigit_tail]
  by_cases h : p.isWhole = true
  · obtain ⟨hf, hp⟩ := p.isWhole_iff.1 h
    rw [if_pos h, if_pos h, fractionText, powerText, if_pos hf, hp, List.append_nil, List.append_nil]
  · rw [if_neg h, if_neg h]

theorem isInteger_text : Json.isInteger p.text = p.isWhole := by
  obtain ⟨c, cs, hwhole, hc⟩ := p.exists_whole
  have hminus : c ≠ '-' := by rintro rfl; simp at hc
  have hall : (p.whole ++ (p.fractionText ++ p.powerText)).all Char.isDigit = p.isWhole := by
    rw [List.all_append, p.whole_digits, Bool.true_and, all_isDigit_tail]
  rw [text, ← hall, hwhole]
  cases p.negative with
  | true => rfl
  | false => simp [signText, Json.isInteger, hminus]

variable {p} {rest : List Char}

theorem moreDigits_append (taken : List Char) {digits rest : List Char} (hne : digits ≠ [])
    (hd : digits.all Char.isDigit = true) (hr : ∀ c ∈ rest.head?, c.isDigit = false) :
    Json.moreDigits taken (digits ++ rest) = .ok (taken ++ digits, rest) := by
  obtain ⟨ht, hd'⟩ := takeWhile_isDigit_append rest hd hr
  simp only [Json.moreDigits, ht, hd', List.isEmpty_iff, hne, if_false]

theorem signPart_text (p : NumeralParts) (rest : List Char) :
    Json.signPart (signText p.negative ++ (p.whole ++ rest)) = .ok (signText p.negative, p.whole ++ rest) := by
  obtain ⟨c, cs, hwhole, hc⟩ := p.exists_whole
  have hminus : c ≠ '-' := by rintro rfl; simp at hc
  rw [hwhole]
  cases p.negative with
  | true => simp [signText, Json.signPart, hc]
  | false => simp [signText, Json.signPart, hminus]

theorem wholeDigits_text (taken : List Char) (hr : ∀ c ∈ rest.head?, c.isDigit = false) :
    Json.wholeDigits taken (p.whole ++ rest) = (taken ++ p.whole, rest) := by
  obtain ⟨c, cs, hwhole, hc⟩ := p.exists_whole
  by_cases hzero : c = '0'
  · have hlone : p.whole = ['0'] := p.lead (by rw [hwhole, hzero]; rfl)
    rw [hlone]
    rfl
  · obtain ⟨ht, hd⟩ := takeWhile_isDigit_append rest p.whole_digits hr
    rw [hwhole] at ht hd ⊢
    rw [List.cons_append] at ht hd ⊢
    rw [Json.wholeDigits.eq_2 _ _ fun _ h => hzero (List.cons_eq_cons.1 h).1, ht, hd]

theorem fractionPart_text (taken : List Char) (hr : ∀ c ∈ rest.head?, c.isDigit = false ∧ c ≠ '.') :
    Json.fractionPart taken (p.fractionText ++ rest) = .ok (taken ++ p.fractionText, rest) := by
  rw [fractionText]
  split
  · rw [List.nil_append, List.append_nil]
    cases rest with
    | nil => rfl
    | cons c cs => exact Json.fractionPart.eq_2 _ _ fun _ h => (hr c rfl).2 (List.cons_eq_cons.1 h).1
  · rename_i hf
    rw [List.cons_append, Json.fractionPart,
      moreDigits_append _ hf p.fraction_digits fun c hc => (hr c hc).1]
    simp

theorem exponentPart_text (taken : List Char) (hr : Ends rest) :
    Json.exponentPart taken (p.powerText ++ rest) = .ok (taken ++ p.powerText, rest) := by
  rw [powerText]
  cases p.power with
  | none =>
      dsimp only
      rw [List.nil_append, List.append_nil]
      cases rest with
      | nil => rfl
      | cons c cs =>
          obtain ⟨-, -, he, hE⟩ := hr c rfl
          simp [Json.exponentPart, he, hE]
  | some e =>
      have hmore := moreDigits_append (taken ++ ['e', if e < 0 then '-' else '+'])
        (digitsOf_ne_nil e.natAbs) (all_isDigit_digitsOf _) fun c hc => (hr c hc).1
      dsimp only
      rw [List.cons_append, List.cons_append, Json.exponentPart.eq_def]
      simp only [true_or, if_true]
      rw [if_pos (by split <;> simp), hmore]
      simp

theorem numeral_text (p : NumeralParts) (hr : Ends rest) :
    Json.numeral (p.text ++ rest) = .ok (p.text, rest) := by
  have hpower := p.ends_powerText_append hr
  have htail := p.not_isDigit_fractionText_append hpower
  simp only [Json.numeral, text, List.append_assoc, signPart_text, wholeDigits_text _ htail,
    fractionPart_text _ hpower, exponentPart_text _ hr, bind, Except.bind]

theorem exists_cons_text (p : NumeralParts) :
    ∃ c cs, p.text = c :: cs ∧ (c = '-' ∨ c.isDigit = true) := by
  obtain ⟨c, cs, hwhole, hc⟩ := p.exists_whole
  rw [text, hwhole]
  cases p.negative with
  | true => exact ⟨'-', _, rfl, .inl rfl⟩
  | false => exact ⟨c, _, rfl, .inr hc⟩

def natural (negative : Bool) (n : Nat) : NumeralParts where
  negative := negative
  whole := digitsOf n
  fraction := []
  power := none
  ne_nil := digitsOf_ne_nil n
  whole_digits := all_isDigit_digitsOf n
  lead := digitsOf_lead
  fraction_digits := rfl

theorem text_natural (negative : Bool) (n : Nat) :
    (natural negative n).text = signText negative ++ digitsOf n := text_of_isWhole _ rfl

theorem decimal_natural (negative : Bool) (n : Nat) : (natural negative n).decimal = ⟨negative, n, 0⟩ := by
  simp only [decimal, natural, List.append_nil, digitsValue_digitsOf, Option.getD_none,
    List.length_nil, Nat.cast_zero, Int.sub_zero]

theorem isWhole_natural (negative : Bool) (n : Nat) : (natural negative n).isWhole = true := rfl

theorem integer?_natural (negative : Bool) (n : Nat) :
    integer? (natural negative n).text = some (Binary64.signed negative n) := by
  rw [integer?_text, isWhole_natural, if_pos rfl]
  simp only [natural, digitsValue_digitsOf]

theorem text_natural_int (n : Int) : (natural (decide (n < 0)) n.natAbs).text = intText n := by
  rw [text_natural, intText_eq]

def withPoint (negative : Bool) (n : Nat) : NumeralParts :=
  { natural negative n with fraction := ['0'], fraction_digits := rfl }

theorem text_withPoint (negative : Bool) (n : Nat) :
    (withPoint negative n).text = (natural negative n).text ++ ['.', '0'] := by
  rw [text_natural, List.append_assoc]
  rfl

theorem decimal_withPoint (negative : Bool) (n : Nat) :
    (withPoint negative n).decimal = ⟨negative, n * 10, -1⟩ := by
  have hvalue : digitsValue (digitsOf n ++ ['0']) = n * 10 := by
    rw [digitsValue_append, digitsValue_digitsOf, Nat.mul_comm]
    rfl
  rw [decimal, show (withPoint negative n).whole ++ (withPoint negative n).fraction = digitsOf n ++ ['0'] from rfl,
    hvalue]
  rfl

theorem exists_positional (negative : Bool) {c : Nat} (hc : 0 < c) (e : Int) :
    ∃ p : NumeralParts, p.text = signText negative ++ positional (digitsOf c) ((digitsOf c).length + e) ∧
      p.power = none ∧ p.decimal = ⟨negative, c * 10 ^ e.toNat, e - e.toNat⟩ ∧
      if 0 ≤ e then p = natural negative (c * 10 ^ e.toNat) else p.fraction ≠ [] := by
  rcases Int.lt_or_le e 0 with he | he
  · obtain ⟨whole, fraction, htext, hne, hw, hf, hvalue, hlength, hlead⟩ :=
      positional_of_neg (all_isDigit_digitsOf c) he
    have hfne : fraction ≠ [] := fun h => by simp [h] at hlength; omega
    have hzero : e.toNat = 0 := by omega
    refine ⟨⟨negative, whole, fraction, none, hne, hw, fun h => ?_, hf⟩, ?_, rfl, ?_, ?_⟩
    · rcases hlead with hzero | hhead
      · exact hzero
      · exact absurd (hhead ▸ h) (head?_digitsOf_ne_zero hc)
    · simp only [text, fractionText, powerText, if_neg hfne, List.append_nil, htext]
    · simp only [decimal, hvalue, digitsValue_digitsOf, Option.getD_none, hzero, Nat.pow_zero, Nat.mul_one,
        hlength, Nat.cast_zero, Int.sub_zero, Int.zero_sub, Int.neg_neg]
    · rw [if_neg (by omega)]
      exact hfne
  · refine ⟨natural negative (c * 10 ^ e.toNat), ?_, rfl, ?_, ?_⟩
    · rw [text_natural, positional_of_nonneg (digitsOf_ne_nil _) he, digitsOf_mul_pow hc]
    · rw [decimal_natural, Int.toNat_of_nonneg he, Int.sub_self]
    · rw [if_pos he]

theorem exists_scientific (negative : Bool) {c : Nat} (hc : 0 < c) (e : Int) :
    ∃ p : NumeralParts, p.text = signText negative ++ scientific (digitsOf c) ((digitsOf c).length + e) ∧
      p.power = some ((digitsOf c).length + e - 1) ∧ p.decimal = ⟨negative, c, e⟩ ∧
      p.whole.length = 1 ∧ p.whole ++ p.fraction = digitsOf c := by
  have hsplit := List.take_append_drop 1 (digitsOf c)
  have hall := List.all_eq_true.1 (all_isDigit_digitsOf c)
  have hlen : 0 < (digitsOf c).length := List.length_pos_iff.2 (digitsOf_ne_nil c)
  refine ⟨⟨negative, (digitsOf c).take 1, (digitsOf c).drop 1, some ((digitsOf c).length + e - 1),
    ?_, ?_, fun h => ?_, ?_⟩, ?_, rfl, ?_, ?_, hsplit⟩
  · rw [ne_eq, List.take_eq_nil_iff]
    exact fun h => h.elim (by decide) (digitsOf_ne_nil _)
  · exact List.all_eq_true.2 fun d hd => hall d (List.mem_of_mem_take hd)
  · rw [List.head?_take, if_neg (by decide)] at h
    exact absurd h (head?_digitsOf_ne_zero hc)
  · exact List.all_eq_true.2 fun d hd => hall d (List.mem_of_mem_drop hd)
  · simp only [text, fractionText, powerText, scientific, List.drop_eq_nil_iff, List.append_assoc]
  · simp only [decimal, hsplit, digitsValue_digitsOf, Option.getD_some, List.length_drop,
      Decimal.mk.injEq, true_and]
    omega
  · rw [List.length_take]
    omega

theorem text_of_pos (negative : Bool) {m : Magnitude} (hm : 0 < m.units) :
    (Binary64.finite negative m).text = signText negative ++
      Layout.usual.text (digitsOf m.numeral.1) ((digitsOf m.numeral.1).length + m.numeral.2) := by
  rw [Binary64.text, if_neg hm.ne']
  rfl

theorem exists_text_of_pos (negative : Bool) {m : Magnitude} (hm : 0 < m.units) :
    ∃ p : NumeralParts, p.text = (Binary64.finite negative m).text ∧ p.negative = negative ∧
      Magnitude.ofDecimal? p.decimal.coefficient p.decimal.exponent = some m ∧
      (p.isWhole = true → ∃ n, p = natural negative n) := by
  have hreads := Magnitude.numeral_reads hm
  have hpos := Magnitude.numeral_pos hm
  rw [text_of_pos negative hm, Layout.text]
  split
  · obtain ⟨p, htext, -, hdecimal, hwhole⟩ := exists_positional negative hpos m.numeral.2
    refine ⟨p, htext, congrArg Decimal.negative hdecimal, ?_, fun h => ?_⟩
    · rw [hdecimal, Magnitude.ofDecimal?_mul_pow, hreads]
    · split at hwhole
      · exact ⟨_, hwhole⟩
      · exact absurd ((isWhole_iff _).1 h).1 hwhole
  · obtain ⟨p, htext, hpower, hdecimal, -⟩ := exists_scientific negative hpos m.numeral.2
    refine ⟨p, htext, congrArg Decimal.negative hdecimal, by rw [hdecimal, hreads], fun h => ?_⟩
    rw [isWhole_iff, hpower] at h
    exact absurd h.2 (by simp)

end NumeralParts

end RecordSieve
