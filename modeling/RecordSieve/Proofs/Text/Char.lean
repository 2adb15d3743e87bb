import RecordSieve.Text.Letter
import RecordSieve.Text.Quoted

namespace RecordSieve.Text

def blankCodes : List Nat :=
  [0x09, 0x0a, 0x0b, 0x0c, 0x0d, 0x20, 0xa0, 0x1680, 0x2000, 0x2001, 0x2002, 0x2003, 0x2004, 0x2005,
   0x2006, 0x2007, 0x2008, 0x2009, 0x200a, 0x2028, 0x2029, 0x202f, 0x205f, 0x3000, 0xfeff]

theorem mem_blankCodes_of_isBlank {c : Char} (h : isBlank c = true) : c.toNat ∈ blankCodes := by
  simp only [isBlank, Bool.or_eq_true, Bool.and_eq_true, beq_iff_eq, decide_eq_true_eq] at h
  simp only [blankCodes, List.mem_cons, List.not_mem_nil, or_false]
  omega

theorem isWordChar_eq_false {c : Char} (hl : withinRanges c.toNat letterRanges = false)
    (hd : withinRanges c.toNat decimalDigitRanges = false) (hu : c.toNat ≠ 0x5f) :
    isWordChar c = false := by
  have hc : c ≠ '_' := fun h => hu (h ▸ rfl)
  simp [isWordChar, isLetter, isDecimalDigit, hl, hd, hc]

theorem isWordChar_of_isBlank {c : Char} (h : isBlank c = true) : isWordChar c = false := by
  have hall : ∀ n ∈ blankCodes, withinRanges n letterRanges = false ∧
      withinRanges n decimalDigitRanges = false ∧ n ≠ 0x5f := by decide +kernel
  obtain ⟨hl, hd, hu⟩ := hall _ (mem_blankCodes_of_isBlank h)
  exact isWordChar_eq_false hl hd hu

theorem toNat_of_isDigit {c : Char} (h : c.isDigit = true) : 0x30 ≤ c.toNat ∧ c.toNat ≤ 0x39 := by
  simp only [Char.isDigit, Bool.and_eq_true, decide_eq_true_eq, ge_iff_le, UInt32.le_iff_toNat_le] at h
  exact h

theorem isLetter_of_isDigit {c : Char} (h : c.isDigit = true) : isLetter c = false := by
  have hall : ∀ n ≤ 0x39, 0x30 ≤ n → withinRanges n letterRanges = false := by decide +kernel
  obtain ⟨hl, hh⟩ := toNat_of_isDigit h
  exact hall _ hh hl

theorem isWordChar_of_isDigit {c : Char} (h : c.isDigit = true) : isWordChar c = true := by
  have hall : ∀ n ≤ 0x39, 0x30 ≤ n → withinRanges n decimalDigitRanges = true := by decide +kernel
  obtain ⟨hl, hh⟩ := toNat_of_isDigit h
  simp [isWordChar, isDecimalDigit, hall _ hh hl]

theorem isBlank_of_isWordChar {c : Char} (h : isWordChar c = true) : isBlank c = false :=
  Bool.eq_false_iff.2 fun hb => by simp [isWordChar_of_isBlank hb] at h

theorem isBlank_of_isDigit {c : Char} (h : c.isDigit = true) : isBlank c = false :=
  isBlank_of_isWordChar (isWordChar_of_isDigit h)

theorem punctuation_isWordChar : ∀ c ∈ ['\x22', '>', '<', '=', '(', ')', '-', '.'],
    isWordChar c = false ∧ isBlank c = false ∧ c.isDigit = false := by
  have hall : ['\x22', '>', '<', '=', '(', ')', '-', '.'].all
      (fun c => decide (isWordChar c = false ∧ isBlank c = false ∧ c.isDigit = false)) = true := by
    decide +kernel
  simpa only [decide_eq_true_eq] using List.all_eq_true.1 hall

def isControl (c : Char) : Bool := decide (c.toNat < 0x20)

theorem any_isControl_escapeChar (c : Char) : (escapeChar c).any isControl = false := by
  have hhex : ∀ n < 0x20, isControl (hexDigit (n / 16)) = false ∧ isControl (hexDigit (n % 16)) = false := by
    decide
  unfold escapeChar
  split
  case h_8 =>
    split
    · rename_i hc
      obtain ⟨hhigh, hlow⟩ := hhex _ hc
      simp only [controlEscape, List.any_cons, List.any_nil, hhigh, hlow, Bool.or_false]
      rfl
    · rename_i hc
      rw [List.any_cons, List.any_nil, Bool.or_false]
      exact decide_eq_false hc
  all_goals rfl

theorem any_isControl_quoteList (cs : List Char) : (quoteList cs).any isControl = false := by
  have hbody : (cs.flatMap escapeChar).any isControl = false := by
    rw [List.any_flatMap, List.any_eq_false]
    intro c _
    rw [any_isControl_escapeChar]
    exact Bool.false_ne_true
  rw [quoteList, List.any_append, List.any_cons, hbody]
  rfl

theorem dropByteOrderMark_eq_self {cs : List Char} (h : cs.head? ≠ some byteOrderMark) :
    dropByteOrderMark cs = cs := by
  cases cs with
  | nil => rfl
  | cons c cs => exact if_neg fun hc => h (congrArg some hc)

theorem dropByteOrderMark_cons (cs : List Char) : dropByteOrderMark (byteOrderMark :: cs) = cs := by
  rw [dropByteOrderMark, if_pos rfl]

end RecordSieve.Text
