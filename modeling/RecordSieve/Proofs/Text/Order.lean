import RecordSieve.Query.Evaluation
import Mathlib.Algebra.Group.Nat.Defs
import Mathlib.Data.List.Lex
import Mathlib.Order.Nat

namespace RecordSieve

namespace Text

def codePoints (s : String) : List Nat := s.toList.map Char.toNat

section Lists

variable {α : Type} {compare : α → α → Ordering} {a b : α}

theorem compareLists_cons_self (hself : compare a a = .eq) (as bs : List α) :
    compareLists compare (a :: as) (a :: bs) = compareLists compare as bs := by
  rw [compareLists, hself]
  rfl

theorem compareLists_append_left (hself : ∀ a, compare a a = .eq) (front as bs : List α) :
    compareLists compare (front ++ as) (front ++ bs) = compareLists compare as bs := by
  induction front with
  | nil => rfl
  | cons c front ih =>
      rw [List.cons_append, List.cons_append, compareLists_cons_self (hself c)]
      exact ih

theorem compareLists_swap (hswap : ∀ a b, compare b a = (compare a b).swap) (as bs : List α) :
    compareLists compare bs as = (compareLists compare as bs).swap := by
  induction as generalizing bs with
  | nil => cases bs <;> rfl
  | cons a as ih =>
      cases bs with
      | nil => rfl
      | cons b bs => rw [compareLists, compareLists, hswap a b, ih, Ordering.swap_then]

end Lists

abbrev byteOrder (x y : UInt8) : Ordering := compareOfLessAndEq x y

theorem byteOrder_self (x : UInt8) : byteOrder x x = .eq := by
  rw [byteOrder, compareOfLessAndEq, if_neg (UInt8.lt_irrefl x), if_pos rfl]

theorem byteOrder_swap (x y : UInt8) : byteOrder y x = (byteOrder x y).swap :=
  compareOfLessAndEq_eq_swap UInt8.le_antisymm UInt8.le_total UInt8.not_le

inductive Below : List UInt8 → List UInt8 → Prop
  | here {x y xs ys} : x < y → Below (x :: xs) (y :: ys)
  | later {x xs ys} : Below xs ys → Below (x :: xs) (x :: ys)

theorem Below.compareLists {xs ys : List UInt8} (h : Below xs ys) (us vs : List UInt8) :
    compareLists byteOrder (xs ++ us) (ys ++ vs) = .lt := by
  induction h with
  | @here x y xs ys hlt =>
      have hfirst : byteOrder x y = .lt := if_pos hlt
      rw [List.cons_append, List.cons_append, Text.compareLists, hfirst]
      rfl
  | @later x xs ys _ ih =>
      rw [List.cons_append, List.cons_append, compareLists_cons_self (byteOrder_self x)]
      exact ih

theorem below_ofNat {m n : Nat} {xs ys : List UInt8} (hn : n < 256) (hle : m ≤ n)
    (h : m = n → Below xs ys) : Below (UInt8.ofNat m :: xs) (UInt8.ofNat n :: ys) := by
  rcases Nat.lt_or_eq_of_le hle with hlt | rfl
  · refine .here ?_
    rw [UInt8.lt_iff_toNat_lt, UInt8.toNat_ofNat_of_lt' (Nat.lt_trans hlt hn), UInt8.toNat_ofNat_of_lt' hn]
    exact hlt
  · exact .later (h rfl)

def trailing : Nat → Nat → List UInt8
  | 0, _ => []
  | k + 1, n => UInt8.ofNat (n / 64 ^ k % 64 + 128) :: trailing k n

def leading (n : Nat) : Nat × Nat :=
  if n ≤ 127 then (n, 0)
  else if n ≤ 2047 then (n / 64 + 192, 1)
  else if n ≤ 65535 then (n / 4096 + 224, 2)
  else (n / 262144 + 240, 3)

theorem leading_cases (n : Nat) :
    (n ≤ 127 ∧ leading n = (n, 0)) ∨
    ((127 < n ∧ n ≤ 2047) ∧ leading n = (n / 64 + 192, 1)) ∨
    ((2047 < n ∧ n ≤ 65535) ∧ leading n = (n / 4096 + 224, 2)) ∨
    (65535 < n ∧ leading n = (n / 262144 + 240, 3)) := by
  rw [leading]
  split
  · exact .inl ⟨‹_›, rfl⟩
  · split
    · exact .inr (.inl ⟨by omega, rfl⟩)
    · split
      · exact .inr (.inr (.inl ⟨by omega, rfl⟩))
      · exact .inr (.inr (.inr ⟨by omega, rfl⟩))

theorem toNat_lt (c : Char) : c.toNat < 0x110000 := by
  rcases c.valid with h | ⟨-, h⟩
  · exact Nat.lt_trans h (by decide)
  · exact h

theorem leading_lt {n : Nat} (h : n < 0x110000) : (leading n).1 < 256 := by
  rcases leading_cases n with ⟨hn, hl⟩ | ⟨hn, hl⟩ | ⟨hn, hl⟩ | ⟨hn, hl⟩ <;> rw [hl] <;> dsimp only <;> omega

theorem utf8EncodeChar_eq (c : Char) : String.utf8EncodeChar c =
    UInt8.ofNat (leading c.toNat).1 :: trailing (leading c.toNat).2 c.toNat := by
  have hc := toNat_lt c
  rw [String.utf8EncodeChar, show c.val.toNat = c.toNat from rfl]
  rcases leading_cases c.toNat with ⟨hn, hl⟩ | ⟨hn, hl⟩ | ⟨hn, hl⟩ | ⟨hn, hl⟩ <;> rw [hl]
  · simp only [if_pos hn, trailing]
  · have hfirst : c.toNat / 64 % 32 = c.toNat / 64 := Nat.mod_eq_of_lt (by omega)
    simp [show ¬ c.toNat ≤ 127 by omega, hn.2, hfirst, trailing]
  · have hfirst : c.toNat / 4096 % 16 = c.toNat / 4096 := Nat.mod_eq_of_lt (by omega)
    simp [show ¬ c.toNat ≤ 127 by omega, show ¬ c.toNat ≤ 2047 by omega, hn.2, hfirst, trailing]
  · have hfirst : c.toNat / 262144 % 8 = c.toNat / 262144 := Nat.mod_eq_of_lt (by omega)
    simp [show ¬ c.toNat ≤ 127 by omega, show ¬ c.toNat ≤ 2047 by omega, show ¬ c.toNat ≤ 65535 by omega,
      hfirst, trailing]

theorem below_trailing {k m n : Nat} (hlt : m < n) (h : m / 64 ^ k = n / 64 ^ k) :
    Below (trailing k m) (trailing k n) := by
  induction k with
  | zero =>
      rw [Nat.pow_zero, Nat.div_one, Nat.div_one] at h
      exact absurd h (Nat.ne_of_lt hlt)
  | succ k ih =>
      rw [Nat.pow_succ, ← Nat.div_div_eq_div_mul, ← Nat.div_div_eq_div_mul] at h
      have hle : m / 64 ^ k ≤ n / 64 ^ k := Nat.div_le_div_right (Nat.le_of_lt hlt)
      refine below_ofNat (by omega) (by omega) fun hdigit => ih ?_
      omega

theorem leading_of_lt {m n : Nat} (hlt : m < n) (hn : n < 0x110000) :
    (leading m).1 < (leading n).1 ∨
      leading m = leading n ∧ m / 64 ^ (leading m).2 = n / 64 ^ (leading m).2 := by
  rcases leading_cases m with ⟨hm, hl⟩ | ⟨hm, hl⟩ | ⟨hm, hl⟩ | ⟨hm, hl⟩ <;>
  rcases leading_cases n with ⟨hn', hl'⟩ | ⟨hn', hl'⟩ | ⟨hn', hl'⟩ | ⟨hn', hl'⟩ <;>
  rw [hl, hl', Prod.mk.injEq] <;> dsimp only <;> omega

theorem below_utf8EncodeChar {c d : Char} (h : c.toNat < d.toNat) :
    Below (String.utf8EncodeChar c) (String.utf8EncodeChar d) := by
  have hd := toNat_lt d
  rw [utf8EncodeChar_eq, utf8EncodeChar_eq]
  rcases leading_of_lt h hd with hlt | ⟨heq, hquotient⟩
  · exact below_ofNat (leading_lt hd) (Nat.le_of_lt hlt) fun hsame => absurd hsame (Nat.ne_of_lt hlt)
  · rw [← heq]
    exact .later (below_trailing h hquotient)

theorem codePoints_injective {a b : String} (h : codePoints a = codePoints b) : a = b := by
  have hinjective (c d : Char) (hcd : c.toNat = d.toNat) : c = d := Char.ext (UInt32.toNat_inj.1 hcd)
  exact String.toList_inj.1 ((List.map_inj_right hinjective).1 h)

theorem compareLists_bytes {cs ds : List Char} (h : cs.map Char.toNat < ds.map Char.toNat) :
    compareLists byteOrder (cs.flatMap String.utf8EncodeChar) (ds.flatMap String.utf8EncodeChar) = .lt := by
  induction cs generalizing ds with
  | nil =>
      cases ds with
      | nil => exact absurd h (lt_irrefl _)
      | cons d ds => rw [List.flatMap_cons, utf8EncodeChar_eq]; rfl
  | cons c cs ih =>
      cases ds with
      | nil => exact absurd h (List.not_lt_nil _)
      | cons d ds =>
          rw [List.flatMap_cons, List.flatMap_cons]
          rcases List.cons_lt_cons_iff.1 h with hlt | ⟨heq, hlater⟩
          · exact (below_utf8EncodeChar hlt).compareLists _ _
          · obtain rfl : c = d := Char.ext (UInt32.toNat_inj.1 heq)
            rw [compareLists_append_left byteOrder_self]
            exact ih hlater

theorem compareBytes_swap (a b : String) : compareBytes b a = (compareBytes a b).swap :=
  compareLists_swap byteOrder_swap _ _

theorem compareBytes_self (a : String) : compareBytes a a = .eq := by
  have h := compareLists_append_left byteOrder_self (bytes a) [] []
  rwa [List.append_nil] at h

theorem compareBytes_of_lt {a b : String} (h : codePoints a < codePoints b) : compareBytes a b = .lt :=
  compareLists_bytes h

theorem compareBytes_of_gt {a b : String} (h : codePoints b < codePoints a) : compareBytes a b = .gt := by
  rw [compareBytes_swap b a, compareBytes_of_lt h]
  rfl

theorem codePoints_trichotomy (a b : String) :
    codePoints a < codePoints b ∨ a = b ∨ codePoints b < codePoints a :=
  (lt_trichotomy _ _).imp_right (Or.imp_left codePoints_injective)

theorem compareBytes_eq_lt_iff {a b : String} : compareBytes a b = .lt ↔ codePoints a < codePoints b := by
  refine ⟨fun h => ?_, compareBytes_of_lt⟩
  rcases codePoints_trichotomy a b with hlt | rfl | hgt
  · exact hlt
  · simp [compareBytes_self] at h
  · simp [compareBytes_of_gt hgt] at h

theorem compareBytes_eq_gt_iff {a b : String} : compareBytes a b = .gt ↔ codePoints b < codePoints a := by
  rw [compareBytes_swap b a, Ordering.swap_eq_gt, compareBytes_eq_lt_iff]

theorem compareBytes_eq_eq_iff {a b : String} : compareBytes a b = .eq ↔ a = b := by
  refine ⟨fun h => ?_, fun h => h ▸ compareBytes_self a⟩
  rcases codePoints_trichotomy a b with hlt | heq | hgt
  · simp [compareBytes_of_lt hlt] at h
  · exact heq
  · simp [compareBytes_of_gt hgt] at h

theorem isLE_compareBytes_iff {a b : String} :
    (compareBytes a b).isLE = true ↔ codePoints a ≤ codePoints b := by
  rw [← not_lt, ← compareBytes_eq_gt_iff, Ordering.isLE_iff_ne_gt]

theorem isGE_compareBytes_iff {a b : String} :
    (compareBytes a b).isGE = true ↔ codePoints b ≤ codePoints a := by
  rw [← not_lt, ← compareBytes_eq_lt_iff, Ordering.isGE_iff_ne_lt]

end Text

def OrderOp.Relates {α : Type} [LT α] [LE α] (x y : α) : OrderOp → Prop
  | .gt => y < x
  | .gte => y ≤ x
  | .lt => x < y
  | .lte => x ≤ y

namespace Text

theorem holdsFor_string_iff (op : OrderOp) (a : String) (v : Value) :
    op.holdsFor (.string a) v = true ↔ op.Relates (codePoints a) (codePoints v.text) := by
  change op.holds (compareBytes a v.text) = true ↔ _
  cases op with
  | gt => exact Ordering.isGT_iff_eq_gt.trans compareBytes_eq_gt_iff
  | gte => exact isGE_compareBytes_iff
  | lt => exact Ordering.isLT_iff_eq_lt.trans compareBytes_eq_lt_iff
  | lte => exact isLE_compareBytes_iff

/-- Texts are ordered by their code points, and so are string fields and the texts of operands. -/
theorem compareBytes_codePoints (a b c : String) :
    (compareBytes a b = .lt ↔ codePoints a < codePoints b) ∧
    (compareBytes a b = .gt ↔ codePoints b < codePoints a) ∧
    (compareBytes a b = .eq ↔ a = b) ∧
    compareBytes b a = (compareBytes a b).swap ∧
    ((compareBytes a b).isLE → (compareBytes b c).isLE → (compareBytes a c).isLE) ∧
    ∀ (op : OrderOp) (v : Value),
      op.holdsFor (.string a) v = true ↔ op.Relates (codePoints a) (codePoints v.text) := by
  refine ⟨compareBytes_eq_lt_iff, compareBytes_eq_gt_iff, compareBytes_eq_eq_iff, compareBytes_swap a b,
    fun hab hbc => ?_, fun op v => holdsFor_string_iff op a v⟩
  rw [isLE_compareBytes_iff] at *
  exact le_trans hab hbc

end Text

end RecordSieve
