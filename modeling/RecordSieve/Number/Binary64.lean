namespace RecordSieve

def unitsPerOne : Nat := Nat.pow 2 1074

/-- The size of a finite number, `significand * 2 ^ scale` units. The significand uses all of its
53 bits unless the scale is zero, so each size has one form. -/
structure Magnitude where
  significand : Nat
  scale : Nat
  bounded : significand < Nat.pow 2 53
  normal : scale = 0 ∨ Nat.pow 2 52 ≤ significand
  inRange : scale ≤ 2045
  deriving DecidableEq, Repr

namespace Magnitude

def units (m : Magnitude) : Nat := m.significand * Nat.pow 2 m.scale

def zero : Magnitude := ⟨0, 0, by decide, Or.inl rfl, by decide⟩

def of? (significand scale : Nat) : Option Magnitude :=
  if h : significand < Nat.pow 2 53 ∧ (scale = 0 ∨ Nat.pow 2 52 ≤ significand) ∧ scale ≤ 2045 then
    some ⟨significand, scale, h.1, h.2.1, h.2.2⟩
  else
    none

end Magnitude

def nearestEven (num den : Nat) : Nat :=
  let quotient := num / den
  let rest := 2 * (num % den)
  if rest < den then quotient
  else if den < rest then quotient + 1
  else if quotient % 2 = 0 then quotient else quotient + 1

/-- The magnitude nearest to `num / den` units, a tie going to the even significand. There is
none when the quotient rounds beyond the largest finite number. -/
def Magnitude.round? (num den : Nat) : Option Magnitude :=
  let scale := (num / den).log2 - 52
  let significand := nearestEven num (den * Nat.pow 2 scale)
  if significand = Nat.pow 2 53 then of? (Nat.pow 2 52) (scale + 1) else of? significand scale

inductive Binary64 where
  | nan
  | infinite (negative : Bool)
  | finite (negative : Bool) (magnitude : Magnitude)
  deriving DecidableEq, Repr

namespace Binary64

instance : Inhabited Binary64 := ⟨.finite false .zero⟩

def ofMagnitude? (negative : Bool) : Option Magnitude → Binary64
  | some m => .finite negative m
  | none => .infinite negative

def ofRatio (negative : Bool) (num den : Nat) : Binary64 :=
  .ofMagnitude? negative (Magnitude.round? (num * unitsPerOne) den)

def ofInt (n : Int) : Binary64 := .ofRatio (decide (n < 0)) n.natAbs 1

def signed (negative : Bool) (n : Nat) : Int := if negative then -(n : Int) else n

def isFinite : Binary64 → Bool
  | .finite _ _ => true
  | _ => false

def truncate? : Binary64 → Option Int
  | .finite negative m => some (signed negative (m.units / unitsPerOne))
  | _ => none

def integer? : Binary64 → Option Int
  | .finite negative m =>
      if m.units % unitsPerOne = 0 then some (signed negative (m.units / unitsPerOne)) else none
  | _ => none

end Binary64

def greatestSafe : Nat := Nat.pow 2 53 - 1

def isSafe (n : Int) : Bool := decide (n.natAbs ≤ greatestSafe)

def Binary64.safeInteger? (x : Binary64) : Option Int := x.integer?.filter isSafe

end RecordSieve
