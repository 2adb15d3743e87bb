import RecordSieve.Number.Binary64

namespace RecordSieve

structure Decimal where
  negative : Bool
  coefficient : Nat
  exponent : Int
  deriving DecidableEq, Repr

def digitsValue (cs : List Char) : Nat := Nat.ofDigitChars 10 cs 0

def digitsInBase? (base : Nat) (cs : List Char) : Option Nat :=
  if cs.isEmpty then none
  else cs.foldlM (fun n c => do
    let d ← if c.isDigit then some (c.toNat - 48)
      else if 'a' ≤ c.toLower ∧ c.toLower ≤ 'f' then some (c.toLower.toNat - 87) else none
    if d < base then some (n * base + d) else none) 0

def digitsOf (n : Nat) : List Char := Nat.toDigits 10 n

def intText (n : Int) : List Char :=
  if n < 0 then '-' :: digitsOf n.natAbs else digitsOf n.natAbs

def digitCount (n : Nat) : Nat := if n = 0 then 0 else (digitsOf n).length

/-- The magnitude nearest to `coefficient * 10 ^ exponent`. Numbers from `10 ^ 310` on have none, and
those below `10 ^ (-330)` are zero, without computing the power. -/
def Magnitude.ofDecimal? (coefficient : Nat) (exponent : Int) : Option Magnitude :=
  let reach := (digitCount coefficient : Int) + exponent
  if coefficient = 0 ∨ reach < -330 then some .zero
  else if 310 < reach then none
  else round? (coefficient * Nat.pow 10 exponent.toNat * unitsPerOne) (Nat.pow 10 (-exponent).toNat)

def Decimal.toBinary64 (d : Decimal) : Binary64 :=
  .ofMagnitude? d.negative (Magnitude.ofDecimal? d.coefficient d.exponent)

def splitSign : List Char → Bool × List Char
  | '-' :: cs => (true, cs)
  | '+' :: cs => (false, cs)
  | cs => (false, cs)

def exponentOf? : List Char → Option Int
  | [] => some 0
  | c :: cs =>
      let (negative, digits) := splitSign cs
      if (c = 'e' ∨ c = 'E') ∧ digits ≠ [] ∧ digits.all Char.isDigit then
        some (Binary64.signed negative (digitsValue digits))
      else
        none

def unsignedDecimal? (cs : List Char) : Option (Nat × Nat × List Char) :=
  let whole := cs.takeWhile Char.isDigit
  match cs.dropWhile Char.isDigit with
  | '.' :: rest =>
      let fraction := rest.takeWhile Char.isDigit
      if whole = [] ∧ fraction = [] then none
      else some (digitsValue (whole ++ fraction), fraction.length, rest.dropWhile Char.isDigit)
  | rest => if whole = [] then none else some (digitsValue whole, 0, rest)

def Decimal.parse? (cs : List Char) : Option Decimal := do
  let (negative, body) := splitSign cs
  let (coefficient, places, rest) ← unsignedDecimal? body
  let exponent ← exponentOf? rest
  return ⟨negative, coefficient, exponent - places⟩

def integer? (cs : List Char) : Option Int :=
  let (negative, digits) := splitSign cs
  if digits ≠ [] ∧ digits.all Char.isDigit then
    some (Binary64.signed negative (digitsValue digits))
  else
    none

namespace Magnitude

def inPowers (m : Magnitude) (exponent : Int) : Nat × Nat :=
  (m.units * Nat.pow 10 (-exponent).toNat, unitsPerOne * Nat.pow 10 exponent.toNat)

def leadingExponent (m : Magnitude) : Int :=
  if unitsPerOne ≤ m.units then digitCount (m.units / unitsPerOne) - 1
  else -(digitCount ((unitsPerOne - 1) / m.units) : Int)

/-- Of the two multiples of `10 ^ exponent` around `m`, the one that reads back as `m`; of two that
do, the nearer, and at equal distance the even one. -/
def onGrid? (m : Magnitude) (exponent : Int) : Option (Nat × Int) :=
  let (num, den) := m.inPowers exponent
  let below := num / den
  let back (n : Nat) := decide (ofDecimal? n exponent = some m)
  if back below then
    if back (below + 1) then some (nearestEven num den, exponent) else some (below, exponent)
  else if back (below + 1) then some (below + 1, exponent)
  else none

def firstGrid? (m : Magnitude) (exponent : Int) : Nat → Option (Nat × Int)
  | 0 => none
  | steps + 1 => (m.onGrid? exponent).or (m.firstGrid? (exponent - 1) steps)

/-- A numeral with the fewest digits that read back as `m`. Seventeen always suffice; the exact
value stands behind them. -/
def shortest (m : Magnitude) : Nat × Int :=
  (m.firstGrid? m.leadingExponent 17).getD (m.units * Nat.pow 5 1074, -1074)

end Magnitude

def stripZeros : Nat → Nat × Int → Nat × Int
  | 0, d => d
  | fuel + 1, (coefficient, exponent) =>
      if coefficient ≠ 0 ∧ coefficient % 10 = 0 then
        stripZeros fuel (coefficient / 10, exponent + 1)
      else
        (coefficient, exponent)

def Magnitude.numeral (m : Magnitude) : Nat × Int :=
  let (coefficient, exponent) := m.shortest
  stripZeros (digitCount coefficient) (coefficient, exponent)

def positional (digits : List Char) (point : Int) : List Char :=
  if point ≤ 0 then '0' :: '.' :: List.replicate (-point).toNat '0' ++ digits
  else if digits.length ≤ point.toNat then
    digits ++ List.replicate (point.toNat - digits.length) '0'
  else digits.take point.toNat ++ '.' :: digits.drop point.toNat

def scientific (digits : List Char) (point : Int) : List Char :=
  let power := point - 1
  let sign := if power < 0 then '-' else '+'
  digits.take 1 ++ (if digits.length ≤ 1 then [] else '.' :: digits.drop 1)
    ++ 'e' :: sign :: digitsOf power.natAbs

structure Layout where
  least : Int
  greatest : Int

def Layout.usual : Layout := ⟨-5, 21⟩

def Layout.text (l : Layout) (digits : List Char) (point : Int) : List Char :=
  if l.least ≤ point ∧ point ≤ l.greatest then positional digits point
  else scientific digits point

structure Scientific where
  negative : Bool
  whole : List Char
  fraction : List Char
  power : Int
  deriving DecidableEq, Repr

def signedPower? : List Char → Option Int
  | 'e' :: sign :: digits =>
      if (sign = '+' ∨ sign = '-') ∧ digits ≠ [] ∧ digits.all Char.isDigit then
        some (Binary64.signed (decide (sign = '-')) (digitsValue digits))
      else
        none
  | _ => none

namespace Scientific

def ofUnsigned? (negative : Bool) (cs : List Char) : Option Scientific :=
  let whole := cs.takeWhile Char.isDigit
  if whole = [] then none
  else match cs.dropWhile Char.isDigit with
    | '.' :: rest =>
        let fraction := rest.takeWhile Char.isDigit
        if fraction = [] then none
        else (signedPower? (rest.dropWhile Char.isDigit)).map fun power =>
          ⟨negative, whole, fraction, power⟩
    | rest => (signedPower? rest).map fun power => ⟨negative, whole, [], power⟩

def of? : List Char → Option Scientific
  | '-' :: cs => ofUnsigned? true cs
  | cs => ofUnsigned? false cs

def expand (s : Scientific) : List Char :=
  (if s.negative then ['-'] else []) ++ positional (s.whole ++ s.fraction) (s.whole.length + s.power)

end Scientific

def expandPower (cs : List Char) : List Char := (Scientific.of? cs).elim cs Scientific.expand

def Magnitude.render (layout : List Char → Int → List Char) (m : Magnitude) : List Char :=
  let (coefficient, exponent) := m.numeral
  let digits := digitsOf coefficient
  layout digits (digits.length + exponent)

namespace Binary64

def text : Binary64 → List Char
  | .nan => "NaN".toList
  | .infinite negative => (if negative then "-Infinity" else "Infinity").toList
  | .finite negative m =>
      if m.units = 0 then ['0']
      else (if negative then ['-'] else []) ++ m.render Layout.usual.text

def signedText (x : Binary64) : List Char :=
  if x = .finite true .zero then ['-', '0'] else x.text

end Binary64

end RecordSieve
