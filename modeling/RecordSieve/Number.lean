import RecordSieve.Number.Decimal

namespace RecordSieve

inductive Number where
  | integer (value : Int)
  | float (value : Binary64)
  deriving DecidableEq, Repr, Inhabited

inductive Place where
  | below
  | within (units : Int)
  | above
  deriving DecidableEq, Repr

namespace Place

def compare : Place → Place → Ordering
  | .below, .below => .eq
  | .below, _ => .lt
  | _, .below => .gt
  | .above, .above => .eq
  | .above, _ => .gt
  | _, .above => .lt
  | .within a, .within b => compareOfLessAndEq a b

end Place

def Binary64.place? : Binary64 → Option Place
  | .nan => none
  | .infinite negative => some (if negative then .below else .above)
  | .finite negative m => some (.within (signed negative m.units))

namespace Number

def place? : Number → Option Place
  | .integer n => some (.within (n * unitsPerOne))
  | .float x => x.place?

def compare? (a b : Number) : Option Ordering := do
  return (← a.place?).compare (← b.place?)

def ofInteger (n : Int) : Number := if isSafe n then .float (.ofInt n) else .integer n

def ofBinary64 (x : Binary64) : Number :=
  match x.safeInteger? with
  | some n => .integer n
  | none => .float x

def toBinary64 : Number → Binary64
  | .integer n => .ofInt n
  | .float x => x

def truncate? : Number → Option Int
  | .integer n => some n
  | .float x => x.truncate?

def text : Number → List Char
  | .integer n => intText n
  | .float x => x.text

end Number

end RecordSieve
