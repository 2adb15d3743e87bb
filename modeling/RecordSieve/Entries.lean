import RecordSieve.Number.Decimal

namespace RecordSieve

abbrev Entries (α : Type) := List (String × α)

namespace Entries

variable {α β : Type}

def find? (key : String) : Entries α → Option α
  | [] => none
  | (k, v) :: rest => if k = key then some v else find? key rest

def has (key : String) (es : Entries α) : Bool := (es.find? key).isSome

def mapValues (f : α → β) (es : Entries α) : Entries β := es.map fun (k, v) => (k, f v)

def insert (key : String) (value : α) : Entries α → Entries α
  | [] => [(key, value)]
  | (k, v) :: rest => if k = key then (k, value) :: rest else (k, v) :: insert key value rest

def ofList (es : List (String × α)) : Entries α := es.foldl (fun acc (k, v) => acc.insert k v) []

/-- The array index that a key spells: digits without a leading zero, below `2 ^ 32 - 1`. -/
def index? (key : String) : Option Nat :=
  let cs := key.toList
  let n := digitsValue cs
  if cs.all Char.isDigit ∧ digitsOf n = cs ∧ n < 4294967295 then some n else none

def precedes (key other : String) : Bool :=
  match index? key, index? other with
  | some i, some j => decide (i < j)
  | some _, none => true
  | none, _ => false

def place (key : String) (value : α) : Entries α → Entries α
  | [] => [(key, value)]
  | (k, v) :: rest =>
      if precedes key k then (key, value) :: (k, v) :: rest else (k, v) :: place key value rest

def define (key : String) (value : α) (es : Entries α) : Entries α :=
  if es.has key then es.insert key value else es.place key value

def inPropertyOrder (es : List (String × α)) : Entries α :=
  es.foldl (fun acc (k, v) => acc.define k v) []

end Entries

end RecordSieve
