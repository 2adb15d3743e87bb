import RecordSieve.Json
import RecordSieve.Text.Units

namespace RecordSieve

inductive Value where
  | integer (value : Int)
  | unsigned (value : Nat)
  | float (value : Binary64)
  | string (value : String)
  | boolean (value : Bool)
  | null
  | list (items : List Value)
  | map (entries : List (String × Value))
  deriving Inhabited, Repr

namespace Value

def kindName : Value → String
  | .integer _ => "integer"
  | .unsigned _ => "unsigned"
  | .float _ => "float"
  | .string _ => "string"
  | .boolean _ => "boolean"
  | .null => "null"
  | .list _ => "list"
  | .map _ => "map"

def ofBinary64 (x : Binary64) : Value :=
  match x.safeInteger? with
  | some n => .integer n
  | none => .float x

def number? : Value → Option Number
  | .integer n => some (.integer n)
  | .unsigned n => some (.integer n)
  | .float x => some (.float x)
  | _ => none

def isNumeric (v : Value) : Bool := v.number?.isSome

def isEmptyish : Value → Bool
  | .null => true
  | .list items => items.isEmpty
  | .map entries => entries.isEmpty
  | _ => false

mutual

def toJson : Value → Json
  | .integer n => .number (.ofInteger n)
  | .unsigned n => .number (.ofInteger n)
  | .float x => .number (.float x)
  | .string s => .string s
  | .boolean b => .boolean b
  | .null => .null
  | .list items => .array (toJsonItems items)
  | .map entries => .object (Entries.inPropertyOrder (toJsonEntries entries))

def toJsonItems : List Value → List Json
  | [] => []
  | v :: vs => v.toJson :: toJsonItems vs

def toJsonEntries : List (String × Value) → List (String × Json)
  | [] => []
  | (k, v) :: rest => (k, v.toJson) :: toJsonEntries rest

end

mutual

def ofJson : Json → Value
  | .null => .null
  | .boolean b => .boolean b
  | .number (.integer n) => .integer n
  | .number (.float x) => .ofBinary64 x
  | .string s => .string s
  | .array items => .list (ofJsonItems items)
  | .object properties => .map (ofJsonProperties properties)

def ofJsonItems : List Json → List Value
  | [] => []
  | j :: rest => ofJson j :: ofJsonItems rest

def ofJsonProperties : List (String × Json) → List (String × Value)
  | [] => []
  | (k, j) :: rest => (k, ofJson j) :: ofJsonProperties rest

end

def text : Value → String
  | .string s => s
  | .integer n => String.ofList (intText n)
  | .unsigned n => String.ofList (intText n)
  | .float x => String.ofList x.text
  | .boolean b => if b then "true" else "false"
  | .null => "null"
  | v => v.toJson.text

def sameNumber (a b : Number) : Bool := a.compare? b == some .eq

mutual

def equals : Value → Value → Bool
  | .null, .null => true
  | .string a, .string b => a == b
  | .boolean a, .boolean b => a == b
  | .list as, .list bs => equalsItems as bs
  | .map as, .map bs => as.length == bs.length && equalsEntries as bs
  | a, b =>
      match a.number?, b.number? with
      | some m, some n => sameNumber m n
      | _, _ => false

def equalsItems : List Value → List Value → Bool
  | [], [] => true
  | a :: as, b :: bs => equals a b && equalsItems as bs
  | _, _ => false

def equalsEntries : List (String × Value) → List (String × Value) → Bool
  | [], _ => true
  | (k, a) :: rest, bs =>
      (match Entries.find? k bs with
        | some b => equals a b
        | none => false) && equalsEntries rest bs

end

def numberOfText? (s : String) : Option Number :=
  match RecordSieve.integer? s.toList with
  | some n => some (.integer n)
  | none => (Decimal.parse? s.toList).map fun d => .float d.toBinary64

def toNumber? : Value → Option Number
  | .string s => numberOfText? s
  | v => v.number?

def toFloat? (v : Value) : Option Binary64 := v.toNumber?.map Number.toBinary64

def toInteger? (v : Value) : Option Int := v.toNumber?.bind Number.truncate?

def toUnsigned? (v : Value) : Option Int := v.toInteger?.filter (0 ≤ ·)

/-- A value's number brought to the numeric kind of `field`; there is none when `field` is not
numeric. -/
def toKindOf? (field v : Value) : Option Number :=
  match field with
  | .integer _ => v.toInteger?.map .integer
  | .unsigned _ => v.toUnsigned?.map .integer
  | .float _ => v.toFloat?.map .float
  | _ => none

end Value

end RecordSieve
