import RecordSieve.Failure
import RecordSieve.Value

namespace RecordSieve

def Number.demandInteger : Number → Except RangeError Int
  | .integer n => .ok n
  | .float x =>
      match x.truncate? with
      | some n => .ok n
      | none => .error (.notIntegral x)

namespace Value

def integerOf (n : Number) : Except RangeError Value := n.demandInteger.map .integer

def unsignedOf (n : Number) : Except RangeError Value :=
  n.demandInteger.bind fun i =>
    if i < 0 then .error (.negative (String.ofList n.text)) else .ok (.unsigned i.toNat)

def ofNumber : Number → Value
  | .integer n => .integer n
  | .float x => .ofBinary64 x

end Value

end RecordSieve
