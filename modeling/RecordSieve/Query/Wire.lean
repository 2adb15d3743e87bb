import RecordSieve.Datum.Shape
import RecordSieve.Json.Parser
import RecordSieve.Query

namespace RecordSieve

namespace Value

mutual

def toWire (path : Path) : Value → Except FormError Json
  | .integer n => .ok (.number (.ofInteger n))
  | .unsigned n => .ok (.number (.ofInteger n))
  | .float x => if x.isFinite then .ok (.number (.float x)) else .error ⟨.notFiniteWire x, some path⟩
  | .string s => .ok (.string s)
  | .boolean b => .ok (.boolean b)
  | .null => .ok .null
  | .list items => (toWireItems path 0 items).map .array
  | .map entries => (toWireEntries path entries).map fun ps => .object (Entries.inPropertyOrder ps)

def toWireItems (path : Path) (i : Nat) : List Value → Except FormError (List Json)
  | [] => .ok []
  | v :: vs =>
      match v.toWire (path ++ [.index i]) with
      | .error e => .error e
      | .ok j => (toWireItems path (i + 1) vs).map (j :: ·)

def toWireEntries (path : Path) : List (String × Value) → Except FormError (List (String × Json))
  | [] => .ok []
  | (k, v) :: rest =>
      match v.toWire (path ++ [.key k]) with
      | .error e => .error e
      | .ok j => (toWireEntries path rest).map ((k, j) :: ·)

end

end Value

namespace Query

def wrap (expression : Json) : Json := .object [("Expression", expression)]

def typed (name : String) (payload : List (String × Json)) : Json :=
  .object [("Type", .string name), ("Expression", .object payload)]

def leafToWire (path : Path) (name field : String) (operand : Value) : Except FormError Json :=
  (operand.toWire (path ++ [.key "Value"])).map fun j =>
    typed name [("Field", .string field), ("Value", j)]

mutual

def expressionToWire (path : Path) : Query → Except FormError Json
  | .empty => .ok .null
  | .check op field operand => leafToWire path op.name field operand
  | .order op field operand => leafToWire path op.name field operand
  | .joined joint children =>
      (childrenToWire path 0 children).map fun items => typed joint.name [("Expressions", .array items)]
  | .not child =>
      (expressionToWire (path ++ [.key "Expression"]) child).map fun j =>
        typed "Not" [("Expression", wrap j)]
  | .compare _ _ _ => .error ⟨.comparisonWire, some path⟩

def childrenToWire (path : Path) (i : Nat) : List Query → Except FormError (List Json)
  | [] => .ok []
  | q :: qs =>
      match expressionToWire (path ++ [.key "Expressions", .index i]) q with
      | .error e => .error e
      | .ok j => (childrenToWire path (i + 1) qs).map (wrap j :: ·)

end

def toWire (q : Query) : Except FormError Json := (q.expressionToWire [.key "Expression"]).map wrap

def serialize (q : Query) : Except FormError String := q.toWire.map Json.text

def greatestDepth : Nat := 256

def greatestFieldLength : Nat := 256

def greatestChildCount : Nat := 1000

def malformed (what : String) (path : Path) (issues : List Issue) : Failure :=
  .form ⟨.malformed what issues, some path⟩

def demandObject (what : String) (path place : Path) (d : Datum) : Except Failure Unit :=
  if d.isObject then .ok () else .error (malformed what path [⟨place, d.mismatch "object"⟩])

def textIssues (place : Path) (least greatest : Nat) (s : String) : List Issue :=
  if Text.units s < least then [⟨place, .textTooShort least⟩]
  else if greatest < Text.units s then [⟨place, .textTooLong greatest⟩]
  else []

def fieldNameIssues (place : Path) : Datum → List Issue
  | .string s => textIssues place 1 greatestFieldLength s
  | d => [⟨place, d.mismatch "string"⟩]

def operandJson? (objects : Objects) (d : Datum) : Except Failure (Option Json) :=
  match d with
  | .undefined => .ok (some .null)
  | d => (d.toJson? objects).mapError .other

def leafPayload (objects : Objects) (what : String) (path : Path) (raw : Datum) :
    Except Failure (String × Value) := do
  let payload ← raw.member objects "Expression"
  demandObject what path [.key "Expression"] payload
  let name ← payload.member objects "Field"
  let operand ← operandJson? objects (← payload.member objects "Value")
  let operandIssues : List Issue :=
    if operand.isSome then [] else [⟨[.key "Expression", .key "Value"], .noBranch⟩]
  let issues := fieldNameIssues [.key "Expression", .key "Field"] name ++ operandIssues
  match name, operand, issues with
  | .string field, some j, [] => .ok (field, Value.ofJson j)
  | _, _, issues => .error (malformed what path issues)

def childrenPayload (objects : Objects) (what : String) (path : Path) (raw : Datum) :
    Except Failure (List Datum) := do
  let payload ← raw.member objects "Expression"
  demandObject what path [.key "Expression"] payload
  let place : Path := [.key "Expression", .key "Expressions"]
  match ← payload.member objects "Expressions" with
  | .undefined => .ok []
  | .array items =>
      if greatestChildCount < items.length then
        .error (malformed what path [⟨place, .tooManyItems (toString greatestChildCount)⟩])
      else .ok items
  | d => .error (malformed what path [⟨place, d.mismatch "array"⟩])

def negationPayload (objects : Objects) (path : Path) (raw : Datum) : Except Failure Datum := do
  let payload ← raw.member objects "Expression"
  demandObject "Not payload" path [.key "Expression"] payload
  payload.member objects "Expression"

inductive ExpressionType where
  | check (op : MatchOp)
  | order (op : OrderOp)
  | joined (joint : Joint)
  | not
  deriving DecidableEq, Repr

def ExpressionType.ofName? : String → Option ExpressionType
  | "Is" => some (.check .is)
  | "IsNot" => some (.check .isNot)
  | "Contains" => some (.check .contains)
  | "IContains" => some (.check .iContains)
  | "GT" => some (.order .gt)
  | "GTE" => some (.order .gte)
  | "LT" => some (.order .lt)
  | "LTE" => some (.order .lte)
  | "And" => some (.joined .all)
  | "Or" => some (.joined .any)
  | "Not" => some .not
  | _ => none

def typeOf (objects : Objects) (path : Path) (raw : Datum) : Except Failure ExpressionType := do
  demandObject "expression header" path [] raw
  match ← raw.member objects "Type" with
  | .string name =>
      if name.isEmpty then .error (malformed "expression header" path [⟨[.key "Type"], .textTooShort 1⟩])
      else match ExpressionType.ofName? name with
        | some type => .ok type
        | none => .error (.form ⟨.unknownType name, some path⟩)
  | d => .error (malformed "expression header" path [⟨[.key "Type"], d.mismatch "string"⟩])

def readChildren (read : Path → Datum → Except Failure Query) (path : Path) (i : Nat) :
    List Datum → Except Failure (List Query)
  | [] => .ok []
  | d :: ds =>
      match read (path ++ [.key "Expressions", .index i]) d with
      | .error e => .error e
      | .ok q => (readChildren read path (i + 1) ds).map (q :: ·)

def readExpression (objects : Objects) (read : Path → Datum → Except Failure Query) (path : Path)
    (raw : Datum) : Except Failure Query := do
  match ← typeOf objects path raw with
  | .check op =>
      let (field, operand) ← leafPayload objects (op.name ++ " payload") path raw
      return .check op field operand
  | .order op =>
      let (field, operand) ← leafPayload objects (op.name ++ " payload") path raw
      return .order op field operand
  | .joined joint =>
      let children ← childrenPayload objects (joint.name ++ " payload") path raw
      return .joined joint (← readChildren read path 0 children)
  | .not =>
      let child ← negationPayload objects path raw
      return .not (← read (path ++ [.key "Expression"]) child)

/-- Reads a query that may have `levels` levels, itself included. -/
def ofWireAt (objects : Objects) : (levels : Nat) → Path → Datum → Except Failure Query
  | 0, path, _ => .error (.form ⟨.tooDeep greatestDepth, some path⟩)
  | levels + 1, path, d => do
      let d := d.resolve objects
      demandObject "query" path [] d
      match ← d.member objects "Expression" with
      | .null | .undefined => return .empty
      | raw => readExpression objects (ofWireAt objects levels) (path ++ [.key "Expression"]) raw

def ofInput (input : Input) : Except Failure Query :=
  ofWireAt input.objects (greatestDepth + 1) [] input.root

def ofWire (j : Json) : Except Failure Query := ofInput (.ofJson j)

def deserialize (text : String) : Except Failure Query := do
  let j ← (Json.parse text).mapError fun e => .form { fault := .invalidJson e }
  ofWire j

end Query

end RecordSieve
