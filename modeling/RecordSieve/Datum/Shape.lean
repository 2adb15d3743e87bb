import RecordSieve.Datum.Lookup

namespace RecordSieve.Datum

def kindName : Datum → String
  | .undefined => "undefined"
  | .null => "null"
  | .boolean _ => "boolean"
  | .number (.integer _) => "bigint"
  | .number (.float .nan) => "nan"
  | .number (.float _) => "number"
  | .string _ => "string"
  | .symbol => "symbol"
  | .function _ => "function"
  | .date _ => "date"
  | .array _ => "array"
  | .keyed _ => "map"
  | .boxed _ | .object _ _ | .ref _ => "object"

def isObject (d : Datum) : Bool := d.kindName == "object"

def mismatch (expected : String) (d : Datum) : Complaint :=
  match d with
  | .undefined => .required
  | d => .wrongType expected d.kindName

def member (objects : Objects) (name : String) (d : Datum) : Except Failure Datum :=
  match d.property? name with
  | none => .ok .undefined
  | some (.ok v) => .ok (v.resolve objects)
  | some (.error message) => .error (.other message)

def andAll {α : Type} (first : Except String (Option α)) (others : Except String (Option (List α))) :
    Except String (Option (List α)) :=
  match first, others with
  | .error e, _ => .error e
  | .ok _, .error e => .error e
  | .ok (some a), .ok (some as) => .ok (some (a :: as))
  | .ok _, .ok _ => .ok none

def underKey (key : String) (r : Except String (Option Json)) : Except String (Option (String × Json)) :=
  r.map (Option.map fun j => (key, j))

mutual

/-- A datum as JSON data, if it is nothing else: numbers but no `nan`, and objects of JSON data, whose
property `__proto__` is left out. -/
def toJson? (objects : Objects) : Datum → Except String (Option Json)
  | .null => .ok (some .null)
  | .boolean b => .ok (some (.boolean b))
  | .number (.float .nan) => .ok none
  | .number n => .ok (some (.number n))
  | .string s => .ok (some (.string s))
  | .array items => (toJsonItems? objects items).map (Option.map Json.array)
  | .boxed content =>
      match content with
      | .string s => .ok (some (.object (s.toList.mapIdx fun i c =>
          (toString i, .string (String.singleton c)))))
      | _ => .ok (some (.object []))
  | .object own _ => (toJsonProperties? objects own).map (Option.map fun ps =>
      Json.object (ps.filter (·.1 ≠ "__proto__")))
  | .ref name =>
      match _h : objects.find? name with
      | some d => toJson? (objects.erase name) d
      | none => .ok none
  | _ => .ok none
  termination_by d => (objects.length, sizeOf d)
  decreasing_by
    all_goals first
      | exact Prod.Lex.left _ _ (Objects.length_erase_lt _h)
      | (apply Prod.Lex.right; simp_wf; try omega)

def toJsonItems? (objects : Objects) : List Datum → Except String (Option (List Json))
  | [] => .ok (some [])
  | d :: ds => andAll (toJson? objects d) (toJsonItems? objects ds)
  termination_by ds => (objects.length, sizeOf ds)

def toJsonProperties? (objects : Objects) :
    List (String × Slot) → Except String (Option (List (String × Json)))
  | [] => .ok (some [])
  | (k, .ok d) :: rest => andAll (underKey k (toJson? objects d)) (toJsonProperties? objects rest)
  | (_, .error message) :: _ => .error message
  termination_by ps => (objects.length, sizeOf ps)

end

end RecordSieve.Datum
