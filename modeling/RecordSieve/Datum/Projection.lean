import RecordSieve.Datum

namespace RecordSieve.Datum

mutual

/-- Projects a datum, `objects` being the named objects that it is not inside of. -/
def project (objects : Objects) : Datum → Value
  | .undefined => .null
  | .null => .null
  | .boolean b => .boolean b
  | .number (.integer n) => .integer n
  | .number (.float x) => .float x
  | .string s => .string s
  | .symbol => .null
  | .function _ => .null
  | .date millis => (millis.map Instant.text).elim .null fun cs => .string (String.ofList cs)
  | .boxed (.number (.integer _)) => .map []
  | .boxed content => ofScalar content
  | .array items => .list (projectItems objects items)
  | .keyed entries => .map (Entries.ofList (projectEntries objects entries))
  | .object own _ => .map (projectProperties objects own)
  | .ref name =>
      match _h : objects.find? name with
      | some d => project (objects.erase name) d
      | none => .null
  termination_by d => (objects.length, sizeOf d)
  decreasing_by
    all_goals first
      | exact Prod.Lex.left _ _ (Objects.length_erase_lt _h)
      | (apply Prod.Lex.right; simp_wf; try omega)

def projectItems (objects : Objects) : List Datum → List Value
  | [] => []
  | d :: ds => project objects d :: projectItems objects ds
  termination_by ds => (objects.length, sizeOf ds)

def projectEntries (objects : Objects) : List (Datum × Datum) → List (String × Value)
  | [] => []
  | (.string k, d) :: rest => (k, project objects d) :: projectEntries objects rest
  | _ :: rest => projectEntries objects rest
  termination_by es => (objects.length, sizeOf es)

def projectProperties (objects : Objects) : List (String × Slot) → List (String × Value)
  | [] => []
  | (_, .ok (.function _)) :: rest => projectProperties objects rest
  | (k, .ok d) :: rest => (k, project objects d) :: projectProperties objects rest
  | (k, .error _) :: rest => (k, .null) :: projectProperties objects rest
  termination_by ps => (objects.length, sizeOf ps)

end

end RecordSieve.Datum

namespace RecordSieve

def Input.toValue (input : Input) : Value := input.root.project input.objects

end RecordSieve
