import RecordSieve.Datum
import RecordSieve.Failure

namespace RecordSieve.Datum

mutual

def written (objects : Objects) : Datum → Except String (Option Json)
  | .undefined | .symbol | .function _ => .ok none
  | .null => .ok (some .null)
  | .boolean b => .ok (some (.boolean b))
  | .number n => .ok (some (.number n))
  | .string s => .ok (some (.string s))
  | .date millis => .ok (some ((millis.map Instant.text).elim .null fun cs => .string (String.ofList cs)))
  | .boxed (.number (.integer _)) => .ok (some (.object []))
  | .boxed (.number n) => .ok (some (.number n))
  | .boxed (.string s) => .ok (some (.string s))
  | .boxed (.boolean b) => .ok (some (.boolean b))
  | .array items => (writtenItems objects items).map fun items => some (.array items)
  | .keyed _ => .ok (some (.object []))
  | .object own _ => (writtenProperties objects own).map fun ps => some (.object ps)
  | .ref name =>
      match _h : objects.find? name with
      | some d => written (objects.erase name) d
      | none => .ok (some .null)
  termination_by d => (objects.length, sizeOf d)
  decreasing_by
    all_goals first
      | exact Prod.Lex.left _ _ (Objects.length_erase_lt _h)
      | (apply Prod.Lex.right; simp_wf; try omega)

def writtenItems (objects : Objects) : List Datum → Except String (List Json)
  | [] => .ok []
  | d :: ds =>
      match written objects d with
      | .error e => .error e
      | .ok j => (writtenItems objects ds).map (j.getD .null :: ·)
  termination_by ds => (objects.length, sizeOf ds)

def writtenProperties (objects : Objects) :
    List (String × Slot) → Except String (List (String × Json))
  | [] => .ok []
  | (k, .ok d) :: rest =>
      match written objects d with
      | .error e => .error e
      | .ok none => writtenProperties objects rest
      | .ok (some j) => (writtenProperties objects rest).map ((k, j) :: ·)
  | (_, .error message) :: _ => .error message
  termination_by ps => (objects.length, sizeOf ps)

end

end RecordSieve.Datum

namespace RecordSieve.Input

def text (input : Input) : Except Failure String :=
  ((input.root.written input.objects).mapError .other).map fun j => (j.getD .null).text

end RecordSieve.Input
