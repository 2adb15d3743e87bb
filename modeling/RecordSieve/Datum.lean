import RecordSieve.Instant
import RecordSieve.Value

namespace RecordSieve

inductive Scalar where
  | number (value : Number)
  | string (value : String)
  | boolean (value : Bool)
  deriving DecidableEq, Repr

/-- A function is given by what it returns, or the message of what it raises, for a name. An object
has properties of its own, in property order, and others that it inherits and does not list. An
object that occurs more than once is named by a number and stands aside. -/
inductive Datum where
  | undefined
  | null
  | boolean (value : Bool)
  | number (value : Number)
  | string (value : String)
  | symbol
  | function (call : String → Except String Datum)
  | date (millis : Option Int)
  | boxed (content : Scalar)
  | array (items : List Datum)
  | keyed (entries : List (Datum × Datum))
  | object (own inherited : List (String × Except String Datum))
  | ref (name : Nat)
  deriving Inhabited

abbrev Slot := Except String Datum

abbrev Objects := List (Nat × Datum)

namespace Objects

def find? (objects : Objects) (name : Nat) : Option Datum := List.lookup name objects

def erase (objects : Objects) (name : Nat) : Objects := objects.filter (·.1 != name)

theorem length_erase_lt {objects : Objects} {name : Nat} {d : Datum}
    (h : objects.find? name = some d) : (objects.erase name).length < objects.length := by
  induction objects with
  | nil => simp [find?] at h
  | cons head rest ih =>
      obtain ⟨n, e⟩ := head
      by_cases hn : n = name
      · subst hn
        have := List.length_filter_le (fun p : Nat × Datum => p.1 != n) rest
        simp only [erase, List.filter_cons, bne_self_eq_false, Bool.false_eq_true, if_false,
          List.length_cons]
        omega
      · have hr : find? rest name = some d := by
          simpa [find?, List.lookup_cons, beq_eq_false_iff_ne.2 (Ne.symm hn)] using h
        have := ih hr
        simp only [erase, List.filter_cons, bne_iff_ne, ne_eq, hn, not_false_eq_true, if_true,
          List.length_cons] at *
        omega

end Objects

structure Input where
  objects : Objects := []
  root : Datum
  deriving Inhabited

namespace Datum

def resolve (objects : Objects) : Datum → Datum
  | .ref name => (objects.find? name).getD .undefined
  | d => d

def textEntries (entries : List (Datum × Datum)) : Entries Datum :=
  Entries.ofList (entries.filterMap fun
    | (.string k, v) => some (k, v)
    | _ => none)

def ofScalar : Scalar → Value
  | .number n => match n with
      | .integer i => .integer i
      | .float x => .float x
  | .string s => .string s
  | .boolean b => .boolean b

mutual

def ofJson : Json → Datum
  | .null => .null
  | .boolean b => .boolean b
  | .number n => .number n
  | .string s => .string s
  | .array items => .array (ofJsonItems items)
  | .object properties => .object (ofJsonProperties properties) []

def ofJsonItems : List Json → List Datum
  | [] => []
  | j :: rest => ofJson j :: ofJsonItems rest

def ofJsonProperties : List (String × Json) → List (String × Slot)
  | [] => []
  | (k, j) :: rest => (k, .ok (ofJson j)) :: ofJsonProperties rest

end

end Datum

def Input.ofJson (j : Json) : Input := ⟨[], .ofJson j⟩

end RecordSieve
