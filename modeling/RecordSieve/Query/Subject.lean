import RecordSieve.Datum.Lookup
import RecordSieve.Query

namespace RecordSieve

/-- A read gives something to project, and the projection may raise a failure, or raises one itself. -/
inductive Read where
  | gives (projection : Except Failure Value)
  | raises (failure : Failure)

-- What a read raises is caught and asked for its text, a projection is not guarded.
def Read.value? : Read → Except Failure (Option Value)
  | .gives projection => projection.map some
  | .raises (.mute raised) => .error raised
  | .raises _ => .ok none

/-- The fields of a record by name; what is not a record has none. `self` is the projection of the whole. -/
structure Subject where
  fields? : Except Failure (Option (String → Option Read))
  self : Except Failure Value

namespace Subject

def valueOf? (fields : String → Option Read) (name : String) : Except Failure (Option Value) :=
  ((fields name).map Read.value?).getD (.ok none)

def lookup (s : Subject) (name : String) : Except Failure (Option Value) :=
  s.fields?.bind fun
    | none => .ok none
    | some fields => valueOf? fields name

def demand (s : Subject) (name : String) : Except Failure Value :=
  s.fields?.bind fun
    | none => .error (.evaluation (.notRecord name))
    | some fields => (valueOf? fields name).bind fun
        | some v => .ok v
        | none => .error (.evaluation (.missingField name))

def test (s : Subject) (field : String) (passes : Value → Bool) : Except Failure Bool :=
  (s.lookup field).map (·.any passes)

end Subject

def Input.subject (input : Input) : Subject where
  fields? := input.view?.map (Option.map fun view name =>
    (view.field? name).map fun d => .gives (.ok (d.project input.objects)))
  self := .ok input.toValue

theorem Input.lookup_subject (input : Input) (name : String) :
    input.subject.lookup name = input.lookup name := by
  rw [Subject.lookup, subject, lookup]
  rcases input.view? with e | _ | view
  · rfl
  · rfl
  · cases hfield : view.field? name <;>
      simp [Except.map, Except.bind, Subject.valueOf?, Read.value?, hfield]

theorem Input.test_subject (input : Input) (field : String) (passes : Value → Bool) :
    input.subject.test field passes = (input.lookup field).map (·.any passes) := by
  rw [Subject.test, lookup_subject]

end RecordSieve
