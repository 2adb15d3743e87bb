import RecordSieve.Datum.Projection
import RecordSieve.Failure

namespace RecordSieve

def commonNames : List String :=
  ["constructor", "__defineGetter__", "__defineSetter__", "hasOwnProperty", "__lookupGetter__",
    "__lookupSetter__", "isPrototypeOf", "propertyIsEnumerable", "toString", "valueOf", "__proto__",
    "toLocaleString"]

namespace Datum

def properties : Datum → List (String × Slot)
  | .object own _ => own
  | .boxed (.string s) => s.toList.mapIdx fun i c => (toString i, .ok (.string (String.singleton c)))
  | _ => []

def ownProperty? (name : String) : Datum → Option Slot
  | .boxed (.string s) =>
      if name = "length" then some (.ok (.number (.float (.ofInt (Text.units s)))))
      else Entries.find? name (properties (.boxed (.string s)))
  | d => Entries.find? name d.properties

def inheritedProperty? (name : String) : Datum → Option Slot
  | .object _ inherited => Entries.find? name inherited
  | _ => none

def property? (name : String) (d : Datum) : Option Slot :=
  (d.ownProperty? name).or (d.inheritedProperty? name)

def isFunction : Datum → Bool
  | .function _ => true
  | _ => false

/-- A property that counts as a field: own properties do, inherited ones unless they are functions or
common to all objects. One whose reading fails is absent. -/
def fieldOf? (name : String) (d : Datum) : Option Datum :=
  match d.ownProperty? name with
  | some (.ok v) => some v
  | some (.error _) => none
  | none =>
      if name ∈ commonNames then none
      else match d.inheritedProperty? name with
        | some (.ok v) => if v.isFunction then none else some v
        | _ => none

end Datum

inductive Capability where
  | getter
  | keyed
  | fields
  deriving DecidableEq, Repr

structure RecordView where
  capability : Capability
  field? : String → Option Datum

namespace Input

/-- How a record gives its fields; what is not a record gives none. The error is one that reading the
property `getField` raises. -/
def view? (input : Input) : Except Failure (Option RecordView) :=
  match input.root.resolve input.objects with
  | .keyed entries => .ok (some ⟨.keyed, fun name => Entries.find? name (Datum.textEntries entries)⟩)
  | .object own inherited =>
      let d := Datum.object own inherited
      match d.property? "getField" with
      | some (.ok (.function call)) => .ok (some ⟨.getter, fun name => (call name).toOption⟩)
      | some (.error message) => .error (.other message)
      | _ => .ok (some ⟨.fields, fun name => d.fieldOf? name⟩)
  | .date millis => .ok (some ⟨.fields, fun name => (Datum.date millis).fieldOf? name⟩)
  | .boxed content => .ok (some ⟨.fields, fun name => (Datum.boxed content).fieldOf? name⟩)
  | _ => .ok none

def lookup (input : Input) (name : String) : Except Failure (Option Value) :=
  input.view?.map fun view =>
    (view.bind (·.field? name)).map (Datum.project input.objects)

end Input

end RecordSieve
