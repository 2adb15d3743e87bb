import RecordSieve.Proofs.Query.Shape

namespace RecordSieve

inductive Reference where
  | field (name : String)
  | function (name : String)
  | bound (name : String)
  | self
  deriving DecidableEq, Repr

namespace Term

mutual

def references : Term → List Reference
  | .field name => [.field name]
  | .constant _ => []
  | .self => [.self]
  | .bound name => [.bound name]
  | .call name _ arguments => name.toList.map .function ++ referencesIn arguments
  | .choice condition positive negative =>
      references condition ++ references positive ++ referencesIfGiven negative
  | .truth t => references t

def referencesIn : List Term → List Reference
  | [] => []
  | t :: ts => references t ++ referencesIn ts

def referencesIfGiven : Option Term → List Reference
  | some t => references t
  | none => []

end

end Term

namespace Query

mutual

def references : Query → List Reference
  | .empty => []
  | .check _ field _ => [.field field]
  | .order _ field _ => [.field field]
  | .joined _ children => referencesIn children
  | .not child => references child
  | .compare _ lhs rhs => lhs.references ++ rhs.references

def referencesIn : List Query → List Reference
  | [] => []
  | q :: qs => references q ++ referencesIn qs

end

theorem mem_referencesIn {r : Reference} {qs : List Query} :
    r ∈ referencesIn qs ↔ ∃ q ∈ qs, r ∈ q.references := by
  induction qs with
  | nil => simp [referencesIn]
  | cons q qs ih => simp [referencesIn, ih]

end Query

namespace Input

def isRecord (input : Input) : Bool :=
  match input.view? with
  | .ok none => false
  | _ => true

theorem demand_subject (input : Input) (name : String) :
    input.subject.demand name = (input.lookup name).bind fun
      | some v => .ok v
      | none => .error (.evaluation
          (if input.isRecord then .missingField name else .notRecord name)) := by
  rw [← lookup_subject, isRecord, Subject.demand, Subject.lookup, subject]
  rcases input.view? with e | _ | view <;> rfl

end Input

namespace Reference

/-- Whether a reference means the same in two places. Functions count by what they return alone. -/
def IsShared (input input' : Input) (context context' : Context) : Reference → Prop
  | .field name => input.lookup name = input'.lookup name
  | .function name => (Entries.find? name context.functions).map Callable.run =
      (Entries.find? name context'.functions).map Callable.run
  | .bound name => Entries.find? name context.bindings = Entries.find? name context'.bindings
  | .self => input.toValue = input'.toValue

end Reference

section

variable {input input' : Input} {context context' : Context}

theorem Context.map_run_callee {name : Option String} (fallback : Option Callable)
    (h : ∀ n ∈ name, (Reference.function n).IsShared input input' context context') :
    (context.callee name fallback).map Callable.run =
      (context'.callee name fallback).map Callable.run := by
  rw [callee, callee, Option.map_or, Option.map_or]
  cases name with
  | none => rfl
  | some n => exact congrArg (Option.or · _) (h n rfl)

namespace Term

theorem eval_call (name : Option String) (fallback : Option Callable) (arguments : List Term) :
    (Term.call name fallback arguments).eval input.subject context =
      match (context.callee name fallback).map Callable.run with
      | none => .error (.evaluation (.unknownFunction (Callable.label name fallback)))
      | some run => (evalAll input.subject context arguments).bind fun values =>
          (run values).mapError (Callable.wrapped (Callable.label name fallback)) := by
  rw [eval]
  cases context.callee name fallback <;> rfl

mutual

theorem eval_congr (hrecord : input.isRecord = input'.isRecord) (t : Term)
    (h : ∀ r ∈ t.references, r.IsShared input input' context context') :
    t.eval input.subject context = t.eval input'.subject context' := by
  match t with
  | .field name =>
      have hlookup : input.lookup name = input'.lookup name := h (.field name) (by simp [references])
      rw [eval, eval, Input.demand_subject, Input.demand_subject, hlookup, hrecord]
  | .constant v => rw [eval, eval]
  | .self =>
      have hself : input.toValue = input'.toValue := h .self (by simp [references])
      rw [eval, eval]
      exact congrArg Except.ok hself
  | .bound name =>
      have hbound : Entries.find? name context.bindings = Entries.find? name context'.bindings :=
        h (.bound name) (by simp [references])
      rw [eval, eval, hbound]
  | .call name fallback arguments =>
      rw [references] at h
      have hcallee := Context.map_run_callee fallback fun n hn =>
        h (.function n) (List.mem_append_left _ (List.mem_map_of_mem (by simpa using hn)))
      have harguments := evalAll_congr hrecord arguments fun r hr => h r (List.mem_append_right _ hr)
      rw [eval_call, eval_call, hcallee, harguments]
  | .choice condition positive negative =>
      rw [references] at h
      have hcondition := eval_congr hrecord condition fun r hr => h r (by simp [hr])
      have hpositive := eval_congr hrecord positive fun r hr => h r (by simp [hr])
      have hnegative := evalIfGiven_congr hrecord negative fun r hr => h r (by simp [hr])
      rw [eval, eval, hcondition, hpositive, hnegative]
  | .truth t =>
      rw [references] at h
      rw [eval, eval, eval_congr hrecord t h]

theorem evalAll_congr (hrecord : input.isRecord = input'.isRecord) (ts : List Term)
    (h : ∀ r ∈ referencesIn ts, r.IsShared input input' context context') :
    evalAll input.subject context ts = evalAll input'.subject context' ts := by
  match ts with
  | [] => rw [evalAll, evalAll]
  | t :: ts =>
      rw [referencesIn] at h
      rw [evalAll, evalAll, eval_congr hrecord t fun r hr => h r (List.mem_append_left _ hr),
        evalAll_congr hrecord ts fun r hr => h r (List.mem_append_right _ hr)]

theorem evalIfGiven_congr (hrecord : input.isRecord = input'.isRecord) (t : Option Term)
    (h : ∀ r ∈ referencesIfGiven t, r.IsShared input input' context context') :
    evalIfGiven input.subject context t = evalIfGiven input'.subject context' t := by
  match t with
  | some t =>
      rw [referencesIfGiven] at h
      rw [evalIfGiven, evalIfGiven, eval_congr hrecord t h]
  | none => rw [evalIfGiven, evalIfGiven]

end

end Term

namespace Query

variable {options options' : Options}

theorem eval_joined_congr {joint : Joint} {qs : List Query}
    (h : ∀ q ∈ qs, q.eval options input = q.eval options' input') :
    eval options input (.joined joint qs) = eval options' input' (.joined joint qs) := by
  induction qs with
  | nil => rw [eval_joined, eval_joined]; rfl
  | cons q qs ih =>
      obtain ⟨hq, hqs⟩ := List.forall_mem_cons.1 h
      rw [eval_joined_cons, eval_joined_cons, hq, ih hqs]

theorem eval_congr (hrecord : input.isRecord = input'.isRecord)
    (hloose : options.looseEquality = options'.looseEquality) (q : Query)
    (h : ∀ r ∈ q.references, r.IsShared input input' options.context options'.context) :
    q.eval options input = q.eval options' input' := by
  induction q using byChildren with
  | empty => rw [eval_empty, eval_empty]
  | check op field operand =>
      have hlookup : input.lookup field = input'.lookup field := h (.field field) (by simp [references])
      rw [eval_check, eval_check, Input.test_subject, Input.test_subject, hlookup, hloose]
  | order op field operand =>
      have hlookup : input.lookup field = input'.lookup field := h (.field field) (by simp [references])
      rw [eval_order, eval_order, Input.test_subject, Input.test_subject, hlookup]
  | joined joint children ih =>
      rw [references] at h
      exact eval_joined_congr fun q hin => ih q hin fun r hr => h r (mem_referencesIn.2 ⟨q, hin, hr⟩)
  | not child ih =>
      rw [references] at h
      rw [eval_not, eval_not, ih h]
  | compare op lhs rhs =>
      rw [references] at h
      rw [eval, eval, evalOn, evalOn, lhs.eval_congr hrecord fun r hr => h r (List.mem_append_left _ hr),
        rhs.eval_congr hrecord fun r hr => h r (List.mem_append_right _ hr)]

/-- Two records that agree on the fields a query names, in two contexts that agree on the functions and
variables it names, get the same answer or the same failure. -/
theorem eval_eq_of_agree {q : Query} (hself : .self ∉ q.references)
    (hrecord : input.isRecord = input'.isRecord)
    (hfields : ∀ name, .field name ∈ q.references → input.lookup name = input'.lookup name)
    (hfunctions : ∀ name, .function name ∈ q.references →
      (Entries.find? name options.context.functions).map Callable.run =
        (Entries.find? name options'.context.functions).map Callable.run)
    (hvariables : ∀ name, .bound name ∈ q.references →
      Entries.find? name options.context.bindings = Entries.find? name options'.context.bindings)
    (hloose : options.looseEquality = options'.looseEquality) :
    q.eval options input = q.eval options' input' := by
  refine eval_congr hrecord hloose q fun r hr => ?_
  cases r with
  | field name => exact hfields name hr
  | function name => exact hfunctions name hr
  | bound name => exact hvariables name hr
  | self => exact absurd hr hself

theorem eval_eq_of_agree_keyed :
    let q : Query := .joined .all [.check .is "a" (.integer 5),
      .compare .eq (.call (some "first") none [.field "b", .bound "v"])
        (.choice (.bound "v") (.constant (.string "x")) none)]
    let first : List Value → Except Failure Value := fun values => .ok (values.headD .null)
    let input : Input := ⟨[], .object [("a", .ok (.number (.integer 5))), ("b", .ok (.string "x")),
      ("c", .error "no")] []⟩
    let input' : Input := ⟨[], .keyed [(.string "b", .string "x"), (.string "a", .number (.integer 5))]⟩
    let context : Context := ⟨[("first", ⟨"first", first⟩)], [("v", .boolean true)]⟩
    let context' : Context := ⟨[("last", ⟨"last", fun _ => .ok .null⟩), ("first", ⟨"head", first⟩)],
      [("w", .null), ("v", .boolean true)]⟩
    q.eval ⟨context, true⟩ input = q.eval ⟨context', true⟩ input' := by
  intro q first input input' context context'
  have hnames : q.references = [.field "a", .function "first", .field "b", .bound "v", .bound "v"] := rfl
  refine eval_eq_of_agree (by simp [hnames]) rfl ?_ ?_ ?_ rfl
  · intro name hname
    have hname : name = "a" ∨ name = "b" := by simpa [hnames] using hname
    rcases hname with rfl | rfl <;> rfl
  · intro name hname
    obtain rfl : name = "first" := by simpa [hnames] using hname
    rfl
  · intro name hname
    obtain rfl : name = "v" := by simpa [hnames] using hname
    rfl

end Query

end

end RecordSieve
