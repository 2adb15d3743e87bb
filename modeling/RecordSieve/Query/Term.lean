import RecordSieve.Query.Subject

namespace RecordSieve

structure Context where
  functions : Entries Callable := []
  bindings : Entries Value := []
  deriving Inhabited

def trueWords : List String := ["1", "t", "T", "TRUE", "true", "True"]

def falseWords : List String := ["0", "f", "F", "FALSE", "false", "False"]

def Value.truth : Value → Except EvaluationError Bool
  | .null => .ok false
  | .boolean b => .ok b
  | .integer n => .ok (n != 0)
  | .unsigned n => .ok (n != 0)
  | .float x => .ok (x.place? != some (.within 0))
  | .string s =>
      if s ∈ trueWords then .ok true
      else if s ∈ falseWords then .ok false
      else .error (.notTruthValue s)
  | .list items => .ok !items.isEmpty
  | .map entries => .ok !entries.isEmpty

def Value.truthOrFail (v : Value) : Except Failure Bool := v.truth.mapError .evaluation

namespace Callable

/-- A function's failure as a failed evaluation, unless it is one already or has no text. -/
def wrapped (label : String) : Failure → Failure
  | .evaluation e => .evaluation e
  | .mute raised => raised
  | e => .evaluation (.functionFailed label e.message)

def apply (label : String) (f : Callable) (arguments : List Value) : Except Failure Value :=
  (f.run arguments).mapError (wrapped label)

def label (name : Option String) (f : Option Callable) : String :=
  name.getD ((f.map Callable.name).filter (· ≠ "") |>.getD "anonymous")

end Callable

def Context.callee (context : Context) (name : Option String) (fallback : Option Callable) :
    Option Callable :=
  (name.bind fun n => Entries.find? n context.functions).or fallback

namespace Term

mutual

def eval (s : Subject) (context : Context) : Term → Except Failure Value
  | .field name => s.demand name
  | .constant v => .ok v
  | .self => s.self
  | .bound name =>
      match Entries.find? name context.bindings with
      | some v => .ok v
      | none => .error (.evaluation (.undefinedVariable name))
  | .call name fallback arguments =>
      match context.callee name fallback with
      | none => .error (.evaluation (.unknownFunction (Callable.label name fallback)))
      | some f => (evalAll s context arguments).bind (f.apply (Callable.label name fallback))
  | .choice condition positive negative =>
      (eval s context condition).bind fun v =>
        v.truthOrFail.bind fun b =>
          if b then eval s context positive else evalIfGiven s context negative
  | .truth t => (eval s context t).bind fun v => v.truthOrFail.map .boolean

def evalAll (s : Subject) (context : Context) : List Term → Except Failure (List Value)
  | [] => .ok []
  | t :: ts => (eval s context t).bind fun v => (evalAll s context ts).map (v :: ·)

def evalIfGiven (s : Subject) (context : Context) : Option Term → Except Failure Value
  | some t => eval s context t
  | none => .ok .null

end

end Term

end RecordSieve
