import RecordSieve.Query.Term
import RecordSieve.Text.Case

namespace RecordSieve

structure Options where
  context : Context := {}
  looseEquality : Bool := false
  deriving Inhabited

namespace Value

def isMatch (loose : Bool) (f operand : Value) : Bool :=
  ((match operand with | .null => true | _ => false) && f.isEmptyish) || f.equals operand
    || (loose && f.text == operand.text)

def containsIgnoringCase (whole part : String) : Bool :=
  Text.contains (Text.lower whole) (Text.lower part)

end Value

namespace MatchOp

def holds (op : MatchOp) (loose : Bool) (f operand : Value) : Bool :=
  match op with
  | .is => f.isMatch loose operand
  | .isNot => !f.isMatch loose operand
  | .contains =>
      match operand, f with
      | .null, _ => false
      | _, .list items => items.any (·.equals operand)
      | _, .string s => Text.contains s operand.text
      | _, _ => false
  | .iContains =>
      match f with
      | .string s => Value.containsIgnoringCase s operand.text
      | _ => false

end MatchOp

namespace OrderOp

def holdsFor (op : OrderOp) (f operand : Value) : Bool :=
  match f.number? with
  | some n => ((Value.toKindOf? f operand).bind n.compare?).any op.holds
  | none =>
      match f with
      | .string s => op.holds (Text.compareBytes s operand.text)
      | _ => false

end OrderOp

namespace CompareOp

def order? (lhs rhs : Value) : Option Ordering :=
  match lhs.toNumber?, rhs.toNumber? with
  | some a, some b => a.compare? b
  | _, _ => some (Text.compareBytes lhs.text rhs.text)

def holds (op : CompareOp) (lhs rhs : Value) : Bool :=
  match op with
  | .contains => Text.contains lhs.text rhs.text
  | .iContains => Value.containsIgnoringCase lhs.text rhs.text
  | .eq => (order? lhs rhs).any (·.isEq)
  | .neq => (order? lhs rhs).all (!·.isEq)
  | .gt => (order? lhs rhs).any (·.isGT)
  | .gte => (order? lhs rhs).any (·.isGE)
  | .lt => (order? lhs rhs).any (·.isLT)
  | .lte => (order? lhs rhs).any (·.isLE)

end CompareOp

namespace Query

mutual

def evalOn (options : Options) (s : Subject) : Query → Except Failure Bool
  | .empty => .ok false
  | .check op field operand => s.test field (op.holds options.looseEquality · operand)
  | .order op field operand => s.test field (op.holdsFor · operand)
  | .joined .all children => evalAll options s children
  | .joined .any children => evalAny options s children
  | .not child => (evalOn options s child).map (!·)
  | .compare op lhs rhs => do
      let a ← lhs.eval s options.context
      let b ← rhs.eval s options.context
      return op.holds a b

def evalAll (options : Options) (s : Subject) : List Query → Except Failure Bool
  | [] => .ok true
  | q :: qs =>
      match evalOn options s q with
      | .ok true => evalAll options s qs
      | other => other

def evalAny (options : Options) (s : Subject) : List Query → Except Failure Bool
  | [] => .ok false
  | q :: qs =>
      match evalOn options s q with
      | .ok false => evalAny options s qs
      | other => other

end

def eval (options : Options) (input : Input) (q : Query) : Except Failure Bool :=
  q.evalOn options input.subject

section

variable {options : Options} {input : Input}

theorem eval_empty : eval options input .empty = .ok false := by rw [eval, evalOn]

theorem eval_check (op : MatchOp) (field : String) (operand : Value) :
    eval options input (.check op field operand) =
      input.subject.test field (op.holds options.looseEquality · operand) := by rw [eval, evalOn]

theorem eval_order (op : OrderOp) (field : String) (operand : Value) :
    eval options input (.order op field operand) = input.subject.test field (op.holdsFor · operand) := by
  rw [eval, evalOn]

theorem eval_not (child : Query) :
    eval options input (.not child) = (eval options input child).map (!·) := by rw [eval, evalOn, eval]

end

end Query

end RecordSieve
