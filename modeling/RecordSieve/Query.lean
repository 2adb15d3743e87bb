import RecordSieve.Failure
import RecordSieve.Value

namespace RecordSieve

structure Callable where
  name : String
  run : List Value → Except Failure Value

/-- Expressions for values. A call looks its name up first and falls back on its own function. -/
inductive Term where
  | field (name : String)
  | constant (value : Value)
  | self
  | bound (name : String)
  | call (name : Option String) (fallback : Option Callable) (arguments : List Term)
  | choice (condition positive : Term) (negative : Option Term)
  | truth (term : Term)
  deriving Inhabited

inductive MatchOp where
  | is
  | isNot
  | contains
  | iContains
  deriving DecidableEq, Repr

inductive OrderOp where
  | gt
  | gte
  | lt
  | lte
  deriving DecidableEq, Repr

inductive CompareOp where
  | eq
  | neq
  | gt
  | gte
  | lt
  | lte
  | contains
  | iContains
  deriving DecidableEq, Repr

inductive Joint where
  | all
  | any
  deriving DecidableEq, Repr

inductive Query where
  | empty
  | check (op : MatchOp) (field : String) (operand : Value)
  | order (op : OrderOp) (field : String) (operand : Value)
  | joined (joint : Joint) (children : List Query)
  | not (child : Query)
  | compare (op : CompareOp) (lhs rhs : Term)
  deriving Inhabited

namespace MatchOp

def name : MatchOp → String
  | .is => "Is"
  | .isNot => "IsNot"
  | .contains => "Contains"
  | .iContains => "IContains"

def symbol? : MatchOp → Option String
  | .is => some "is"
  | .isNot => some "is not"
  | .contains => some "contains"
  | .iContains => none

end MatchOp

namespace OrderOp

def name : OrderOp → String
  | .gt => "GT"
  | .gte => "GTE"
  | .lt => "LT"
  | .lte => "LTE"

def symbol : OrderOp → String
  | .gt => ">"
  | .gte => ">="
  | .lt => "<"
  | .lte => "<="

def holds : OrderOp → Ordering → Bool
  | .gt, o => o.isGT
  | .gte, o => o.isGE
  | .lt, o => o.isLT
  | .lte, o => o.isLE

end OrderOp

namespace Joint

def name : Joint → String
  | .all => "And"
  | .any => "Or"

def symbol : Joint → String
  | .all => "and"
  | .any => "or"

end Joint

namespace Query

def all (children : List Query) : Query := .joined .all children

def any (children : List Query) : Query := .joined .any children

end Query

end RecordSieve
