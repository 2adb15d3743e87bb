import RecordSieve.Query.Parser

namespace RecordSieve

/-- The queries are kept newest first. -/
structure QueryCache where
  capacity : Nat
  queries : List (String × Query) := []

namespace QueryCache

def find? (c : QueryCache) (text : String) : Option Query := Entries.find? text c.queries

def has (c : QueryCache) (text : String) : Bool := (c.find? text).isSome

def keys (c : QueryCache) : List String := c.queries.map (·.1)

def delete (c : QueryCache) (text : String) : QueryCache :=
  { c with queries := c.queries.filter (·.1 ≠ text) }

def clear (c : QueryCache) : QueryCache := { c with queries := [] }

def store (c : QueryCache) (text : String) (q : Query) : QueryCache :=
  { c with queries := ((text, q) :: (c.delete text).queries).take c.capacity }

section Runs

variable {m : Type → Type} [Monad m]

def parseBy (parser : String → m (Except QueryError Query)) (c : QueryCache) (text : String) :
    m (QueryCache × Except QueryError Query) :=
  match c.find? text with
  | some q => return (c.store text q, .ok q)
  | none => do
      match ← parser text with
      | .ok q => return (c.store text q, .ok q)
      | .error e => return (c, .error e)

def parse (c : QueryCache) (text : String) : QueryCache × Except QueryError Query :=
  Id.run (c.parseBy (fun text => return Query.parse text) text)

theorem parse_eq (c : QueryCache) (text : String) :
    c.parse text = match c.find? text with
      | some q => (c.store text q, .ok q)
      | none =>
          match Query.parse text with
          | .ok q => (c.store text q, .ok q)
          | .error e => (c, .error e) := by
  rw [parse, parseBy]
  cases c.find? text with
  | some q => rfl
  | none => cases Query.parse text <;> simp

inductive Step
  | parse (text : String)
  | has (text : String)
  | delete (text : String)
  | clear
  deriving DecidableEq, Repr

inductive Reply
  | query (result : Except QueryError Query)
  | held (present : Bool)
  | cleared

def Step.run (parser : String → m (Except QueryError Query)) (c : QueryCache) : Step → m (QueryCache × Reply)
  | .parse text => do
      let (after, result) ← c.parseBy parser text
      return (after, .query result)
  | .has text => return (c, .held (c.has text))
  | .delete text => return (c.delete text, .held (c.has text))
  | .clear => return (c.clear, .cleared)

def run (parser : String → m (Except QueryError Query)) : QueryCache → List Step → m (QueryCache × List Reply)
  | c, [] => return (c, [])
  | c, step :: rest => do
      let (after, reply) ← step.run parser c
      let (last, replies) ← run parser after rest
      return (last, reply :: replies)

end Runs

def notedParse (text : String) : StateM (List String) (Except QueryError Query) := do
  modify (· ++ [text])
  return Query.parse text

structure Trace where
  cache : QueryCache
  replies : List Reply
  calls : List String

def trace (capacity : Nat) (steps : List Step) : Trace :=
  let ((cache, replies), calls) := (run notedParse { capacity } steps).run []
  ⟨cache, replies, calls⟩

end QueryCache

end RecordSieve
