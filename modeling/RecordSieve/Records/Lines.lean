import RecordSieve.Json.Parser
import RecordSieve.Query.Evaluation
import RecordSieve.Text.Lines

namespace RecordSieve.Lines

def isBlankLine (line : List Char) : Bool := line.all Text.isBlank

def parseFrom (number : Nat) : List (List Char) → Except FormError (List Json)
  | [] => .ok []
  | line :: lines =>
      if isBlankLine line then parseFrom (number + 1) lines
      else match Json.parse (String.ofList line) with
        | .error e => .error { fault := .invalidJsonLine number e }
        | .ok j => (parseFrom (number + 1) lines).map (j :: ·)

def parse (text : String) : Except FormError (List Json) := parseFrom 1 (split text.toList)

end RecordSieve.Lines

namespace RecordSieve.Query

def select {α : Type} (q : Query) (options : Options) (record : α → Input) :
    List α → Except Failure (List α)
  | [] => .ok []
  | a :: as => do
      let kept ← q.eval options (record a)
      let rest ← select q options record as
      return if kept then a :: rest else rest

end RecordSieve.Query
