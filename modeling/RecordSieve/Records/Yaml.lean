import RecordSieve.Records.Lines
import RecordSieve.Yaml.Data

namespace RecordSieve.Yaml

inductive ConversionError where
  | alias (error : AliasError)
  | other (message : String)
  deriving DecidableEq, Repr

def ConversionError.failure : ConversionError → Failure
  | .alias e => .yamlAlias e
  | .other message => .other message

/-- A document as a library hands it out: whether it lists no syntax errors, and its data if asked for. -/
structure Loaded where
  isSound : Bool
  data : Except ConversionError Input

structure Reader where
  documents : String → List Loaded

def Document.loaded (d : Document) : Loaded := ⟨d.isSound, d.data.mapError .alias⟩

/-- Reads documents without a version of their own or of version 1.2, and tags of the core schema. -/
def Reader.core : Reader := ⟨fun text => (Yaml.documents text.toList).map Document.loaded⟩

def dataFrom (number : Nat) : List Loaded → Except Failure (List Input)
  | [] => .ok []
  | d :: ds =>
      if d.isSound then
        match d.data with
        | .error e => .error e.failure
        | .ok input => (dataFrom (number + 1) ds).map (input :: ·)
      else .error (.form { fault := .invalidYaml number })

namespace Reader

def parse (reader : Reader) (text : String) : Except Failure (List Input) :=
  dataFrom 1 (reader.documents text)

def test (reader : Reader) (text : String) (q : Query) (options : Options) : Except Failure Bool := do
  match ← reader.parse text with
  | [] => .error (.form { fault := .noDocument })
  | document :: _ => q.eval options document

end Reader

end RecordSieve.Yaml
