import RecordSieve.Json.SyntaxError
import RecordSieve.Number
import RecordSieve.Text.Quoted

namespace RecordSieve

inductive QueryFault where
  | unterminatedString
  | unexpectedCharacter (c : Char)
  | identifierExpected
  | valueExpected
  | closingExpected
  | unexpectedOperator (text : String)
  | unexpectedToken (text : String)
  deriving DecidableEq, Repr

structure QueryError where
  fault : QueryFault
  position : Nat
  deriving DecidableEq, Repr

def QueryFault.text : QueryFault → String
  | .unterminatedString => "unterminated string"
  | .unexpectedCharacter c => "unexpected character " ++ Text.quote (String.singleton c)
  | .identifierExpected => "expected identifier"
  | .valueExpected => "expected value"
  | .closingExpected => "expected )"
  | .unexpectedOperator text => "unexpected operator " ++ Text.quote text
  | .unexpectedToken text => "unexpected token " ++ Text.quote text

def QueryError.message (e : QueryError) : String := s!"{e.fault.text} at position {e.position}"

inductive Step where
  | key (name : String)
  | index (i : Nat)
  deriving DecidableEq, Repr

abbrev Path := List Step

namespace Path

def stepText : Step → String
  | .key name => "." ++ name
  | .index i => "[" ++ toString i ++ "]"

def text (path : Path) : String := path.foldl (fun acc s => acc ++ stepText s) "$"

def plainStep : Step → String
  | .key name => name
  | .index i => toString i

def dotted (path : Path) : String := ".".intercalate (path.map plainStep)

end Path

inductive Complaint where
  | required
  | wrongType (expected received : String)
  | textTooShort (least : Nat)
  | textTooLong (greatest : Nat)
  | tooManyItems (greatest : String)
  | notAmong (options : List String) (received : String)
  | notInteger
  | belowLeast (least : Nat)
  | aboveGreatest (greatest : Nat)
  | notPositive
  | noBranch
  deriving DecidableEq, Repr

def Complaint.text : Complaint → String
  | .required => "Required"
  | .wrongType expected received => s!"Expected {expected}, received {received}"
  | .textTooShort least => s!"String must contain at least {least} character(s)"
  | .textTooLong greatest => s!"String must contain at most {greatest} character(s)"
  | .tooManyItems greatest => s!"Array must contain at most {greatest} element(s)"
  | .notAmong options received =>
      let listed := " | ".intercalate (options.map fun o => "'" ++ o ++ "'")
      s!"Invalid enum value. Expected {listed}, received '{received}'"
  | .notInteger => "Expected integer, received float"
  | .belowLeast least => s!"Number must be greater than or equal to {least}"
  | .aboveGreatest greatest => s!"Number must be less than or equal to {greatest}"
  | .notPositive => "Number must be greater than 0"
  | .noBranch => "Invalid input"

structure Issue where
  path : Path
  complaint : Complaint
  deriving DecidableEq, Repr

def Issue.text (i : Issue) : String :=
  if i.path.isEmpty then i.complaint.text else i.path.dotted ++ ": " ++ i.complaint.text

def issuesText (issues : List Issue) : String := "; ".intercalate (issues.map Issue.text)

inductive FormFault where
  | emptyQuery
  | emptyComposite (name : String)
  | comparisonText
  | comparisonWire
  | noOperator (name : String)
  | notIdentifier (name : String)
  | quoteInString
  | notFiniteText (x : Binary64)
  | noText (kind : String)
  | notFiniteWire (x : Binary64)
  | malformed (what : String) (issues : List Issue)
  | tooDeep (greatest : Nat)
  | unknownType (name : String)
  | invalidJson (error : Json.SyntaxError)
  | invalidJsonLine (line : Nat) (error : Json.SyntaxError)
  | invalidCsv
  | noHeader
  | invalidYaml (document : Nat)
  | noDocument
  deriving DecidableEq, Repr

def FormFault.text : FormFault → String
  | .emptyQuery => "empty query has no textual form"
  | .emptyComposite name => s!"empty {name} has no textual form"
  | .comparisonText => "Compare expressions have no textual form"
  | .comparisonWire => "Compare expressions have no wire form"
  | .noOperator name => s!"{name} has no textual operator"
  | .notIdentifier name => "field name " ++ Text.quote name ++ " is not an identifier"
  | .quoteInString => "string value containing '\x22' has no textual form"
  | .notFiniteText x => "number " ++ String.ofList x.text ++ " has no textual form"
  | .noText kind => s!"{kind} value has no textual form"
  | .notFiniteWire x => "non-finite number " ++ String.ofList x.text ++ " has no JSON form"
  | .malformed what issues => "malformed " ++ what ++ ": " ++ issuesText issues
  | .tooDeep greatest => s!"query nesting exceeds {greatest} levels"
  | .unknownType name => "unrecognized expression type " ++ Text.quote name
  | .invalidJson error => "invalid JSON: " ++ error.message
  | .invalidJsonLine line error => s!"invalid JSON on line {line}: " ++ error.message
  | .invalidCsv => "invalid CSV:"
  | .noHeader => "CSV input has no header row"
  | .invalidYaml document => s!"invalid YAML in document {document}:"
  | .noDocument => "YAML input has no document"

structure FormError where
  fault : FormFault
  path? : Option Path := none
  deriving DecidableEq, Repr

def FormError.message (e : FormError) : String :=
  match e.path? with
  | some path => e.fault.text ++ " (at " ++ path.text ++ ")"
  | none => e.fault.text

inductive EvaluationError where
  | notRecord (field : String)
  | missingField (field : String)
  | undefinedVariable (name : String)
  | unknownFunction (label : String)
  | functionFailed (label reason : String)
  | notTruthValue (text : String)
  | reported (message : String)
  deriving DecidableEq, Repr

namespace EvaluationError

def message : EvaluationError → String
  | .notRecord field => s!"cannot resolve field {field}: input is not a record"
  | .missingField field => s!"field {field} not found"
  | .undefinedVariable name => "variable " ++ Text.quote name ++ " not defined"
  | .unknownFunction label => "function " ++ Text.quote label ++ " not found"
  | .functionFailed label reason => "function " ++ Text.quote label ++ " failed: " ++ reason
  | .notTruthValue text => "cannot interpret " ++ Text.quote text ++ " as a boolean"
  | .reported message => message

def cause? : EvaluationError → Option String
  | .functionFailed _ reason => some reason
  | _ => none

end EvaluationError

inductive RangeError where
  | negative (text : String)
  | notIntegral (x : Binary64)
  deriving DecidableEq, Repr

def RangeError.message : RangeError → String
  | .negative text => "Unsigned value cannot be negative: " ++ text
  | .notIntegral x =>
      "The number " ++ String.ofList x.text ++ " cannot be converted to a BigInt because it is not an integer"

inductive AliasError where
  | unresolved (name : String)
  | excessive
  deriving DecidableEq, Repr

def AliasError.message : AliasError → String
  | .unresolved name => s!"Unresolved alias (the anchor must be set before the alias): {name}"
  | .excessive => "Excessive alias count indicates a resource exhaustion attack"

inductive Failure where
  | query (error : QueryError)
  | form (error : FormError)
  | evaluation (error : EvaluationError)
  | json (error : Json.SyntaxError)
  | range (error : RangeError)
  | yamlAlias (error : AliasError)
  | settings (issues : List Issue)
  | other (message : String)
  /-- What has no text: asking for one raises the other failure. -/
  | mute (raised : Failure)
  deriving DecidableEq, Repr

def Failure.message : Failure → String
  | .query e => e.message
  | .form e => e.message
  | .evaluation e => e.message
  | .json e => e.message
  | .range e => e.message
  | .yamlAlias e => e.message
  | .settings issues => "Invalid configuration: " ++ issuesText issues
  | .other message => message
  | .mute raised => raised.message

end RecordSieve
