import RecordSieve.Text.Units

namespace RecordSieve.Json

inductive Expectation where
  | value
  | endOfInput
  | item
  | itemOrEnd
  | key
  | keyOrEnd
  | comma
  | colon
  | endOfString
  deriving DecidableEq, Repr

def Expectation.text : Expectation → String
  | .value => "JSON value expected"
  | .endOfInput => "Expected end of input"
  | .item => "Array item expected"
  | .itemOrEnd => "Array item or end of array ']' expected"
  | .key => "Quoted object key expected"
  | .keyOrEnd => "Quoted object key or end of object '\x7d' expected"
  | .comma => "Comma ',' expected after value"
  | .colon => "Colon ':' expected after property name"
  | .endOfString => "End of string '\x22' expected"

inductive Fault where
  | expected (what : Expectation) (got : Option Char)
  | memberValueExpected
  | duplicateKey (key : String)
  | digitExpected (numeral : String) (got : Option Char)
  | invalidCharacter (c : Char)
  | invalidEscape (text : String)
  | invalidUnicode (text : String)
  deriving DecidableEq, Repr

structure SyntaxError where
  fault : Fault
  position : Nat
  deriving DecidableEq, Repr

def gotText : Option Char → String
  | none => "but reached end of input"
  | some c =>
      let shown := if Text.width c = 1 then c else Char.ofNat 0xfffd
      "but got '" ++ String.singleton shown ++ "'"

def Fault.text : Fault → String
  | .expected what got => s!"{what.text} {gotText got}"
  | .memberValueExpected => "Object value expected after ':'"
  | .duplicateKey key => s!"Duplicate key '{key}' encountered"
  | .digitExpected numeral got => s!"Invalid number '{numeral}', expecting a digit {gotText got}"
  | .invalidCharacter c => s!"Invalid character '{c}'"
  | .invalidEscape text => s!"Invalid escape character '{text}'"
  | .invalidUnicode text => s!"Invalid unicode character '{text}'"

def SyntaxError.message (e : SyntaxError) : String := s!"{e.fault.text} at position {e.position}"

end RecordSieve.Json
