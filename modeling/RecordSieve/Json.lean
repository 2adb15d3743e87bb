import RecordSieve.Entries
import RecordSieve.Number
import RecordSieve.Text.Quoted

namespace RecordSieve

inductive Json where
  | null
  | boolean (value : Bool)
  | number (value : Number)
  | string (value : String)
  | array (items : List Json)
  | object (properties : List (String × Json))
  deriving Inhabited, Repr

namespace Json

def numberText : Number → List Char
  | .integer n => intText n
  | .float x => if x.isFinite then x.text else "null".toList

mutual

def chars : Json → List Char
  | .null => "null".toList
  | .boolean b => (if b then "true" else "false").toList
  | .number n => numberText n
  | .string s => Text.quoteList s.toList
  | .array items => '[' :: charsOfItems items ++ [']']
  | .object properties => '\x7b' :: charsOfProperties properties ++ ['\x7d']

def charsOfItems : List Json → List Char
  | [] => []
  | [j] => j.chars
  | j :: rest => j.chars ++ ',' :: charsOfItems rest

def charsOfProperties : List (String × Json) → List Char
  | [] => []
  | [(k, j)] => Text.quoteList k.toList ++ ':' :: j.chars
  | (k, j) :: rest => Text.quoteList k.toList ++ ':' :: j.chars ++ ',' :: charsOfProperties rest

end

def text (j : Json) : String := String.ofList j.chars

end Json

end RecordSieve
