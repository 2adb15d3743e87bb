import RecordSieve.Entries
import RecordSieve.Text.Case

namespace RecordSieve

structure Request where
  method : String := "POST"
  path : String
  parameters : List (String × String) := []
  contentType : Option String := none
  body : Option String := none
  deriving DecidableEq, Repr, Inhabited

structure Response where
  status : Nat
  contentType : Option String
  body : Option String
  deriving DecidableEq, Repr, Inhabited

structure MediaType where
  name : String
  parameters : Entries String
  deriving DecidableEq, Repr

namespace MediaType

def isTokenChar (c : Char) : Bool :=
  c.isAlphanum || "!#$%&'*+-.^_\x60|~".toList.contains c

def skipSpaces (cs : List Char) : List Char := cs.dropWhile (· = ' ')

def quotedValue (taken : List Char) : List Char → Option (List Char × List Char)
  | [] => none
  | '\\' :: c :: cs => quotedValue (c :: taken) cs
  | c :: cs => if c = '\x22' then some (taken.reverse, cs) else quotedValue (c :: taken) cs

def value? (cs : List Char) : Option (List Char × List Char) :=
  match cs with
  | '\x22' :: cs => quotedValue [] cs
  | cs =>
      let token := cs.takeWhile isTokenChar
      if token.isEmpty then none else some (token, cs.dropWhile isTokenChar)

def parameters? : (fuel : Nat) → List Char → Option (List (String × String))
  | _, [] => some []
  | 0, _ => none
  | fuel + 1, c :: cs =>
      if c ≠ ';' then none
      else
        let key := (skipSpaces cs).takeWhile isTokenChar
        match skipSpaces ((skipSpaces cs).dropWhile isTokenChar) with
        | '=' :: rest => do
            if key.isEmpty then none
            let (value, rest) ← value? (skipSpaces rest)
            let others ← parameters? fuel (skipSpaces rest)
            return (Text.lower (String.ofList key), String.ofList value) :: others
        | _ => none

def isTypeChar (c : Char) : Bool := c.isAlphanum || "!#$&^_.+-".toList.contains c

def isTypeName (cs : List Char) : Bool :=
  let type := cs.takeWhile (· ≠ '/')
  match cs.dropWhile (· ≠ '/') with
  | [] => false
  | _ :: subtype =>
      type.head?.any Char.isAlphanum && subtype.head?.any Char.isAlphanum
        && type.all (fun c => isTypeChar c && c != '.' && c != '+') && subtype.all isTypeChar

def parse? (s : String) : Option MediaType := do
  let cs := s.toList
  let name := ((skipSpaces (cs.takeWhile (· ≠ ';'))).reverse.dropWhile (· = ' ')).reverse
  if !isTypeName name then none
  let parameters ← parameters? cs.length (cs.dropWhile (· ≠ ';'))
  return ⟨Text.lower (String.ofList name), Entries.ofList parameters⟩

end MediaType

inductive Charset where
  | utf8
  | ascii
  | latin
  deriving DecidableEq, Repr

namespace Charset

def canonical (name : String) : List Char :=
  (Text.lower name).toList.filter fun c => c.isDigit || ('a' ≤ c && c ≤ 'z')

def utf8Names : List String := ["utf8", "unicode11utf8", "cesu8"]

def asciiNames : List String := ["ascii", "usascii", "ascii8bit", "iso646us", "ansix341968", "us"]

def latinNames : List String :=
  ["latin1", "iso88591", "l1", "binary", "cp819", "isoir100", "csisolatin1", "windows1252", "cp1252",
    "win1252", "1252", "windows1250", "windows1251", "iso88592", "iso88595", "iso885915", "latin2",
    "latin9", "koi8r", "koi8u"]

def ofName? (name : String) : Option Charset :=
  let canonical := String.ofList (canonical name)
  if canonical ∈ utf8Names then some .utf8
  else if canonical ∈ asciiNames then some .ascii
  else if canonical ∈ latinNames then some .latin
  else none

def decode (charset : Charset) (s : String) : String :=
  let bytes := s.toList.flatMap String.utf8EncodeChar
  match charset with
  | .utf8 => String.ofList (Text.dropByteOrderMark s.toList)
  | .ascii => String.ofList (bytes.map fun b => if b < 128 then Char.ofNat b.toNat else Char.ofNat 0xfffd)
  | .latin => String.ofList (bytes.map fun b => Char.ofNat b.toNat)

end Charset

def unitBytes? (unit : List Char) : Option Nat :=
  match (unit.map Char.toLower) with
  | ['k', 'b'] => some (Nat.pow 2 10)
  | ['m', 'b'] => some (Nat.pow 2 20)
  | ['g', 'b'] => some (Nat.pow 2 30)
  | ['t', 'b'] => some (Nat.pow 2 40)
  | ['p', 'b'] => some (Nat.pow 2 50)
  | _ => none

def scaledAmount? (cs : List Char) : Option Int := do
  let (negative, body) := splitSign cs
  let whole := body.takeWhile Char.isDigit
  let rest := body.dropWhile Char.isDigit
  let (fraction, rest) := match rest with
    | '.' :: more => (more.takeWhile Char.isDigit, more.dropWhile Char.isDigit)
    | rest => ([], rest)
  let unit ← unitBytes? (MediaType.skipSpaces rest)
  if whole.isEmpty || (body.dropWhile Char.isDigit).head? == some '.' && fraction.isEmpty then none
  let amount := Binary64.signed negative (digitsValue (whole ++ fraction) * unit)
  return amount.fdiv (Nat.pow 10 fraction.length)

def leadingInteger? (cs : List Char) : Option Int :=
  let (negative, body) := splitSign (cs.dropWhile Text.isBlank)
  let digits := body.takeWhile Char.isDigit
  if digits.isEmpty then none else some (Binary64.signed negative (digitsValue digits))

def bodyLimit? (s : String) : Option Int := (scaledAmount? s.toList).or (leadingInteger? s.toList)

end RecordSieve
