import RecordSieve.Entries
import RecordSieve.Yaml.Scalar

namespace RecordSieve.Yaml

/-- What directives have set: the prefixes that handles of tags stand for. Under version 1.1 they hold
for the documents to come as well, until there are new ones. -/
structure Directives where
  isOld : Bool := false
  isSpent : Bool := false
  handles : Entries String := [("!!", "tag:yaml.org,2002:")]
  deriving DecidableEq, Repr, Inhabited

namespace Directives

def words (cs : List Char) : List (List Char) :=
  let rec split (word : List Char) : List Char → List (List Char)
    | [] => if word.isEmpty then [] else [word.reverse]
    | c :: cs =>
        if isTabOrSpace c then (if word.isEmpty then [] else [word.reverse]) ++ split [] cs
        else split (c :: word) cs
  split [] (Text.trimList cs)

def isVersion (cs : List Char) : Bool :=
  let whole := cs.takeWhile Char.isDigit
  match cs.dropWhile Char.isDigit with
  | '.' :: part => !whole.isEmpty && !part.isEmpty && part.all Char.isDigit
  | _ => false

def add (d : Directives) (cs : List Char) : Reading Directives :=
  let d : Directives := if d.isSpent then { isOld := d.isOld } else d
  match words cs with
  | name :: parts =>
      if name = "%TAG".toList then
        match parts with
        | handle :: pre :: more =>
            ⟨{ d with handles := d.handles.insert (String.ofList handle) (String.ofList pre) },
              more.isEmpty⟩
        | _ => ⟨d, false⟩
      else if name = "%YAML".toList then
        match parts with
        | [version] =>
            if version = "1.1".toList then ⟨{ d with isOld := true }, true⟩
            else if version = "1.2".toList then ⟨{ d with isOld := false }, true⟩
            else ⟨d, isVersion version⟩
        | _ => ⟨d, false⟩
      else ⟨d, true⟩
  | [] => ⟨d, true⟩

def next (d : Directives) : Directives := if d.isOld then { d with isSpent := true } else {}

def bytesOf : List Char → Option (List UInt8)
  | [] => some []
  | '%' :: a :: b :: cs =>
      (hexNumber? 2 [a, b]).bind fun n => (bytesOf cs).map (UInt8.ofNat n :: ·)
  | c :: cs => if c = '%' then none else (bytesOf cs).map (String.utf8EncodeChar c ++ ·)

def unescaped? (cs : List Char) : Option String :=
  (bytesOf cs).bind fun bytes => String.fromUTF8? ⟨bytes.toArray⟩

def splitHandle (cs : List Char) : List Char × List Char :=
  let suffix := (cs.reverse.takeWhile (· ≠ '!')).reverse
  (cs.take (cs.length - suffix.length), suffix)

def nameOf? (d : Directives) (tag : List Char) : Reading (Option String) :=
  if tag = ['!'] then ⟨some "!", true⟩
  else match tag with
    | '!' :: '<' :: inside =>
        let name := inside.dropLast
        if name = ['!'] ∨ name = ['!', '!'] then ⟨none, false⟩
        else ⟨some (String.ofList name), inside.getLast? == some '>'⟩
    | _ =>
        let (handle, suffix) := splitHandle tag
        let isNamed := !suffix.isEmpty
        match d.handles.find? (String.ofList handle) with
        | some pre =>
            if pre.isEmpty then ofThisDocument handle tag isNamed
            else match unescaped? suffix with
              | some name => ⟨some (pre ++ name), isNamed⟩
              | none => ⟨none, false⟩
        | none => ofThisDocument handle tag isNamed
where
  ofThisDocument (handle tag : List Char) (isNamed : Bool) : Reading (Option String) :=
    if handle = ['!'] then ⟨some (String.ofList tag), isNamed⟩ else ⟨none, false⟩

end Directives

end RecordSieve.Yaml
