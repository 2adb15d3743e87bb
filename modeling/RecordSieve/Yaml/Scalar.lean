import RecordSieve.Datum
import RecordSieve.Text.Lines
import RecordSieve.Yaml.Lexeme

namespace RecordSieve.Yaml

structure Reading (α : Type) where
  value : α
  isSound : Bool := true
  deriving Repr

def trimRight (cs : List Char) : List Char := (cs.reverse.dropWhile isTabOrSpace).reverse

def joinFolded (breaks : List Char) : List (List Char) → List Char
  | [] => []
  | [last] => (if breaks.isEmpty then [' '] else breaks) ++ last.dropWhile isTabOrSpace
  | l :: ls =>
      match trimRight (l.dropWhile isTabOrSpace) with
      | [] => joinFolded ('\n' :: breaks) ls
      | c :: cs => (if breaks.isEmpty then [' '] else breaks) ++ (c :: cs) ++ joinFolded [] ls

def fold (cs : List Char) : List Char :=
  match Lines.split cs with
  | first :: second :: others => trimRight first ++ joinFolded [] (second :: others)
  | _ => cs

def beginsPlain (cs : List Char) : Bool := !cs.head?.any "\t,%|>@\x60".toList.contains

def plain (cs : List Char) : Reading (List Char) := ⟨fold cs, beginsPlain cs⟩

def undouble : List Char → List Char
  | [] => []
  | '\x27' :: '\x27' :: cs => '\x27' :: undouble cs
  | c :: cs => c :: undouble cs

def inside (cs : List Char) : List Char := (cs.drop 1).dropLast

def isClosed (quote : Char) (cs : List Char) : Bool := decide (1 < cs.length) && cs.getLast? == some quote

def singleQuoted (cs : List Char) : Reading (List Char) :=
  ⟨undouble (fold (inside cs)), isClosed '\x27' cs⟩

def escapes : List (Char × Char) :=
  [('0', '\x00'), ('a', '\x07'), ('b', '\x08'), ('e', '\x1b'), ('f', '\x0c'), ('n', '\n'), ('r', '\r'),
    ('t', '\t'), ('v', '\x0b'), ('N', Char.ofNat 0x85), ('_', Char.ofNat 0xa0),
    ('L', Char.ofNat 0x2028), ('P', Char.ofNat 0x2029), (' ', ' '), ('\x22', '\x22'), ('/', '/'),
    ('\\', '\\'), ('\t', '\t')]

def escapeDigits? : Char → Option Nat
  | 'x' => some 2
  | 'u' => some 4
  | 'U' => some 8
  | _ => none

def hexNumber? (n : Nat) (cs : List Char) : Option Nat :=
  let digits := cs.take n
  if digits.length = n then digitsInBase? 16 digits else none

/-- The character of a numeric escape with `n` digits, and how many characters the digits take. Two
escapes of surrogates make one character. -/
def numericEscape? (n : Nat) (cs : List Char) : Option (Char × Nat) :=
  (hexNumber? n cs).bind fun code =>
    if 0xd800 ≤ code ∧ code < 0xdc00 then
      match cs.drop n with
      | '\\' :: 'u' :: rest =>
          match hexNumber? 4 rest with
          | some low =>
              if 0xdc00 ≤ low ∧ low < 0xe000 then
                some (Char.ofNat (0x10000 + (code - 0xd800) * 0x400 + (low - 0xdc00)), n + 6)
              else some (Char.ofNat 0xfffd, n)
          | none => some (Char.ofNat 0xfffd, n)
      | _ => some (Char.ofNat 0xfffd, n)
    else if 0xdc00 ≤ code ∧ code < 0xe000 then some (Char.ofNat 0xfffd, n)
    else if code < 0x110000 then some (Char.ofNat code, n)
    else none

def escape (cs : List Char) : List Char × Nat × Bool :=
  match cs with
  | [] => (['\\'], 0, false)
  | '\n' :: rest => ([], 1 + (rest.takeWhile isTabOrSpace).length, true)
  | '\r' :: '\n' :: rest => ([], 2 + (rest.takeWhile isTabOrSpace).length, true)
  | c :: rest =>
      match escapes.lookup c, escapeDigits? c with
      | some d, _ => ([d], 1, true)
      | none, some n =>
          match numericEscape? n rest with
          | some (d, taken) => ([d], taken + 1, true)
          | none => ('\\' :: c :: rest.take n, n + 1, false)
      | none, none => (['\\', c], 1, false)

def breakSpace : List Char → List Char
  | [] => []
  | '\r' :: '\n' :: cs => '\r' :: '\n' :: breakSpace cs
  | c :: cs => if c = '\n' ∨ isTabOrSpace c then c :: breakSpace cs else []

def unescape : (fuel : Nat) → List Char → List Char × Bool
  | 0, _ => ([], true)
  | _, [] => ([], true)
  | _, [_] => ([], true)
  | fuel + 1, c :: cs =>
      if c = '\r' ∧ cs.head? = some '\n' then unescape fuel cs
      else if c = '\n' then
        let space := breakSpace cs
        let more := space.filter (· = '\n')
        let (text, isSound) := unescape fuel (cs.drop space.length)
        ((if more.isEmpty then [' '] else more) ++ text, isSound)
      else if c = '\\' then
        let (front, taken, isEscape) := escape cs
        let (text, isSound) := unescape fuel (cs.drop taken)
        (front ++ text, isEscape && isSound)
      else if isTabOrSpace c then
        let blanks := cs.takeWhile isTabOrSpace
        let rest := cs.drop blanks.length
        let (text, isSound) := unescape fuel rest
        if rest.head? = some '\n' ∨ rest.take 2 = ['\r', '\n'] then (text, isSound)
        else (c :: blanks ++ text, isSound)
      else
        let (text, isSound) := unescape fuel cs
        (c :: text, isSound)

def doubleQuoted (cs : List Char) : Reading (List Char) :=
  let (text, isSound) := unescape cs.length (cs.drop 1)
  ⟨text, isSound && isClosed '\x22' cs⟩

structure BlockLine where
  indent : Nat
  content : List Char
  deriving DecidableEq, Repr, Inhabited

def BlockLine.ofChars (cs : List Char) : BlockLine := ⟨indentOf cs, cs.dropWhile (· = ' ')⟩

def BlockLine.isBlank (l : BlockLine) : Bool := l.content == [] || l.content == ['\r']

def spacesBeyond (trim indent : Nat) : List Char := List.replicate (indent - trim) ' '

/-- The indentation that is taken off: that of the first line with content, or the header's. The
second part tells whether blank lines before it are indented no further, and whether content of a
collection is indented at all. -/
def blockTrim (header : BlockHeader) (atRoot : Bool) (trim : Nat) :
    List BlockLine → Nat × Bool
  | [] => (trim, true)
  | l :: ls =>
      if l.isBlank then
        blockTrim header atRoot (if header.indent = 0 then max trim l.indent else trim) ls
      else
        let next := if header.indent = 0 then l.indent else trim
        (next, decide (trim ≤ l.indent) && (atRoot || next != 0))

/-- The state of joining lines: the text so far, what separates the next line from it, whether the last
line was indented further, and whether no line was indented less. -/
structure BlockText where
  text : List Char := []
  between : List Char := []
  wasFurther : Bool := false
  isSound : Bool := true

def BlockText.add (isFolded : Bool) (trim : Nat) (b : BlockText) (l : BlockLine) : BlockText :=
  let content := dropReturn l.content
  let isOut := !content.isEmpty && decide (l.indent < trim)
  let b := { b with isSound := b.isSound && !isOut }
  let text := spacesBeyond trim l.indent ++ content
  if !isFolded then { b with text := b.text ++ b.between ++ text, between := ['\n'] }
  else if (trim < l.indent && !isOut) || content.head? == some '\t' then
    let between := if b.between = [' '] then ['\n']
      else if !b.wasFurther && b.between == ['\n'] then ['\n', '\n'] else b.between
    { b with text := b.text ++ between ++ text, between := ['\n'], wasFurther := true }
  else if content.isEmpty then
    if b.between = ['\n'] then { b with text := b.text ++ ['\n'] } else { b with between := ['\n'] }
  else { b with text := b.text ++ b.between ++ content, between := [' '], wasFurther := false }

def blockScalar (isFolded : Bool) (header : BlockHeader) (atRoot : Bool) (indent : Nat)
    (cs : List Char) : Reading (List Char) :=
  let lines := if cs.isEmpty then [] else (Text.splitOn '\n' cs).map BlockLine.ofChars
  let chomp := header.chomp.getD .clip
  let blankEnd := (lines.reverse.takeWhile BlockLine.isBlank).length
  let contentEnd := lines.length - blankEnd
  if contentEnd = 0 then
    ⟨if chomp = .keep ∧ lines ≠ [] then List.replicate (max 1 (lines.length - 1)) '\n' else [],
      header.isSound⟩
  else
    let (trim, isIndented) := blockTrim header atRoot (indent + header.indent) (lines.take contentEnd)
    let leading := (lines.takeWhile BlockLine.isBlank).length
    let further := ((lines.drop contentEnd).reverse.dropWhile fun l => l.indent ≤ trim).length
    let contentEnd := contentEnd + further
    let front := (lines.take leading).flatMap fun l => spacesBeyond trim l.indent ++ ['\n']
    let body := ((lines.take contentEnd).drop leading).foldl
      (BlockText.add isFolded trim) { text := front }
    let text := match chomp with
      | .strip => body.text
      | .clip => body.text ++ ['\n']
      | .keep =>
          let kept := body.text
            ++ (lines.drop contentEnd).flatMap fun l => '\n' :: spacesBeyond trim l.indent
          if kept.getLast? = some '\n' then kept else kept ++ ['\n']
    ⟨text, header.isSound && isIndented && body.isSound⟩

abbrev Content := Option Scalar

def nullWords : List String := ["", "~", "null", "Null", "NULL"]

def trueWords : List String := ["true", "True", "TRUE"]

def falseWords : List String := ["false", "False", "FALSE"]

def infinityWords : List String := [".inf", ".Inf", ".INF"]

def nanWords : List String := [".nan", ".NaN", ".NAN"]

def null? (cs : List Char) : Option Content :=
  if String.ofList cs ∈ nullWords then some none else none

def boolean? (cs : List Char) : Option Content :=
  if String.ofList cs ∈ trueWords then some (some (.boolean true))
  else if String.ofList cs ∈ falseWords then some (some (.boolean false))
  else none

def integer? (cs : List Char) : Option Int :=
  match cs with
  | '0' :: 'o' :: digits => (digitsInBase? 8 digits).map Int.ofNat
  | '0' :: 'x' :: digits => (digitsInBase? 16 digits).map Int.ofNat
  | cs => RecordSieve.integer? cs

def float? (cs : List Char) : Option Binary64 :=
  let (negative, body) := splitSign cs
  if String.ofList cs ∈ nanWords then some .nan
  else if String.ofList body ∈ infinityWords then some (.infinite negative)
  else if body.all Char.isDigit then none
  else (Decimal.parse? cs).map Decimal.toBinary64

def number? (cs : List Char) : Option Content :=
  ((integer? cs).map Number.integer <|> (float? cs).map Number.float).map fun n => some (.number n)

def text (cs : List Char) : Content := some (.string (String.ofList cs))

def content (cs : List Char) : Content :=
  (null? cs <|> boolean? cs <|> number? cs).getD (text cs)

def taggedContent (tag : String) (cs : List Char) : Content :=
  let read : Option Content :=
    if tag = "tag:yaml.org,2002:null" then null? cs
    else if tag = "tag:yaml.org,2002:bool" then boolean? cs
    else if tag = "tag:yaml.org,2002:int" then (integer? cs).map fun n => some (.number (.integer n))
    else if tag = "tag:yaml.org,2002:float" then (float? cs).map fun x => some (.number (.float x))
    else none
  read.getD (text cs)

end RecordSieve.Yaml
