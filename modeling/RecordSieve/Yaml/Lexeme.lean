import RecordSieve.Text.Blank

namespace RecordSieve.Yaml

/-- `bare` marks the start of a document that has no marker, `flowBreak` the place where a flow
collection is left without its closing bracket; neither has text. -/
inductive Kind where
  | bare
  | flowBreak
  | byteOrderMark
  | documentStart
  | documentEnd
  | newline
  | blank
  | comment
  | directive
  | itemMark
  | keyMark
  | valueMark
  | mapOpen
  | mapClose
  | listOpen
  | listClose
  | comma
  | alias
  | anchor
  | tag
  | singleQuoted
  | doubleQuoted
  | blockHeader
  | content
  | unknown
  deriving DecidableEq, Repr, Inhabited

structure Lexeme where
  kind : Kind
  text : List Char
  deriving DecidableEq, Repr, Inhabited

def Kind.ofText : List Char → Kind
  | [] => .newline
  | ['\n'] => .newline
  | ['\r', '\n'] => .newline
  | ['-', '-', '-'] => .documentStart
  | ['.', '.', '.'] => .documentEnd
  | ['-'] => .itemMark
  | ['?'] => .keyMark
  | [':'] => .valueMark
  | ['\x7b'] => .mapOpen
  | ['\x7d'] => .mapClose
  | ['['] => .listOpen
  | [']'] => .listClose
  | [','] => .comma
  | c :: cs =>
      if c = Text.byteOrderMark ∧ cs = [] then .byteOrderMark
      else match c with
        | ' ' | '\t' => .blank
        | '#' => .comment
        | '%' => .directive
        | '*' => .alias
        | '&' => .anchor
        | '!' => .tag
        | '\x27' => .singleQuoted
        | '\x22' => .doubleQuoted
        | '|' | '>' => .blockHeader
        | _ => .unknown

def isGap (c : Char) : Bool := c == ' ' || c == '\n' || c == '\r' || c == '\t'

def beginsGap (cs : List Char) : Bool := cs.head?.all isGap

def isTabOrSpace (c : Char) : Bool := c == ' ' || c == '\t'

def line : List Char → List Char
  | [] => []
  | '\n' :: _ => []
  | '\r' :: '\n' :: _ => []
  | c :: cs => c :: line cs

def atLineEnd (cs : List Char) : Bool := (line cs).isEmpty

def isIdleLine (cs : List Char) : Bool :=
  match (line cs).dropWhile isTabOrSpace with
  | [] => true
  | c :: _ => c == '#'

def beginsMarker : List Char → Bool
  | '-' :: '-' :: '-' :: cs => beginsGap cs
  | '.' :: '.' :: '.' :: cs => beginsGap cs
  | _ => false

def indentOf (cs : List Char) : Nat := (cs.takeWhile (· = ' ')).length

def continues (least : Nat) (cs : List Char) : Bool :=
  if 0 < least then
    least ≤ indentOf cs || (match cs.dropWhile (· = ' ') with
      | '\n' :: _ => true
      | '\r' :: '\n' :: _ => true
      | _ => false)
  else !beginsMarker cs

def isFlowIndicator (c : Char) : Bool := ",[]\x7b\x7d".toList.contains c

def isAnchorChar (c : Char) : Bool := !(isGap c || isFlowIndicator c)

def singleQuotedLength? : List Char → Option Nat
  | [] => none
  | '\x27' :: '\x27' :: cs => (singleQuotedLength? cs).map (· + 2)
  | c :: cs => if c = '\x27' then some 2 else (singleQuotedLength? cs).map (· + 1)

def doubleQuotedLength? : List Char → Option Nat
  | [] => none
  | '\\' :: _ :: cs => (doubleQuotedLength? cs).map (· + 2)
  | c :: cs => if c = '\x22' then some 2 else (doubleQuotedLength? cs).map (· + 1)

def continuedLength (least : Nat) : Nat → List Char → Nat
  | 0, _ => 0
  | _, [] => 0
  | n + 1, c :: cs =>
      if c = '\n' ∧ continues least cs = false then 0 else continuedLength least n cs + 1

def dropReturn (cs : List Char) : List Char :=
  match cs.reverse with
  | '\r' :: rest => rest.reverse
  | _ => cs

def quotedText (least : Nat) (cs : List Char) : List Char :=
  let length? := match cs with
    | [] => none
    | c :: rest => if c = '\x27' then singleQuotedLength? rest else doubleQuotedLength? rest
  match length? with
  | none => cs
  | some n =>
      let kept := continuedLength least n cs
      if kept = n then cs.take n else dropReturn (cs.take kept)

def endsPlain (inFlow : Bool) (next : Option Char) : Bool :=
  match next with
  | none => false
  | some c => c == '#' || (inFlow && isFlowIndicator c)

/-- The length of the plain text at the front of a text, the blanks and line ends at its end not counted;
`pending` of them have been passed since the last character that counts. -/
def plainLength (inFlow : Bool) (least : Nat) (pending : Nat) : List Char → Nat
  | [] => 0
  | '\r' :: '\n' :: cs =>
      if endsPlain inFlow cs.head? || !continues least cs then 0
      else plainLength inFlow least (pending + 2) cs
  | c :: cs =>
      if c = ':' then
        if beginsGap cs || (inFlow && cs.head?.any isFlowIndicator) then 0
        else pending + 1 + plainLength inFlow least 0 cs
      else if c = '\r' then
        pending + 1 + (if endsPlain inFlow cs.head? then 0 else plainLength inFlow least 0 cs)
      else if isGap c then
        if endsPlain inFlow cs.head? || (c == '\n' && !continues least cs) then 0
        else plainLength inFlow least (pending + 1) cs
      else if inFlow && isFlowIndicator c then 0
      else pending + 1 + plainLength inFlow least 0 cs

def linesOf : List Char → List (List Char)
  | [] => []
  | c :: cs =>
      if c = '\n' then ['\n'] :: linesOf cs
      else match linesOf cs with
        | [] => [[c]]
        | l :: ls => (c :: l) :: ls

def isSpaceLine (l : List Char) : Bool :=
  match l.dropWhile (· = ' ') with
  | [] | ['\n'] | ['\r', '\n'] | ['\r'] => true
  | _ => false

def isEndedSpaceLine (l : List Char) : Bool :=
  match l.dropWhile (· = ' ') with
  | ['\n'] | ['\r', '\n'] => true
  | _ => false

def dropSpaceLines (indent : Nat) : List (List Char) → List (List Char)
  | l :: m :: ls =>
      if isSpaceLine l && indentOf l ≤ indent then dropSpaceLines indent (m :: ls) else l :: m :: ls
  | ls => ls

inductive Chomp where
  | strip
  | clip
  | keep
  deriving DecidableEq, Repr

structure BlockHeader where
  indent : Nat := 0
  chomp : Option Chomp := none
  isSound : Bool := true
  deriving DecidableEq, Repr

def isHeaderChar (c : Char) : Bool := !(isGap c || c == '#')

def BlockHeader.read (h : BlockHeader) : List Char → BlockHeader
  | [] => h
  | c :: cs =>
      if h.chomp.isNone ∧ c = '-' then read { h with chomp := some .strip } cs
      else if h.chomp.isNone ∧ c = '+' then read { h with chomp := some .keep } cs
      else if h.indent = 0 ∧ c.isDigit ∧ c ≠ '0' then read { h with indent := c.toNat - 48 } cs
      else read { h with isSound := false } cs

def blockText (h : BlockHeader) (least : Nat) (cs : List Char) : List Char × Nat :=
  let lines := linesOf cs
  let leading := lines.takeWhile isEndedSpaceLine
  let others := lines.dropWhile isEndedSpaceLine
  let indent := indentOf (others.head?.getD [])
  let (body, next) :=
    if indent < least then (leading, least)
    else
      let next := if h.indent = 0 then indent else h.indent - 1 + (if least = 0 then 1 else least)
      (leading ++ others.takeWhile (continues next), next)
  let after := (lines.drop body.length).flatten
  match after.dropWhile (· = ' ') with
  | '\t' :: _ => (body.flatten ++ after.takeWhile isGap, next)
  | _ =>
      if h.chomp = some .keep then (body.flatten, next)
      else ((dropSpaceLines indent body.reverse).reverse.flatten, next)

def isTagChar (c : Char) : Bool := c.isAlphanum || "-#;/?:@&=+$_.!~*\x27()".toList.contains c

def isHexDigit (c : Char) : Bool := c.isDigit || ('a' ≤ c.toLower && c.toLower ≤ 'f')

def tagCharsLength : List Char → Nat
  | [] => 0
  | '%' :: a :: b :: cs => if isHexDigit a && isHexDigit b then tagCharsLength cs + 3 else 0
  | c :: cs => if isTagChar c then tagCharsLength cs + 1 else 0

def tagLength : List Char → Nat
  | '<' :: cs =>
      let inside := cs.takeWhile fun c => !(isGap c || c == '>')
      inside.length + 2 + (if cs[inside.length]? = some '>' then 1 else 0)
  | cs => tagCharsLength cs + 1

inductive Mode where
  | stream
  | lineStart
  | blockStart
  | document
  | flow
  deriving DecidableEq, Repr

/-- The text to come and the lexemes so far, newest first; `least` is the indentation that a scalar's
further lines need, and `behindKey` tells that in a flow collection a key may have ended just here. -/
structure Scanner where
  rest : List Char
  lexemes : List Lexeme := []
  flowDepth : Nat := 0
  behindKey : Bool := false
  least : Nat := 0
  indent : Nat := 0

namespace Scanner

def mark (s : Scanner) (kind : Kind) : Scanner := { s with lexemes := ⟨kind, []⟩ :: s.lexemes }

def push (s : Scanner) (n : Nat) : Scanner :=
  let text := s.rest.take n
  if text.isEmpty then s
  else { s with rest := s.rest.drop n, lexemes := ⟨.ofText text, text⟩ :: s.lexemes }

def pushContent (s : Scanner) (n : Nat) : Scanner :=
  { s with rest := s.rest.drop n, lexemes := ⟨.content, s.rest.take n⟩ :: s.lexemes }

def pushWhile (s : Scanner) (p : Char → Bool) : Scanner := s.push (s.rest.takeWhile p).length

def blanks (s : Scanner) : Scanner := s.pushWhile isTabOrSpace

def restOfLine (s : Scanner) : Scanner := s.push (line s.rest).length

def newline (s : Scanner) : Scanner :=
  match s.rest with
  | '\n' :: _ => s.push 1
  | '\r' :: '\n' :: _ => s.push 2
  | _ => s

def indentation (s : Scanner) : Scanner :=
  { s.pushWhile (· = ' ') with indent := indentOf s.rest }

def isIndicator (c : Char) : Bool := c == '-' || c == '?' || c == ':'

def indicators : (fuel : Nat) → Scanner → Scanner
  | 0, s => s
  | fuel + 1, s =>
      match s.rest with
      | [] => s
      | c :: cs =>
          if c = '!' then indicators fuel (s.push (tagLength cs)).blanks
          else if c = '&' then indicators fuel (s.pushWhile isAnchorChar).blanks
          else if isIndicator c && (beginsGap cs || (0 < s.flowDepth && cs.head?.any isFlowIndicator)) then
            let s := if s.flowDepth = 0 then { s with least := s.indent + 1 }
              else { s with behindKey := false }
            indicators fuel (s.push 1).blanks
          else s

def directiveLength (cs : List Char) : Nat :=
  ((upToComment cs).reverse.dropWhile isTabOrSpace).length
where
  upToComment : List Char → List Char
    | [] => []
    | c :: '#' :: cs => if isTabOrSpace c then [] else c :: upToComment ('#' :: cs)
    | c :: cs => c :: upToComment cs

def streamStep (s : Scanner) : Mode × Scanner :=
  let s := if s.rest.head? = some Text.byteOrderMark then s.push 1 else s
  if s.rest.head? = some '%' then
    (.stream, (s.push (directiveLength (line s.rest))).blanks.restOfLine)
  else if isIdleLine s.rest then (.stream, s.blanks.restOfLine.newline)
  else (.lineStart, s.mark .bare)

def lineStartStep (s : Scanner) : Mode × Scanner :=
  if beginsMarker s.rest then
    (if s.rest.head? = some '-' then .document else .stream, { s.push 3 with indent := 0, least := 0 })
  else
    let s := s.indentation
    if s.indent < s.least && !beginsGap (s.rest.drop 1) then (.blockStart, { s with least := s.indent })
    else (.blockStart, s)

def blockStartStep (s : Scanner) : Mode × Scanner :=
  match s.rest with
  | c :: cs =>
      if isIndicator c && beginsGap cs then
        let after := (s.push 1).blanks
        (.blockStart, { after with
          least := s.indent + 1, indent := s.indent + (s.rest.length - after.rest.length) })
      else (.document, s)
  | [] => (.document, s)

def scalar (s : Scanner) : Scanner :=
  match s.rest with
  | c :: _ =>
      if c = '\x22' ∨ c = '\x27' then s.push (quotedText s.least s.rest).length
      else if c = '*' then s.pushWhile isAnchorChar
      else s.pushContent (plainLength (decide (0 < s.flowDepth)) s.least 0 s.rest)
  | [] => s

def blockScalar (s : Scanner) : Scanner :=
  let header := BlockHeader.read {} ((s.rest.drop 1).takeWhile isHeaderChar)
  let s := ((s.pushWhile isHeaderChar).blanks.restOfLine).newline
  let (text, next) := blockText header s.least s.rest
  { s.pushContent text.length with least := next }

def documentStep (s : Scanner) : Mode × Scanner :=
  let s := s.blanks
  let s := s.indicators (line s.rest).length
  if atLineEnd s.rest then (.lineStart, s.newline)
  else match s.rest with
    | [] => (.lineStart, s)
    | c :: _ =>
        if c = '#' then (.lineStart, s.restOfLine.newline)
        else if c = '\x7b' ∨ c = '[' then
          (.flow, { s.push 1 with behindKey := false, flowDepth := 1 })
        else if c = '\x7d' ∨ c = ']' then (.document, s.push 1)
        else if c = '|' ∨ c = '>' then (.lineStart, s.blockScalar)
        else (.document, s.scalar)

def flowSpace : (fuel : Nat) → Option Nat → Scanner → Option Nat × Scanner
  | 0, indent, s => (indent, s)
  | fuel + 1, indent, s =>
      let ended := s.newline
      if ended.rest.length < s.rest.length then
        let s := ended.indentation
        flowSpace fuel (some s.indent) s.blanks
      else
        let after := s.blanks
        if after.rest.length < s.rest.length then flowSpace fuel indent after else (indent, s)

def commas : (fuel : Nat) → Scanner → Scanner
  | 0, s => s
  | fuel + 1, s =>
      if s.rest.head? = some ',' then commas fuel { (s.push 1).blanks with behindKey := false } else s

def leavesFlow (s : Scanner) (indent : Option Nat) : Bool :=
  match indent with
  | none => false
  | some i =>
      let head := s.rest.head?
      let outside := (decide (i < s.least) && head != some '#') || (i == 0 && beginsMarker s.rest)
      let closes := i + 1 == s.least && s.flowDepth == 1 && (head == some ']' || head == some '\x7d')
      outside && !closes

def flowStep (s : Scanner) : Mode × Scanner :=
  let (indent, s) := s.flowSpace ((s.rest.takeWhile isGap).length + 1) none
  if s.leavesFlow indent then (.lineStart, ({ s with flowDepth := 0 }).mark .flowBreak)
  else
    let s := s.commas (line s.rest).length
    let s := s.indicators (line s.rest).length
    if atLineEnd s.rest then (.flow, s)
    else match s.rest with
      | [] => (.flow, s)
      | c :: cs =>
          if c = '#' then (.flow, s.restOfLine)
          else if c = '\x7b' ∨ c = '[' then
            (.flow, { s.push 1 with behindKey := false, flowDepth := s.flowDepth + 1 })
          else if c = '\x7d' ∨ c = ']' then
            (if s.flowDepth ≤ 1 then .document else .flow,
              { s.push 1 with behindKey := true, flowDepth := s.flowDepth - 1 })
          else if c = '*' then (.flow, s.scalar)
          else if c = '\x22' ∨ c = '\x27' then (.flow, { s.scalar with behindKey := true })
          else if c = ':' ∧ (s.behindKey || beginsGap cs || cs.head? == some ',') then
            (.flow, { (s.push 1).blanks with behindKey := false })
          else (.flow, { s.scalar with behindKey := false })

def step : Mode → Scanner → Mode × Scanner
  | .stream => streamStep
  | .lineStart => lineStartStep
  | .blockStart => blockStartStep
  | .document => documentStep
  | .flow => flowStep

def run : (fuel : Nat) → Mode → Scanner → Scanner
  | 0, _, s => s
  | fuel + 1, mode, s =>
      if s.rest.isEmpty then s
      else
        let (mode, s) := step mode s
        run fuel mode s

end Scanner

/-- The lexemes of a text. Of any six steps of the scanner, one takes a character. -/
def lexemes (cs : List Char) : List Lexeme :=
  (Scanner.run (6 * cs.length + 6) .stream { rest := cs }).lexemes.reverse

end RecordSieve.Yaml
