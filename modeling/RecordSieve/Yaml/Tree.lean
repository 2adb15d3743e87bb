import RecordSieve.Text.Units
import RecordSieve.Yaml.Lexeme

namespace RecordSieve.Yaml

structure Token where
  kind : Kind
  text : List Char
  offset : Nat
  indent : Nat
  deriving DecidableEq, Repr, Inhabited

def Token.isIdle (t : Token) : Bool :=
  match t.kind with
  | .blank | .comment | .newline => true
  | _ => false

def holds (kind : Kind) (ts : List Token) : Bool := ts.any (·.kind == kind)

/-- An item of a collection: the tokens before it, a key, the tokens between, and a value. Once there
is a key, even an empty one, there is a separator. -/
structure Item (α : Type) where
  start : List Token := []
  isExplicit : Bool := false
  key : Option α := none
  separator : Option (List Token) := none
  value : Option α := none
  deriving Repr, Inhabited

/-- Items are listed last first. A scalar and a closed flow collection may be followed by further
tokens on their line. -/
inductive Tree where
  | scalar (token : Token) (ending : Option (List Token))
  | blockScalar (indent : Nat) (header : List Token) (text : List Char)
  | blockMap (indent : Nat) (items : List (Item Tree))
  | blockList (indent : Nat) (items : List (Item Tree))
  | flow (opening : Token) (indent : Nat) (items : List (Item Tree)) (closing : List Token)
  | misplaced
  deriving Inhabited

inductive Frame where
  | document (start : List Token) (value : Option Tree) (ending : Option (List Token))
  | documentEnd (ending : List Token)
  | tree (t : Tree)
  deriving Inhabited

inductive Part where
  | directive (text : List Char)
  | document (start : List Token) (value : Option Tree) (ending : Option (List Token))
  | documentEnd (ending : List Token)
  | misplaced
  deriving Inhabited

namespace Tree

def isFlow : Tree → Bool
  | .scalar _ _ | .flow _ _ _ _ => true
  | _ => false

def isBlock : Tree → Bool
  | .blockMap _ _ | .blockList _ _ => true
  | _ => false

def ending? : Tree → Option (List Token)
  | .scalar _ ending => ending
  | .flow _ _ _ closing => some closing
  | _ => none

def addEnding (ts : List Token) : Tree → Tree
  | .scalar token ending => .scalar token (some (ending.getD [] ++ ts))
  | .flow opening indent items closing => .flow opening indent items (closing ++ ts)
  | t => t

def endsInComment (t : Tree) : Bool :=
  (t.ending?.bind List.getLast?).any (·.kind == .comment)

end Tree

def Item.isIdle {α : Type} (i : Item α) : Bool :=
  i.separator.isNone && i.value.isNone && !i.start.isEmpty && i.start.all Token.isIdle

def Item.asElement (i : Item Tree) : Item Tree :=
  match i.separator, i.value with
  | some separator, none =>
      if holds .keyMark i.start || holds .valueMark separator then i
      else match i.key with
        | some t =>
            if t.isFlow then { i with key := none, separator := none, value := some (t.addEnding separator) }
            else { i with start := i.start ++ separator, key := none, separator := none, value := some t }
        | none => { i with start := i.start ++ separator, separator := none }
  | _, _ => i

def Tree.settled : Tree → Tree
  | .flow opening indent items closing =>
      .flow opening indent (if opening.kind = .listOpen then items.map Item.asElement else items) closing
  | t => t

def Tree.splitIdle (t : Tree) : Tree × Option (List Token) :=
  let isOutside (indent : Nat) (i : Item Tree) : Bool :=
    i.isIdle && (indent == 0 || i.start.all fun t => t.kind != .comment || decide (t.indent < indent))
  match t with
  | .blockMap indent (i :: is) =>
      if isOutside indent i then (.blockMap indent is, some i.start) else (t, none)
  | .blockList indent (i :: is) =>
      if isOutside indent i then (.blockList indent is, some i.start) else (t, none)
  | _ => (t, none)

def Token.endsProperties (t : Token) : Bool :=
  match t.kind with
  | .documentStart | .keyMark | .valueMark | .itemMark | .newline => true
  | _ => false

def splitProperties (ts : List Token) : List Token × List Token :=
  let last := (ts.reverse.takeWhile (!·.endsProperties)).reverse
  let others := ts.take (ts.length - last.length)
  (others ++ last.takeWhile (·.kind == .blank), last.dropWhile (·.kind == .blank))

def Frame.takeProperties : Frame → List Token × Frame
  | .document start value ending =>
      let (start, taken) := splitProperties start
      (taken, .document start value ending)
  | .tree (.blockMap indent (i :: is)) =>
      match i.separator with
      | some separator =>
          let (separator, taken) := splitProperties separator
          (taken, .tree (.blockMap indent ({ i with separator := some separator } :: is)))
      | none =>
          let (start, taken) := splitProperties i.start
          (taken, .tree (.blockMap indent ({ i with start } :: is)))
  | .tree (.blockList indent (i :: is)) =>
      let (start, taken) := splitProperties i.start
      (taken, .tree (.blockList indent ({ i with start } :: is)))
  | f => ([], f)

/-- What is open, innermost first, and the parts of the stream so far, last first. -/
structure Builder where
  stack : List Frame := []
  parts : List Part := []
  offset : Nat := 0
  indent : Nat := 0
  atNewline : Bool := true
  onKeyLine : Bool := false

namespace Builder

def addPart (b : Builder) (p : Part) : Builder := { b with parts := p :: b.parts }

def enter (b : Builder) (t : Tree) : Builder := { b with stack := .tree t :: b.stack }

def withIdle (items : List (Item Tree)) : Option (List Token) → List (Item Tree)
  | some start => { start } :: items
  | none => items

def Tree.reindented (inside : Frame) : Tree → Tree
  | .blockScalar _ header text =>
      .blockScalar (match inside with
        | .tree (.blockMap indent _) | .tree (.blockList indent _) | .tree (.flow _ indent _ _) => indent
        | _ => 0) header text
  | .flow opening indent items closing =>
      .flow opening (match inside with | .document _ _ _ => 0 | _ => indent) items closing
  | t => t

def attach (b : Builder) (t : Tree) : Builder :=
  match b.stack with
  | [] => b.addPart .misplaced
  | top :: below =>
      let t := (Tree.reindented top t).settled
      let (rest, idle) := t.splitIdle
      let put (f : Frame) : Builder := { b with stack := f :: below }
      match top with
      | .document start _ ending => put (.document start (some rest) (idle.or ending))
      | .tree (.blockMap indent (i :: is)) =>
          if i.value.isSome then
            { put (.tree (.blockMap indent ({ key := some t, separator := some [] } :: i :: is))) with
              onKeyLine := true }
          else if i.separator.isSome then
            put (.tree (.blockMap indent (withIdle ({ i with value := some rest } :: is) idle)))
          else
            { put (.tree (.blockMap indent ({ i with key := some t, separator := some [] } :: is))) with
              onKeyLine := !i.isExplicit }
      | .tree (.blockList indent (i :: is)) =>
          let items : List (Item Tree) :=
            if i.value.isSome then { value := some rest } :: i :: is
            else { i with value := some rest } :: is
          put (.tree (.blockList indent (withIdle items idle)))
      | .tree (.flow opening indent items closing) =>
          let items : List (Item Tree) := match items with
            | [] => [{ key := some t, separator := some [] }]
            | i :: is =>
                if i.value.isSome then { key := some t, separator := some [] } :: i :: is
                else if i.separator.isSome then { i with value := some t } :: is
                else { i with key := some t, separator := some [] } :: is
          put (.tree (.flow opening indent items closing))
      | _ => b.addPart .misplaced

def close (b : Builder) : Builder :=
  match b.stack with
  | [] => b
  | .tree t :: below => { b with stack := below }.attach t
  | .document start value ending :: below =>
      { b with stack := below }.addPart (.document start value ending)
  | .documentEnd ending :: below => { b with stack := below }.addPart (.documentEnd ending)

def closeTo (n : Nat) : (fuel : Nat) → Builder → Builder
  | 0, b => b
  | fuel + 1, b => if b.stack.length ≤ n then b else closeTo n fuel b.close

def closeAll (b : Builder) : Builder := closeTo 0 b.stack.length b

def isFlowFrame : Frame → Bool
  | .tree (.flow _ _ _ _) => true
  | _ => false

def closeFlow : (fuel : Nat) → Builder → Builder
  | 0, b => b
  | fuel + 1, b => if b.stack.head?.any isFlowFrame then closeFlow fuel b.close else b

def begun? (indent : Nat) (around : Frame) (t : Token) : Option (Tree × Frame × Bool) :=
  match t.kind with
  | .alias | .content | .singleQuoted | .doubleQuoted => some (.scalar t none, around, false)
  | .blockHeader => some (.blockScalar indent [t] [], around, false)
  | .mapOpen | .listOpen => some (.flow t indent [] [], around, false)
  | .itemMark => some (.blockList indent [{ start := [t] }], around, false)
  | .keyMark =>
      let (start, around) := around.takeProperties
      some (.blockMap indent [{ start := start ++ [t], isExplicit := true }], around, true)
  | .valueMark =>
      let (start, around) := around.takeProperties
      some (.blockMap indent [{ start, separator := some [t] }], around, true)
  | _ => none

def openAt (b : Builder) (around : Frame) (below : List Frame) (t : Token) : Option Builder :=
  (begun? b.indent around t).map fun (tree, around, onKeyLine) =>
    { b with stack := .tree tree :: around :: below, onKeyLine := b.onKeyLine || onKeyLine }

def closesValue (kind : Kind) : Bool :=
  match kind with
  | .comma | .documentStart | .documentEnd | .listClose | .mapClose | .valueMark => true
  | _ => false

def afterValue (t : Token) (put : Token → Builder) : Option Builder :=
  if closesValue t.kind then none
  else if t.kind = .newline then some { put t with onKeyLine := false }.close
  else some (put t)

def inStream (b : Builder) (t : Token) : Builder :=
  match t.kind with
  | .directive => b.addPart (.directive t.text)
  | .byteOrderMark | .blank | .comment | .newline => b
  | .bare => { b with stack := [.document [] none none] }
  | .documentStart => { b with stack := [.document [t] none none] }
  | _ => b.addPart .misplaced

def inDocument (b : Builder) (start : List Token) (value : Option Tree) (ending : Option (List Token))
    (below : List Frame) (t : Token) : Option Builder :=
  match value with
  | some _ =>
      afterValue t fun t =>
        { b with stack := .document start value (some (ending.getD [] ++ [t])) :: below }
  | none =>
      let more : Builder := { b with stack := .document (start ++ [t]) none ending :: below }
      match t.kind with
      | .documentStart => if start.all Token.isIdle then some more else none
      | .anchor | .tag | .blank | .comment | .newline => some more
      | _ => some ((b.openAt (.document start none ending) below t).getD (b.addPart .misplaced))

def keyFrom (b : Builder) (indent : Nat) (key : Tree) (ending : List Token) (below : List Frame)
    (t : Token) : Builder :=
  match below with
  | [] => b.addPart .misplaced
  | around :: below =>
      let (start, around) := around.takeProperties
      { b with
        stack := .tree (.blockMap indent [{ start, key := some key, separator := some (ending ++ [t]) }])
          :: around :: below
        onKeyLine := true }

def inScalar (b : Builder) (token : Token) (ending : Option (List Token)) (below : List Frame)
    (t : Token) : Option Builder :=
  if t.kind = .valueMark then
    some (b.keyFrom token.indent (.scalar token none) (ending.getD []) below t)
  else
    afterValue t fun t => { b with stack := .tree (.scalar token (some (ending.getD [] ++ [t]))) :: below }

def inBlockScalar (b : Builder) (indent : Nat) (header : List Token) (below : List Frame)
    (t : Token) : Option Builder :=
  match t.kind with
  | .blank | .comment | .newline =>
      some { b with stack := .tree (.blockScalar indent (header ++ [t]) []) :: below }
  | .content =>
      some { b with stack := .tree (.blockScalar indent header t.text) :: below, atNewline := true,
                    indent := 0 }.close
  | _ => none

def addIdle (b : Builder) (indent : Nat) (items : List (Item Tree)) (t : Token) : List (Item Tree) :=
  match items with
  | [] => [{ start := [t] }]
  | i :: is =>
      match i.value, i.separator with
      | some v, _ =>
          if t.kind = .newline ∧ v.endsInComment then { i with value := some (v.addEnding [t]) } :: is
          else { start := [t] } :: i :: is
      | none, some separator => { i with separator := some (separator ++ [t]) } :: is
      | none, none =>
          let stays := t.kind = .comment ∧ indent < b.indent
            ∧ i.start.all fun t => t.kind == .newline || t.kind == .blank
          match is with
          | before :: others =>
              match before.value with
              | some v =>
                  if stays ∧ v.ending?.isSome then
                    { before with value := some (v.addEnding (i.start ++ [t])) } :: others
                  else { i with start := i.start ++ [t] } :: is
              | none => { i with start := i.start ++ [t] } :: is
          | [] => { i with start := i.start ++ [t] } :: is

def splitEmptyValue (indent : Nat) (separator : List Token) : List Token × List Token :=
  let ends := separator.zipIdx.foldl (fun acc (t, i) =>
    match t.kind with
    | .newline => acc ++ [i]
    | .blank => acc
    | .comment => if indent < t.indent then [] else acc
    | _ => []) ([] : List Nat)
  match ends with
  | _ :: i :: _ => (separator.take i, separator.drop i)
  | _ => (separator, [])

def valueMarkExplicit (i : Item Tree) (is : List (Item Tree)) (start : List Token) (t : Token)
    (put : List (Item Tree) → Builder) (inner : Item Tree → Builder → Builder) : Builder :=
  match i.separator with
  | none =>
      if holds .newline i.start then put ({ i with separator := some [t] } :: is)
      else
        let (kept, taken) := splitProperties i.start
        inner { start := taken, separator := some [t] } (put ({ i with start := kept } :: is))
  | some separator =>
      if i.value.isSome then put ({ separator := some [t] } :: i :: is)
      else if holds .valueMark separator then inner { start, separator := some [t] } (put (i :: is))
      else if i.key.any Tree.isFlow && !holds .newline separator then
        let (kept, taken) := splitProperties i.start
        inner { start := taken, key := i.key, separator := some (separator ++ [t]) }
          (put ({ i with start := kept, key := none, separator := none } :: is))
      else put ({ i with separator := some (separator ++ start ++ [t]) } :: is)

def valueMarkImplicit (i : Item Tree) (is : List (Item Tree)) (start : List Token) (atNext : Bool)
    (t : Token) (put : List (Item Tree) → Builder) (inner : Item Tree → Builder → Builder) : Builder :=
  match i.separator with
  | none => put ({ i with separator := some [t] } :: is)
  | some separator =>
      if i.value.isSome || atNext then put ({ start, separator := some [t] } :: i :: is)
      else if holds .valueMark separator then inner { separator := some [t] } (put (i :: is))
      else put ({ i with separator := some (separator ++ [t]) } :: is)

def inBlockMapItem (b : Builder) (indent : Nat) (i : Item Tree) (is : List (Item Tree))
    (below : List Frame) (t : Token) : Option Builder :=
  let atMapIndent := !b.onKeyLine && b.indent == indent
  let atNext := atMapIndent && (i.separator.isSome || i.isExplicit) && t.kind != .itemMark
  let (i, start) : Item Tree × List Token :=
    match i.separator, i.value with
    | some separator, none =>
        if atNext then
          let (separator, start) := splitEmptyValue indent separator
          ({ i with separator := some separator }, start)
        else (i, [])
    | _, _ => (i, [])
  let put (items : List (Item Tree)) : Builder :=
    { b with stack := .tree (.blockMap indent items) :: below }
  let inner (item : Item Tree) (b : Builder) : Builder := b.enter (.blockMap b.indent [item])
  let onKey (b : Builder) : Option Builder := some { b with onKeyLine := true }
  let isNext := atNext || i.value.isSome
  match t.kind with
  | .anchor | .tag =>
      if isNext then onKey (put ({ start := start ++ [t] } :: i :: is))
      else match i.separator with
        | some separator => some (put ({ i with separator := some (separator ++ [t]) } :: is))
        | none => some (put ({ i with start := i.start ++ [t] } :: is))
  | .keyMark =>
      if i.separator.isNone && !i.isExplicit then
        onKey (put ({ i with start := i.start ++ [t], isExplicit := true } :: is))
      else if isNext then onKey (put ({ start := start ++ [t], isExplicit := true } :: i :: is))
      else onKey (inner { start := [t], isExplicit := true } (put (i :: is)))
  | .valueMark =>
      onKey (if i.isExplicit then valueMarkExplicit i is start t put inner
        else valueMarkImplicit i is start atNext t put inner)
  | .alias | .content | .singleQuoted | .doubleQuoted =>
      let scalar := Tree.scalar t none
      if isNext then onKey (put ({ start, key := some scalar, separator := some [] } :: i :: is))
      else if i.separator.isSome then some ((put (i :: is)).enter scalar)
      else onKey (put ({ i with key := some scalar, separator := some [] } :: is))
  | .itemMark =>
      if !i.isExplicit && i.separator.any (!holds .newline ·) then
        some ((put (i :: is)).attach .misplaced)
      else (put (i :: is)).openAt (.tree (.blockMap indent (i :: is))) below t
  | _ =>
      let items := if atMapIndent then { start } :: i :: is else i :: is
      b.openAt (.tree (.blockMap indent items)) below t

def inBlockMap (b : Builder) (indent : Nat) (items : List (Item Tree)) (below : List Frame)
    (t : Token) : Option Builder :=
  let idle : Builder := { b with stack := .tree (.blockMap indent (b.addIdle indent items t)) :: below }
  match t.kind with
  | .newline => some { idle with onKeyLine := false }
  | .blank | .comment => some idle
  | _ =>
      if b.indent < indent then none
      else b.inBlockMapItem indent (items.head?.getD {}) items.tail below t

def inBlockList (b : Builder) (indent : Nat) (items : List (Item Tree)) (below : List Frame)
    (t : Token) : Option Builder :=
  let i := items.head?.getD {}
  let put (items : List (Item Tree)) : Builder :=
    { b with stack := .tree (.blockList indent items) :: below }
  let added := put ({ i with start := i.start ++ [t] } :: items.tail)
  let others : Option Builder :=
    if indent < b.indent then b.openAt (.tree (.blockList indent items)) below t else none
  match t.kind with
  | .newline | .blank | .comment => some (put (b.addIdle indent items t))
  | .anchor | .tag => if i.value.isSome || b.indent ≤ indent then others else some added
  | .itemMark =>
      if b.indent ≠ indent then others
      else if i.value.isSome || holds .itemMark i.start then some (put ({ start := [t] } :: items))
      else some added
  | _ => others

def inOpenFlow (b : Builder) (opening : Token) (indent : Nat) (items : List (Item Tree))
    (below : List Frame) (t : Token) : Option Builder :=
  let put (items : List (Item Tree)) : Builder :=
    { b with stack := .tree (.flow opening indent items []) :: below }
  let last := items.head?
  let i := last.getD {}
  let isNext := last.all (·.value.isSome)
  match t.kind with
  | .comma | .keyMark =>
      if last.all (·.separator.isSome) then some (put ({ start := [t] } :: items))
      else some (put ({ i with start := i.start ++ [t] } :: items.tail))
  | .valueMark =>
      if isNext then some (put ({ separator := some [t] } :: items))
      else some (put ({ i with separator := some (i.separator.getD [] ++ [t]) } :: items.tail))
  | .blank | .comment | .newline | .anchor | .tag =>
      if isNext then some (put ({ start := [t] } :: items))
      else match i.separator with
        | some separator => some (put ({ i with separator := some (separator ++ [t]) } :: items.tail))
        | none => some (put ({ i with start := i.start ++ [t] } :: items.tail))
  | .alias | .content | .singleQuoted | .doubleQuoted =>
      let scalar := Tree.scalar t none
      if isNext then some (put ({ key := some scalar, separator := some [] } :: items))
      else if i.separator.isSome then some (b.enter scalar)
      else some (put ({ i with key := some scalar, separator := some [] } :: items.tail))
  | .mapClose | .listClose =>
      some { b with stack := .tree (.flow opening indent items [t]) :: below }
  | _ => b.openAt (.tree (.flow opening indent items [])) below t

def inClosedFlow (b : Builder) (opening : Token) (indent : Nat) (items : List (Item Tree))
    (closing : List Token) (below : List Frame) (t : Token) : Option Builder :=
  let isDone := match below.head? with
    | some (.tree (.blockMap around is)) =>
        (t.kind == Kind.valueMark && around == indent)
          || (t.kind == Kind.newline && (is.head?.bind (·.separator)).isNone)
    | _ => false
  if isDone then none
  else if t.kind = Kind.valueMark ∧ !below.head?.any isFlowFrame then
    some (b.keyFrom indent (Tree.flow opening indent items (closing.take 1)).settled (closing.drop 1)
      below t)
  else
    afterValue t fun t => { b with stack := .tree (.flow opening indent items (closing ++ [t])) :: below }

def inFlow (b : Builder) (opening : Token) (indent : Nat) (items : List (Item Tree))
    (closing : List Token) (below : List Frame) (t : Token) : Option Builder :=
  if t.kind = .flowBreak then some (closeFlow b.stack.length b)
  else if closing.isEmpty then b.inOpenFlow opening indent items below t
  else b.inClosedFlow opening indent items closing below t

def inDocumentEnd (b : Builder) (ending : List Token) (below : List Frame) (t : Token) : Builder :=
  if t.kind = .bare then b
  else
    let b : Builder := { b with stack := .documentEnd (ending ++ [t]) :: below }
    if t.kind = .newline then b.close else b

def offer (b : Builder) (t : Token) : Option Builder :=
  match b.stack with
  | [] => some (b.inStream t)
  | .document start value ending :: below => b.inDocument start value ending below t
  | .documentEnd ending :: below => some (b.inDocumentEnd ending below t)
  | .tree (.scalar token ending) :: below => b.inScalar token ending below t
  | .tree (.blockScalar indent header _) :: below => b.inBlockScalar indent header below t
  | .tree (.blockMap indent items) :: below => b.inBlockMap indent items below t
  | .tree (.blockList indent items) :: below => b.inBlockList indent items below t
  | .tree (.flow opening indent items closing) :: below => b.inFlow opening indent items closing below t
  | .tree .misplaced :: _ => none

def place : (fuel : Nat) → Builder → Token → Builder
  | 0, b, _ => b
  | fuel + 1, b, t =>
      match b.offer t with
      | some b => b
      | none => place fuel b.close t

def endsDocument (b : Builder) : Bool :=
  match b.stack with
  | .documentEnd _ :: _ => false
  | _ => true

def step (b : Builder) (t : Token) : Builder :=
  if t.kind = .documentEnd ∧ b.endsDocument then { b.closeAll with stack := [.documentEnd []] }
  else place (b.stack.length + 1) b t

def advance (b : Builder) (l : Lexeme) : Builder :=
  let size := Text.widths l.text
  let b := { b with offset := b.offset + size }
  match l.kind with
  | .content | .bare | .flowBreak | .unknown => b
  | .newline => { b with atNewline := true, indent := 0 }
  | .blank => if b.atNewline ∧ l.text.head? = some ' ' then { b with indent := b.indent + size } else b
  | .keyMark | .valueMark | .itemMark => if b.atNewline then { b with indent := b.indent + size } else b
  | _ => { b with atNewline := false }

def add (b : Builder) (l : Lexeme) : Builder :=
  let b := if l.kind = .content then { b with atNewline := false } else b
  let placed := if l.kind = .unknown then b.addPart .misplaced
    else b.step ⟨l.kind, l.text, b.offset, b.indent⟩
  placed.advance l

end Builder

def parts (cs : List Char) : List Part :=
  ((lexemes cs).foldl Builder.add {}).closeAll.parts.reverse

end RecordSieve.Yaml
