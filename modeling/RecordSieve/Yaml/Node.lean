import RecordSieve.Yaml.Directive
import RecordSieve.Yaml.Tree

namespace RecordSieve.Yaml

/-- Nodes with an anchor have a number, in the order in which they begin. An alias has the number of
the last node before it with its anchor. -/
inductive Node where
  | scalar (number : Option Nat) (content : Content) (isPlain : Bool)
  | list (number : Option Nat) (items : List Node)
  | map (number : Option Nat) (pairs : List (Node × Option Node))
  | alias (anchor : String) (number : Option Nat)
  deriving Inhabited

inductive Follower where
  | nothing
  | gap
  | flow
  | block
  | other
  deriving DecidableEq, Repr

def Follower.ofToken (t : Token) : Follower :=
  match t.kind with
  | .blank | .newline | .comma => .gap
  | .content => if t.text.isEmpty then .gap else .other
  | _ => .other

def Follower.ofTree : Tree → Follower
  | .scalar t _ => ofToken t
  | .flow _ _ _ _ => .flow
  | .blockMap _ _ | .blockList _ _ => .block
  | _ => .other

def Follower.of (tree : Option Tree) (tokens : Option (List Token)) : Follower :=
  match tree with
  | some t => .ofTree t
  | none => ((tokens.bind List.head?).map ofToken).getD .nothing

structure Place where
  mark : Kind
  inFlow : Bool := false
  indent : Nat := 0
  onNewline : Bool := true

structure Properties where
  isSound : Bool := true
  atNewline : Bool
  hasSpace : Bool
  hasNewline : Bool := false
  needsSpace : Bool := false
  tab : Option Token := none
  anchor : Option Token := none
  tag : Option Token := none
  newlineAfter : Option Token := none
  comma : Option Token := none
  mark : Option Token := none
  start : Option Nat := none
  deriving Inhabited

namespace Properties

def require (p : Properties) (holds : Bool) : Properties := { p with isSound := p.isSound && holds }

def isGapKind (kind : Kind) : Bool := kind == .blank || kind == .newline || kind == .comma

def settle (p : Properties) (kind : Kind) : Properties :=
  let p := p.require (!p.needsSpace || isGapKind kind)
  let p := p.require (!(p.tab.isSome && p.atNewline) || kind == .comment || kind == .newline)
  { p with needsSpace := false, tab := none }

def addProperty (p : Properties) (t : Token) : Properties :=
  { p with start := p.start.or (some t.offset), atNewline := false, hasSpace := false, needsSpace := true }

def add (place : Place) (next : Follower) (p : Properties) (t : Token) : Properties :=
  let p := p.settle t.kind
  match t.kind with
  | .blank =>
      let counts := !place.inFlow && (place.mark != .documentStart || next != .flow)
        && t.text.contains '\t'
      { p with tab := if counts then some t else none, hasSpace := true }
  | .comment => { p.require p.hasSpace with atNewline := false }
  | .newline =>
      { p with
        newlineAfter := if p.anchor.isSome || p.tag.isSome then some t else p.newlineAfter
        atNewline := true, hasNewline := true, hasSpace := true }
  | .anchor => { (p.require p.anchor.isNone).addProperty t with anchor := some t }
  | .tag => { (p.require p.tag.isNone).addProperty t with tag := some t }
  | kind =>
      if kind = place.mark then
        { p.require (p.anchor.isNone && p.tag.isNone && p.mark.isNone) with
          mark := some t, atNewline := kind == .itemMark || kind == .keyMark, hasSpace := false }
      else if kind = .comma ∧ place.inFlow then
        { p.require p.comma.isNone with comma := some t, atNewline := false, hasSpace := false }
      else { p with isSound := false, atNewline := false, hasSpace := false }

def read (place : Place) (next : Follower) (ts : List Token) : Properties :=
  let p := ts.foldl (add place next) { atNewline := place.onNewline, hasSpace := place.onNewline }
  let isSeparate := !p.needsSpace || next == .nothing || next == .gap
  let isTabHarmless := match p.tab with
    | some tab => !((p.atNewline && tab.indent ≤ place.indent) || next == .block)
    | none => true
  p.require (isSeparate && isTabHarmless)

end Properties

def isEnding (strict : Bool) (ts : Option (List Token)) : Bool :=
  let step : Bool × Bool → Token → Bool × Bool := fun (hasSpace, isSound) t =>
    match t.kind with
    | .blank | .newline => (true, isSound)
    | .comment => (hasSpace, isSound && (hasSpace || !strict))
    | _ => (hasSpace, false)
  ((ts.getD []).foldl step (false, true)).2

def isHeaderEnding (ts : List Token) : Bool := isEnding true (some ts)

structure Composition where
  isSound : Bool := true
  anchors : List (String × Nat) := []
  count : Nat := 0

abbrev Compose := StateM Composition

def require (holds : Bool) : Compose Unit :=
  modify fun s => { s with isSound := s.isSound && holds }

def nodeNumber (p : Properties) : Compose (Option Nat) := do
  match p.anchor with
  | none => return none
  | some t =>
      let name := String.ofList (t.text.drop 1)
      require (name ≠ "")
      let s ← get
      set { s with anchors := (name, s.count) :: s.anchors, count := s.count + 1 }
      return some s.count

def tagName (directives : Directives) (p : Properties) : Compose (Option String) := do
  match p.tag with
  | none => return none
  | some t =>
      let name := directives.nameOf? t.text
      require name.isSound
      return name.value

def scalarNode (directives : Directives) (p : Properties) (isPlain : Bool)
    (reading : Reading (List Char)) : Compose Node := do
  require reading.isSound
  let number ← nodeNumber p
  let value := match ← tagName directives p with
    | some name => taggedContent name reading.value
    | none => if isPlain then content reading.value else text reading.value
  return .scalar number value isPlain

def emptyNode (directives : Directives) (p : Properties) : Compose Node :=
  scalarNode directives p true ⟨[], true⟩

def aliasNode (p : Properties) (t : Token) : Compose Node := do
  let name := String.ofList (t.text.drop 1)
  require (name ≠ "" && p.anchor.isNone && p.tag.isNone)
  return .alias name ((← get).anchors.lookup name)

def flowReading (t : Token) : Reading (List Char) :=
  match t.kind with
  | .singleQuoted => singleQuoted t.text
  | .doubleQuoted => doubleQuoted t.text
  | _ => plain t.text

def blockReading (atRoot : Bool) (indent : Nat) (header : List Token) (text : List Char) :
    Reading (List Char) :=
  match header with
  | [] => ⟨[], false⟩
  | h :: others =>
      let isFolded := h.text.head? == some '>'
      let reading := blockScalar isFolded (BlockHeader.read {} (h.text.drop 1)) atRoot indent text
      { reading with isSound := reading.isSound && isHeaderEnding others }

abbrev Composer := Bool → Tree → Properties → Compose Node

def composeOr (compose : Composer) (directives : Directives) (tree : Option Tree) (p : Properties) :
    Compose Node :=
  match tree with
  | some t => compose false t p
  | none => emptyNode directives p

def spansLines : (fuel : Nat) → Tree → Bool
  | _, .scalar t ending => t.text.contains '\n' || holds .newline (ending.getD [])
  | 0, _ => true
  | fuel + 1, .flow _ _ items _ =>
      items.any fun i => holds .newline i.start || holds .newline (i.separator.getD [])
        || i.key.any (spansLines fuel) || i.value.any (spansLines fuel)
  | _, _ => true

def Tree.indent? : Tree → Option Nat
  | .scalar t _ => some t.indent
  | .blockScalar indent _ _ | .blockMap indent _ | .blockList indent _ | .flow _ indent _ _ => some indent
  | .misplaced => none

def Tree.offset? : Tree → Option Nat
  | .scalar t _ => some t.offset
  | .flow opening _ _ _ => some opening.offset
  | _ => none

def isSameContent (a b : Content) : Bool :=
  match a, b with
  | some (.number (.float x)), some (.number (.float y)) => (Number.float x).compare? (.float y) == some .eq
  | a, b => a == b

def hasKey (pairs : List (Node × Option Node)) (key : Node) : Bool :=
  pairs.any fun (k, _) =>
    match k, key with
    | .scalar _ a _, .scalar _ b _ => isSameContent a b
    | _, _ => false

def greatestKeyLength : Nat := 1024

def isNearKey (p : Properties) (tokens : List Token) (key : Option Tree) (mark : Token) : Bool :=
  let before := tokens.getLast?.map fun t => t.offset + Text.widths t.text
  let start := ((p.start.or before).or (key.bind Tree.offset?)).getD mark.offset
  mark.offset ≤ start + greatestKeyLength

def requireImplicitKey (fuel indent : Nat) (p : Properties) (key : Option Tree) : Compose Unit :=
  match key with
  | some (.blockList _ _) => require false
  | some t => require (t.indent?.all (· == indent) && p.newlineAfter.isNone && !spansLines fuel t)
  | none => require p.newlineAfter.isNone

def composeMapItem (compose : Composer) (directives : Directives) (fuel indent : Nat)
    (pairs : List (Node × Option Node)) (i : Item Tree) : Compose (List (Node × Option Node)) := do
  let p := Properties.read { mark := .keyMark, indent } (.of i.key i.separator) i.start
  require p.isSound
  let isImplicit := p.mark.isNone
  if isImplicit && p.anchor.isNone && p.tag.isNone && i.separator.isNone then
    requireIndent i.key
    return pairs
  if isImplicit then requireImplicitKey fuel indent p i.key
  else require (p.mark.all (·.indent == indent))
  let key ← composeOr compose directives i.key p
  require (!hasKey pairs key)
  let onNewline := match i.key with
    | none | some (.blockScalar _ _ _) => true
    | _ => false
  let v := Properties.read { mark := .valueMark, indent, onNewline } (.of i.value none)
    (i.separator.getD [])
  require v.isSound
  match v.mark with
  | some mark =>
      if isImplicit then
        require (!((i.value matches some (.blockMap _ _)) && !v.hasNewline))
        require (isNearKey p i.start i.key mark)
      let value ← composeOr compose directives i.value v
      return pairs ++ [(key, some value)]
  | none =>
      require (!isImplicit)
      return pairs ++ [(key, none)]
where
  requireIndent (key : Option Tree) : Compose Unit :=
    match key with
    | some t => require (t.indent?.all (· == indent))
    | none => return ()

def isIdleItem (i : Item Tree) : Bool := i.separator.isNone && i.start.all Token.isIdle

def isIdleLast (items : List (Item Tree)) : Bool :=
  match items.getLast? with
  | some i => isIdleItem i || !items.any isIdleItem
  | none => true

def composeBlockMap (compose : Composer) (directives : Directives) (fuel indent : Nat)
    (items : List (Item Tree)) : Compose (List (Node × Option Node)) := do
  require (isIdleLast items)
  items.foldlM (composeMapItem compose directives fuel indent) []

def composeListItem (compose : Composer) (directives : Directives) (indent : Nat) (nodes : List Node)
    (i : Item Tree) : Compose (List Node) := do
  let p := Properties.read { mark := .itemMark, indent } (.of i.value none) i.start
  require p.isSound
  if p.mark.isNone && p.anchor.isNone && p.tag.isNone && i.value.isNone then return nodes
  require p.mark.isSome
  return nodes ++ [← composeOr compose directives i.value p]

structure FlowItems where
  elements : List Node := []
  pairs : List (Node × Option Node) := []

def isBlockTree (t : Option Tree) : Bool := t.any Tree.isBlock

def breaksBefore (mark : Token) (separator : List Token) : Bool :=
  holds .newline (separator.takeWhile (· ≠ mark))

def isEmptyFlowItem (p : Properties) (i : Item Tree) : Bool :=
  p.mark.isNone && p.anchor.isNone && p.tag.isNone && i.separator.isNone && i.value.isNone

def composeFlowPair (compose : Composer) (directives : Directives) (isMap : Bool) (indent : Nat)
    (acc : FlowItems) (p : Properties) (i : Item Tree) : Compose FlowItems := do
  let key ← composeOr compose directives i.key p
  require (!isBlockTree i.key)
  let separator := i.separator.getD []
  let v := Properties.read { mark := .valueMark, inFlow := true, indent, onNewline := false }
    (.of i.value none) separator
  require v.isSound
  match v.mark with
  | some mark =>
      if !isMap && p.mark.isNone then
        require (!breaksBefore mark separator && isNearKey p i.start i.key mark)
  | none => require i.value.isNone
  let value ← match i.value, v.mark with
    | none, none => pure none
    | t, _ => some <$> composeOr compose directives t v
  require (!isBlockTree i.value)
  if isMap then
    require (!hasKey acc.pairs key)
    return { acc with pairs := acc.pairs ++ [(key, value)] }
  else return { acc with elements := acc.elements ++ [.map none [(key, value)]] }

def composeFlowItem (compose : Composer) (directives : Directives) (fuel : Nat) (isMap : Bool)
    (indent last : Nat) (acc : FlowItems) (item : Item Tree × Nat) : Compose FlowItems := do
  let (i, n) := item
  let p := Properties.read { mark := .keyMark, inFlow := true, indent, onNewline := false }
    (.of i.key i.separator) i.start
  require p.isSound
  if isEmptyFlowItem p i then
    require (if n = 0 ∧ p.comma.isSome then false else decide (n = last))
    return acc
  require (!(p.mark.isNone && !isMap && i.key.any (spansLines fuel)))
  require (if n = 0 then p.comma.isNone else p.comma.isSome)
  if !isMap && i.separator.isNone && p.mark.isNone then
    let node ← composeOr compose directives i.value p
    require (!isBlockTree i.value)
    return { acc with elements := acc.elements ++ [node] }
  else composeFlowPair compose directives isMap indent acc p i

def composeFlow (compose : Composer) (directives : Directives) (fuel : Nat) (isMap : Bool)
    (indent : Nat) (items : List (Item Tree)) (closing : List Token) : Compose FlowItems := do
  let acc ← items.zipIdx.foldlM
    (composeFlowItem compose directives fuel isMap indent (items.length - 1)) {}
  match closing with
  | [] => require false
  | bracket :: ending =>
      require (bracket.kind == if isMap then .mapClose else .listClose)
      require (isEnding true (some ending))
  return acc

def isAboveList (p : Properties) : Bool :=
  let last? := match p.anchor, p.tag with
    | some a, some t => some (if t.offset < a.offset then a else t)
    | a, t => a.or t
  match last? with
  | some last => p.newlineAfter.any fun n => last.offset ≤ n.offset
  | none => true

def compose (directives : Directives) : (fuel : Nat) → Composer
  | 0, _, _, p => do
      require false
      emptyNode directives p
  | fuel + 1, atRoot, tree, p => do
      let inner := compose directives fuel
      match tree with
      | .scalar t ending =>
          require (isEnding true ending)
          if t.kind = .alias then aliasNode p t
          else scalarNode directives p (t.kind == .content) (flowReading t)
      | .blockScalar indent header text =>
          scalarNode directives p false (blockReading atRoot indent header text)
      | .blockMap indent items =>
          let number ← collectionNumber directives p
          return .map number (← composeBlockMap inner directives fuel indent items.reverse)
      | .blockList indent items =>
          require (isAboveList p)
          let number ← collectionNumber directives p
          return .list number (← items.reverse.foldlM (composeListItem inner directives indent) [])
      | .flow opening indent items closing =>
          let number ← collectionNumber directives p
          let isMap := opening.kind == .mapOpen
          let acc ← composeFlow inner directives fuel isMap indent items.reverse closing
          return if isMap then .map number acc.pairs else .list number acc.elements
      | .misplaced =>
          require false
          emptyNode directives p
where
  collectionNumber (directives : Directives) (p : Properties) : Compose (Option Nat) := do
    discard (tagName directives p)
    nodeNumber p

structure Document where
  node : Node
  isSound : Bool
  deriving Inhabited

def composeDocument (directives : Directives) (fuel : Nat) (start : List Token) (value : Option Tree)
    (ending : Option (List Token)) : Document × Bool :=
  let p := Properties.read { mark := .documentStart } (.of value ending) start
  let isPlaced := !(value.any Tree.isBlock && p.mark.isSome && !p.hasNewline)
  let node : Compose Node := match value with
    | some t => compose directives fuel true t p
    | none => emptyNode directives p
  let (node, s) := node.run {}
  (⟨node, p.isSound && isPlaced && s.isSound && isEnding false ending⟩, p.mark.isSome)

/-- The documents so far, newest first, and what is wrong ahead of the next one. -/
structure Stream where
  documents : List Document := []
  directives : Directives := {}
  isSound : Bool := true
  atDirectives : Bool := false

namespace Stream

def condemn : List Document → List Document
  | [] => []
  | d :: ds => { d with isSound := false } :: ds

def add (fuel : Nat) (s : Stream) : Part → Stream
  | .directive text =>
      let read := s.directives.add text
      { s with directives := read.value, isSound := s.isSound && read.isSound, atDirectives := true }
  | .document start value ending =>
      let (d, hasMark) := composeDocument s.directives fuel start value ending
      let isSound := d.isSound && s.isSound && (hasMark || !s.atDirectives)
      { documents := { d with isSound } :: s.documents, directives := s.directives.next }
  | .misplaced =>
      if s.atDirectives || s.documents.isEmpty then { s with isSound := false }
      else { s with documents := condemn s.documents }
  | .documentEnd ending =>
      if s.documents.isEmpty then { s with isSound := false }
      else if s.isSound && isEnding true (some ending) then s
      else { s with documents := condemn s.documents, isSound := true }

def finish (s : Stream) : List Document :=
  (if s.isSound then s.documents else condemn s.documents).reverse

end Stream

def documents (cs : List Char) : List Document :=
  ((parts cs).foldl (Stream.add (cs.length + 1)) {}).finish

end RecordSieve.Yaml
