import RecordSieve.Failure
import RecordSieve.Text.Quoted
import RecordSieve.Yaml.Node

namespace RecordSieve.Yaml

/-- A node with an anchor: what it became, and how often and at what cost it has been used. -/
structure Anchored where
  node : Node
  datum : Datum
  uses : Nat := 1
  weight : Nat := 0
  deriving Inhabited

structure Expansion where
  objects : Objects := []
  anchored : List (Nat × Anchored) := []

abbrev Expand := StateT Expansion (Except AliasError)

mutual

def weight (anchored : List (Nat × Anchored)) : Node → Nat
  | .scalar _ _ _ => 1
  | .list _ items => weightOfItems anchored items
  | .map _ pairs => weightOfPairs anchored pairs
  | .alias _ number => ((number.bind fun n => anchored.lookup n).map fun a => a.uses * a.weight).getD 0

def weightOfItems (anchored : List (Nat × Anchored)) : List Node → Nat
  | [] => 0
  | n :: ns => max (weight anchored n) (weightOfItems anchored ns)

def weightOfPairs (anchored : List (Nat × Anchored)) : List (Node × Option Node) → Nat
  | [] => 0
  | (k, some v) :: rest =>
      max (max (weight anchored k) (weight anchored v)) (weightOfPairs anchored rest)
  | (k, none) :: rest => max (max (weight anchored k) 1) (weightOfPairs anchored rest)

end

def greatestCost : Nat := 100

def contentText (content : Content) (isPlain : Bool) : String :=
  match content with
  | none => "null"
  | some (.number n) => String.ofList n.text
  | some (.boolean b) => if b then "true" else "false"
  | some (.string s) => if isPlain then s else Text.quote s

def spaced (opening closing : String) (parts : List String) : String :=
  if parts.isEmpty then opening ++ closing
  else opening ++ " " ++ ", ".intercalate parts ++ " " ++ closing

mutual

def flowText : Node → String
  | .scalar _ content isPlain => contentText content isPlain
  | .list _ items => spaced "[" "]" (flowTexts items)
  | .map _ pairs => spaced "\x7b" "\x7d" (flowPairTexts pairs)
  | .alias anchor _ => "*" ++ anchor

def flowTexts : List Node → List String
  | [] => []
  | n :: ns => flowText n :: flowTexts ns

def flowPairTexts : List (Node × Option Node) → List String
  | [] => []
  | (k, some v) :: rest => (flowText k ++ ": " ++ flowText v) :: flowPairTexts rest
  | (k, none) :: rest => flowText k :: flowPairTexts rest

end

def keyText (key : Node) : Datum → String
  | .null => ""
  | .string s => s
  | .boolean b => if b then "true" else "false"
  | .number n => String.ofList n.text
  | _ => flowText key

def ofContent : Content → Datum
  | none => .null
  | some (.number n) => .number n
  | some (.string s) => .string s
  | some (.boolean b) => .boolean b

def register (number : Option Nat) (node : Node) (datum : Datum) : Expand Unit :=
  match number with
  | some n => modify fun s => { s with anchored := (n, { node, datum }) :: s.anchored }
  | none => return ()

def announce (number : Option Nat) (node : Node) : Expand Unit :=
  register number node (.ref (number.getD 0))

def complete (number : Option Nat) (d : Datum) : Expand Datum := do
  match number with
  | some n =>
      modify fun s => { s with objects := (n, d) :: s.objects }
      return .ref n
  | none => return d

def replace (number : Nat) (a : Anchored) : List (Nat × Anchored) → List (Nat × Anchored)
  | [] => []
  | (n, b) :: rest => if n = number then (n, a) :: rest else (n, b) :: replace number a rest

def expandAlias (anchor : String) (number : Option Nat) : Expand Datum := do
  let s ← get
  match number with
  | none => throw (.unresolved anchor)
  | some n =>
      match s.anchored.lookup n with
      | none => throw (.unresolved anchor)
      | some a =>
          let counted := { a with uses := a.uses + 1 }
          let anchored := replace n counted s.anchored
          let weighed :=
            if counted.weight = 0 then { counted with weight := weight anchored a.node } else counted
          set { s with anchored := replace n weighed anchored }
          if greatestCost < weighed.uses * weighed.weight then throw .excessive
          return a.datum

mutual

def expand : Node → Expand Datum
  | .scalar number content isPlain => do
      register number (.scalar number content isPlain) (ofContent content)
      return ofContent content
  | .list number items => do
      announce number (.list number items)
      complete number (.array (← expandItems items))
  | .map number pairs => do
      announce number (.map number pairs)
      complete number (.object (Entries.inPropertyOrder (← expandPairs pairs)) [])
  | .alias anchor number => expandAlias anchor number

def expandItems : List Node → Expand (List Datum)
  | [] => return []
  | n :: ns => do
      let d ← expand n
      return d :: (← expandItems ns)

def expandPairs : List (Node × Option Node) → Expand (List (String × Slot))
  | [] => return []
  | (k, some v) :: rest => do
      let key ← expand k
      let value ← expand v
      return (keyText k key, .ok value) :: (← expandPairs rest)
  | (k, none) :: rest => do
      let key ← expand k
      return (keyText k key, .ok .null) :: (← expandPairs rest)

end

def Document.data (d : Document) : Except AliasError Input :=
  ((expand d.node).run {}).map fun (root, s) => ⟨s.objects, root⟩

end RecordSieve.Yaml
