import RecordSieve.Query
import RecordSieve.Text.Letter

namespace RecordSieve

namespace Query

def keywords : List String := ["and", "or", "not", "is", "contains"]

def isIdentifier (name : String) : Bool :=
  match name.toList with
  | [] => false
  | c :: cs => (Text.isLetter c || c == '_') && cs.all Text.isWordChar && !keywords.contains name

def fieldText (path : Path) (name : String) : Except FormError String :=
  if isIdentifier name then .ok name else .error ⟨.notIdentifier name, some path⟩

/-- Plain decimal digits. An integral value beyond the safe range keeps a fraction, so that it reads as
a number of the same kind. -/
def floatText (path : Path) (x : Binary64) : Except FormError String :=
  match x with
  | .finite _ _ =>
      let plain := expandPower x.text
      .ok (String.ofList (if x.integer?.any (!isSafe ·) then plain ++ ['.', '0'] else plain))
  | _ => .error ⟨.notFiniteText x, some path⟩

def operandText (path : Path) : Value → Except FormError String
  | .string s =>
      if s.toList.contains '\x22' then .error ⟨.quoteInString, some path⟩
      else .ok ("\x22" ++ s ++ "\x22")
  | .boolean b => .ok (if b then "true" else "false")
  | .integer n => .ok (String.ofList (intText n))
  | .unsigned n => .ok (String.ofList (intText n))
  | .float x => floatText path x
  | v => .error ⟨.noText v.kindName, some path⟩

def leafText (path : Path) (name : String) (symbol? : Option String) (field : String)
    (operand : Value) : Except FormError String := do
  match symbol? with
  | none => .error ⟨.noOperator name, some path⟩
  | some symbol =>
      let field ← fieldText path field
      let operand ← operandText path operand
      return field ++ " " ++ symbol ++ " " ++ operand

mutual

def print (path : Path) : Query → Except FormError String
  | .empty => .error ⟨.emptyQuery, some path⟩
  | .check op field operand => leafText path op.name op.symbol? field operand
  | .order op field operand => leafText path op.name (some op.symbol) field operand
  | .joined joint [] => .error ⟨.emptyComposite joint.name, some path⟩
  | .joined joint (child :: children) =>
      (printAll path 0 (child :: children)).map fun texts =>
        "(" ++ (" " ++ joint.symbol ++ " ").intercalate texts ++ ")"
  | .not child => (print (path ++ [.key "Expression"]) child).map ("not " ++ ·)
  | .compare _ _ _ => .error ⟨.comparisonText, some path⟩

def printAll (path : Path) (i : Nat) : List Query → Except FormError (List String)
  | [] => .ok []
  | q :: qs =>
      match print (path ++ [.key "Expressions", .index i]) q with
      | .error e => .error e
      | .ok text => (printAll path (i + 1) qs).map (text :: ·)

end

def text : Query → Except FormError String
  | .empty => .ok ""
  | q => q.print []

end Query

end RecordSieve
