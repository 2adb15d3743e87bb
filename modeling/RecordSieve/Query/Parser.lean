import RecordSieve.Query
import RecordSieve.Query.Token

namespace RecordSieve.Query

def splitMinus : List Char → Bool × List Char
  | '-' :: cs => (true, cs)
  | cs => (false, cs)

def bareNumber? (cs : List Char) : Option Value :=
  let (negative, body) := splitMinus cs
  if body ≠ [] ∧ body.all Char.isDigit then
    some (.integer (Binary64.signed negative (digitsValue body)))
  else
    match unsignedDecimal? body with
    | some (coefficient, places, []) =>
        some (.ofBinary64 (Decimal.toBinary64 ⟨negative, coefficient, -places⟩))
    | _ => none

def Token.value (t : Token) : Value :=
  if t.kind = .string then .string t.text
  else if t.text = "true" then .boolean true
  else if t.text = "false" then .boolean false
  else (bareNumber? t.text.toList).getD (.string t.text)

def TokenKind.isOperand : TokenKind → Bool
  | .ident | .string | .number => true
  | _ => false

def TokenKind.leaf? : TokenKind → Option (String → Value → Query)
  | .is => some (.check .is)
  | .isNot => some (.check .isNot)
  | .contains => some (.check .contains)
  | .gt => some (.order .gt)
  | .gte => some (.order .gte)
  | .lt => some (.order .lt)
  | .lte => some (.order .lte)
  | _ => none

/-- What waits for the current operand inside one pair of parentheses: the left side of an `or`, the
left side of an `and`, and negations. -/
structure Pending where
  disjunction : Option Query := none
  conjunction : Option Query := none
  negations : Nat := 0

def joinLeft (joint : Joint) : Option Query → Query → Query
  | some left, right => .joined joint [left, right]
  | none, right => right

def negate : Nat → Query → Query
  | 0, q => q
  | n + 1, q => .not (negate n q)

def Pending.conjoin (p : Pending) (operand : Query) : Query :=
  joinLeft .all p.conjunction (negate p.negations operand)

def endToken : Token := ⟨.eof, "", 0⟩

def readEnd (outer : List Pending) (q : Query) (t : Token) : Except QueryError Query :=
  match outer with
  | [] => if t.kind = .eof then .ok q else .error ⟨.unexpectedToken t.text, t.position⟩
  | _ :: _ => .error ⟨.closingExpected, t.position⟩

mutual

def readOperand (outer : List Pending) (p : Pending) : List Token → Except QueryError Query
  | [] => .error ⟨.identifierExpected, endToken.position⟩
  | t :: ts =>
      match t.kind with
      | .not => readOperand outer { p with negations := p.negations + 1 } ts
      | .lparen => readOperand (p :: outer) {} ts
      | .ident =>
          match ts with
          | [] => .error ⟨.unexpectedOperator endToken.text, endToken.position⟩
          | op :: ts =>
              match op.kind.leaf? with
              | none => .error ⟨.unexpectedOperator op.text, op.position⟩
              | some leaf =>
                  match ts with
                  | [] => .error ⟨.valueExpected, endToken.position⟩
                  | v :: ts =>
                      if v.kind.isOperand then
                        readOperator outer p.disjunction (p.conjoin (leaf t.text v.value)) ts
                      else .error ⟨.valueExpected, v.position⟩
      | _ => .error ⟨.identifierExpected, t.position⟩
  termination_by structural ts => ts

def readOperator (outer : List Pending) (disjunction : Option Query) (conjunction : Query) :
    List Token → Except QueryError Query
  | [] => readEnd outer (joinLeft .any disjunction conjunction) endToken
  | t :: ts =>
      match t.kind with
      | .and => readOperand outer { disjunction, conjunction := some conjunction } ts
      | .or => readOperand outer { disjunction := some (joinLeft .any disjunction conjunction) } ts
      | .rparen =>
          match outer with
          | [] => .error ⟨.unexpectedToken t.text, t.position⟩
          | p :: outer =>
              readOperator outer p.disjunction (p.conjoin (joinLeft .any disjunction conjunction)) ts
      | _ => readEnd outer (joinLeft .any disjunction conjunction) t
  termination_by structural ts => ts

end

def ofTokens (tokens : List Token) : Except QueryError Query := readOperand [] {} tokens

def parse (text : String) : Except QueryError Query := (tokenize text).bind ofTokens

end RecordSieve.Query
