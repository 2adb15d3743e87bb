namespace RecordSieve.Text

def hexDigit (n : Nat) : Char := Nat.digitChar n

def controlEscape (n : Nat) : List Char := ['\\', 'u', '0', '0', hexDigit (n / 16), hexDigit (n % 16)]

def escapeChar (c : Char) : List Char :=
  match c with
  | '\x22' => ['\\', '\x22']
  | '\\' => ['\\', '\\']
  | '\x08' => ['\\', 'b']
  | '\x0c' => ['\\', 'f']
  | '\n' => ['\\', 'n']
  | '\r' => ['\\', 'r']
  | '\t' => ['\\', 't']
  | c => if c.toNat < 0x20 then controlEscape c.toNat else [c]

def quoteList (cs : List Char) : List Char := '\x22' :: cs.flatMap escapeChar ++ ['\x22']

def quote (s : String) : String := String.ofList (quoteList s.toList)

end RecordSieve.Text
