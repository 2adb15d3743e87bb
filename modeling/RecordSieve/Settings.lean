import RecordSieve.Failure
import RecordSieve.Entries
import RecordSieve.Text.Case
import RecordSieve.Text.Lines

namespace RecordSieve

def baseOf? : List Char → Option (Nat × List Char)
  | '0' :: c :: cs =>
      if c = 'x' ∨ c = 'X' then some (16, cs)
      else if c = 'o' ∨ c = 'O' then some (8, cs)
      else if c = 'b' ∨ c = 'B' then some (2, cs)
      else none
  | _ => none

/-- The number that a whole text spells, blanks around it ignored: a decimal numeral, an unsigned one in
base 2, 8 or 16, or a signed infinity. Blank text is zero. -/
def Binary64.ofText (s : String) : Binary64 :=
  let cs := Text.trimList s.toList
  if cs.isEmpty then .finite false .zero
  else match baseOf? cs with
    | some (base, digits) => (digitsInBase? base digits).elim .nan fun n => .ofRatio false n 1
    | none =>
        let (negative, body) := splitSign cs
        if body = "Infinity".toList then .infinite negative
        else (Decimal.parse? cs).elim .nan Decimal.toBinary64

inductive LogLevel where
  | ok
  | info
  | warn
  | error
  | silent
  deriving DecidableEq, Repr, Inhabited

def LogLevel.name : LogLevel → String
  | .ok => "OK"
  | .info => "INFO"
  | .warn => "WARN"
  | .error => "ERROR"
  | .silent => "SILENT"

def LogLevel.allLevels : List LogLevel := [.ok, .info, .warn, .error, .silent]

def LogLevel.ofName? (name : String) : Option LogLevel := allLevels.find? (·.name = name)

inductive TrustProxy where
  | all (trusted : Bool)
  | hops (count : Binary64)
  | named (expression : String)
  | listed (addresses : List String)
  deriving DecidableEq, Repr, Inhabited

structure Settings where
  port : Binary64
  logLevel : LogLevel
  logPretty : Bool
  trustProxy : TrustProxy
  bodyLimit : String
  queryCacheSize : Binary64
  queryCacheTtlMs : Binary64
  maxRecords : Binary64
  rateLimitPerMinute : Binary64
  deriving DecidableEq, Repr, Inhabited

namespace Settings

def compareNat (x : Binary64) (n : Nat) : Option Ordering := (Number.float x).compare? (.integer n)

def numberComplaints (x : Binary64) (demands : List (Binary64 → Option Complaint)) : List Complaint :=
  if x = .nan then [.wrongType "number" "nan"]
  else (if x.integer?.isSome then [] else [.notInteger]) ++ demands.filterMap (· x)

def atLeast (n : Nat) (x : Binary64) : Option Complaint :=
  if (compareNat x n).any (·.isLT) then some (.belowLeast n) else none

def atMost (n : Nat) (x : Binary64) : Option Complaint :=
  if (compareNat x n).any (·.isGT) then some (.aboveGreatest n) else none

def positive (x : Binary64) : Option Complaint :=
  if (compareNat x 0).any (·.isLE) then some .notPositive else none

abbrev Reading (α : Type) := Except (List Issue) α

def numberSetting (env : Entries String) (name : String) (default : Nat)
    (demands : List (Binary64 → Option Complaint)) : Reading Binary64 :=
  match env.find? name with
  | none => .ok (.ofInt default)
  | some s =>
      let x := Binary64.ofText s
      match numberComplaints x demands with
      | [] => .ok x
      | complaints => .error (complaints.map fun c => ⟨[.key name], c⟩)

def choiceSetting {α : Type} (env : Entries String) (name : String) (default : α)
    (options : List (String × α)) (prepare : String → String) : Reading α :=
  match env.find? name with
  | none => .ok default
  | some s =>
      match Entries.find? (prepare s) options with
      | some a => .ok a
      | none => .error [⟨[.key name], .notAmong (options.map (·.1)) (prepare s)⟩]

def trustProxyOf : Option String → TrustProxy
  | none => .hops (.ofInt 0)
  | some s =>
      let cs := s.toList
      if cs.all Char.isDigit then .hops (.ofInt (digitsValue cs))
      else if cs.contains ',' then
        .listed ((Text.splitOn ',' cs).map fun part => String.ofList (Text.trimList part))
      else if s = "true" then .all true
      else if s = "false" then .all false
      else .named s

def issuesOf {α : Type} : Reading α → List Issue
  | .ok _ => []
  | .error issues => issues

def load (env : Entries String) : Except Failure Settings :=
  let env : Entries String := env.filter fun (_, s) => s ≠ ""
  let port := numberSetting env "PORT" 8080 [atLeast 0, atMost 65535]
  let logLevel := choiceSetting env "LOG_LEVEL" .info
    (LogLevel.allLevels.map fun l => (l.name, l)) Text.upper
  let logPretty := choiceSetting env "LOG_PRETTY" false
    [("true", true), ("false", false), ("1", true), ("0", false)] id
  let queryCacheSize := numberSetting env "QUERY_CACHE_SIZE" 1000 [positive]
  let queryCacheTtlMs := numberSetting env "QUERY_CACHE_TTL_MS" 60000 [positive]
  let maxRecords := numberSetting env "MAX_RECORDS" 10000 [positive]
  let rateLimitPerMinute := numberSetting env "RATE_LIMIT_PER_MINUTE" 300 [positive]
  match port, logLevel, logPretty, queryCacheSize, queryCacheTtlMs, maxRecords,
      rateLimitPerMinute with
  | .ok port, .ok logLevel, .ok logPretty, .ok queryCacheSize, .ok queryCacheTtlMs, .ok maxRecords,
      .ok rateLimitPerMinute =>
      .ok { port, logLevel, logPretty, queryCacheSize, queryCacheTtlMs, maxRecords,
            rateLimitPerMinute, trustProxy := trustProxyOf (env.find? "TRUST_PROXY"),
            bodyLimit := (env.find? "BODY_LIMIT").getD "512kb" }
  | _, _, _, _, _, _, _ =>
      .error (.settings (issuesOf port ++ issuesOf logLevel ++ issuesOf logPretty
        ++ issuesOf queryCacheSize ++ issuesOf queryCacheTtlMs ++ issuesOf maxRecords
        ++ issuesOf rateLimitPerMinute))

end Settings

end RecordSieve
