import RecordSieve.Datum.Lookup
import RecordSieve.Datum.Text
import RecordSieve.Settings

namespace RecordSieve.Log

inductive Level where
  | ok
  | info
  | warn
  | error
  deriving DecidableEq, Repr

namespace Level

def allLevels : List Level := [.ok, .info, .warn, .error]

def severity : Level → Nat
  | .ok => 20
  | .info => 30
  | .warn => 40
  | .error => 50

end Level

inductive Segment where
  | key (name : String)
  | every
  deriving DecidableEq, Repr

def segment (cs : List Char) : Segment := if cs = ['*'] then .every else .key (String.ofList cs)

def unquoted (cs : List Char) : List Char := cs.filter fun c => c ≠ '\x22' && c ≠ '\x27'

def segmentsFrom (taken : List Char) : List Char → List Segment
  | [] => if taken.isEmpty then [] else [segment taken.reverse]
  | c :: cs =>
      if c = '.' ∨ c = '[' ∨ c = ']' then
        (if taken.isEmpty then [] else [segment taken.reverse]) ++ segmentsFrom [] cs
      else segmentsFrom (c :: taken) cs

abbrev RedactionPath := List Segment

def RedactionPath.parse (s : String) : RedactionPath := segmentsFrom [] (unquoted s.toList)

def Segment.covers (s : Segment) (key : String) : Bool :=
  match s with
  | .key name => name == key
  | .every => true

def redactInside : RedactionPath → Json → Json
  | [], j => j
  | [s], .object ps =>
      .object (ps.filter fun (k, j) => !(s.covers k && !(j matches .null)))
  | [s], .array items =>
      .array (items.mapIdx fun i j => if s.covers (toString i) then .null else j)
  | s :: rest, .object ps =>
      .object (ps.map fun (k, j) => (k, if s.covers k then redactInside rest j else j))
  | s :: rest, .array items =>
      .array (items.mapIdx fun i j => if s.covers (toString i) then redactInside rest j else j)
  | _, j => j

def redact (properties : List (String × Json)) : RedactionPath → List (String × Json)
  | [] => properties
  | [s] => properties.filter fun (k, _) => !s.covers k
  | s :: rest => properties.map fun (k, j) => (k, if s.covers k then redactInside rest j else j)

def defaultPaths : List String :=
  ["password", "token", "secret", "*.password", "*.token", "*.secret"]

structure Config where
  level : Option String := none
  redactPaths : Option (List String) := none
  deriving DecidableEq, Repr, Inhabited

structure Environment where
  level : Option String := none
  stage : Option String := none
  deriving DecidableEq, Repr, Inhabited

structure Root where
  threshold : Option Nat
  paths : List RedactionPath
  stage : String
  deriving DecidableEq, Repr

def thresholdOf (name : String) : Option Nat :=
  match LogLevel.ofName? (Text.upper name) with
  | some .silent => none
  | some .ok => some Level.ok.severity
  | some .warn => some Level.warn.severity
  | some .error => some Level.error.severity
  | some .info | none => some Level.info.severity

def Root.build (environment : Environment) (config : Config) : Root where
  threshold := thresholdOf ((config.level.or environment.level).getD "")
  paths := (config.redactPaths.getD defaultPaths).map RedactionPath.parse
  stage := (environment.stage.filter (· ≠ "")).getD "development"

def Root.isEnabled (root : Root) (level : Level) : Bool :=
  root.threshold.any (· ≤ level.severity)

structure Child where
  root : Root
  component : String
  deriving DecidableEq, Repr

/-- A logger with what it derived, and from which generation of the configuration. -/
structure Logger where
  component : String
  cached : Option (Nat × Child) := none
  deriving DecidableEq, Repr

structure Hub where
  environment : Environment := {}
  config : Config := {}
  root : Option Root := none
  generation : Nat := 0
  deriving DecidableEq, Repr

namespace Hub

def configure (hub : Hub) (config : Config) : Hub :=
  { hub with config, root := none, generation := hub.generation + 1 }

def demandRoot (hub : Hub) : Hub × Root :=
  match hub.root with
  | some root => (hub, root)
  | none =>
      let root := Root.build hub.environment hub.config
      ({ hub with root := some root }, root)

def demandChild (hub : Hub) (logger : Logger) : Hub × Logger × Child :=
  match logger.cached with
  | some (generation, child) =>
      if generation = hub.generation then (hub, logger, child) else derive hub logger
  | none => derive hub logger
where
  derive (hub : Hub) (logger : Logger) : Hub × Logger × Child :=
    let (hub, root) := hub.demandRoot
    let child : Child := ⟨root, logger.component⟩
    (hub, { logger with cached := some (hub.generation, child) }, child)

end Hub

def unwritable : Json :=
  .string "[unable to serialize, circular reference is too complex to analyze]"

def writtenProperties (objects : Objects) :
    List (String × Slot) → Except Failure (List (String × Json))
  | [] => .ok []
  | (_, .error message) :: _ => .error (.other message)
  | (k, .ok d) :: rest =>
      (writtenProperties objects rest).map fun ps =>
        match d.written objects with
        | .error _ => (k, unwritable) :: ps
        | .ok (some j) => (k, j) :: ps
        | .ok none => ps

def contextProperties (context : Input) : Except Failure (List (String × Json)) :=
  writtenProperties context.objects (context.root.resolve context.objects).properties

def number (n : Nat) : Json := .number (.float (.ofInt n))

def errorJson (message : String) : Json :=
  .object [("type", .string "Error"), ("message", .string message)]

structure Record where
  writer : Child
  level : Level
  message : String
  properties : List (String × Json)
  error : Option String

def Record.json (r : Record) : Json :=
  let bound := [("env", Json.string r.writer.root.stage), ("name", .string "recordquery"),
    ("component", .string r.writer.component)]
  let properties := r.writer.root.paths.foldl redact
    (bound ++ r.properties.filter (·.1 ≠ "time") ++ (r.error.map fun m => ("err", errorJson m)).toList)
  .object (Entries.ofList
    (("level", number r.level.severity) :: properties ++ [("msg", .string r.message)]))

def Child.emit (child : Child) (level : Level) (message : String) (properties : List (String × Json))
    (error : Option String) : Option Record :=
  if child.root.isEnabled level then some ⟨child, level, message, properties, error⟩ else none

namespace Hub

def isLoggable (hub : Hub) (logger : Logger) (level : Level) : Hub × Logger × Bool :=
  let (hub, logger, child) := hub.demandChild logger
  (hub, logger, child.root.isEnabled level)

def isOk (hub : Hub) (logger : Logger) : Hub × Logger × Bool := hub.isLoggable logger .ok

/-- Writes a record if the level is enabled; the context is read between two demands for the child. -/
def write (hub : Hub) (logger : Logger) (level : Level) (message : String)
    (context : Option Input) (error : Option String) :
    Hub × Logger × Except Failure (Option Record) :=
  let (hub, logger, child) := hub.demandChild logger
  if child.root.isEnabled level then
    match (context.map contextProperties).getD (.ok []) with
    | .error failure => (hub, logger, .error failure)
    | .ok properties =>
        let (hub, logger, child) := hub.demandChild logger
        (hub, logger, .ok (child.emit level message properties error))
  else (hub, logger, .ok none)

end Hub

inductive Request where
  | isLoggable (level : Level)
  | isOk
  | write (level : Level) (message : String) (context : Option Input) (error : Option String)

inductive Call where
  | configure (config : Config)
  | getLog (component : String)
  | ask (number : Nat) (request : Request)

inductive Reply where
  | done
  | logger (number : Nat)
  | enabled (flag : Bool)
  | written (outcome : Except Failure (Option Record))
  | unknown

def Hub.reply (hub : Hub) (logger : Logger) : Request → Hub × Logger × Reply
  | .isLoggable level =>
      let (hub, logger, flag) := hub.isLoggable logger level
      (hub, logger, .enabled flag)
  | .isOk =>
      let (hub, logger, flag) := hub.isOk logger
      (hub, logger, .enabled flag)
  | .write level message context error =>
      let (hub, logger, outcome) := hub.write logger level message context error
      (hub, logger, .written outcome)

structure Session where
  hub : Hub := {}
  loggers : List Logger := []

namespace Session

def start (environment : Environment) : Session := { hub := { environment } }

def step (s : Session) : Call → Session × Reply
  | .configure config => ({ s with hub := s.hub.configure config }, .done)
  | .getLog component => ({ s with loggers := s.loggers ++ [{ component }] }, .logger s.loggers.length)
  | .ask number request =>
      match s.loggers[number]? with
      | none => (s, .unknown)
      | some logger =>
          let (hub, logger, reply) := s.hub.reply logger request
          ({ hub, loggers := s.loggers.set number logger }, reply)

def run : Session → List Call → Session × List Reply
  | s, [] => (s, [])
  | s, call :: rest =>
      let (s, reply) := s.step call
      let (s, replies) := s.run rest
      (s, reply :: replies)

end Session

end RecordSieve.Log
