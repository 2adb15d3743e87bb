import RecordSieve.Cache
import RecordSieve.Query.Printer
import RecordSieve.Query.Wire
import RecordSieve.Records.Csv
import RecordSieve.Records.Yaml
import RecordSieve.Service.Exchange
import RecordSieve.Settings

namespace RecordSieve

structure Service where
  settings : Settings
  reader : Yaml.Reader
  cache : QueryCache
  served : Nat := 0

namespace Service

def count (x : Binary64) : Nat := (x.truncate?.getD 0).toNat

def startWith (reader : Yaml.Reader) (settings : Settings) : Service where
  settings
  reader
  cache := { capacity := count settings.queryCacheSize }

def start (settings : Settings) : Service := startWith .core settings

def jsonType : String := "application/json; charset=utf-8"

def page (status : Nat) : Response := ⟨status, some "text/html; charset=utf-8", none⟩

def jsonResponse (status : Nat) (j : Json) : Response := ⟨status, some jsonType, some j.text⟩

def refusal (status : Nat) (message : String) : Response :=
  jsonResponse status (.object [("error", .string message)])

def statusFor : Failure → Nat
  | .query _ | .form _ => 400
  | .evaluation _ => 422
  | _ => 500

def failed (e : Failure) : Response :=
  let status := statusFor e
  refusal status (if 500 ≤ status then "Internal error" else e.message)

def number (n : Nat) : Json := .number (.float (.ofInt n))

inductive Body where
  | absent
  | json (value : Json)
  | text (value : String)

def Body.datum : Body → Datum
  | .absent => .object [] []
  | .json .null => .object [] []
  | .json j => .ofJson j
  | .text s => .string s

def lineTypes : List String := ["application/x-ndjson", "application/jsonl"]

def csvTypes : List String := ["text/csv"]

def yamlTypes : List String := ["application/yaml", "application/x-yaml", "text/yaml"]

def textTypes : List String := lineTypes ++ csvTypes ++ yamlTypes ++ ["text/plain"]

def byteCount (s : String) : Nat := (Text.bytes s).length

def bodyText (settings : Settings) (type : MediaType) (sent : String) : Except Response String :=
  if (bodyLimit? settings.bodyLimit).any (· < (byteCount sent : Int)) then
    .error (refusal 413 "request entity too large")
  else
    let charset := ((type.parameters.find? "charset").filter (· ≠ "")).getD "utf-8"
    match Charset.ofName? charset with
    | some charset => .ok (charset.decode sent)
    | none => .error (refusal 415 ("unsupported charset \x22" ++ Text.upper charset ++ "\x22"))

def jsonBody (text : String) : Except Response Body :=
  if (Text.trim text).isEmpty then .ok (.json (.object []))
  else match Json.parse text with
    | .ok j => .ok (.json j)
    | .error e => .error (failed (.form { fault := .invalidJson e }))

/-- What is sent as a body; a POST without one sends empty text. -/
def sentText (r : Request) : Option String :=
  if r.body.isNone && r.method == "POST" then some "" else r.body

def mediaType? (r : Request) : Option MediaType :=
  (sentText r).bind fun _ => r.contentType.bind MediaType.parse?

def readBody (settings : Settings) (r : Request) : Except Response Body :=
  match sentText r, mediaType? r with
  | some sent, some type =>
      if type.name = "application/json" then (bodyText settings type sent).bind jsonBody
      else if type.name ∈ textTypes then (bodyText settings type sent).map .text
      else .ok .absent
  | _, _ => .ok .absent

def textOfType? (r : Request) (types : List String) (body : Body) : Option String :=
  match body with
  | .text s => if (mediaType? r).any (·.name ∈ types) then some s else none
  | _ => none

def greatestQueryLength : Nat := 20000

abbrev Checked (α : Type) := Option α × List Issue

def queryTextOf (place : Path) : Datum → Checked String
  | .string s => (some s, Query.textIssues place 1 greatestQueryLength s)
  | d => (none, [⟨place, d.mismatch "string"⟩])

inductive QueryInput where
  | text (text : String)
  | wire (query : Datum)

def wireQueryOf (place : Path) (d : Datum) : Checked Datum :=
  if d.isObject then (some d, []) else (none, [⟨place, d.mismatch "object"⟩])

def queryInputOf (place : Path) (d : Datum) : Checked QueryInput :=
  match d with
  | .string s => (some (.text s), Query.textIssues place 1 greatestQueryLength s)
  | d => if d.isObject then (some (.wire d), []) else (none, [⟨place, .noBranch⟩])

def plainJson? (d : Datum) : Option Json := (d.toJson? []).toOption.join

def recordOf (place : Path) (d : Datum) : Checked Json :=
  match plainJson? d with
  | some j => (some j, [])
  | none => (none, [⟨place, .noBranch⟩])

def looseOf (place : Path) : Datum → Checked Bool
  | .undefined => (some false, [])
  | .boolean b => (some b, [])
  | d => (none, [⟨place, d.mismatch "boolean"⟩])

def recordsFrom (place : Path) (i : Nat) : List Datum → List Json × List Issue
  | [] => ([], [])
  | d :: ds =>
      let (j, issues) := recordOf (place ++ [.index i]) d
      let (read, others) := recordsFrom place (i + 1) ds
      (j.toList ++ read, issues ++ others)

def recordsOf (settings : Settings) (place : Path) : Datum → Checked (List Json)
  | .array items =>
      let excess : List Issue :=
        if count settings.maxRecords < items.length then
          [⟨place, .tooManyItems (String.ofList settings.maxRecords.text)⟩]
        else []
      let (read, issues) := recordsFrom place 0 items
      (some read, excess ++ issues)
  | d => (none, [⟨place, d.mismatch "array"⟩])

def memberOf (d : Datum) (name : String) : Datum := ((d.member [] name).toOption).getD .undefined

def checkBody {α : Type} (body : Body) (check : Datum → Checked α) : Except Response α :=
  let d := body.datum
  let (value, issues) := if d.isObject then check d else (none, [⟨[], d.mismatch "object"⟩])
  match value, issues with
  | some a, [] => .ok a
  | _, issues => .error (refusal 400 (issuesText issues))

def bracketed? (name given : String) : Option (List Char) :=
  match given.toList.dropWhile (· ≠ '[') with
  | [] => none
  | _ :: inside =>
      if given.toList.takeWhile (· ≠ '[') = name.toList && inside.contains ']' then
        some (inside.takeWhile (· ≠ ']'))
      else none

def parameterOf (r : Request) (name : String) : Datum :=
  let plain := r.parameters.filterMap fun (k, v) => if k = name then some v else none
  let inside := r.parameters.filterMap fun (k, _) => bracketed? name k
  if inside.any (!·.all Char.isDigit) then .object [] []
  else if !inside.isEmpty then .array []
  else match plain with
    | [] => .undefined
    | [v] => .string v
    | vs => .array (vs.map .string)

def flags : List String := ["true", "false"]

def looseFlagOf (place : Path) : Datum → Checked Bool
  | .undefined => (some false, [])
  | .string s =>
      if s ∈ flags then (some (s == "true"), []) else (none, [⟨place, .notAmong flags s⟩])
  | d => (none, [⟨place, d.mismatch "'true' | 'false'"⟩])

def checkParameters (r : Request) : Except Response (String × Bool) :=
  let (q, qIssues) := queryTextOf [.key "q"] (parameterOf r "q")
  let (loose, looseIssues) := looseFlagOf [.key "looseEquality"] (parameterOf r "looseEquality")
  match q, loose, qIssues ++ looseIssues with
  | some q, some loose, [] => .ok (q, loose)
  | _, _, issues => .error (refusal 400 (issuesText issues))

/-- An answer, made with the cache and perhaps changing it. -/
abbrev Answer := QueryCache → QueryCache × Response

def always (r : Response) : Answer := fun c => (c, r)

def withQuery (text : String) (next : Query → Except Failure Response) : Answer := fun c =>
  let (c, result) := c.parse text
  match result with
  | .error e => (c, failed (.query e))
  | .ok q =>
      match next q with
      | .ok r => (c, r)
      | .error e => (c, failed e)

def withInput (input : QueryInput) (next : Query → Except Failure Response) : Answer :=
  match input with
  | .text s => withQuery s next
  | .wire d =>
      always (match (Query.ofInput ⟨[], d⟩).bind next with
        | .ok r => r
        | .error e => failed e)

def optionsOf (loose : Bool) : Options := { looseEquality := loose }

def parseRoute (body : Body) : Answer :=
  match checkBody body fun d => queryTextOf [.key "text"] (memberOf d "text") with
  | .error r => always r
  | .ok text =>
      withQuery text fun q => do
        let wire ← q.toWire.mapError .form
        let canonical ← q.text.mapError .form
        return jsonResponse 200 (.object [("query", wire), ("canonical", .string canonical)])

def stringifyRoute (body : Body) : Answer :=
  match checkBody body fun d => wireQueryOf [.key "query"] (memberOf d "query") with
  | .error r => always r
  | .ok d =>
      withInput (.wire d) fun q => do
        let text ← q.text.mapError .form
        return jsonResponse 200 (.object [("text", .string text)])

def both {α β : Type} (a : Checked α) (b : Checked β) : Checked (α × β) :=
  (a.1.bind fun x => b.1.map fun y => (x, y), a.2 ++ b.2)

def evaluateRoute (body : Body) : Answer :=
  let check (d : Datum) := both (queryInputOf [.key "query"] (memberOf d "query"))
    (both (recordOf [.key "record"] (memberOf d "record"))
      (looseOf [.key "looseEquality"] (memberOf d "looseEquality")))
  match checkBody body check with
  | .error r => always r
  | .ok (query, record, loose) =>
      withInput query fun q => do
        let matched ← q.eval (optionsOf loose) (.ofJson record)
        return jsonResponse 200 (.object [("match", .boolean matched)])

def filterRoute (settings : Settings) (body : Body) : Answer :=
  let check (d : Datum) := both (queryInputOf [.key "query"] (memberOf d "query"))
    (both (recordsOf settings [.key "records"] (memberOf d "records"))
      (looseOf [.key "looseEquality"] (memberOf d "looseEquality")))
  match checkBody body check with
  | .error r => always r
  | .ok (query, records, loose) =>
      withInput query fun q => do
        let kept ← q.select (optionsOf loose) .ofJson records
        return jsonResponse 200 (.object
          [("results", .array kept), ("matched", number kept.length), ("total", number records.length)])

def tooManyRecords (settings : Settings) : Response :=
  refusal 400 ("At most " ++ String.ofList settings.maxRecords.text ++ " records per request")

def withText (r : Request) (types : List String) (wanted : String) (body : Body)
    (next : (q : String) → (loose : Bool) → (text : String) → Answer) : Answer :=
  match checkParameters r with
  | .error response => always response
  | .ok (q, loose) =>
      match textOfType? r types body with
      | none => always (refusal 415 ("Expected " ++ wanted ++ " body"))
      | some text => next q loose text

def jsonLine (j : Json) : List Char := j.chars ++ ['\n']

def filterLinesRoute (settings : Settings) (r : Request) (body : Body) : Answer :=
  withText r lineTypes "an NDJSON" body fun q loose text =>
    match Lines.parse text with
    | .error e => always (failed (.form e))
    | .ok records =>
        if count settings.maxRecords < records.length then always (tooManyRecords settings)
        else withQuery q fun query => do
          let kept ← query.select (optionsOf loose) .ofJson records
          return ⟨200, some "application/x-ndjson; charset=utf-8",
            some (String.ofList (kept.flatMap jsonLine))⟩

def filterCsvRoute (settings : Settings) (r : Request) (body : Body) : Answer :=
  withText r csvTypes "a CSV" body fun q loose text =>
    match Csv.parse text with
    | .error e => always (failed (.form e))
    | .ok table =>
        if count settings.maxRecords < table.rows.length then always (tooManyRecords settings)
        else withQuery q fun query => do
          let kept ← table.select query (optionsOf loose)
          return ⟨200, some "text/csv; charset=utf-8", some kept.text⟩

def testYamlRoute (reader : Yaml.Reader) (r : Request) (body : Body) : Answer :=
  withText r yamlTypes "a YAML" body fun q loose text =>
    withQuery q fun query => do
      let matched ← reader.test text query (optionsOf loose)
      return jsonResponse 200 (.object [("match", .boolean matched)])

inductive Route where
  | health
  | parse
  | stringify
  | evaluate
  | filter
  | filterLines
  | filterCsv
  | testYaml
  deriving DecidableEq, Repr

def queryRoutes : List (String × Route) :=
  [("/_parse", .parse), ("/_stringify", .stringify), ("/_evaluate", .evaluate), ("/_filter", .filter),
    ("/_filter/jsonl", .filterLines), ("/_filter/csv", .filterCsv), ("/_test/yaml", .testYaml)]

def dropSlash (cs : List Char) : List Char :=
  match cs.reverse with
  | '/' :: rest => rest.reverse
  | _ => cs

def behindQueries? (cs : List Char) : Option (List Char) :=
  let front := "/queries".toList
  if front.isPrefixOf cs then
    match cs.drop front.length with
    | '/' :: '/' :: rest => some ('/' :: rest)
    | '/' :: rest => some ('/' :: rest)
    | _ => none
  else none

def route? (path : String) : Option Route :=
  let cs := path.toList.map Char.toLower
  if dropSlash cs = "/health".toList then some .health
  else (behindQueries? cs).bind fun rest =>
    queryRoutes.lookup (String.ofList (dropSlash rest))

def answer (settings : Settings) (reader : Yaml.Reader) (r : Request) (body : Body) : Route → Answer
  | .health => always (jsonResponse 200 (.object [("status", .string "ok")]))
  | .parse => parseRoute body
  | .stringify => stringifyRoute body
  | .evaluate => evaluateRoute body
  | .filter => filterRoute settings body
  | .filterLines => filterLinesRoute settings r body
  | .filterCsv => filterCsvRoute settings r body
  | .testYaml => testYamlRoute reader r body

def Route.method : Route → String
  | .health => "GET"
  | _ => "POST"

def dispatch (settings : Settings) (reader : Yaml.Reader) (r : Request) : Answer := fun c =>
  match readBody settings r with
  | .error response => (c, response)
  | .ok body =>
      match route? r.path with
      | none => (c, page 404)
      | some route =>
          if r.method = route.method then answer settings reader r body route c
          else if r.method = "OPTIONS" then (c, page 200)
          else if r.method = "HEAD" ∧ route = .health then (c, ⟨200, some jsonType, some ""⟩)
          else (c, page 404)

def respond (s : Service) (r : Request) : Service × Response :=
  let served := s.served + 1
  if count s.settings.rateLimitPerMinute < served then ({ s with served }, page 429)
  else
    let (cache, response) := dispatch s.settings s.reader r s.cache
    ({ s with cache, served }, response)

def respondAll (s : Service) : List Request → Service × List Response
  | [] => (s, [])
  | r :: rs =>
      let (s, response) := s.respond r
      let (s, responses) := s.respondAll rs
      (s, response :: responses)

end Service

end RecordSieve
