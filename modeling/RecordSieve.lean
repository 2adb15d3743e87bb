import RecordSieve.Number.Decimal
import RecordSieve.Text.Case
import RecordSieve.Text.Units
import RecordSieve.Text.Quoted
import RecordSieve.Json.Parser
import RecordSieve.Value.Literal
import RecordSieve.Datum.Projection
import RecordSieve.Datum.Lookup
import RecordSieve.Query.Evaluation
import RecordSieve.Query.Token
import RecordSieve.Query.Parser
import RecordSieve.Query.Printer
import RecordSieve.Query.Wire
import RecordSieve.Records.Csv
import RecordSieve.Cache
import RecordSieve.Settings
import RecordSieve.Log
import RecordSieve.Service
import RecordSieve.Proofs.Outcome
import RecordSieve.Proofs.Entries
import RecordSieve.Proofs.Text.Char
import RecordSieve.Proofs.Number.Rounding
import RecordSieve.Proofs.Number.Digits
import RecordSieve.Proofs.Number.Numeral
import RecordSieve.Proofs.Number.NumeralText
import RecordSieve.Proofs.Json.Parts
import RecordSieve.Proofs.Json.NumberText
import RecordSieve.Proofs.Json.Text
import RecordSieve.Proofs.Json.Restating
import RecordSieve.Proofs.Datum.Json
import RecordSieve.Proofs.Datum.Record
import RecordSieve.Proofs.Value.Operand
import RecordSieve.Proofs.Value.Recoding
import RecordSieve.Proofs.Value.Fraction
import RecordSieve.Proofs.Value.Restating
import RecordSieve.Proofs.Value.Rereading
import RecordSieve.Proofs.Value.Distinction
import RecordSieve.Proofs.Query.Grammar
import RecordSieve.Proofs.Query.Lexing
import RecordSieve.Proofs.Query.Scanning
import RecordSieve.Proofs.Query.NumberText
import RecordSieve.Proofs.Query.Shape
import RecordSieve.Proofs.Query.Printing
import RecordSieve.Proofs.Query.Reading
import RecordSieve.Proofs.Query.Combining
import RecordSieve.Proofs.Query.Coverage
import RecordSieve.Proofs.Query.Extending
import RecordSieve.Proofs.Query.Failures
import RecordSieve.Proofs.Query.Restating
import RecordSieve.Proofs.Query.WireForm
import RecordSieve.Proofs.Query.Wire
import RecordSieve.Proofs.Query.WireText
import RecordSieve.Proofs.Query.Rewriting
import RecordSieve.Proofs.Text.Order
import RecordSieve.Proofs.Value.Equality
import RecordSieve.Proofs.Query.Spacing
import RecordSieve.Proofs.Number.Nearest
import RecordSieve.Proofs.Query.NumberReading
import RecordSieve.Proofs.Cache
import RecordSieve.Proofs.CacheRuns
import RecordSieve.Proofs.Service.Answer
import RecordSieve.Proofs.Records.Selection
import RecordSieve.Proofs.Records.Table
import RecordSieve.Proofs.Yaml.Marks
import RecordSieve.Proofs.Yaml.Expansion
import RecordSieve.Proofs.Records.Yaml
import RecordSieve.Proofs.Service.Route
import RecordSieve.Proofs.Service.Run
import RecordSieve.Proofs.Query.WireLimits
import RecordSieve.Proofs.Service.Body
import RecordSieve.Proofs.Service.Canonical
import RecordSieve.Proofs.Json.Grammar
import RecordSieve.Proofs.Json.Reading
import RecordSieve.Proofs.Records.Lines
import RecordSieve.Proofs.Query.Rereading
import RecordSieve.Proofs.Service.Filtering
import RecordSieve.Proofs.Service.Refiltering
import RecordSieve.Proofs.Service.Documents
import RecordSieve.Proofs.Yaml.Numbering
import RecordSieve.Proofs.Query.Dependence
import RecordSieve.Proofs.Query.Loosening
import RecordSieve.Proofs.Number.Order
import RecordSieve.Proofs.Value.Ordering
import RecordSieve.Proofs.Value.Comparison
import RecordSieve.Proofs.Value.Holding
import RecordSieve.Proofs.Text.Casing
import RecordSieve.Proofs.Datum.Tracking
import RecordSieve.Proofs.Value.Tree
import RecordSieve.Proofs.Datum.Unfolding
import RecordSieve.Proofs.Instant.Calendar
import RecordSieve.Proofs.Instant.Order
import RecordSieve.Proofs.Datum.Fields
import RecordSieve.Proofs.Json.Source
import RecordSieve.Proofs.Json.Spelling
import RecordSieve.Proofs.Json.Agreement
import RecordSieve.Proofs.Json.Literals
import RecordSieve.Proofs.Records.Joining
import RecordSieve.Proofs.Number.Expansion
import RecordSieve.Proofs.Query.PlainNumber
import RecordSieve.Proofs.Log
