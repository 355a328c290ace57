import RecordFilter.Main
import RecordFilter.FieldType.Json
import RecordFilter.Settings.Json
import RecordFilter.Proofs.Compilation
import RecordFilter.Proofs.Meaning
import RecordFilter.Proofs.Fault
import RecordFilter.Proofs.DocumentOrder
import RecordFilter.Proofs.Json.Reading
import RecordFilter.Proofs.Json.Scalars
import RecordFilter.Proofs.Json.Floats
import RecordFilter.Proofs.Json.Writing
import RecordFilter.Proofs.Value.RoundTrip
import RecordFilter.Proofs.Criterion.RoundTrip
import RecordFilter.Proofs.Binary64.Nearest
import RecordFilter.Proofs.Json.Range
import RecordFilter.Proofs.Criterion.Normal
import RecordFilter.Proofs.Ignored
import RecordFilter.Proofs.Binary64.Exact
import RecordFilter.Proofs.Json.Integers
import RecordFilter.Proofs.Condition.Constants
import RecordFilter.Proofs.Condition.Expression
import RecordFilter.Proofs.Condition.Readability
import RecordFilter.Proofs.Registration
import RecordFilter.Proofs.Relaxation
import RecordFilter.Proofs.Combination
import RecordFilter.Proofs.Cli.Options
import RecordFilter.Proofs.Cli.Stages
import RecordFilter.Proofs.Nesting
import RecordFilter.Proofs.Cli.Agreement
import RecordFilter.Proofs.Json.Spelling
import RecordFilter.Proofs.Json.Tokens
import RecordFilter.Proofs.Json.Skipping
import RecordFilter.Proofs.Json.Shapes
import RecordFilter.Proofs.Json.Records
import RecordFilter.Proofs.Value.Document
import RecordFilter.Proofs.Criterion.Parts
import RecordFilter.Proofs.Json.Written
import RecordFilter.Proofs.Criterion.Members
import RecordFilter.Proofs.User.Document
import RecordFilter.Proofs.Cli.Rerun
import RecordFilter.Proofs.Binary64.Rounding
import RecordFilter.Proofs.Binary64.Scaling
import RecordFilter.Proofs.Json.Accuracy
import RecordFilter.Proofs.Value.Decoding
import RecordFilter.Proofs.Derivation
import RecordFilter.Proofs.Grouping
import RecordFilter.Proofs.Membership
import RecordFilter.Proofs.Path
import RecordFilter.Proofs.Criterion.Gap
import RecordFilter.Proofs.IntegerLiteral
import RecordFilter.Proofs.Shape
import RecordFilter.Proofs.Condition.Decisive
import RecordFilter.Proofs.Condition.Monotone
import RecordFilter.Proofs.Bounds
import RecordFilter.Proofs.Text.Code
import RecordFilter.Proofs.Text.Utf8
import RecordFilter.Proofs.StringFields
import RecordFilter.Proofs.Value.Integers
import RecordFilter.Proofs.Value.Padding
import RecordFilter.Proofs.Pairing
import RecordFilter.Proofs.Resolution
import RecordFilter.Proofs.Respelling
import RecordFilter.Proofs.Value.Text
import RecordFilter.Proofs.ShownValue
import RecordFilter.Proofs.Collection
