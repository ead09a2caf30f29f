import Preconditions.Check.Content
import Preconditions.Check.Presence
import Preconditions.Check.Scan
import Preconditions.Check.Source
import Preconditions.Check.Variable
import Preconditions.Checked
import Preconditions.Config
import Preconditions.Decimal.Double
import Preconditions.Decimal.Shortest
import Preconditions.Emptiness
import Preconditions.Environment
import Preconditions.Json.Document
import Preconditions.Json.Fault
import Preconditions.Json.NumberLiteral
import Preconditions.Json.Reader
import Preconditions.Json.Record
import Preconditions.Json.Scalar
import Preconditions.Json.Skipping
import Preconditions.Json.TextLiteral
import Preconditions.Json.Token
import Preconditions.Json.Writing
import Preconditions.Logging.Directive
import Preconditions.Logging.Filter
import Preconditions.Logging.Level
import Preconditions.Logging.Process
import Preconditions.Logging.Record
import Preconditions.MessageId
import Preconditions.Proofs.Check.Announcements
import Preconditions.Proofs.Check.Confidentiality
import Preconditions.Proofs.Check.Guards
import Preconditions.Proofs.Check.Scans
import Preconditions.Proofs.Config.Documents
import Preconditions.Proofs.Config.Environments
import Preconditions.Proofs.Config.Validity
import Preconditions.Proofs.Emptiness.Contents
import Preconditions.Proofs.Emptiness.Pointers
import Preconditions.Proofs.Json.Conflicts
import Preconditions.Proofs.Json.Fields
import Preconditions.Proofs.Json.Frames
import Preconditions.Proofs.Json.Grammar
import Preconditions.Proofs.Json.Literals
import Preconditions.Proofs.Json.LocalNumbers
import Preconditions.Proofs.Json.LocalRecords
import Preconditions.Proofs.Json.Locality
import Preconditions.Proofs.Json.Numbers
import Preconditions.Proofs.Json.Numerals
import Preconditions.Proofs.Json.Places
import Preconditions.Proofs.Json.Prefixes
import Preconditions.Proofs.Json.Readers
import Preconditions.Proofs.Json.Records
import Preconditions.Proofs.Json.Skipping
import Preconditions.Proofs.Json.Texts
import Preconditions.Proofs.Json.TruncatedRecords
import Preconditions.Proofs.Json.Truncation
import Preconditions.Proofs.Json.Unambiguity
import Preconditions.Proofs.Json.Writing
import Preconditions.Proofs.Logging.Decisions
import Preconditions.Proofs.Logging.Filters
import Preconditions.Proofs.Logging.Initializers
import Preconditions.Proofs.Logging.Levels
import Preconditions.Proofs.Logging.Placements
import Preconditions.Proofs.Logging.Records
import Preconditions.Proofs.Logging.Runs
import Preconditions.Proofs.Logging.Spellings
import Preconditions.Proofs.MessageId.Codes
import Preconditions.Proofs.MessageId.Documents
import Preconditions.Proofs.Rejection.Messages
import Preconditions.Proofs.Rejection.Renderings
import Preconditions.Proofs.Report.Conflicts
import Preconditions.Proofs.Report.Denotation
import Preconditions.Proofs.Report.Documents
import Preconditions.Proofs.Report.Indices
import Preconditions.Proofs.Report.Kinds
import Preconditions.Proofs.Report.Places
import Preconditions.Proofs.Report.Truncation
import Preconditions.Proofs.Text.Escapes
import Preconditions.Proofs.Text.Positions
import Preconditions.Proofs.Text.Utf8
import Preconditions.Rejection
import Preconditions.Report
import Preconditions.Text.Alphabetic
import Preconditions.Text.Alphanumeric
import Preconditions.Text.Caseless
import Preconditions.Text.Hexadecimal
import Preconditions.Text.Numeral
import Preconditions.Text.Pattern
import Preconditions.Text.Pattern.Atom
import Preconditions.Text.Pattern.Bracket
import Preconditions.Text.Pattern.Group
import Preconditions.Text.Pattern.Height
import Preconditions.Text.Pattern.Mode
import Preconditions.Text.Position
import Preconditions.Text.Quoted
import Preconditions.Text.Utf8
import Preconditions.Text.Visible
import Preconditions.Text.Whitespace
