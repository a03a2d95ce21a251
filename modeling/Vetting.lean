import Vetting.Binary64
import Vetting.Binary64.Decimal
import Vetting.Duration
import Vetting.Json
import Vetting.Json.Document
import Vetting.Json.Decode
import Vetting.Finding
import Vetting.Execution
import Vetting.Timestamp
import Vetting.Stage
import Vetting.Report
import Vetting.Property.Result
import Vetting.Property.ParamType
import Vetting.Property.Generator
import Vetting.Text.Blank
import Vetting.Text.Lines
import Vetting.NameSet
import Vetting.Denylist
import Vetting.Config
import Vetting.Digest
import Vetting.Random.WordStream
import Vetting.Random.Uniform
import Vetting.ResourceGuard
import Vetting.Sandbox.Lifecycle
import Vetting.Analyzer.Scale
import Vetting.Text.Identifier
import Vetting.Text.LowerCase
import Vetting.Python.Offence
import Vetting.Python.Token
import Vetting.Python.Lexer
import Vetting.Python.Tree
import Vetting.Python.Literal
import Vetting.Python.Grammar.Cursor
import Vetting.Python.Grammar.Expression
import Vetting.Python.Grammar.Statement
import Vetting.Python.Flaw
import Vetting.Python.Recovery
import Vetting.Python.Scope
import Vetting.Python.Placement
import Vetting.Python.Program
import Vetting.Screening.Alias
import Vetting.Screening.Locality
import Vetting.Screening
import Vetting.Prevalidation
import Vetting.Sandbox.Session
import Vetting.Property.Evaluation
import Vetting.Property.Campaign
import Vetting.Text.Utf8
import Vetting.Text.Escaped
import Vetting.Child
import Vetting.Analyzer
import Vetting.Analyzer.Tool
import Vetting.Sandbox.Failure
import Vetting.Sandbox.Job
import Vetting.Sandbox.ImportGuard
import Vetting.Sandbox.InnerReport
import Vetting.Sandbox.Classification
import Vetting.Sandbox.Execute
import Vetting.Validation
import Vetting.Proofs.Sandbox.Play
import Vetting.Proofs.Validation.Stages
import Vetting.Proofs.Validation.Halting
import Vetting.Proofs.Screening.Scan
import Vetting.Proofs.Validation.Acceptance
import Vetting.Proofs.Sandbox.Runs
import Vetting.Proofs.Validation.Disguise
import Vetting.Proofs.Property.Consumption
import Vetting.Proofs.Validation.Accounting
import Vetting.Proofs.Python.Forms
import Vetting.Proofs.Python.Flaws
import Vetting.Proofs.Python.Reading
import Vetting.Proofs.Sandbox.Clean
import Vetting.Proofs.Python.Expressions
import Vetting.Proofs.Python.Statements
import Vetting.Proofs.Screening.Spots
import Vetting.Proofs.Screening.Imports
import Vetting.Proofs.Screening.Names
import Vetting.Proofs.Screening.Resolution
import Vetting.Proofs.Screening.Mentions
import Vetting.Proofs.Screening.References
import Vetting.Proofs.Screening.Calls
import Vetting.Proofs.Screening.Tightening
import Vetting.Proofs.Property.Campaign
import Vetting.Proofs.Validation.Safety
import Vetting.Proofs.Validation.WellFormed
import Vetting.Proofs.Validation.Leniency
import Vetting.Proofs.Screening.Listing
import Vetting.Proofs.Json.Finite
import Vetting.Proofs.Property.Battery
import Vetting.Proofs.Text.ByteOrder
import Vetting.Proofs.Sandbox.ImportGuard
import Vetting.Proofs.Analyzer.Independence
import Vetting.Proofs.Property.Drawing
import Vetting.Proofs.Property.Conduct
import Vetting.Proofs.Binary64.Rounding
import Vetting.Proofs.Duration.Exchange
import Vetting.Proofs.Config.RoundTrip
import Vetting.Proofs.Property.Evidence
import Vetting.Proofs.Sandbox.Lifecycle
import Vetting.Proofs.Binary64.Order
import Vetting.Proofs.Random.Range
import Vetting.Proofs.Json.Distinct
import Vetting.Proofs.Property.Inputs
import Vetting.Proofs.Property.Magnitude
import Vetting.Proofs.Text.Ends
import Vetting.Proofs.Property.Derivation
import Vetting.Proofs.Sandbox.Forgery
import Vetting.Proofs.Outcome
import Vetting.Proofs.Json.Records
import Vetting.Proofs.Analyzer.Levels
import Vetting.Proofs.Analyzer.Places
import Vetting.Proofs.Sandbox.TimeLimits
import Vetting.Proofs.Duration.Nearest
import Vetting.Proofs.Config.Adjustment
import Vetting.Proofs.Screening.Members
import Vetting.Json.Ascii
import Vetting.Sandbox.ReportLine
import Vetting.Proofs.Json.Numbers
import Vetting.Proofs.Json.Writing
import Vetting.Proofs.Json.Truncation
import Vetting.Proofs.Json.Printable
import Vetting.Proofs.Sandbox.ReportLine
import Vetting.Proofs.Binary64.Shortest
import Vetting.Proofs.Binary64.Notation
import Vetting.Proofs.Json.Compact
import Vetting.Proofs.Property.Ordering
