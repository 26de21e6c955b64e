import EarleyChart.Action.Basic
import EarleyChart.Action.Codec
import EarleyChart.Batch
import EarleyChart.Chart.Basic
import EarleyChart.Chart.Fault
import EarleyChart.Chart.Item
import EarleyChart.Chart.Printer
import EarleyChart.CommandLine
import EarleyChart.Decimal.Binary
import EarleyChart.Decimal.Reading
import EarleyChart.Decimal.Shortest
import EarleyChart.Decimal.Style
import EarleyChart.Diagnosis.Basic
import EarleyChart.Diagnosis.Chain
import EarleyChart.Diagnosis.Checked
import EarleyChart.Diagnosis.Render
import EarleyChart.Document.Descent
import EarleyChart.Document.Language
import EarleyChart.Error
import EarleyChart.Grammar.Basic
import EarleyChart.Grammar.Declaration
import EarleyChart.Grammar.Description
import EarleyChart.Grammar.Fault
import EarleyChart.Grammar.Nullable
import EarleyChart.Json.Basic
import EarleyChart.Json.Number
import EarleyChart.Json.Printer
import EarleyChart.Json.Record
import EarleyChart.Json.Tree
import EarleyChart.Lexer.Basic
import EarleyChart.Lexer.Definition
import EarleyChart.Main
import EarleyChart.Parse.Engine
import EarleyChart.Parse.Run
import EarleyChart.Pattern.Basic
import EarleyChart.Pattern.Bracket
import EarleyChart.Pattern.CharSet
import EarleyChart.Pattern.Engine
import EarleyChart.Pattern.Escape
import EarleyChart.Pattern.Fault
import EarleyChart.Pattern.Flags
import EarleyChart.Pattern.Reader
import EarleyChart.Source.Checked
import EarleyChart.Source.Highlight
import EarleyChart.Source.Position
import EarleyChart.Source.Span
import EarleyChart.Text.Literal
import EarleyChart.Text.Quoted
import EarleyChart.Text.Utf16
import EarleyChart.Text.Utf8
import EarleyChart.Token
import EarleyChart.Unicode.CaseOrbit
import EarleyChart.Unicode.Category
import EarleyChart.Unicode.Property
import EarleyChart.Unicode.Ranges
import EarleyChart.Unicode.Script
import EarleyChart.Value.Basic
import EarleyChart.Value.Display
import EarleyChart.Value.Json
import EarleyChart.Proofs.Derivation
import EarleyChart.Proofs.Language
import EarleyChart.Proofs.Ending
import EarleyChart.Proofs.Growth
import EarleyChart.Proofs.Nullability
import EarleyChart.Proofs.Numbering
import EarleyChart.Proofs.Coherence
import EarleyChart.Proofs.Steps
import EarleyChart.Proofs.Closure
import EarleyChart.Proofs.Completeness
import EarleyChart.Proofs.Traversals
import EarleyChart.Proofs.Chains
import EarleyChart.Proofs.Runs
import EarleyChart.Proofs.Correctness
import EarleyChart.Proofs.Meaning
import EarleyChart.Proofs.DocumentValues
import EarleyChart.Proofs.Descent
import EarleyChart.Proofs.Agreement
import EarleyChart.Proofs.Provenance
import EarleyChart.Proofs.Bounds
import EarleyChart.Proofs.Traces
import EarleyChart.Proofs.Tally
import EarleyChart.Proofs.Balance
import EarleyChart.Proofs.Ambiguity
import EarleyChart.Proofs.Extension
import EarleyChart.Proofs.LeftToRight
import EarleyChart.Proofs.Predictive
import EarleyChart.Proofs.Delimiting
import EarleyChart.Proofs.Completions
import EarleyChart.Proofs.Truncation
import EarleyChart.Proofs.Control
import EarleyChart.Proofs.Engines
import EarleyChart.Proofs.Lexing
import EarleyChart.Proofs.Literals
import EarleyChart.Proofs.DocumentTokens
import EarleyChart.Proofs.RoundTrip
import EarleyChart.Proofs.Exhaustion
import EarleyChart.Proofs.Building
import EarleyChart.Proofs.EmptyDerivations
import EarleyChart.Proofs.Positions
import EarleyChart.Proofs.Segments
import EarleyChart.Proofs.Segmentation
import EarleyChart.Proofs.Placement
import EarleyChart.Proofs.Escapes
import EarleyChart.Proofs.SourceTraces
import EarleyChart.Proofs.JsonText
import EarleyChart.Proofs.PlainValues
import EarleyChart.Proofs.Descriptions
import EarleyChart.Proofs.Expectations
import EarleyChart.Proofs.Diagnoses
import EarleyChart.Proofs.Insertion
import EarleyChart.Proofs.Reductions
import EarleyChart.Proofs.Boundaries
import EarleyChart.Proofs.Precedence
import EarleyChart.Proofs.Highlighting
import EarleyChart.Proofs.Rendering
