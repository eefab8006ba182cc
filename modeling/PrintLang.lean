import PrintLang.Binary64
import PrintLang.CommandLine.Arguments
import PrintLang.CommandLine.Similarity
import PrintLang.CommandLine.Usage
import PrintLang.Console
import PrintLang.Decimal
import PrintLang.Decimal.Numeral
import PrintLang.Decimal.Shortest
import PrintLang.Dialogue
import PrintLang.Environment
import PrintLang.Evaluation
import PrintLang.Event
import PrintLang.Fault
import PrintLang.Grammar.Complaint
import PrintLang.Grammar.Place
import PrintLang.Grammar.Reader
import PrintLang.Invocation
import PrintLang.Main
import PrintLang.Number
import PrintLang.Operator
import PrintLang.Proofs.Chronicle
import PrintLang.Proofs.Continuation
import PrintLang.Proofs.Culprit
import PrintLang.Proofs.Diagnosis
import PrintLang.Proofs.EvaluationOrder
import PrintLang.Proofs.Excerpt
import PrintLang.Proofs.Execution
import PrintLang.Proofs.Footprint
import PrintLang.Proofs.Grammar.Cursor
import PrintLang.Proofs.Grammar.Derivation
import PrintLang.Proofs.Grammar.Descent
import PrintLang.Proofs.Grammar.Part
import PrintLang.Proofs.Grammar.Reading
import PrintLang.Proofs.Layout
import PrintLang.Proofs.Listing
import PrintLang.Proofs.Literals
import PrintLang.Proofs.Nesting
import PrintLang.Proofs.Number.Canonical
import PrintLang.Proofs.Number.Encoding
import PrintLang.Proofs.Number.Literal
import PrintLang.Proofs.Number.Middles
import PrintLang.Proofs.Number.Positional
import PrintLang.Proofs.Number.Rounding
import PrintLang.Proofs.Number.Shortest
import PrintLang.Proofs.Numbering
import PrintLang.Proofs.OpenQuote
import PrintLang.Proofs.Pieces
import PrintLang.Proofs.PlusChain
import PrintLang.Proofs.Preloading
import PrintLang.Proofs.Printing
import PrintLang.Proofs.Refusal
import PrintLang.Proofs.Relocation
import PrintLang.Proofs.Replay
import PrintLang.Proofs.Rereading
import PrintLang.Proofs.Reporting
import PrintLang.Proofs.Standing
import PrintLang.Proofs.Stopping
import PrintLang.Proofs.Text.Blank
import PrintLang.Proofs.Text.Lines
import PrintLang.Proofs.Text.Place
import PrintLang.Proofs.Token.Concatenation
import PrintLang.Proofs.Token.Lexeme
import PrintLang.Proofs.Token.Part
import PrintLang.Proofs.Token.Rendering
import PrintLang.Proofs.Token.Segmentation
import PrintLang.Proofs.Token.Unusable
import PrintLang.Proofs.Transcript
import PrintLang.Proofs.Truncation
import PrintLang.Proofs.Typing
import PrintLang.Proofs.Unambiguity
import PrintLang.Proofs.Viability
import PrintLang.Proofs.WholeNumbers
import PrintLang.Report
import PrintLang.Script
import PrintLang.Session
import PrintLang.Sink
import PrintLang.Span
import PrintLang.Text.Alphabetic
import PrintLang.Text.Blank
import PrintLang.Text.Lines
import PrintLang.Text.Numeric
import PrintLang.Text.Ranges
import PrintLang.Text.Terminal
import PrintLang.Token
import PrintLang.Token.Scanner
import PrintLang.Tree
import PrintLang.Value
