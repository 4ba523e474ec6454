import DollarScript.Command
import DollarScript.Command.Args
import DollarScript.Command.Run
import DollarScript.Diagnostic
import DollarScript.Files
import DollarScript.Grammar
import DollarScript.Grammar.File
import DollarScript.Json
import DollarScript.Kind
import DollarScript.Main
import DollarScript.Number.Binary64
import DollarScript.Number.Read
import DollarScript.Number.Shortest
import DollarScript.Parser
import DollarScript.Pattern
import DollarScript.Program
import DollarScript.Program.Compact
import DollarScript.Program.Json
import DollarScript.Program.Outline
import DollarScript.Regex
import DollarScript.Regex.CharSet
import DollarScript.Regex.Program
import DollarScript.Regex.Reader
import DollarScript.Regex.Run
import DollarScript.Regex.Tree
import DollarScript.Registry
import DollarScript.Scanner
import DollarScript.Text.Alphabetic
import DollarScript.Text.CaseFold
import DollarScript.Text.CaseFoldTable
import DollarScript.Text.Category
import DollarScript.Text.CategoryTable
import DollarScript.Text.Property
import DollarScript.Text.Quoted
import DollarScript.Text.Span
import DollarScript.Text.Stride
import DollarScript.Text.Uppercase
import DollarScript.Text.UppercaseTable
import DollarScript.Token
import DollarScript.Toml.Reader
import DollarScript.Toml.Scalar
import DollarScript.Toml.Text
import DollarScript.Toml.Value
import DollarScript.Proofs.Parser.Run
import DollarScript.Proofs.Parser.Agreement
import DollarScript.Proofs.Parser.Placeholders
import DollarScript.Proofs.Parser.Acceptance
import DollarScript.Proofs.Parser.Unambiguity
import DollarScript.Proofs.Parser.Blocks
import DollarScript.Proofs.Scanner.FirstMatch
import DollarScript.Proofs.Scanner.Lossless
import DollarScript.Proofs.Parser.Order
import DollarScript.Proofs.Parser.Trace
import DollarScript.Proofs.Parser.Accounting
import DollarScript.Proofs.Parser.Progress
import DollarScript.Proofs.Parser.Concatenation
import DollarScript.Proofs.Parser.NestingLimit
import DollarScript.Proofs.Parser.Operands
import DollarScript.Proofs.Registry.History
import DollarScript.Proofs.Registry.Rearrangement
import DollarScript.Proofs.Scanner.Positions
import DollarScript.Proofs.Toml.Strings
import DollarScript.Proofs.Toml.Scalars
import DollarScript.Proofs.Toml.Lines
import DollarScript.Proofs.Grammar.Reloading
import DollarScript.Proofs.Regex.Machine
import DollarScript.Proofs.Regex.Preference
import DollarScript.Proofs.Regex.Shapes
import DollarScript.Proofs.Scanner.Rules
import DollarScript.Proofs.Registry.Builtin
import DollarScript.Proofs.Scanner.Reference
import DollarScript.Proofs.Scanner.Separation
import DollarScript.Proofs.Parser.Displacement
import DollarScript.Proofs.Scanner.Layout
import DollarScript.Proofs.Scanner.Words
import DollarScript.Proofs.Parser.NumberValues
import DollarScript.Proofs.Regex.Embedding
import DollarScript.Proofs.Regex.Numbering
import DollarScript.Proofs.Regex.Anchoring
import DollarScript.Proofs.Parser.Undelimited
import DollarScript.Proofs.Scanner.Unmatched
import DollarScript.Proofs.Parser.Precedence
import DollarScript.Proofs.Parser.NestingOverrun
import DollarScript.Proofs.Parser.Delimiters
import DollarScript.Proofs.Parser.Shape
import DollarScript.Proofs.Registry.Priority
import DollarScript.Proofs.Scanner.Extension
import DollarScript.Proofs.Number.Nearest
import DollarScript.Proofs.Number.Reading
import DollarScript.Proofs.Scanner.Restart
import DollarScript.Proofs.Scanner.WordRuns
import DollarScript.Proofs.Program.Bracketed
import DollarScript.Proofs.Json.Results
import DollarScript.Proofs.Command.BareForm
import DollarScript.Proofs.Command.Outcomes
import DollarScript.Proofs.Scanner.Listings
import DollarScript.Proofs.Text.Quotation
import DollarScript.Proofs.Scanner.Cursor
import DollarScript.Proofs.Parser.Record
