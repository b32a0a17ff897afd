import ApiProbe.Charset.Dos
import ApiProbe.Charset.Ebcdic
import ApiProbe.Charset.Iso
import ApiProbe.Charset.Label
import ApiProbe.Charset.Macintosh
import ApiProbe.Charset.Punycode
import ApiProbe.Charset.Regional
import ApiProbe.Charset.Table
import ApiProbe.Charset.Wide
import ApiProbe.Charset.Windows
import ApiProbe.CommandLine.Arguments
import ApiProbe.CommandLine.Program
import ApiProbe.Dict
import ApiProbe.Engine
import ApiProbe.Expr.Eval
import ApiProbe.Expr.Machine
import ApiProbe.Expr.Operation
import ApiProbe.Expr.Refusal
import ApiProbe.Expr.Token
import ApiProbe.Expr.Tree
import ApiProbe.Fault
import ApiProbe.Files.Glob
import ApiProbe.Files.Path
import ApiProbe.Files.Tree
import ApiProbe.Http.Exchange
import ApiProbe.Http.Header
import ApiProbe.Http.Request
import ApiProbe.Http.Response
import ApiProbe.Json.Reader
import ApiProbe.Json.StringText
import ApiProbe.Json.Writer
import ApiProbe.Language
import ApiProbe.Log.Document
import ApiProbe.Log.Event
import ApiProbe.Log.Message
import ApiProbe.Main
import ApiProbe.Number.Binary64
import ApiProbe.Number.Numeral
import ApiProbe.Number.Power
import ApiProbe.Number.Shortest
import ApiProbe.Pattern.Character
import ApiProbe.Pattern.Error
import ApiProbe.Pattern.Escape
import ApiProbe.Pattern.Flag
import ApiProbe.Pattern.Group
import ApiProbe.Pattern.Matcher
import ApiProbe.Pattern.Reader
import ApiProbe.Pattern.Repetition
import ApiProbe.Pattern.Scanner
import ApiProbe.Pattern.Syntax
import ApiProbe.Problem
import ApiProbe.Proofs.Expr.Closing
import ApiProbe.Proofs.Expr.Comment
import ApiProbe.Proofs.Expr.Conjuncts
import ApiProbe.Proofs.Expr.Entry
import ApiProbe.Proofs.Expr.Evaluation
import ApiProbe.Proofs.Expr.Fault
import ApiProbe.Proofs.Expr.Fields
import ApiProbe.Proofs.Expr.Gap
import ApiProbe.Proofs.Expr.Grammar
import ApiProbe.Proofs.Expr.Labels
import ApiProbe.Proofs.Expr.Lexeme
import ApiProbe.Proofs.Expr.Limits
import ApiProbe.Proofs.Expr.Nesting
import ApiProbe.Proofs.Expr.Operation
import ApiProbe.Proofs.Expr.Pasted
import ApiProbe.Proofs.Expr.Precedence
import ApiProbe.Proofs.Expr.Printed
import ApiProbe.Proofs.Expr.ReadBack
import ApiProbe.Proofs.Expr.Reading
import ApiProbe.Proofs.Expr.Reference
import ApiProbe.Proofs.Expr.RoundTrip
import ApiProbe.Proofs.Expr.Row
import ApiProbe.Proofs.Expr.Spaced
import ApiProbe.Proofs.Expr.Token
import ApiProbe.Proofs.Expr.Tree
import ApiProbe.Proofs.Expr.Words
import ApiProbe.Proofs.Expr.Written
import ApiProbe.Proofs.Http.Injection
import ApiProbe.Proofs.Http.ReadBack
import ApiProbe.Proofs.Http.Response
import ApiProbe.Proofs.Json.Acceptance
import ApiProbe.Proofs.Json.Documents
import ApiProbe.Proofs.Json.Grammar
import ApiProbe.Proofs.Json.Quoted
import ApiProbe.Proofs.Json.Reader
import ApiProbe.Proofs.Json.Scalars
import ApiProbe.Proofs.Json.Spelling
import ApiProbe.Proofs.Json.Strings
import ApiProbe.Proofs.Number.Comparison
import ApiProbe.Proofs.Number.Decimal
import ApiProbe.Proofs.Number.Difference
import ApiProbe.Proofs.Number.Digits
import ApiProbe.Proofs.Number.Interval
import ApiProbe.Proofs.Number.Layout
import ApiProbe.Proofs.Number.Proper
import ApiProbe.Proofs.Number.Rounding
import ApiProbe.Proofs.Number.Shortest
import ApiProbe.Proofs.Result
import ApiProbe.Proofs.Run.Bodies
import ApiProbe.Proofs.Run.Breakdown
import ApiProbe.Proofs.Run.Command
import ApiProbe.Proofs.Run.Concatenation
import ApiProbe.Proofs.Run.Expansion
import ApiProbe.Proofs.Run.FailFast
import ApiProbe.Proofs.Run.History
import ApiProbe.Proofs.Run.Lifetime
import ApiProbe.Proofs.Run.Log
import ApiProbe.Proofs.Run.Placeholders
import ApiProbe.Proofs.Run.Placement
import ApiProbe.Proofs.Run.Reachable
import ApiProbe.Proofs.Run.Reportable
import ApiProbe.Proofs.Run.Reports
import ApiProbe.Proofs.Run.Request
import ApiProbe.Proofs.Run.Scanning
import ApiProbe.Proofs.Run.Secrets
import ApiProbe.Proofs.Run.Sending
import ApiProbe.Proofs.Run.Shown
import ApiProbe.Proofs.Run.Trace
import ApiProbe.Proofs.Run.Unlogged
import ApiProbe.Proofs.Script.Composition
import ApiProbe.Proofs.Script.Decoding
import ApiProbe.Proofs.Script.Heredocs
import ApiProbe.Proofs.Script.Layout
import ApiProbe.Proofs.Script.Lines
import ApiProbe.Proofs.Script.Parsers
import ApiProbe.Proofs.Script.ReadBack
import ApiProbe.Proofs.Script.Sections
import ApiProbe.Proofs.Script.TopLevel
import ApiProbe.Proofs.Settings.Deadline
import ApiProbe.Proofs.Unify.Completeness
import ApiProbe.Proofs.Unify.Equations
import ApiProbe.Proofs.Unify.Merge
import ApiProbe.Proofs.Unify.NormalForm
import ApiProbe.Proofs.Unify.Order
import ApiProbe.Proofs.Unify.Parts
import ApiProbe.Proofs.Unify.Places
import ApiProbe.Proofs.Unify.Preservation
import ApiProbe.Proofs.Unify.Repetition
import ApiProbe.Proofs.Unify.Selection
import ApiProbe.Proofs.Unify.Sketch
import ApiProbe.Proofs.Unify.Soundness
import ApiProbe.Proofs.Unify.Symmetry
import ApiProbe.Proofs.Value.Concrete
import ApiProbe.Proofs.Value.Data
import ApiProbe.Proofs.Value.Encode
import ApiProbe.Proofs.Value.Field
import ApiProbe.Proofs.Value.Instance
import ApiProbe.Proofs.Value.Sameness
import ApiProbe.Proofs.Value.WellFormed
import ApiProbe.Run.Execute
import ApiProbe.Run.Expand
import ApiProbe.Run.History
import ApiProbe.Run.Lifetime
import ApiProbe.Run.Report
import ApiProbe.Run.Request
import ApiProbe.Run.Session
import ApiProbe.Script.Command
import ApiProbe.Script.Heredoc
import ApiProbe.Script.Line
import ApiProbe.Script.Registry
import ApiProbe.Script.Section
import ApiProbe.Settings.Basic
import ApiProbe.Settings.Variables
import ApiProbe.Text.Blank
import ApiProbe.Text.CodeRange
import ApiProbe.Text.Digit
import ApiProbe.Text.Identifier
import ApiProbe.Text.Letter
import ApiProbe.Text.LetterCase
import ApiProbe.Text.LineEnd
import ApiProbe.Text.Literal
import ApiProbe.Text.Printable
import ApiProbe.Text.Quoted
import ApiProbe.Text.Search
import ApiProbe.Text.Utf8
import ApiProbe.Url.Host
import ApiProbe.Url.Resolve
import ApiProbe.Value.Arithmetic
import ApiProbe.Value.Atom
import ApiProbe.Value.Basic
import ApiProbe.Value.Check
import ApiProbe.Value.Conflict
import ApiProbe.Value.Datum
import ApiProbe.Value.Encode
import ApiProbe.Value.Printer
import ApiProbe.Value.Unify
