import MaterialText.Text.Basic
import MaterialText.Text.Blank
import MaterialText.Text.Word
import MaterialText.Text.Lines
import MaterialText.Text.Printable
import MaterialText.Text.Quoted
import MaterialText.Numeral.Basic
import MaterialText.Numeral.Integer
import MaterialText.Single.Basic
import MaterialText.Single.Nearest
import MaterialText.Single.Literal
import MaterialText.Single.Fixed
import MaterialText.Single.Shortest
import MaterialText.Cursor
import MaterialText.Diagnostic
import MaterialText.Statement.Basic
import MaterialText.Statement.Render
import MaterialText.Statement.Parse
import MaterialText.Document.Basic
import MaterialText.Document.Notes
import MaterialText.Json.Writer
import MaterialText.Json.View
import MaterialText.Text.Encoding
import MaterialText.Material
import MaterialText.Directory
import MaterialText.Session
import MaterialText.Log
import MaterialText.Command.Arguments
import MaterialText.Command.Outcome
import MaterialText.Main
import MaterialText.Proofs.Text.Runs
import MaterialText.Proofs.Numeral.Digits
import MaterialText.Proofs.Numeral.IntegerLiteral
import MaterialText.Proofs.Text.QuotedBody
import MaterialText.Proofs.Text.Buffer
import MaterialText.Proofs.Statement.Readers
import MaterialText.Proofs.Single.Codes
import MaterialText.Proofs.Statement.Directive
import MaterialText.Proofs.Single.Nearest
import MaterialText.Proofs.Single.Decimal
import MaterialText.Proofs.Single.Value
import MaterialText.Proofs.Single.LiteralGrammar
import MaterialText.Proofs.Single.LiteralLayout
import MaterialText.Proofs.Statement.Constant
import MaterialText.Proofs.Single.FixedPoint
import MaterialText.Proofs.Single.ReadBack
import MaterialText.Proofs.Single.CanonicalText
import MaterialText.Proofs.Document.JoinedLines
import MaterialText.Proofs.Statement.CanonicalLine
import MaterialText.Proofs.Statement.RoundTrip
import MaterialText.Proofs.Document.RoundTrip
import MaterialText.Proofs.Document.NullCharacter
import MaterialText.Proofs.Document.WellFormed
import MaterialText.Proofs.Document.Survival
import MaterialText.Proofs.Json.Grammar
import MaterialText.Proofs.Json.Decoder
import MaterialText.Proofs.Json.View
import MaterialText.Proofs.Session.History
import MaterialText.Proofs.Session.Handover
import MaterialText.Proofs.Document.Views
import MaterialText.Proofs.Document.PlainJoin
import MaterialText.Proofs.Material.Reload
import MaterialText.Proofs.Material.Directory
import MaterialText.Proofs.Command.CommandLine
import MaterialText.Proofs.Command.Report
import MaterialText.Proofs.Numeral.IntegerLayout
import MaterialText.Proofs.Text.ClosingQuote
import MaterialText.Proofs.Statement.Complaints
import MaterialText.Proofs.Text.LineDecomposition
import MaterialText.Proofs.Document.Equality
import MaterialText.Proofs.Document.Records
import MaterialText.Proofs.Document.Accounting
import MaterialText.Proofs.Json.Layout
import MaterialText.Proofs.Cursor.Motions
import MaterialText.Proofs.Cursor.Run
