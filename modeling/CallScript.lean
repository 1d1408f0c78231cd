import CallScript.Binary64.Basic
import CallScript.Binary64.Decimal
import CallScript.Binary64.Numeral
import CallScript.Binary64.Written
import CallScript.Core.Config
import CallScript.Core.Registry
import CallScript.Document.Fault
import CallScript.Document.Json
import CallScript.Document.Toml
import CallScript.ForeignError.Text
import CallScript.Log
import CallScript.Lookahead
import CallScript.Node.Basic
import CallScript.Node.Parser
import CallScript.Node.Source
import CallScript.Proofs.Agreement
import CallScript.Proofs.Derivations
import CallScript.Proofs.Failures
import CallScript.Proofs.Grammar
import CallScript.Proofs.LexerCorrectness
import CallScript.Proofs.LexicalGrammar
import CallScript.Proofs.ParserCorrectness
import CallScript.Proofs.Relocation
import CallScript.Proofs.RunConcatenation
import CallScript.Proofs.SourceConcatenation
import CallScript.Raised
import CallScript.Scalar
import CallScript.ScriptError
import CallScript.Session.Basic
import CallScript.Session.Core
import CallScript.Session.Host
import CallScript.Session.Interpreter
import CallScript.Session.Logging
import CallScript.Session.Runner
import CallScript.Settings.Basic
import CallScript.Settings.Load
import CallScript.Table
import CallScript.Text.Blank
import CallScript.Text.Casing
import CallScript.Text.Digit
import CallScript.Text.Lines
import CallScript.Text.Lowercase
import CallScript.Text.Margin
import CallScript.Text.Printable
import CallScript.Text.Quoted
import CallScript.Text.Ranges
import CallScript.Token.Basic
import CallScript.Token.Lexer
import CallScript.Token.Scanner
import CallScript.Value.Basic
import CallScript.Value.Exposed
import CallScript.Value.Parts
import CallScript.Value.Render
import CallScript.Proofs.RoundTrip
import CallScript.Proofs.TreeValues
import CallScript.Proofs.Invariants
import CallScript.Proofs.Observability
import CallScript.Proofs.SessionFrame
import CallScript.Proofs.StatementOutcomes
import CallScript.Proofs.SingleLine
import CallScript.Proofs.RejectedSources
import CallScript.Proofs.LogProtocol
import CallScript.Proofs.Reachability
import CallScript.Proofs.LoadedSettings
import CallScript.Proofs.Padding
import CallScript.Proofs.Confinement
import CallScript.Proofs.EvaluationOrder
import CallScript.Proofs.DataForms
import CallScript.Proofs.TreeDrawings
import CallScript.Proofs.CallPaths
import CallScript.Proofs.SettingsPrecedence
import CallScript.Proofs.RegistryHistory
import CallScript.Proofs.ConfigUpdates
import CallScript.Proofs.DataValues
import CallScript.Proofs.TraceLines
import CallScript.Proofs.BriefErrors
import CallScript.Proofs.LogSetup
import CallScript.Proofs.ScanRounds
import CallScript.Proofs.ScannerPlaces
import CallScript.Proofs.NumberLiterals
import CallScript.Proofs.CursorDiscipline
