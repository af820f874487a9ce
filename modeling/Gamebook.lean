import Gamebook.Text.Unprintable
import Gamebook.Text.Lines
import Gamebook.Text.Segment
import Gamebook.Grammar.Rule
import Gamebook.Pattern
import Gamebook.Script.Layout
import Gamebook.Script.Reader
import Gamebook.Check.Report
import Gamebook.Decimal.Shortest
import Gamebook.Text.Quoted
import Gamebook.Json.Basic
import Gamebook.Json.Fault
import Gamebook.Json.Reader
import Gamebook.Json.Printer
import Gamebook.Catalog.Reader
import Gamebook.Catalog.Printer
import Gamebook.Output.Text
import Gamebook.Output.Document
import Gamebook.Main
import Gamebook.Proofs.Text.Trim
import Gamebook.Proofs.Text.Quotation
import Gamebook.Proofs.Text.Words
import Gamebook.Proofs.Text.Blanking
import Gamebook.Proofs.Text.Pieces
import Gamebook.Proofs.Text.Bytes
import Gamebook.Proofs.Text.Comment
import Gamebook.Proofs.Grammar.Keyword
import Gamebook.Proofs.Grammar.Clause
import Gamebook.Proofs.Pattern
import Gamebook.Proofs.Pattern.Word
import Gamebook.Proofs.Pattern.Stop
import Gamebook.Proofs.Pattern.Join
import Gamebook.Proofs.Script.Layout
import Gamebook.Proofs.Script.Token
import Gamebook.Proofs.Script.Reader
import Gamebook.Proofs.Script.Block
import Gamebook.Proofs.Script.Partition
import Gamebook.Proofs.Script.Guard
import Gamebook.Proofs.Script.Meaning
import Gamebook.Proofs.Script.Shape
import Gamebook.Proofs.Check.Line
import Gamebook.Proofs.Check.Opening
import Gamebook.Proofs.Check.Code
import Gamebook.Proofs.Check.TextLine
import Gamebook.Proofs.Check.Report
import Gamebook.Proofs.Check.Accepted
import Gamebook.Proofs.Check.Origin
import Gamebook.Proofs.Soundness.Destination
import Gamebook.Proofs.Soundness.Flag
import Gamebook.Proofs.Soundness.Header
import Gamebook.Proofs.Soundness.Command
import Gamebook.Proofs.Place.Selection
import Gamebook.Proofs.Place.Mark
import Gamebook.Proofs.Place.Report
import Gamebook.Proofs.Place.Message
import Gamebook.Proofs.Simulation.Menu
import Gamebook.Proofs.Simulation.Report
import Gamebook.Proofs.Soundness.Join
import Gamebook.Proofs.Soundness.Transition
import Gamebook.Proofs.Unread.Place
import Gamebook.Proofs.Unread.Word
import Gamebook.Proofs.Unread.Segment
import Gamebook.Proofs.Unread.Scan
import Gamebook.Proofs.Unread.Edit
import Gamebook.Proofs.Unread.Line
import Gamebook.Proofs.Unread.Mark
import Gamebook.Proofs.Unread.Report
import Gamebook.Proofs.Story.Basic
import Gamebook.Proofs.Story.Word
import Gamebook.Proofs.Story.Line
import Gamebook.Proofs.Story.Reading
import Gamebook.Proofs.Story.Harmless
import Gamebook.Proofs.Story.Checking
import Gamebook.Proofs.Story.RoundTrip
import Gamebook.Proofs.Catalog.Frame
import Gamebook.Proofs.Naming.Place
import Gamebook.Proofs.Naming.Search
import Gamebook.Proofs.Naming.Report
import Gamebook.Proofs.Naming.Undeclared
import Gamebook.Proofs.Naming.Duplicate
import Gamebook.Proofs.Spacing.View
import Gamebook.Proofs.Spacing.Padding
import Gamebook.Proofs.Spacing.Reading
import Gamebook.Proofs.Spacing.Report
import Gamebook.Proofs.Check.Argument
import Gamebook.Proofs.Negation.Word
import Gamebook.Proofs.Negation.Line
import Gamebook.Proofs.Negation.Report
import Gamebook.Proofs.Script.Label
import Gamebook.Proofs.Script.Broken
import Gamebook.Proofs.Soundness.Call
import Gamebook.Proofs.Pattern.Clause
import Gamebook.Proofs.Place.Local
import Gamebook.Proofs.Soundness.Effect
import Gamebook.Proofs.Json.Number
import Gamebook.Proofs.Json.String
import Gamebook.Proofs.Json.RoundTrip
import Gamebook.Proofs.Json.Injective
import Gamebook.Proofs.Output.Document
import Gamebook.Proofs.Catalog.Outcome
import Gamebook.Proofs.Catalog.Spelling
import Gamebook.Proofs.Script.Form
import Gamebook.Proofs.Script.Registry
import Gamebook.Proofs.Place.Runs
import Gamebook.Proofs.Place.Blanked
import Gamebook.Proofs.Json.Fault
import Gamebook.Proofs.CommandLine.Files
