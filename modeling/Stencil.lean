import Stencil.Calendar
import Stencil.CommandLine.Arguments
import Stencil.CommandLine.Command
import Stencil.CommandLine.Report
import Stencil.CommandLine.Run
import Stencil.Data
import Stencil.Decimal.Binary
import Stencil.Decimal.Layout
import Stencil.Decimal.Numeral
import Stencil.Decimal.Shortest
import Stencil.Error
import Stencil.Escape
import Stencil.Evaluate.Basic
import Stencil.Evaluate.Literal
import Stencil.Grammar.Combinator
import Stencil.Grammar.EndMarker
import Stencil.Grammar.Tag
import Stencil.Grammar.Token
import Stencil.Main
import Stencil.Node.Basic
import Stencil.Node.Printer
import Stencil.Parser.Basic
import Stencil.Path
import Stencil.Session
import Stencil.Template
import Stencil.Text.Basic
import Stencil.Text.Blank
import Stencil.Text.Digit
import Stencil.Text.Newline
import Stencil.Text.Printable
import Stencil.Text.Quoted
import Stencil.Traced
import Stencil.Value.Basic
import Stencil.Value.Display
import Stencil.Value.Equality
import Stencil.Value.Layers
import Stencil.Value.Mapping
import Stencil.Yaml.Cursor
import Stencil.Yaml.Load
import Stencil.Yaml.Loader
import Stencil.Yaml.Resolve
import Stencil.Yaml.Scalar
import Stencil.Yaml.Token
import Stencil.Yaml.Tree
import Stencil.Proofs.CommandLine.Ending
import Stencil.Proofs.CommandLine.Input
import Stencil.Proofs.CommandLine.Reports
import Stencil.Proofs.Data.Assign
import Stencil.Proofs.Data.Order
import Stencil.Proofs.Data.Override
import Stencil.Proofs.Evaluate.Agreement
import Stencil.Proofs.Evaluate.Block
import Stencil.Proofs.Evaluate.Calls
import Stencil.Proofs.Evaluate.Concat
import Stencil.Proofs.Evaluate.Copying
import Stencil.Proofs.Evaluate.Failure
import Stencil.Proofs.Evaluate.Literal
import Stencil.Proofs.Evaluate.Markup
import Stencil.Proofs.Evaluate.Outcome
import Stencil.Proofs.Evaluate.Quiet
import Stencil.Proofs.Evaluate.Unescape
import Stencil.Proofs.Evaluate.Writing
import Stencil.Proofs.Grammar.Argument
import Stencil.Proofs.Grammar.Avoid
import Stencil.Proofs.Grammar.Choice
import Stencil.Proofs.Grammar.Combined
import Stencil.Proofs.Grammar.Literal
import Stencil.Proofs.Grammar.Marker
import Stencil.Proofs.Grammar.Name
import Stencil.Proofs.Grammar.Opener
import Stencil.Proofs.Grammar.Search
import Stencil.Proofs.Grammar.Tag
import Stencil.Proofs.Node.Parts
import Stencil.Proofs.Node.Spelling
import Stencil.Proofs.Parser.Repeat
import Stencil.Proofs.Parser.Step
import Stencil.Proofs.Template.Append
import Stencil.Proofs.Template.Depth
import Stencil.Proofs.Template.Diagnostics
import Stencil.Proofs.Template.Kinds
import Stencil.Proofs.Template.Literal
import Stencil.Proofs.Template.Naming
import Stencil.Proofs.Template.Place
import Stencil.Proofs.Template.Reading
import Stencil.Proofs.Template.Rendering
import Stencil.Proofs.Template.Reparse
import Stencil.Proofs.Template.Section
import Stencil.Proofs.Template.Session
import Stencil.Proofs.Template.Shape
import Stencil.Proofs.Template.WellFormed
import Stencil.Proofs.Text.Digit
import Stencil.Proofs.Value.Dictionary
import Stencil.Proofs.Value.Layers
import Stencil.Proofs.Value.Parts
import Stencil.Proofs.Value.Reordered
import Stencil.Proofs.Yaml.Data
