import EERDiagram.Artifact.Field
import EERDiagram.Artifact.Format
import EERDiagram.CommandLine.Arguments
import EERDiagram.CommandLine.Command
import EERDiagram.CommandLine.Flag
import EERDiagram.CommandLine.Report
import EERDiagram.CommandLine.Request
import EERDiagram.Decimal.Binary
import EERDiagram.Decimal.Form
import EERDiagram.Decimal.Literal
import EERDiagram.Decimal.Shortest
import EERDiagram.Diagram.Basic
import EERDiagram.Diagram.Check
import EERDiagram.Diagram.Move
import EERDiagram.Diagram.Reading
import EERDiagram.Document.Coordinates
import EERDiagram.Document.Line
import EERDiagram.Document.Sample
import EERDiagram.Document.Statement
import EERDiagram.Document.Token
import EERDiagram.Json.Value
import EERDiagram.Json.Reader
import EERDiagram.Layout.Spiral
import EERDiagram.Log.Format
import EERDiagram.Log.Logger
import EERDiagram.Main
import EERDiagram.Proofs.Artifact.RoundTrip
import EERDiagram.Proofs.Decimal.Range
import EERDiagram.Proofs.Decimal.Spelling
import EERDiagram.Proofs.Diagram.Following
import EERDiagram.Proofs.Diagram.Identity
import EERDiagram.Proofs.Diagram.Moving
import EERDiagram.Proofs.Diagram.Placement
import EERDiagram.Proofs.Diagram.Reading
import EERDiagram.Proofs.Diagram.SecondPair
import EERDiagram.Proofs.Diagram.Unplaced
import EERDiagram.Proofs.Document.Declaration
import EERDiagram.Proofs.Document.Numeral
import EERDiagram.Proofs.Document.Pair
import EERDiagram.Proofs.Document.Rewriting
import EERDiagram.Proofs.Document.Scanning
import EERDiagram.Proofs.Document.Writing
import EERDiagram.Proofs.Json.Escaping
import EERDiagram.Proofs.Json.Number
import EERDiagram.Proofs.Json.RoundTrip
import EERDiagram.Proofs.Session.Agreement
import EERDiagram.Proofs.Session.Debounce
import EERDiagram.Proofs.Session.Dragging
import EERDiagram.Proofs.Session.Grasp
import EERDiagram.Proofs.Session.History
import EERDiagram.Proofs.Session.Release
import EERDiagram.Proofs.Session.Timing
import EERDiagram.Proofs.Text.Digits
import EERDiagram.Proofs.Text.Splitting
import EERDiagram.Proofs.Text.Trimming
import EERDiagram.Session.Basic
import EERDiagram.Settings.Basic
import EERDiagram.Storage.Basic
import EERDiagram.Storage.Tree
import EERDiagram.Text.Basic
import EERDiagram.Text.Encoding
import EERDiagram.Text.Lines
import EERDiagram.Yaml.Building
import EERDiagram.Yaml.Cursor
import EERDiagram.Yaml.Fault
import EERDiagram.Yaml.Loader
import EERDiagram.Yaml.Node
import EERDiagram.Yaml.Number
import EERDiagram.Yaml.Scalar
import EERDiagram.Yaml.Stream
import EERDiagram.Yaml.Tag
import EERDiagram.Proofs.Document.LinkLine
import EERDiagram.Proofs.Diagram.Labelling
import EERDiagram.Proofs.Diagram.Naming
import EERDiagram.Proofs.Diagram.Drawing
import EERDiagram.Proofs.Diagram.Appending
import EERDiagram.Proofs.Diagram.Failing
import EERDiagram.Proofs.Diagram.Successive
import EERDiagram.Proofs.Diagram.Framing
import EERDiagram.Proofs.Document.Editing
import EERDiagram.Proofs.Text.Encoding
import EERDiagram.Proofs.Storage.Tree
import EERDiagram.Proofs.Artifact.Saving
import EERDiagram.Proofs.CommandLine.Opening
import EERDiagram.Proofs.CommandLine.Outcome
import EERDiagram.Proofs.CommandLine.Frame
import EERDiagram.Proofs.CommandLine.Reporting
import EERDiagram.Proofs.Diagram.Respacing
import EERDiagram.Proofs.Settings.Usable
import EERDiagram.Proofs.Settings.Reading
import EERDiagram.Proofs.Document.Segmentation
import EERDiagram.Proofs.Document.LinkPattern
import EERDiagram.Proofs.Session.Recovery
import EERDiagram.Proofs.Document.Position
import EERDiagram.Proofs.Diagram.Warnings
import EERDiagram.Proofs.Diagram.Hierarchy
import EERDiagram.Proofs.Settings.Loading
import EERDiagram.Proofs.Decimal.Nearest
import EERDiagram.Proofs.Diagram.Allocation
import EERDiagram.Proofs.Fallible
import EERDiagram.Proofs.Json.Extent
import EERDiagram.Proofs.Json.Spelling
import EERDiagram.Proofs.Json.Parts
import EERDiagram.Proofs.Json.Rearranging
import EERDiagram.Proofs.Artifact.Rearranging
