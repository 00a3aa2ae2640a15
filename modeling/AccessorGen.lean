import AccessorGen.Accessor
import AccessorGen.Command
import AccessorGen.Declaration.Category
import AccessorGen.Declaration.Parser
import AccessorGen.Diagnostic.Format
import AccessorGen.Event
import AccessorGen.Generate
import AccessorGen.Main
import AccessorGen.Manifest
import AccessorGen.Proofs.Accepted
import AccessorGen.Proofs.AccessorLines
import AccessorGen.Proofs.BuildAndGen
import AccessorGen.Proofs.BuildChanges
import AccessorGen.Proofs.Canonical
import AccessorGen.Proofs.CodePattern
import AccessorGen.Proofs.Commands
import AccessorGen.Proofs.Concatenation
import AccessorGen.Proofs.FileSystem
import AccessorGen.Proofs.Grammar
import AccessorGen.Proofs.Keywords
import AccessorGen.Proofs.Layout
import AccessorGen.Proofs.LineColumn
import AccessorGen.Proofs.LineEndings
import AccessorGen.Proofs.LineResults
import AccessorGen.Proofs.ManifestRoundTrip
import AccessorGen.Proofs.Naming
import AccessorGen.Proofs.NewProject
import AccessorGen.Proofs.PartialManifest
import AccessorGen.Proofs.Paths
import AccessorGen.Proofs.Position
import AccessorGen.Proofs.PrintedDiagnostic
import AccessorGen.Proofs.Rejection
import AccessorGen.Proofs.RunLog
import AccessorGen.Proofs.Shadowing
import AccessorGen.Proofs.StarPlacement
import AccessorGen.Proofs.TokenPlaces
import AccessorGen.Proofs.Underline
import AccessorGen.Proofs.UniqueReading
import AccessorGen.Proofs.WellFormed
import AccessorGen.Text.Blank
import AccessorGen.Text.Bytes
import AccessorGen.Text.Decimal
import AccessorGen.Text.Lines
import AccessorGen.Text.Search
import AccessorGen.Text.Uppercase
import AccessorGen.Token.Lexer
import AccessorGen.Toml.Document
import AccessorGen.Toml.Writer
import AccessorGen.TypeCode
