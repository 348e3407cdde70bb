import BlockDocument.Command.Extra
import BlockDocument.Command.Invocation
import BlockDocument.Command.Override
import BlockDocument.Command.Run
import BlockDocument.Config.KeyPath
import BlockDocument.Config.Layers
import BlockDocument.Config.Setting
import BlockDocument.Config.Settings
import BlockDocument.Decimal.Binary64
import BlockDocument.Decimal.Extended
import BlockDocument.Decimal.Notation
import BlockDocument.Decimal.Shortest
import BlockDocument.Decode.Block
import BlockDocument.Decode.Content
import BlockDocument.Decode.Document
import BlockDocument.Decode.Field
import BlockDocument.Decode.Mismatch
import BlockDocument.Decode.Run
import BlockDocument.Dictionary
import BlockDocument.Document.Block
import BlockDocument.Document.Cell
import BlockDocument.Document.Content
import BlockDocument.Document.Scalar
import BlockDocument.Failure
import BlockDocument.Files.Path
import BlockDocument.Files.Tree
import BlockDocument.Html.Block
import BlockDocument.Html.Escape
import BlockDocument.Html.Heading
import BlockDocument.Html.Inline
import BlockDocument.Html.Markup
import BlockDocument.Html.Page
import BlockDocument.Html.Policy
import BlockDocument.Html.Prose
import BlockDocument.Html.Rendering
import BlockDocument.Html.Runs
import BlockDocument.Html.Sheet
import BlockDocument.Html.Slide
import BlockDocument.Html.Table
import BlockDocument.Include
import BlockDocument.Json.Cursor
import BlockDocument.Json.Fault
import BlockDocument.Json.Literal
import BlockDocument.Json.Reader
import BlockDocument.Json.Skip
import BlockDocument.Json.Value
import BlockDocument.LineReference
import BlockDocument.Main
import BlockDocument.Notice
import BlockDocument.Proofs.BraceErrors
import BlockDocument.Proofs.ByteOrder
import BlockDocument.Proofs.CellKeys
import BlockDocument.Proofs.CommandRuns
import BlockDocument.Proofs.Content
import BlockDocument.Proofs.DiagnosticPlaces
import BlockDocument.Proofs.DocumentValues
import BlockDocument.Proofs.ElementReading
import BlockDocument.Proofs.Entries
import BlockDocument.Proofs.Escaping
import BlockDocument.Proofs.ExtraArguments
import BlockDocument.Proofs.ExtraValues
import BlockDocument.Proofs.FileWrites
import BlockDocument.Proofs.Flow
import BlockDocument.Proofs.Forest
import BlockDocument.Proofs.Formatting
import BlockDocument.Proofs.JsonGrammar
import BlockDocument.Proofs.LayeredValues
import BlockDocument.Proofs.Layering
import BlockDocument.Proofs.Lexeme
import BlockDocument.Proofs.LineEndings
import BlockDocument.Proofs.LineReferences
import BlockDocument.Proofs.LineTokens
import BlockDocument.Proofs.MarkConservation
import BlockDocument.Proofs.MarkNesting
import BlockDocument.Proofs.MarkPasses
import BlockDocument.Proofs.Markers
import BlockDocument.Proofs.MemberOrder
import BlockDocument.Proofs.Notices
import BlockDocument.Proofs.OpenFiles
import BlockDocument.Proofs.OptionReading
import BlockDocument.Proofs.PageLines
import BlockDocument.Proofs.PageParts
import BlockDocument.Proofs.PassingOver
import BlockDocument.Proofs.PolicyReading
import BlockDocument.Proofs.Precedence
import BlockDocument.Proofs.ProseGroups
import BlockDocument.Proofs.Refusals
import BlockDocument.Proofs.RootFile
import BlockDocument.Proofs.RunEffects
import BlockDocument.Proofs.RunReading
import BlockDocument.Proofs.SeparatedMarks
import BlockDocument.Proofs.SettingPaths
import BlockDocument.Proofs.SheetCells
import BlockDocument.Proofs.SheetGrid
import BlockDocument.Proofs.ShownFields
import BlockDocument.Proofs.SlideHeadings
import BlockDocument.Proofs.SourceMarks
import BlockDocument.Proofs.TextLines
import BlockDocument.Proofs.TidyText
import BlockDocument.Proofs.UnknownMembers
import BlockDocument.Proofs.WrappedRoots
import BlockDocument.Publish
import BlockDocument.Source.Brace
import BlockDocument.Source.Check
import BlockDocument.Source.Format
import BlockDocument.Stylesheet
import BlockDocument.Text.Basic
import BlockDocument.Text.Blank
import BlockDocument.Text.Hexadecimal
import BlockDocument.Text.Lines
import BlockDocument.Text.Lowercase
import BlockDocument.Text.Natural
import BlockDocument.Text.Printable
import BlockDocument.Text.Quoted
import BlockDocument.Text.Ranges
import BlockDocument.Text.Word
import BlockDocument.Theme
import BlockDocument.Toml.Document
import BlockDocument.Toml.Moment
import BlockDocument.Toml.Number
import BlockDocument.Toml.Quoted
import BlockDocument.Toml.Spacing
import BlockDocument.Toml.Tree
import BlockDocument.Toml.Value
