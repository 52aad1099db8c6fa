import SourcePrint.CanonicalError
import SourcePrint.CanonicalSource
import SourcePrint.Category
import SourcePrint.Category.Tag
import SourcePrint.Classifier
import SourcePrint.Command.Arguments
import SourcePrint.Command.Run
import SourcePrint.Config
import SourcePrint.ConfigFile
import SourcePrint.Digest.Polynomial
import SourcePrint.Digest.Sha256
import SourcePrint.FileTree
import SourcePrint.Fingerprint
import SourcePrint.Json.Basic
import SourcePrint.Json.Printer
import SourcePrint.Json.Reader
import SourcePrint.Language.Basic
import SourcePrint.Language.ExtensionMap
import SourcePrint.Language.Table
import SourcePrint.Language.Words
import SourcePrint.Lexeme.Basic
import SourcePrint.Lexeme.Number
import SourcePrint.Lexeme.Quoted
import SourcePrint.Lexeme.Scan
import SourcePrint.Lexeme.Sign
import SourcePrint.Lexeme.Word
import SourcePrint.Lexer
import SourcePrint.LexicalError
import SourcePrint.LogicalLine
import SourcePrint.Main
import SourcePrint.MapThread
import SourcePrint.Record.Basic
import SourcePrint.Record.Result
import SourcePrint.Record.Setting
import SourcePrint.Report
import SourcePrint.Session
import SourcePrint.SourcePolicy
import SourcePrint.Span
import SourcePrint.Symbol
import SourcePrint.Text.Alphabetic
import SourcePrint.Text.Blank
import SourcePrint.Text.Cased
import SourcePrint.Text.CodeRanges
import SourcePrint.Text.Hex
import SourcePrint.Text.Lowercase
import SourcePrint.Text.Numeric
import SourcePrint.Text.Quoted
import SourcePrint.Text.Utf16
import SourcePrint.Text.Utf8
import SourcePrint.Token.Basic
import SourcePrint.Token.Normalize
import SourcePrint.Yaml.BlockScalar
import SourcePrint.Yaml.Directive
import SourcePrint.Yaml.Document
import SourcePrint.Yaml.Field
import SourcePrint.Yaml.Glyph
import SourcePrint.Yaml.Node
import SourcePrint.Yaml.Scalar
import SourcePrint.Yaml.Tag
import SourcePrint.Yaml.Token
import SourcePrint.Proofs.Slices
import SourcePrint.Proofs.Tiling
import SourcePrint.Proofs.Merging
import SourcePrint.Proofs.Pieces
import SourcePrint.Proofs.Grouping
import SourcePrint.Proofs.Positions
import SourcePrint.Proofs.Lookahead
import SourcePrint.Proofs.Numerals
import SourcePrint.Proofs.Locality
import SourcePrint.Proofs.Blanks
import SourcePrint.Proofs.Edits
import SourcePrint.Proofs.Kinds
import SourcePrint.Proofs.Renaming
import SourcePrint.Proofs.Relayout
import SourcePrint.Proofs.Contexts
import SourcePrint.Proofs.Comments
import SourcePrint.Proofs.Floats
import SourcePrint.Proofs.Quotations
import SourcePrint.Proofs.Spelling
import SourcePrint.Proofs.Shapes
import SourcePrint.Proofs.Composition
import SourcePrint.Proofs.TokenStream
import SourcePrint.Proofs.Tags
import SourcePrint.Proofs.Clones
import SourcePrint.Proofs.Vocabulary
import SourcePrint.Proofs.Decoding
import SourcePrint.Proofs.Segmentation
import SourcePrint.Proofs.Replay
import SourcePrint.Proofs.Granularity
import SourcePrint.Proofs.SpanFaults
import SourcePrint.Proofs.Slack
import SourcePrint.Proofs.SlackScan
import SourcePrint.Proofs.Preparation
import SourcePrint.Proofs.Trimming
import SourcePrint.Proofs.LineBreaks
import SourcePrint.Proofs.JsonText
import SourcePrint.Proofs.Extensions
import SourcePrint.Proofs.LanguageTables
import SourcePrint.Proofs.Records
import SourcePrint.Proofs.SavedSettings
import SourcePrint.Proofs.ConfigFiles
import SourcePrint.Proofs.Labels
import SourcePrint.Proofs.LogicalLines
import SourcePrint.Proofs.PolynomialHash
import SourcePrint.Proofs.StringLiterals
import SourcePrint.Proofs.Recognition
import SourcePrint.Proofs.Casing
import SourcePrint.Proofs.AllowLists
import SourcePrint.Proofs.CommandLines
import SourcePrint.Proofs.Batches
import SourcePrint.Proofs.Observers
