import ClrDecompiler.Bytes.Basic
import ClrDecompiler.Bytes.Compressed
import ClrDecompiler.Bytes.Cursor
import ClrDecompiler.Cil.Instruction
import ClrDecompiler.Cil.MethodBody
import ClrDecompiler.Cil.Opcode
import ClrDecompiler.Command.Arguments
import ClrDecompiler.Command.FileTree
import ClrDecompiler.Command.Help
import ClrDecompiler.Command.Host
import ClrDecompiler.Command.Invocation
import ClrDecompiler.Command.Mode
import ClrDecompiler.Command.References
import ClrDecompiler.Command.Run
import ClrDecompiler.Decimal.Binary
import ClrDecompiler.Decimal.Shortest
import ClrDecompiler.Digest.Basic
import ClrDecompiler.Digest.Md5
import ClrDecompiler.Digest.Sha1
import ClrDecompiler.Digest.Sha256
import ClrDecompiler.Fault
import ClrDecompiler.Image.Assembly
import ClrDecompiler.Image.Container
import ClrDecompiler.Image.DebugDirectory
import ClrDecompiler.Listing.Constant
import ClrDecompiler.Listing.Instruction
import ClrDecompiler.Listing.Method
import ClrDecompiler.Listing.Module
import ClrDecompiler.Listing.Output
import ClrDecompiler.Main
import ClrDecompiler.Metadata.Attributes
import ClrDecompiler.Metadata.CliHeader
import ClrDecompiler.Metadata.CodedIndex
import ClrDecompiler.Metadata.Framework
import ClrDecompiler.Metadata.Guid
import ClrDecompiler.Metadata.Heap
import ClrDecompiler.Metadata.HeapBuilder
import ClrDecompiler.Metadata.Identity
import ClrDecompiler.Metadata.Root
import ClrDecompiler.Metadata.RootBuilder
import ClrDecompiler.Metadata.Row
import ClrDecompiler.Metadata.TableBuilder
import ClrDecompiler.Metadata.TableId
import ClrDecompiler.Metadata.TableSizes
import ClrDecompiler.Metadata.TableStream
import ClrDecompiler.Metadata.Token
import ClrDecompiler.Metadata.TypeName
import ClrDecompiler.Module.Basic
import ClrDecompiler.Module.Load
import ClrDecompiler.Module.Lookup
import ClrDecompiler.Module.Names
import ClrDecompiler.Path
import ClrDecompiler.Project.Checksum
import ClrDecompiler.Project.Files
import ClrDecompiler.Project.SourcePath
import ClrDecompiler.Project.Xml
import ClrDecompiler.Proofs.Bytes.Compressed
import ClrDecompiler.Proofs.Bytes.CompressedNumber
import ClrDecompiler.Proofs.Bytes.CompressedRoundTrip
import ClrDecompiler.Proofs.Bytes.CursorBounds
import ClrDecompiler.Proofs.Bytes.FixedWidth
import ClrDecompiler.Proofs.Bytes.LittleEndian
import ClrDecompiler.Proofs.Bytes.Locality
import ClrDecompiler.Proofs.Bytes.Reading
import ClrDecompiler.Proofs.Bytes.Recognition
import ClrDecompiler.Proofs.Cil.BodyEncoding
import ClrDecompiler.Proofs.Cil.BodyRoundTrip
import ClrDecompiler.Proofs.Cil.Encoding
import ClrDecompiler.Proofs.Cil.Recognition
import ClrDecompiler.Proofs.Cil.RoundTrip
import ClrDecompiler.Proofs.Cil.SectionChain
import ClrDecompiler.Proofs.Command.Routes
import ClrDecompiler.Proofs.Digest.Running
import ClrDecompiler.Proofs.Image.DebugDirectory
import ClrDecompiler.Proofs.Image.Translation
import ClrDecompiler.Proofs.Listing.Comments
import ClrDecompiler.Proofs.Listing.Frame
import ClrDecompiler.Proofs.Listing.LineStart
import ClrDecompiler.Proofs.Listing.NameUse
import ClrDecompiler.Proofs.Listing.Output
import ClrDecompiler.Proofs.Metadata.BlobHeap
import ClrDecompiler.Proofs.Metadata.CodedIndex
import ClrDecompiler.Proofs.Metadata.Column
import ClrDecompiler.Proofs.Metadata.HeapRoundTrip
import ClrDecompiler.Proofs.Metadata.HeapRun
import ClrDecompiler.Proofs.Metadata.HeapUpdate
import ClrDecompiler.Proofs.Metadata.IndexWidth
import ClrDecompiler.Proofs.Metadata.Limits
import ClrDecompiler.Proofs.Metadata.Mask
import ClrDecompiler.Proofs.Metadata.Reference
import ClrDecompiler.Proofs.Metadata.RootLayout
import ClrDecompiler.Proofs.Metadata.RootRoundTrip
import ClrDecompiler.Proofs.Metadata.RootWriter
import ClrDecompiler.Proofs.Metadata.StreamDirectory
import ClrDecompiler.Proofs.Metadata.TableReader
import ClrDecompiler.Proofs.Metadata.TableRoundTrip
import ClrDecompiler.Proofs.Metadata.TableWriter
import ClrDecompiler.Proofs.Metadata.Token
import ClrDecompiler.Proofs.Metadata.TypedRow
import ClrDecompiler.Proofs.Metadata.UserString
import ClrDecompiler.Proofs.Module.Declarations
import ClrDecompiler.Proofs.Module.Loading
import ClrDecompiler.Proofs.Module.NameUse
import ClrDecompiler.Proofs.Module.Nesting
import ClrDecompiler.Proofs.Module.NestingConsistency
import ClrDecompiler.Proofs.Module.Owners
import ClrDecompiler.Proofs.Module.Partition
import ClrDecompiler.Proofs.Module.Resolution
import ClrDecompiler.Proofs.Module.Rows
import ClrDecompiler.Proofs.Module.SingleLine
import ClrDecompiler.Proofs.Module.Spelling
import ClrDecompiler.Proofs.Module.TokenLookup
import ClrDecompiler.Proofs.Module.TypeForest
import ClrDecompiler.Proofs.Module.Unfolding
import ClrDecompiler.Proofs.Outcome
import ClrDecompiler.Proofs.Path
import ClrDecompiler.Proofs.Path.Components
import ClrDecompiler.Proofs.Path.Lexical
import ClrDecompiler.Proofs.Project.Checksum
import ClrDecompiler.Proofs.Project.Containment
import ClrDecompiler.Proofs.Project.Description
import ClrDecompiler.Proofs.Project.Distinctness
import ClrDecompiler.Proofs.Project.FreshPath
import ClrDecompiler.Proofs.Project.LeastPath
import ClrDecompiler.Proofs.Project.Relocation
import ClrDecompiler.Proofs.Project.SourcePath
import ClrDecompiler.Proofs.Signature.CallSite
import ClrDecompiler.Proofs.Signature.Existence
import ClrDecompiler.Proofs.Signature.Form
import ClrDecompiler.Proofs.Signature.Levels
import ClrDecompiler.Proofs.Signature.Locality
import ClrDecompiler.Proofs.Signature.Reading
import ClrDecompiler.Proofs.Signature.Relation
import ClrDecompiler.Proofs.Signature.Reuse
import ClrDecompiler.Proofs.Signature.RoundTrip
import ClrDecompiler.Proofs.Source.Blocks
import ClrDecompiler.Proofs.Source.DeclarationPlaces
import ClrDecompiler.Proofs.Source.Declarations
import ClrDecompiler.Proofs.Source.Lexical
import ClrDecompiler.Proofs.Source.LineText
import ClrDecompiler.Proofs.Source.LiteralValue
import ClrDecompiler.Proofs.Source.NameUse
import ClrDecompiler.Proofs.Source.Outline
import ClrDecompiler.Proofs.Source.SingleLine
import ClrDecompiler.Proofs.Source.Spans
import ClrDecompiler.Proofs.Strict.Access
import ClrDecompiler.Proofs.Strict.Body
import ClrDecompiler.Proofs.Strict.Columns
import ClrDecompiler.Proofs.Strict.Heap
import ClrDecompiler.Proofs.Strict.Image
import ClrDecompiler.Proofs.Strict.Load
import ClrDecompiler.Proofs.Strict.Number
import ClrDecompiler.Proofs.Strict.Root
import ClrDecompiler.Proofs.Strict.Scan
import ClrDecompiler.Proofs.Strict.Signature
import ClrDecompiler.Proofs.Strict.Source
import ClrDecompiler.Proofs.Strict.Tables
import ClrDecompiler.Proofs.Strict.Types
import ClrDecompiler.Proofs.Symbols.Agreement
import ClrDecompiler.Proofs.Symbols.BlobRoundTrip
import ClrDecompiler.Proofs.Symbols.DocumentName
import ClrDecompiler.Proofs.Symbols.Draft
import ClrDecompiler.Proofs.Symbols.PointDecoding
import ClrDecompiler.Proofs.Symbols.PointOrder
import ClrDecompiler.Proofs.Symbols.PointRecord
import ClrDecompiler.Proofs.Symbols.PointRoundTrip
import ClrDecompiler.Proofs.Symbols.Readability
import ClrDecompiler.Proofs.Symbols.RoundTrip
import ClrDecompiler.Proofs.Symbols.SequencePoint
import ClrDecompiler.Proofs.Text.Lowercase
import ClrDecompiler.Proofs.Text.Pieces
import ClrDecompiler.Proofs.Text.SingleLine
import ClrDecompiler.Proofs.Text.Utf16
import ClrDecompiler.Proofs.Text.Utf8
import ClrDecompiler.Signature.Basic
import ClrDecompiler.Signature.Reader
import ClrDecompiler.Source.Document
import ClrDecompiler.Source.Language
import ClrDecompiler.Source.Line
import ClrDecompiler.Source.Literal
import ClrDecompiler.Source.Member
import ClrDecompiler.Source.Type
import ClrDecompiler.Symbols.Builder
import ClrDecompiler.Symbols.DebugInfo
import ClrDecompiler.Symbols.DocumentName
import ClrDecompiler.Symbols.Search
import ClrDecompiler.Symbols.SequencePoint
import ClrDecompiler.Text.Blank
import ClrDecompiler.Text.CaseTables
import ClrDecompiler.Text.Hex
import ClrDecompiler.Text.Lowercase
import ClrDecompiler.Text.Pieces
import ClrDecompiler.Text.Utf16
import ClrDecompiler.Text.Utf8
