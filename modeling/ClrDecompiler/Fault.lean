/-
This file lists the reasons why an assembly, its symbols or an output can be refused, and
gives each reason its text.
-/

import ClrDecompiler.Metadata.TableId
import ClrDecompiler.Text.Hex
import ClrDecompiler.Text.Utf8

namespace ClrDecompiler

open Metadata

/-- The ways in which data can contradict its format. -/
inductive Damage where
  | narrowIndex (value : Nat)
  | compressedUnsigned (value : Nat)
  | compressedSigned (value : Int)
  | compressedLead (byte : UInt8)
  | compressedToken (value : Nat)
  | serializedText (start stop : Nat) (flaw : Utf8.Flaw)
  | optionalHeaderMissing
  | cliDirectoryMissing
  | addressTooLarge (address : Nat)
  | sectionOverflow (address size : Nat)
  | addressUnmapped (address : Nat)
  | debugDirectorySize (size : Nat)
  | cliHeaderSize (size : Nat)
  | metadataAddressZero
  | metadataSizeZero
  | metadataSizeLimit (size : Nat)
  | rootSignature (signature : UInt32)
  | versionLength (length : Nat)
  | streamCount (count : Nat)
  | streamExtent (offset size : Nat)
  | streamName
  | stringHeap
  | stringIndex (index : Nat)
  | blobHeap
  | guidHeap (size : Nat)
  | stringHeapMissing
  | blobHeapMissing
  | tablesMissing
  | moduleMissing
  | noTables
  | unknownTable (table unknown : Nat)
  | codedTable (kind : CodedKind) (table : TableId)
  | rowShape (table : TableId) (values : Nat)
  | narrowColumn (value : Nat)
  | blobSize (size : Nat)
  | userStringLength (units : Nat)
  | imageSize
  | bodyEmpty
  | bodyHeader (byte : UInt8)
  | attributeProlog (row : Nat)
  | constantType (byte : UInt8)
  | elementType (byte : UInt8)
  | genericBase (byte : UInt8)
  | fieldSignature (byte : UInt8)
  | localsSignature (byte : UInt8)
  | methodSpecSignature (byte : UInt8)
  | opcode (value : UInt8) (offset : Nat)
  | extendedOpcode (value : UInt8) (offset : Nat)
  | branchTarget (target : Int)
  | emptyDeclaration (line startColumn endColumn : Nat)
  | pointOffset
  | pointLine (line : Int)
  | pointColumn (column : Int)
  deriving DecidableEq, Repr

def Damage.message : Damage → String
  | .narrowIndex value => s!"Index {value} does not fit a small index"
  | .compressedUnsigned value => s!"Value {value} is too large for a compressed integer"
  | .compressedSigned value =>
    s!"Value {value} is out of range for a compressed signed integer"
  | .compressedLead byte => s!"Invalid compressed uint - {byte}"
  | .compressedToken value => s!"Invalid compressed token - {value}"
  | .serializedText start stop flaw =>
    s!"Invalid UTF-8 string at offset {start}-{stop}: {flaw.message}"
  | .optionalHeaderMissing => "File does not have an OptionalHeader"
  | .cliDirectoryMissing => "File does not have a CLR runtime header directory"
  | .addressTooLarge address => s!"RVA too large to fit in u32: {address}"
  | .sectionOverflow address size =>
    s!"Section malformed, causing integer overflow - {address} + {size}"
  | .addressUnmapped address => s!"RVA could not be converted to offset - {address}"
  | .debugDirectorySize size => s!"Debug directory size is not a multiple of 28 - {size}"
  | .cliHeaderSize size => s!"Invalid CLR header size: expected 72, got {size}"
  | .metadataAddressZero => "Metadata RVA cannot be zero"
  | .metadataSizeZero => "Metadata size cannot be zero"
  | .metadataSizeLimit size => s!"Metadata size {size} exceeds reasonable limit (256MB)"
  | .rootSignature signature =>
    s!"CIL_HEADER_MAGIC does not match - 0x{Hex.lower 8 signature.toNat}"
  | .versionLength length => s!"Version string length causing integer overflow - {length}"
  | .streamCount count => s!"Invalid stream count - {count}"
  | .streamExtent offset size =>
    s!"Stream offset and size cause integer overflow - {offset} + {size}"
  | .streamName => "Stream header name is not terminated"
  | .stringHeap => "Provided #String heap is empty"
  | .stringIndex index => s!"Invalid string at index - {index}"
  | .blobHeap => "Invalid memory for #Blob heap"
  | .guidHeap size => s!"Size of #GUID heap is not a multiple of 16 - {size}"
  | .stringHeapMissing => "Metadata has no #Strings heap"
  | .blobHeapMissing => "Metadata has no #Blob heap"
  | .tablesMissing => "Metadata does not contain a tables stream"
  | .moduleMissing => "Metadata does not contain a Module row"
  | .noTables => "No valid rows in any of the tables"
  | .unknownTable table unknown =>
    s!"Table 0x{Hex.lower 2 table} follows unknown table 0x{Hex.lower 2 unknown}"
  | .codedTable kind table => s!"{kind.name} cannot reference table {table.name}"
  | .rowShape table values =>
    s!"Table {table.name} has {table.columns.length} columns, got {values} values"
  | .narrowColumn value => s!"Value {value} does not fit a 2-byte column"
  | .blobSize size => s!"Blob of {size} bytes is too large"
  | .userStringLength units => s!"User string of {units} characters is too long"
  | .imageSize => "Metadata image is too large"
  | .bodyEmpty => "Provided data for body parsing is empty"
  | .bodyHeader byte => s!"MethodHeader is neither FAT nor TINY - {byte}"
  | .attributeProlog row => s!"Invalid custom attribute prolog in row {row}"
  | .constantType byte => s!"Unsupported constant type - {byte}"
  | .elementType byte => s!"Unsupported ELEMENT_TYPE - {byte}"
  | .genericBase byte =>
    s!"GENERICINST - Next byte is not TYPE_CLASS or TYPE_VALUE - {byte}"
  | .fieldSignature byte => s!"SignatureField - invalid start - {byte}"
  | .localsSignature byte => s!"SignatureLocalVariables - invalid start - {byte}"
  | .methodSpecSignature byte => s!"SignatureMethodSpec - invalid start - {byte}"
  | .opcode value offset =>
    s!"Invalid opcode {Hex.upper 2 value.toNat} at IL_{Hex.lower 4 offset}"
  | .extendedOpcode value offset =>
    s!"Invalid opcode FE {Hex.upper 2 value.toNat} at IL_{Hex.lower 4 offset}"
  | .branchTarget target => s!"Branch target before the method start: {target}"
  | .emptyDeclaration line startColumn endColumn =>
    s!"Empty declaration span {startColumn}..{endColumn} on line {line}"
  | .pointOffset => "IL offset overflow in sequence points"
  | .pointLine line => s!"Negative line {line}"
  | .pointColumn column => s!"Negative column {column}"

/-- The failures of the file system that a command can meet. -/
inductive FileFailure where
  | notFound
  | exists
  | notDirectory
  | isDirectory
  | other (message : String)
  deriving DecidableEq, Repr

def FileFailure.message : FileFailure → String
  | .notFound => "No such file or directory (os error 2)"
  | .exists => "File exists (os error 17)"
  | .notDirectory => "Not a directory (os error 20)"
  | .isDirectory => "Is a directory (os error 21)"
  | .other message => message

/-- Names that are spelled through themselves are endless. They are no fault that is reported: on
them the program fills its stack and is stopped without a word. -/
inductive Fault where
  | malformed (damage : Damage)
  | outOfBounds
  | empty
  | container
  | file (failure : FileFailure)
  | unresolvedReference (reference : String)
  | noCodeView (path : String)
  | typeNotFound (name : String)
  | invalidSymbols (path reason : String)
  | recursionLimit (limit : Nat)
  | cancelled
  | endlessName
  deriving DecidableEq, Repr

def Fault.message : Fault → String
  | .malformed damage => s!"Malformed - {damage.message}"
  | .outOfBounds => "Out of Bound read would have occurred!"
  | .empty => "Provided input was empty"
  | .container => "The image container is invalid"
  | .file failure => failure.message
  | .unresolvedReference reference => s!"Unable to resolve reference '{reference}'"
  | .noCodeView path => s!"{path} has no CodeView debug entry"
  | .typeNotFound name => s!"Type '{name}' was not found in the module"
  | .invalidSymbols path reason => s!"Cannot use symbols from '{path}': {reason}"
  | .recursionLimit limit => s!"Reach the maximum recursion level allowed - {limit}"
  | .cancelled => "The operation was cancelled"
  | .endlessName => ""

/-- The messages of a fault and of what caused it. Faults that wrap another failure repeat its
message. -/
def Fault.chain (fault : Fault) : List String :=
  match fault with
  | .file _ => [fault.message, fault.message]
  | .container => [fault.message, fault.message]
  | _ => [fault.message]

end ClrDecompiler
