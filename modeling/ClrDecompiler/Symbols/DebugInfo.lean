/-
This file reads debug symbols: the source documents of a module and the sequence points
of its methods.
-/

import ClrDecompiler.Metadata.Root
import ClrDecompiler.Metadata.TableStream
import ClrDecompiler.Symbols.DocumentName
import ClrDecompiler.Symbols.SequencePoint

namespace ClrDecompiler.Symbols

open Metadata

inductive Format where
  | portable
  | windows
  deriving DecidableEq, Repr

/-- The points of the methods are listed by the rows of the methods. -/
structure DebugInfo where
  path : String
  format : Format
  id : Option Bytes
  documents : List String
  methods : Array (List SequencePoint)

namespace DebugInfo

def pointsOf (symbols : DebugInfo) (method : Token) : List SequencePoint :=
  match method.row.toNat with
  | 0 => []
  | index + 1 => symbols.methods[index]?.getD []

/-- The name of a document that a sequence point refers to. -/
def documentName? (symbols : DebugInfo) : Nat → Option String
  | 0 => none
  | index + 1 => symbols.documents[index]?

def description (symbols : DebugInfo) : String :=
  let kind := match symbols.format with
    | .portable => "portable PDB"
    | .windows => "Windows PDB"
  kind ++ " " ++ symbols.path

/-- The first bytes of the symbols that are native to Windows. -/
def windowsMagic : List UInt8 :=
  (Utf8.encode "Microsoft C/C++ MSF 7.00\r\n\x1aDS").toList ++ [0, 0, 0]

def idSize : Nat := 20

def readDocuments (tables : TableStream) (blobs : BlobHeap) : Except Fault (List String) := do
  let rows ← tables.rows DocumentRow
  rows.mapM fun (_, row) => DocumentName.get blobs row.name.toNat

/-- A method without a blob has no points. -/
def readPoints (blobs : BlobHeap) (row : MethodDebugInformationRow) :
    Except Fault (List SequencePoint) :=
  if row.points = 0 then .ok []
  else do SequencePoint.decode (← blobs.get row.points.toNat) row.document.toNat

/-- The identifier stands at the start of its stream, before the token of the entry point. -/
def readPortable (path : String) (root : Root) (data header : Bytes) : Except Fault DebugInfo := do
  let id ← match header.slice? 0 idSize with
    | some id => pure id
    | none => throw (.invalidSymbols path "truncated #Pdb stream")
  let _ ← Bytes.orOutOfBounds (header.word32At? idSize)
  let blobs ← BlobHeap.ofBytes ((root.streamData? data "#Blob").getD #[0])
  let tables ← match root.tablesData? data with
    | some tables => TableStream.read tables
    | none => throw (.invalidSymbols path "metadata without a tables stream")
  let documents ← readDocuments tables blobs
  let rows ← tables.rows MethodDebugInformationRow
  let methods ← rows.mapM fun (_, row) => readPoints blobs row
  return { path, format := .portable, id := some id, documents, methods := methods.toArray }

/-- Faults of the symbols name the file that they come from. -/
def blame (path : String) : Fault → Fault
  | .invalidSymbols path reason => .invalidSymbols path reason
  | fault => .invalidSymbols path fault.message

def ofBytes (path : String) (data : Bytes) : Except Fault DebugInfo :=
  if windowsMagic.isPrefixOf data.toList then
    .ok { path, format := .windows, id := none, documents := [], methods := #[] }
  else match Root.read data with
    | .error fault => .error (.invalidSymbols path ("unknown format (" ++ fault.message ++ ")"))
    | .ok root => match root.streamData? data "#Pdb" with
      | none => .error (.invalidSymbols path "metadata without a #Pdb stream")
      | some header => (readPortable path root data header).mapError (blame path)

end DebugInfo

end ClrDecompiler.Symbols
