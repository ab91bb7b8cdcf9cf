/-
This file builds portable symbols that map the methods of a module to their declarations
in rendered source.
-/

import ClrDecompiler.Digest.Sha256
import ClrDecompiler.Metadata.RootBuilder
import ClrDecompiler.Metadata.TableBuilder
import ClrDecompiler.Project.SourcePath
import ClrDecompiler.Symbols.DocumentName

namespace ClrDecompiler.Symbols

open Metadata Source

/-- The identifier of the digest of documents, 8829d00f-11b8-4213-878b-770e8597ac16. -/
def digestGuid : Bytes :=
  #[0x0F, 0xD0, 0x29, 0x88, 0xB8, 0x11, 0x13, 0x42, 0x87, 0x8B, 0x77, 0x0E, 0x85, 0x97, 0xAC, 0x16]

/-- The identifier of C#, 3f5162f8-07c6-11d3-9053-00c04fa302a1. -/
def languageGuid : Bytes :=
  #[0xF8, 0x62, 0x51, 0x3F, 0xC6, 0x07, 0xD3, 0x11, 0x90, 0x53, 0x00, 0xC0, 0x4F, 0xA3, 0x02, 0xA1]

def formatVersion : String := "PDB v1.0"

/-- The only sequence point of a method covers its declaration on one line: no signature of
local variables, no offset, no further lines, the width, the line and the column. -/
def declarationPoints (line startColumn endColumn : Nat) : Except Fault Bytes :=
  if endColumn ≤ startColumn then
    .error (.malformed (.emptyDeclaration line startColumn endColumn))
  else
    [0, 0, 0, endColumn - startColumn, line, startColumn].foldlM Compressed.appendUnsigned #[]

/-- The heaps and rows so far, with the document and the points of every method that was
found. Later methods stand first. -/
structure Draft where
  blobs : BlobHeapBuilder := {}
  tables : TableBuilder := {}
  points : List (UInt32 × Nat × Bytes) := []

namespace Draft

def guids : GuidHeapBuilder :=
  ⟨[digestGuid, languageGuid]⟩

/-- The identifiers in the heap by which a document row names digest and language. -/
def digestIndex : UInt32 := 1
def languageIndex : UInt32 := 2

def addSpan (draft : Draft) (document : Nat) (span : Span) : Except Fault Draft := do
  let points ← declarationPoints span.line span.startColumn span.endColumn
  return { draft with points := (span.method.row, document, points) :: draft.points }

/-- A document with its name, its digest and the declarations in it. -/
def addDocument (draft : Draft) (path : String) (source : Document) : Except Fault Draft := do
  let (name, blobs) ← DocumentName.add draft.blobs path
  let (hash, blobs) ← blobs.add (Digest.Sha256.hash (Utf8.encode source.text))
  let values := [UInt32.ofNat name, digestIndex, UInt32.ofNat hash, languageIndex]
  let (document, tables) ← draft.tables.addRow .document values
  source.spans.foldlM (fun draft span => draft.addSpan document span)
    { draft with blobs, tables }

/-- The row of a method. A method without a declaration refers to no document. -/
def addMethod (draft : Draft) (row : Nat) : Except Fault Draft := do
  match draft.points.lookup (UInt32.ofNat row) with
  | some (document, points) =>
    let (index, blobs) ← draft.blobs.add points
    let values := [UInt32.ofNat document, UInt32.ofNat index]
    let (_, tables) ← draft.tables.addRow .methodDebugInformation values
    return { draft with blobs, tables }
  | none =>
    let (_, tables) ← draft.tables.addRow .methodDebugInformation [0, 0]
    return { draft with tables }

/-- Every type is rendered by its name. -/
def addTypes (render : TypeQuery → Except Fault Document) (module : Module) (draft : Draft) :
    Except Fault Draft :=
  (Project.sourcePaths module).foldlM (fun draft (path, definition) => do
    let source ← render (TypeQuery.ofText (module.reflectionName definition))
    draft.addDocument path source) draft

def addMethods (module : Module) (draft : Draft) : Except Fault Draft :=
  (List.range (module.rowCount .methodDef)).foldlM
    (fun draft index => draft.addMethod (index + 1)) draft

end Draft

/-- The tables of the module that symbols can refer to, in the order of their numbers. -/
def externalRows (module : Module) : List (TableId × Nat) :=
  let isReferable (entry : TableId × Nat) : Bool :=
    entry.1.number < TableId.document.number && 0 < entry.2
  (module.tableRows.filter isReferable).mergeSort fun first second =>
    first.1.number ≤ second.1.number

/-- The identifier, the entry point and the row counts of the module. -/
def headerStream (id : Bytes) (entryPoint : UInt32) (external : List (TableId × Nat)) : Bytes :=
  external.foldl (fun data (_, count) => data.appendNumber 4 count)
    ((id.appendWord32 entryPoint).appendWord64 (TableBuilder.maskOf (external.map (·.1))))

/-- The symbols of a module whose types are rendered in the given way. -/
def build (module : Module) (render : TypeQuery → Except Fault Document) : Except Fault Bytes := do
  let id ← match module.codeView?.bind (·.symbolsId?) with
    | some id => pure id
    | none => throw (.noCodeView module.fileName)
  let draft ← Draft.addTypes render module {}
  let draft ← draft.addMethods module
  let external := externalRows module
  let header := headerStream id ((module.entryPoint.map (·.value)).getD 0) external
  let strings : StringHeapBuilder := {}
  let users : UserStringHeapBuilder := {}
  let guids := Draft.guids.data
  let tables ← draft.tables.build strings.data guids draft.blobs.data external 0
  Root.build formatVersion [("#Pdb", header), ("#~", tables), ("#Strings", strings.data),
    ("#US", users.data), ("#GUID", guids), ("#Blob", draft.blobs.data)]

end ClrDecompiler.Symbols
