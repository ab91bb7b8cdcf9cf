/-
This file shows that the reader of debug symbols finds in the symbols of a module what the
builder put into them: the documents of its sources and the declarations of its methods.
-/

import ClrDecompiler.Proofs.Metadata.RootRoundTrip
import ClrDecompiler.Proofs.Symbols.Draft
import ClrDecompiler.Symbols.DebugInfo

namespace ClrDecompiler.Symbols

open Metadata Source

/-- The point that covers a declaration in a source. -/
def pointOf (declared : Nat × Span) : SequencePoint :=
  declarationPoint declared.1 declared.2.line declared.2.startColumn declared.2.endColumn

/-- A method has one point, which covers its last declaration, or none. -/
def expectedPoints (sources : List Document) (row : UInt32) : List SequencePoint :=
  ((declaration? sources row).map pointOf).toList

/-- The streams of symbols in their order. -/
def streamsOf (header tables blobs : Bytes) : List (String × Bytes) :=
  [("#Pdb", header), ("#~", tables), ("#Strings", #[0]), ("#US", #[0]),
    ("#GUID", Draft.guids.data), ("#Blob", blobs)]

theorem toList_headerStream (id : Bytes) (entryPoint : UInt32) (external : List (TableId × Nat)) :
    ∃ rest, (headerStream id entryPoint external).toList =
      id.toList ++ (Bytes.littleEndian 4 entryPoint.toNat ++ rest) := by
  have grows (entries : List (TableId × Nat)) (data : Bytes) : ∃ rest,
      (entries.foldl (fun data entry => data.appendNumber 4 entry.2) data).toList =
        data.toList ++ rest := by
    induction entries generalizing data with
    | nil => exact ⟨[], (List.append_nil _).symm⟩
    | cons entry others ih =>
      obtain ⟨rest, whole⟩ := ih (data.appendNumber 4 entry.2)
      rw [Bytes.toList_appendNumber, List.append_assoc] at whole
      exact ⟨_, whole⟩
  obtain ⟨rest, whole⟩ := grows external
    ((id.appendWord32 entryPoint).appendWord64 (TableBuilder.maskOf (external.map (·.1))))
  rw [Bytes.appendWord64, Bytes.appendWord32, Bytes.toList_appendNumber, Bytes.toList_appendNumber,
    List.append_assoc, List.append_assoc] at whole
  exact ⟨_, whole⟩

/-- The identifier and the token of the entry point stand at the start of their stream. -/
theorem read_headerStream (id : Bytes) (entryPoint : UInt32) (external : List (TableId × Nat)) :
    Bytes.slice? (Bytes.padded (headerStream id entryPoint external).toList).toArray 0 id.size =
        some id ∧
      Bytes.word32At? (Bytes.padded (headerStream id entryPoint external).toList).toArray id.size =
        some entryPoint := by
  obtain ⟨rest, whole⟩ := toList_headerStream id entryPoint external
  obtain ⟨zeros, padded⟩ : ∃ zeros, Bytes.padded (headerStream id entryPoint external).toList =
      (headerStream id entryPoint external).toList ++ zeros := ⟨_, rfl⟩
  have start : Bytes.padded (headerStream id entryPoint external).toList =
      [] ++ (id.toList ++ (Bytes.littleEndian 4 entryPoint.toNat ++ (rest ++ zeros))) := by
    rw [padded, whole, List.append_assoc, List.append_assoc, List.nil_append]
  have point : Bytes.word32At? _ id.toList.length = _ :=
    Bytes.word32At?_middle entryPoint.toNat_lt start
  rw [UInt32.ofNat_toNat] at point
  exact ⟨Bytes.slice?_middle start, point⟩

section Reading

variable {stream : TableStream} {rowsOf : TableId → List (List UInt32)} {heap : BlobHeap}
  {sources : List Document} (shows : stream.Shows rowsOf) (small : heap.data.size < UInt32.size)
  (few : sources.length < UInt32.size)

include small

/-- The name of a stored document is read back. -/
theorem StoresDocument.get {raws : List UInt32} {entry : String × Document} {row : DocumentRow}
    (stores : StoresDocument heap.data.toList raws entry)
    (cells : List.Forall₂ Cell.Agrees (TypedRow.cells row) raws) :
    DocumentName.get heap row.name.toNat = .ok entry.1 := by
  obtain ⟨name, hash, rfl, named, -⟩ := stores
  obtain ⟨same, -⟩ := List.forall₂_cons.mp cells
  change UInt32.ofNat name = row.name at same
  have inside : name < UInt32.size := Nat.lt_trans named.index_lt small
  rw [← same, UInt32.toNat_ofNat_of_lt' inside]
  exact named.get

include few

/-- The points of a stored method are read back. -/
theorem StoresMethod.readPoints {raws : List UInt32} {method : Nat}
    {row : MethodDebugInformationRow} (stores : StoresMethod heap.data.toList sources raws method)
    (cells : List.Forall₂ Cell.Agrees (TypedRow.cells row) raws) :
    DebugInfo.readPoints heap row = .ok (expectedPoints sources (UInt32.ofNat method)) := by
  cases stores with
  | absent none =>
    obtain ⟨-, tail⟩ := List.forall₂_cons.mp cells
    obtain ⟨same, -⟩ := List.forall₂_cons.mp tail
    change 0 = row.points at same
    rw [DebugInfo.readPoints, if_pos same.symm, expectedPoints, none]
    rfl
  | @present _ document index span points last written stores nonzero =>
    obtain ⟨sameDocument, tail⟩ := List.forall₂_cons.mp cells
    obtain ⟨samePoints, -⟩ := List.forall₂_cons.mp tail
    change UInt32.ofNat document = row.document at sameDocument
    change UInt32.ofNat index = row.points at samePoints
    obtain ⟨known, counted⟩ := mem_declarations (mem_declarations_of_declaration? last)
    have documentInside : document < UInt32.size := Nat.lt_of_le_of_lt counted few
    have indexInside : index < UInt32.size := Nat.lt_trans stores.index_lt small
    have written? : row.points ≠ 0 := by
      intro zero
      apply nonzero
      rw [← UInt32.toNat_ofNat_of_lt' indexInside, samePoints, zero]
      rfl
    rw [DebugInfo.readPoints, if_neg written?, ← samePoints, ← sameDocument,
      UInt32.toNat_ofNat_of_lt' indexInside, UInt32.toNat_ofNat_of_lt' documentInside, stores.get,
      expectedPoints, last]
    exact decode_declarationPoints written known

omit few

include shows

/-- The documents are read back in order. -/
theorem readDocuments_eq_ok {entries : List (String × Document)}
    (stored : List.Forall₂ (StoresDocument heap.data.toList) (rowsOf .document) entries) :
    DebugInfo.readDocuments stream heap = .ok (entries.map Prod.fst) := by
  obtain ⟨found, read, agree⟩ := shows.rows_eq_ok DocumentRow
  rw [DebugInfo.readDocuments, read]
  apply Outcome.mapM_eq_ok_of_forall₂ agree
  rw [List.forall₂_map_right_iff]
  exact stored.imp fun raws entry stores (_, row) cells => stores.get small cells

include few

/-- The methods are read back in order. -/
theorem readMethods_eq_ok {rows : List Nat} (stored : List.Forall₂
      (StoresMethod heap.data.toList sources) (rowsOf .methodDebugInformation) rows) :
    ∃ found, stream.rows MethodDebugInformationRow = .ok found ∧
      found.mapM (fun (_, row) => DebugInfo.readPoints heap row) =
        .ok (rows.map fun row => expectedPoints sources (UInt32.ofNat row)) := by
  obtain ⟨found, read, agree⟩ := shows.rows_eq_ok MethodDebugInformationRow
  refine ⟨found, read, ?_⟩
  apply Outcome.mapM_eq_ok_of_forall₂ agree
  rw [List.forall₂_map_right_iff]
  exact stored.imp fun raws method stores (_, row) cells => stores.readPoints small few cells

end Reading

section Tables

theorem StoresDocument.shaped {data : List UInt8} {raws : List UInt32} {entry : String × Document}
    (stores : StoresDocument data raws entry) :
    raws.length = TableId.document.columns.length ∧ IsTaggedAll TableId.document.columns raws := by
  obtain ⟨name, hash, rfl, -⟩ := stores
  refine ⟨rfl, ?_⟩
  simp [IsTaggedAll, TableId.columns, Column.IsTagged]

theorem StoresMethod.shaped {data : List UInt8} {sources : List Document} {raws : List UInt32}
    {row : Nat} (stores : StoresMethod data sources raws row) :
    raws.length = TableId.methodDebugInformation.columns.length ∧
      IsTaggedAll TableId.methodDebugInformation.columns raws := by
  cases stores <;> simp [IsTaggedAll, TableId.columns, Column.IsTagged]

variable {draft : Draft} {entries : List (String × Document)} {rows : List Nat}
  (holds : draft.Holds entries rows)

include holds

/-- The rows of a draft have the columns of their tables. -/
theorem Draft.Holds.shaped (table : TableId) : ∀ raws ∈ draft.tables.rowsOf table,
    raws.length = table.columns.length ∧ IsTaggedAll table.columns raws := by
  by_cases isDocument : table = .document
  · subst isDocument
    exact ((List.forall₂_and_left _ _).mp
      (holds.documents.imp fun _ _ stores => ⟨stores.shaped, stores⟩)).1
  · by_cases isMethod : table = .methodDebugInformation
    · subst isMethod
      exact ((List.forall₂_and_left _ _).mp
        (holds.methods.imp fun _ _ stores => ⟨stores.shaped, stores⟩)).1
    · rw [holds.others table isDocument isMethod]
      exact fun _ member => absurd member List.not_mem_nil

/-- The tables of the module do not change the widths of the tables of its symbols. -/
theorem Draft.Holds.agreeOn (module : Module) (strings guids blobs : Bytes) :
    ∀ table ∈ draft.tables.present,
      (draft.tables.writerSizes strings guids blobs (externalRows module)).AgreeOn
        (draft.tables.readerSizes strings guids blobs) table := by
  have foreign : TableId.document ∉ (externalRows module).map Prod.fst := by
    intro member
    obtain ⟨entry, listed, same⟩ := List.mem_map.mp member
    rw [externalRows, List.mem_mergeSort, List.mem_filter, Bool.and_eq_true, decide_eq_true_eq,
      same] at listed
    exact Nat.lt_irrefl _ listed.2.1
  have counted : (draft.tables.writerSizes strings guids blobs (externalRows module)).rowCount
      .document = (draft.tables.readerSizes strings guids blobs).rowCount .document := by
    rw [TableBuilder.readerSizes_rowCount]
    exact draft.tables.rowCount_ofCounts_rowCounts _ (.inr foreign)
  intro table present column listed
  have debug : table = .document ∨ table = .methodDebugInformation := by
    by_contra other
    rw [not_or] at other
    exact draft.tables.mem_present_iff_rowsOf.mp present (holds.others table other.1 other.2)
  rcases debug with rfl | rfl
  · simp only [TableId.columns, List.mem_cons, List.not_mem_nil, or_false] at listed
    rcases listed with rfl | rfl | rfl | rfl <;> rfl
  · simp only [TableId.columns, List.mem_cons, List.not_mem_nil, or_false] at listed
    rcases listed with rfl | rfl
    · rw [TableSizes.isWide, TableSizes.isWide, TableSizes.isWideRow, TableSizes.isWideRow, counted]
    · rfl

/-- The tables are empty unless there is a source or a method. -/
theorem Draft.Holds.present_ne_nil_iff :
    draft.tables.present ≠ [] ↔ entries ≠ [] ∨ rows ≠ [] := by
  have sources : draft.tables.rowsOf .document ≠ [] ↔ entries ≠ [] := by
    rw [← List.length_pos_iff, ← List.length_pos_iff, holds.documents.length_eq]
  have listed : draft.tables.rowsOf .methodDebugInformation ≠ [] ↔ rows ≠ [] := by
    rw [← List.length_pos_iff, ← List.length_pos_iff, holds.methods.length_eq]
  rw [← sources, ← listed]
  constructor
  · intro present
    obtain ⟨table, member⟩ := List.exists_mem_of_ne_nil _ present
    by_contra neither
    rw [not_or] at neither
    refine draft.tables.mem_present_iff_rowsOf.mp member (holds.others table ?_ ?_)
    · exact fun same => neither.1 (same ▸ draft.tables.mem_present_iff_rowsOf.mp member)
    · exact fun same => neither.2 (same ▸ draft.tables.mem_present_iff_rowsOf.mp member)
  · rintro (stored | stored)
    · exact List.ne_nil_of_mem (draft.tables.mem_present_iff_rowsOf.mpr stored)
    · exact List.ne_nil_of_mem (draft.tables.mem_present_iff_rowsOf.mpr stored)

/-- The tables of a draft are shown by the stream that is built from them. -/
theorem Draft.Holds.shows {module : Module} {strings guids blobs data : Bytes}
    (present : draft.tables.present ≠ []) (small : data.size < UInt32.size)
    (built : draft.tables.build strings guids blobs (externalRows module) 0 = .ok data) :
    ∃ stream, TableStream.read data = .ok stream ∧ stream.Shows draft.tables.rowsOf := by
  have shaped (table : TableId) : ∀ raws ∈ draft.tables.rowsOf table,
      raws.length = table.columns.length :=
    fun raws member => (holds.shaped table raws member).1
  have numbered (table : TableId) : draft.tables.rowCount table < 2 ^ 32 :=
    Nat.lt_of_le_of_lt (draft.tables.rowCount_le_size built table (shaped table)) small
  obtain ⟨stream, read, shows, -⟩ := draft.tables.build_shows strings guids blobs _ 0 numbered
    present shaped (fun table raws member => (holds.shaped table raws member).2)
    (holds.agreeOn module strings guids blobs) built
  exact ⟨stream, read, shows⟩

theorem Draft.Holds.ofBytes_blobs :
    BlobHeap.ofBytes (Bytes.padded draft.blobs.data.toList).toArray =
      .ok ⟨(Bytes.padded draft.blobs.data.toList).toArray⟩ := by
  obtain ⟨rest, start⟩ := holds.sound.start
  rw [BlobHeap.ofBytes, if_pos]
  rw [Bytes.padded, start]
  rfl

end Tables

section Streams

variable {header tables blobs image : Bytes}
  (whole : image.toList = Root.encoding formatVersion (streamsOf header tables blobs))

include whole

/-- The streams of an image are found under their names. -/
theorem read_streams (small : image.size < UInt32.size) : ∃ root, Root.read image = .ok root ∧
    root.streamData? image "#Pdb" = some (Bytes.padded header.toList).toArray ∧
    root.tablesData? image = some (Bytes.padded tables.toList).toArray ∧
    root.streamData? image "#Blob" = some (Bytes.padded blobs.toList).toArray := by
  have named : ∀ stream ∈ streamsOf header tables blobs, Root.IsStreamName stream.1 := by
    simp only [streamsOf, List.forall_mem_cons, Root.IsStreamName]
    decide
  have few : (streamsOf header tables blobs).length ≤ Root.maxStreams :=
    show 6 ≤ 16 by decide
  obtain ⟨root, read, listed⟩ : ∃ root, Root.read image = .ok root ∧ root.streams =
      Root.headers (Root.headerSize formatVersion (streamsOf header tables blobs))
        (streamsOf header tables blobs) :=
    ⟨_, Root.read_encoding small (by decide) (List.cons_ne_nil _ _) few named whole, rfl⟩
  refine ⟨root, read, ?_, ?_, ?_⟩
  · exact Root.streamData?_encoding [] small List.not_mem_nil listed whole
  · have found := Root.streamData?_encoding [("#Pdb", header)] small (by simp) listed
      whole
    rw [Root.tablesData?, found]
    rfl
  · exact Root.streamData?_encoding [("#Pdb", header), ("#~", tables),
      ("#Strings", #[0]), ("#US", #[0]), ("#GUID", Draft.guids.data)] small (by simp) listed
      whole

/-- A stream is no larger than the symbols that it is a part of. -/
theorem stream_size_lt (small : image.size < UInt32.size) (stream : String × Bytes)
    (listed : stream ∈ streamsOf header tables blobs) :
    (Bytes.padded stream.2.toList).toArray.size < UInt32.size := by
  rw [List.size_toArray]
  exact Nat.lt_of_le_of_lt (Root.padded_length_le listed whole) small

/-- The symbols start with another byte than the symbols that are native to Windows. -/
theorem not_windowsMagic : DebugInfo.windowsMagic.isPrefixOf image.toList = false := by
  have magic : DebugInfo.windowsMagic.head? = some 0x4D := by decide +kernel
  obtain ⟨rest, first⟩ : ∃ rest, image.toList = 0x42 :: rest := by
    rw [whole]
    exact ⟨_, rfl⟩
  rw [first]
  cases same : DebugInfo.windowsMagic with
  | nil => rw [same] at magic; cases magic
  | cons byte others =>
    rw [same] at magic
    cases magic
    rfl

end Streams

/-- The symbols of a module are made from sources, each with its path: their tables and blobs are
those of a draft that holds the sources and the methods of the module. -/
def IsMadeFrom (image header : Bytes) (module : Module) (entries : List (String × Document)) :
    Prop :=
  ∃ draft tables,
    Draft.Holds draft entries ((List.range (module.rowCount .methodDef)).map (· + 1)) ∧
    draft.tables.build #[0] Draft.guids.data draft.blobs.data (externalRows module) 0 = .ok tables ∧
    image.toList = Root.encoding formatVersion (streamsOf header tables draft.blobs.data)

/-- What a successful run of the builder has done. -/
theorem build_eq_ok {module : Module} {render : TypeQuery → Except Fault Document} {image : Bytes}
    (built : build module render = .ok image) :
    ∃ id entries, module.codeView?.bind (·.symbolsId?) = some id ∧
      List.Forall₂ (Draft.IsRendered render module) (Project.sourcePaths module) entries ∧
      IsMadeFrom image (headerStream id ((module.entryPoint.map (·.value)).getD 0)
        (externalRows module)) module entries := by
  rw [build] at built
  cases identified : module.codeView?.bind (·.symbolsId?) with
  | none =>
    rw [identified] at built
    cases built
  | some id =>
    rw [identified] at built
    obtain ⟨_, known, built⟩ := Outcome.of_bind_eq_ok built
    cases known
    obtain ⟨started, typed, built⟩ := Outcome.of_bind_eq_ok built
    obtain ⟨draft, added, built⟩ := Outcome.of_bind_eq_ok built
    obtain ⟨tables, tabled, built⟩ := Outcome.of_bind_eq_ok built
    obtain ⟨entries, rendered, holds⟩ := Draft.addTypes_holds typed
    exact ⟨id, entries, rfl, rendered, draft, tables, Draft.addMethods_holds holds added, tabled,
      Root.build_eq_ok built⟩

/-- The reader finds the streams of symbols, and in them what was put into the rows. -/
def IsReadBack (path : String) (image id : Bytes) (entries : List (String × Document))
    (rows : List Nat) : Prop :=
  rows.length < UInt32.size ∧ ∃ root header, Root.read image = .ok root ∧
    root.streamData? image "#Pdb" = some header ∧
    DebugInfo.readPortable path root image header = .ok
      { path, format := .portable, id := some id, documents := entries.map Prod.fst
        methods := (rows.map fun row =>
          expectedPoints (entries.map Prod.snd) (UInt32.ofNat row)).toArray }

section Composition

variable {draft : Draft} {entries : List (String × Document)} {rows : List Nat} {module : Module}
  {id tables image : Bytes} {entryPoint : UInt32}
  (holds : draft.Holds entries rows) (sized : id.size = DebugInfo.idSize)
  (nonempty : rows ≠ []) (small : image.size < UInt32.size)
  (tabled : draft.tables.build #[0] Draft.guids.data draft.blobs.data (externalRows module) 0 =
    .ok tables)
  (whole : image.toList = Root.encoding formatVersion
    (streamsOf (headerStream id entryPoint (externalRows module)) tables draft.blobs.data))

include holds sized small tabled whole

/-- Every stream is found again, and the rows in it refer to what the draft holds. -/
theorem readPortable_of_present (present : draft.tables.present ≠ []) (path : String) :
    IsReadBack path image id entries rows := by
  obtain ⟨root, read, headerFound, tablesFound, blobsFound⟩ := read_streams whole small
  have unpadded : (Bytes.padded tables.toList).toArray = tables := by
    rw [Bytes.padded_of_aligned (TableBuilder.build_size_mod_four _ tabled)]
  have tablesSmall := stream_size_lt whole small ("#~", tables) (by simp [streamsOf])
  have blobsSmall := stream_size_lt whole small ("#Blob", draft.blobs.data) (by simp [streamsOf])
  rw [unpadded] at tablesSmall tablesFound
  obtain ⟨stream, tablesRead, shows⟩ := holds.shows present tablesSmall tabled
  have counted (table : TableId) : (draft.tables.rowsOf table).length < UInt32.size :=
    Nat.lt_of_le_of_lt (draft.tables.rowCount_le_size tabled table
      fun raws member => (holds.shaped table raws member).1) tablesSmall
  have fewRows : rows.length < UInt32.size := by
    rw [← holds.methods.length_eq]
    exact counted _
  have fewSources : (entries.map Prod.snd).length < UInt32.size := by
    rw [List.length_map, ← holds.documents.length_eq]
    exact counted _
  obtain ⟨zeros, padded⟩ : ∃ zeros, Bytes.padded draft.blobs.data.toList =
      draft.blobs.data.toList ++ zeros := ⟨_, rfl⟩
  obtain ⟨documentsStored, methodsStored⟩ := holds.append zeros
  rw [← padded] at documentsStored methodsStored
  have heap := holds.ofBytes_blobs
  have documents : DebugInfo.readDocuments stream
      ⟨(Bytes.padded draft.blobs.data.toList).toArray⟩ = .ok (entries.map Prod.fst) :=
    readDocuments_eq_ok shows blobsSmall documentsStored
  obtain ⟨found, listed, points⟩ :=
    @readMethods_eq_ok stream _ ⟨_⟩ _ shows blobsSmall fewSources rows methodsStored
  refine ⟨fewRows, root, _, read, headerFound, ?_⟩
  obtain ⟨identifier, point⟩ := read_headerStream id entryPoint (externalRows module)
  rw [sized] at identifier point
  rw [DebugInfo.readPortable]
  simp only [identifier, point, blobsFound, tablesFound, tablesRead, heap, documents, listed,
    points, Option.getD_some, Bytes.orOutOfBounds, bind, Except.bind, pure, Except.pure]

include nonempty in
/-- An image of a draft is read back as its documents and points. -/
theorem readPortable_eq_ok (path : String) :
    IsReadBack path image id entries rows :=
  readPortable_of_present holds sized small tabled whole
    (holds.present_ne_nil_iff.mpr (.inr nonempty)) path

end Composition

/-- The documents are named for the paths of their types. -/
theorem paths_of_rendered {render : TypeQuery → Except Fault Document} {module : Module}
    {types : List (String × TypeDefinition)} {entries : List (String × Document)}
    (rendered : List.Forall₂ (Draft.IsRendered render module) types entries) :
    entries.map Prod.fst = types.map Prod.fst := by
  induction rendered with
  | nil => rfl
  | cons head tail ih => rw [List.map_cons, List.map_cons, head.1, ih]

/-- The sources are the results of the renderings. -/
theorem sources_of_rendered {render : TypeQuery → Except Fault Document} {module : Module}
    {types : List (String × TypeDefinition)} {entries : List (String × Document)}
    (rendered : List.Forall₂ (Draft.IsRendered render module) types entries) :
    (entries.map Prod.snd).map some = types.map fun type =>
      (render (TypeQuery.ofText (module.reflectionName type.2))).toOption := by
  induction rendered with
  | nil => rfl
  | cons head tail ih =>
    rw [List.map_cons, List.map_cons, List.map_cons, head.2, ih]
    rfl

/-- The symbols that are built for a module are read back: their identifier, a document for each
source in the order of the sources, and for each method its last declaration or nothing. An
identifier has twenty bytes, as `Module.symbolsId?_size_of_load` shows of every loaded module. -/
theorem build_read {module : Module} {render : TypeQuery → Except Fault Document}
    {id image : Bytes} (identified : module.codeView?.bind (·.symbolsId?) = some id)
    (sized : id.size = DebugInfo.idSize) (methods : 0 < module.rowCount .methodDef)
    (built : build module render = .ok image) (small : image.size < 2 ^ 32) (path : String) :
    module.rowCount .methodDef < 2 ^ 32 ∧ ∃ entries,
      List.Forall₂ (Draft.IsRendered render module) (Project.sourcePaths module) entries ∧
      DebugInfo.ofBytes path image = .ok
        { path, format := .portable, id := some id
          documents := (Project.sourcePaths module).map Prod.fst
          methods := ((List.range (module.rowCount .methodDef)).map fun index =>
            expectedPoints (entries.map Prod.snd) (UInt32.ofNat (index + 1))).toArray } := by
  obtain ⟨same, entries, found, rendered, draft, tables, holds, tabled, whole⟩ := build_eq_ok built
  cases identified.symm.trans found
  have nonempty : (List.range (module.rowCount .methodDef)).map (· + 1) ≠ [] := by
    intro empty
    rw [List.map_eq_nil_iff, List.range_eq_nil] at empty
    omega
  obtain ⟨few, root, header, read, headed, portable⟩ :=
    readPortable_eq_ok holds sized nonempty small tabled whole path
  rw [List.length_map, List.length_range] at few
  rw [paths_of_rendered rendered, List.map_map] at portable
  refine ⟨few, entries, rendered, ?_⟩
  have native : ¬ DebugInfo.windowsMagic.isPrefixOf image.toList = true := by
    rw [not_windowsMagic whole]
    exact Bool.false_ne_true
  rw [DebugInfo.ofBytes, if_neg native, read]
  simp only [headed, portable]
  rfl

def soleMethod : MethodDefinition where
  token := ⟨0x06000002⟩
  name := "M"
  flags := 6
  implementation := 0
  address := 0
  signature := ⟨true, false, false, 0, ⟨false, .void⟩, []⟩
  params := []
  genericParams := []
  body := none

/-- A module with one type, two methods and an identifier of its symbols. -/
def soleModule : Module where
  image := ⟨#[], 0, 0, ⟨0, 0, []⟩, []⟩
  path := "a"
  name := "a"
  mvid := none
  runtimeVersion := ""
  identity := none
  references := []
  framework := ⟨.netCore, [8, 0]⟩
  debugEntries := [⟨0, 0, 0, 2, 0, 0, 0, some ⟨Array.replicate 16 7, 1, "a.pdb"⟩⟩]
  entryPoint := none
  tableRows := [(.methodDef, 2)]
  types := #[⟨⟨0x02000001⟩, 1, "", "C", .classType, none, [], [], [], [soleMethod], none, []⟩]
  typeRefs := #[]
  typeSpecs := #[]
  memberRefs := #[]
  methodSpecs := #[]
  localSignatures := #[]
  fieldConstants := []
  userStrings := #[]

/-- Only the second method has a declaration. -/
def soleRender : TypeQuery → Except Fault Document :=
  fun _ => .ok ⟨"void M();", [⟨⟨0x06000002⟩, 1, 1, 10⟩]⟩

theorem build_read_sole : ∃ image symbols, build soleModule soleRender = .ok image ∧
    DebugInfo.ofBytes "a.pdb" image = .ok symbols ∧ symbols.documents = ["C.cs"] ∧
      symbols.methods = #[[], [declarationPoint 1 1 1 10]] := by
  have accepted : ((build soleModule soleRender).toOption.any
      fun image => decide (image.size < 2 ^ 32)) = true := by decide +kernel
  cases built : build soleModule soleRender with
  | error fault =>
    rw [built] at accepted
    cases accepted
  | ok image =>
    rw [built] at accepted
    have small : image.size < 2 ^ 32 := of_decide_eq_true accepted
    obtain ⟨-, entries, rendered, read⟩ :=
      build_read rfl (by decide) (by decide) built small "a.pdb"
    have paths : (Project.sourcePaths soleModule).map Prod.fst = ["C.cs"] := by decide +kernel
    have sources : entries.map Prod.snd = [⟨"void M();", [⟨⟨0x06000002⟩, 1, 1, 10⟩]⟩] := by
      apply List.map_injective_iff.mpr (Option.some_injective _)
      rw [sources_of_rendered rendered]
      decide +kernel
    refine ⟨image, _, rfl, read, paths, ?_⟩
    rw [sources]
    decide +kernel

end ClrDecompiler.Symbols
