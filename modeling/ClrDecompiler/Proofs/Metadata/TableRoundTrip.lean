/-
This file shows that the reader of the tables finds in the stream of a builder the rows that
were added to the builder.
-/

import ClrDecompiler.Proofs.Metadata.TableReader
import ClrDecompiler.Proofs.Metadata.TableWriter
import ClrDecompiler.Proofs.Outcome

namespace ClrDecompiler.Metadata

open Read

/-- Two sizes that give the columns of a table the same widths. -/
def TableSizes.AgreeOn (sizes other : TableSizes) (table : TableId) : Prop :=
  ∀ column ∈ table.columns, sizes.isWide column = other.isWide column

section Agreement

variable {sizes other : TableSizes} {table : TableId} (agree : sizes.AgreeOn other table)

include agree

/-- Sizes that agree give a column the same width. -/
theorem TableSizes.AgreeOn.columnSize {column : Column} (listed : column ∈ table.columns) :
    sizes.columnSize column = other.columnSize column := by
  rw [TableSizes.columnSize, TableSizes.columnSize, agree column listed]

/-- What fits the columns with some sizes fits them with sizes that agree on the table. -/
theorem TableSizes.AgreeOn.fitsAll {raws : List UInt32}
    (fits : FitsAll sizes table.columns raws) : FitsAll other table.columns raws := by
  intro entry member
  have fit := fits entry member
  rw [Column.Fits, agree.columnSize (List.of_mem_zip member).1] at fit
  exact fit

/-- They encode rows alike. -/
theorem TableSizes.AgreeOn.encodeRow (raws : List UInt32) :
    encodeRow sizes table.columns raws = encodeRow other table.columns raws := by
  apply List.flatMap_congr
  intro entry member
  rw [Column.encode, Column.encode, agree.columnSize (List.of_mem_zip member).1]

/-- The rows of a table are encoded alike with sizes that agree on it. -/
theorem TableSizes.AgreeOn.encodeTable (builder : TableBuilder) :
    builder.encodeTable sizes table = builder.encodeTable other table := by
  apply List.flatMap_congr
  exact fun raws _ => agree.encodeRow raws

end Agreement

/-- Every row of a type is found by its number and says of its columns what was stored. -/
def TableStream.ShowsAs (stream : TableStream) (rowsOf : TableId → List (List UInt32)) (ρ : Type)
    [Row ρ] [TypedRow ρ] : Prop :=
  ∀ (index : Nat) (raws : List UInt32), (rowsOf (Row.table ρ))[index]? = some raws →
    ∃ table row, stream.table? (Row.table ρ) = .ok (some table) ∧
      table.rowCount = (rowsOf (Row.table ρ)).length ∧ table.row ρ (index + 1) = .ok row ∧
        List.Forall₂ Cell.Agrees (TypedRow.cells row) raws

/-- The stream has the given rows in each table: it is present exactly if there are any, and
every row is found by its number. -/
structure TableStream.Shows (stream : TableStream) (rowsOf : TableId → List (List UInt32)) :
    Prop where
  valid : ∀ slot, stream.valid.toNat.testBit slot = true ↔
    ∃ table : TableId, table.number = slot ∧ rowsOf table ≠ []
  summary : stream.summary = (TableId.all.filter fun table => rowsOf table ≠ []).map
    fun table => (table, (rowsOf table).length)
  absent : ∀ table, rowsOf table = [] → stream.table? table = .ok none
  rows : ∀ (ρ : Type) [Row ρ] [TypedRow ρ], stream.ShowsAs rowsOf ρ

/-- All rows of a table are read together. -/
theorem TableStream.Shows.rows_eq_ok {stream : TableStream}
    {rowsOf : TableId → List (List UInt32)} (shows : stream.Shows rowsOf) (ρ : Type) [Row ρ]
    [TypedRow ρ] : ∃ found, stream.rows ρ = .ok found ∧
      List.Forall₂ (fun entry raws => List.Forall₂ Cell.Agrees (TypedRow.cells entry.2) raws)
        found (rowsOf (Row.table ρ)) := by
  by_cases empty : rowsOf (Row.table ρ) = []
  · refine ⟨[], ?_, by rw [empty]; exact .nil⟩
    rw [TableStream.rows, shows.absent _ empty]
    rfl
  · obtain ⟨first, rest, same⟩ := List.exists_cons_of_ne_nil empty
    obtain ⟨table, _, present, counted, -⟩ := shows.rows ρ 0 first (by rw [same]; rfl)
    have each : ∀ index ∈ List.range table.rowCount, ∃ entry : Nat × ρ,
        (do return (index + 1, ← table.row ρ (index + 1)) : Except Fault (Nat × ρ)) = .ok entry ∧
          ∀ raws, (rowsOf (Row.table ρ))[index]? = some raws →
            List.Forall₂ Cell.Agrees (TypedRow.cells entry.2) raws := by
      intro index member
      rw [List.mem_range, counted] at member
      obtain ⟨other, row, again, -, read, agrees⟩ :=
        shows.rows ρ index _ (List.getElem?_eq_getElem member)
      cases present.symm.trans again
      refine ⟨(index + 1, row), by rw [read]; rfl, fun raws listed => ?_⟩
      cases (List.getElem?_eq_getElem member).symm.trans listed
      exact agrees
    obtain ⟨found, run, holds⟩ := Outcome.mapM_eq_ok_of_forall each
    refine ⟨found, ?_, ?_⟩
    · rw [TableStream.rows, present]
      exact run
    · rw [List.forall₂_iff_get] at holds ⊢
      obtain ⟨size, holds⟩ := holds
      rw [List.length_range, counted] at size
      refine ⟨size.symm, fun index foundInside rowInside => ?_⟩
      have inside : index < (List.range table.rowCount).length := by
        rw [List.length_range, counted]
        exact rowInside
      apply holds index inside foundInside
      rw [List.get_eq_getElem, List.getElem_range]
      exact List.getElem?_eq_getElem rowInside

/-- Every table has a column. -/
theorem TableId.columns_ne_nil (table : TableId) : table.columns ≠ [] := by
  cases table <;> exact List.cons_ne_nil _ _

/-- No row is empty. -/
theorem TableSizes.rowSize_pos (sizes : TableSizes) (table : TableId) :
    0 < sizes.rowSize table := by
  obtain ⟨column, rest, same⟩ := List.exists_cons_of_ne_nil table.columns_ne_nil
  have positive : 0 < sizes.columnSize column := by
    rw [TableSizes.columnSize]
    split <;> decide
  rw [TableSizes.rowSize, same, List.map_cons, List.foldr_cons]
  omega

namespace TableBuilder

variable (builder : TableBuilder) (strings guids blobs : Bytes)
  (external : List (TableId × Nat)) (sorted : UInt64)

/-- The sizes by which the reader reads, which know of no other image. -/
def readerSizes : TableSizes :=
  TableSizes.ofCounts (TableStream.countArray
    (builder.present.map fun table => (table.number, builder.rowCount table)))
      (heapFlags strings guids blobs)

/-- The reader counts the rows that were added. -/
theorem readerSizes_rowCount (table : TableId) :
    (builder.readerSizes strings guids blobs).rowCount table = builder.rowCount table :=
  builder.rowCount_ofCounts_countArray _ table

/-- The flag for extra data is never set. -/
theorem heapFlags_no_extra : heapFlags strings guids blobs &&& 0x40 = 0 := by
  simp only [heapFlags]
  split <;> split <;> split <;> decide

/-- The counts of the tables that are present are read back. -/
theorem yields_readCounts (count : TableId → Nat) (small : ∀ table, count table < 2 ^ 32)
    (tables : List TableId) (rest : List UInt8) :
    (TableStream.readCounts (tables.map TableId.number)).Yields
      ((tables.flatMap fun table => Bytes.littleEndian 4 (count table)) ++ rest)
      (tables.map fun table => (table.number, count table)) rest := by
  induction tables with
  | nil => exact yields_pure [] rest
  | cons table tables ih =>
    rw [List.map_cons, List.flatMap_cons, List.append_assoc]
    exact (yields_number 4 (small table) _).bind (ih.bind (yields_pure _ rest))

/-- The header of a stream is read back as the counts of its tables. -/
theorem yields_readHeader (numbered : ∀ table, builder.rowCount table < 2 ^ 32)
    (rest : List UInt8) :
    (TableStream.readHeader (maskOf builder.present) (heapFlags strings guids blobs)).Yields
      ((builder.present.flatMap fun table => Bytes.littleEndian 4 (builder.rowCount table)) ++ rest)
      (TableStream.countArray
        (builder.present.map fun table => (table.number, builder.rowCount table))) rest := by
  rw [TableStream.readHeader, slotsOf_maskOf_present]
  apply (yields_readCounts builder.rowCount numbered builder.present rest).bind
  rw [heapFlags_no_extra]
  exact yields_pure _ rest

/-- Four bytes are written for the count of every table that is present. -/
theorem counts_length : (builder.present.flatMap fun table =>
    Bytes.littleEndian 4 (builder.rowCount table)).length = 4 * builder.present.length := by
  simp [List.length_flatMap, Nat.mul_comm]

/-- The header takes 24 bytes and four for each table that is present. -/
theorem encodeHeader_length (flags : UInt8) :
    (builder.encodeHeader flags sorted).length = 24 + 4 * builder.present.length := by
  simp only [encodeHeader, List.length_append, List.length_cons, List.length_nil, counts_length,
    Bytes.littleEndian_length]
  omega

/-- The reader accepts the stream of the builder and knows where the tables lie. -/
theorem read_of_toList {data : Bytes} {padding : List UInt8}
    (numbered : ∀ table, builder.rowCount table < 2 ^ 32) (nonempty : builder.present ≠ [])
    (sized : ∀ table ∈ builder.present,
      (builder.encodeTable (builder.readerSizes strings guids blobs) table).length =
        TableStream.tableSize (builder.readerSizes strings guids blobs) table)
    (whole : data.toList = builder.encodeHeader (heapFlags strings guids blobs) sorted ++
      (builder.present.flatMap (builder.encodeTable (builder.readerSizes strings guids blobs)) ++
        padding)) :
    TableStream.read data = .ok
      { data, majorVersion := 2, minorVersion := 0, valid := maskOf builder.present
        sorted := sorted &&& maskOf builder.present
        sizes := builder.readerSizes strings guids blobs
        offsets := TableStream.placesOf (builder.readerSizes strings guids blobs) builder.present
          (builder.encodeHeader (heapFlags strings guids blobs) sorted).length } := by
  have headerSize := builder.encodeHeader_length sorted (heapFlags strings guids blobs)
  have size : data.size = 24 + 4 * builder.present.length +
      ((builder.present.map (TableStream.tableSize
        (builder.readerSizes strings guids blobs))).sum + padding.length) := by
    rw [← Array.length_toList, whole, List.length_append, List.length_append, headerSize,
      TableStream.length_flatMap_tables sized]
  have start : data.toList = [0, 0, 0, 0, 2, 0, heapFlags strings guids blobs, 1] ++
      (Bytes.littleEndian 8 (maskOf builder.present).toNat ++
        (Bytes.littleEndian 8 (sorted &&& maskOf builder.present).toNat ++
          ((builder.present.flatMap fun table => Bytes.littleEndian 4 (builder.rowCount table)) ++
            (builder.present.flatMap
              (builder.encodeTable (builder.readerSizes strings guids blobs)) ++ padding)))) := by
    rw [whole, encodeHeader]
    simp only [List.append_assoc]
  have major : data.byteAt? 4 = some 2 := Bytes.byteAt?_middle [0, 0, 0, 0] start
  have minor : data.byteAt? 5 = some 0 := Bytes.byteAt?_middle [0, 0, 0, 0, 2] start
  have flags : data.byteAt? 6 = some (heapFlags strings guids blobs) :=
    Bytes.byteAt?_middle [0, 0, 0, 0, 2, 0] start
  have valid : data.word64At? 8 = some (maskOf builder.present) := Bytes.word64At?_middle start
  rw [← List.append_assoc] at start
  have mask : data.word64At? 16 = some (sorted &&& maskOf builder.present) :=
    Bytes.word64At?_middle start
  rw [← List.append_assoc] at start
  have counts : (TableStream.readHeader (maskOf builder.present)
      (heapFlags strings guids blobs)).runAt data 24 = (.ok (TableStream.countArray
        (builder.present.map fun table => (table.number, builder.rowCount table))),
          24 + 4 * builder.present.length) := by
    rw [← counts_length]
    exact (builder.yields_readHeader strings guids blobs numbered _).runAt_append start
  have layout := TableStream.layOut_numbers (builder.readerSizes strings guids blobs)
    data.size builder.present (24 + 4 * builder.present.length) (by omega)
  have enough : ¬ data.size < 24 := by omega
  simp only [TableStream.read, if_neg enough, major, minor, flags, valid, mask,
    Bytes.orOutOfBounds]
  apply (if_neg (maskOf_ne_zero nonempty)).trans
  rw [slotsOf_maskOf_present, headerSize]
  simp only [counts, bind, Except.bind]
  rw [readerSizes] at layout ⊢
  rw [layout]
  rfl

/-- A table takes the size that the reader computes for it. -/
theorem encodeTable_length (sizes : TableSizes) {table : TableId}
    (counted : sizes.rowCount table = builder.rowCount table)
    (shaped : ∀ raws ∈ builder.rowsOf table, raws.length = table.columns.length) :
    (builder.encodeTable sizes table).length = TableStream.tableSize sizes table := by
  rw [TableStream.tableSize, counted, rowCount, encodeTable]
  generalize builder.rowsOf table = rows at shaped
  exact encodeRows_length sizes shaped

/-- A table is present exactly if rows were added to it. -/
theorem mem_present_iff_rowsOf {table : TableId} :
    table ∈ builder.present ↔ builder.rowsOf table ≠ [] := by
  rw [mem_present, rowCount, Ne, List.length_eq_zero_iff]

/-- The mask has the bits of the tables with rows. -/
theorem testBit_maskOf_present (table : TableId) :
    (maskOf builder.present).toNat.testBit table.number =
      decide (builder.rowsOf table ≠ []) := by
  rw [Bool.eq_iff_iff, testBit_maskOf_number, mem_present_iff_rowsOf, decide_eq_true_eq]

section Built

variable {strings guids blobs external sorted} {data : Bytes}
  (built : builder.build strings guids blobs external sorted = .ok data)

include built

/-- What is built fits its columns. -/
theorem fits_of_build : builder.Fits (builder.writerSizes strings guids blobs external) := by
  by_contra large
  obtain ⟨fault, refused⟩ :=
    (builder.build_error_iff strings guids blobs external sorted).mpr large
  rw [built] at refused
  cases refused

/-- Every row takes some bytes of the stream. -/
theorem rowCount_le_size (table : TableId)
    (shaped : ∀ raws ∈ builder.rowsOf table, raws.length = table.columns.length) :
    builder.rowCount table ≤ data.size := by
  by_cases present : table ∈ builder.present
  · have fits := builder.fits_of_build built
    obtain ⟨written, padding, same, whole⟩ :=
      builder.build_of_fits strings guids blobs external sorted fits
    cases built.symm.trans same
    have counted : (builder.writerSizes strings guids blobs external).rowCount table =
        builder.rowCount table := builder.rowCount_ofCounts_rowCounts _ (.inl present)
    have inside : (builder.encodeTable (builder.writerSizes strings guids blobs external)
        table).Sublist (builder.present.flatMap
          (builder.encodeTable (builder.writerSizes strings guids blobs external))) :=
      List.sublist_flatten_of_mem (List.mem_map_of_mem present)
    have size := inside.length_le
    rw [builder.encodeTable_length _ counted shaped, TableStream.tableSize, counted] at size
    rw [← Array.length_toList, whole, List.length_append, List.length_append]
    have some := Nat.le_mul_of_pos_right (builder.rowCount table)
      ((builder.writerSizes strings guids blobs external).rowSize_pos table)
    omega
  · rw [mem_present, not_not] at present
    rw [present]
    exact Nat.zero_le _

/-- A stream that is built can be put in front of others without a gap. -/
theorem build_size_mod_four : data.size % 4 = 0 := by
  obtain ⟨written, -, finished⟩ := Outcome.of_bind_eq_ok built
  cases finished
  rw [← Array.length_toList, Bytes.toList_padTo, List.length_append, List.length_replicate,
    Array.length_toList, Bytes.alignUp]
  omega

end Built

/-- Whatever the builder accepts is found in its stream. The builder may know of tables of
another image as long as they do not change the widths of its own tables. -/
theorem build_shows {data : Bytes}
    (numbered : ∀ table, builder.rowCount table < 2 ^ 32) (nonempty : builder.present ≠ [])
    (shaped : ∀ table, ∀ raws ∈ builder.rowsOf table, raws.length = table.columns.length)
    (tagged : ∀ table, ∀ raws ∈ builder.rowsOf table, IsTaggedAll table.columns raws)
    (agree : ∀ table ∈ builder.present, (builder.writerSizes strings guids blobs external).AgreeOn
      (builder.readerSizes strings guids blobs) table)
    (built : builder.build strings guids blobs external sorted = .ok data) :
    ∃ stream, TableStream.read data = .ok stream ∧ stream.Shows builder.rowsOf ∧
      stream.sorted = sorted &&& stream.valid := by
  have fits := builder.fits_of_build built
  obtain ⟨written, padding, same, whole⟩ :=
    builder.build_of_fits strings guids blobs external sorted fits
  cases built.symm.trans same
  have content : builder.present.flatMap
      (builder.encodeTable (builder.writerSizes strings guids blobs external)) =
        builder.present.flatMap (builder.encodeTable (builder.readerSizes strings guids blobs)) :=
    List.flatMap_congr fun table member => (agree table member).encodeTable builder
  rw [content] at whole
  have sized : ∀ table ∈ builder.present,
      (builder.encodeTable (builder.readerSizes strings guids blobs) table).length =
        TableStream.tableSize (builder.readerSizes strings guids blobs) table := fun table _ =>
    builder.encodeTable_length _ (builder.readerSizes_rowCount strings guids blobs table)
      (shaped table)
  refine ⟨_, builder.read_of_toList strings guids blobs sorted numbered nonempty sized whole,
    ⟨?_, ?_, ?_, ?_⟩, rfl⟩
  · intro slot
    rw [testBit_maskOf, List.mem_map]
    apply exists_congr
    intro table
    rw [and_comm, mem_present_iff_rowsOf]
  · have counted (table : TableId) :
        (builder.readerSizes strings guids blobs).rowCount table = (builder.rowsOf table).length :=
      builder.readerSizes_rowCount strings guids blobs table
    simp only [TableStream.summary, TableStream.rowCount, counted]
    exact congrArg (List.map _)
      (List.filter_congr fun table _ => builder.testBit_maskOf_present table)
  · intro table empty
    have outside : table ∉ builder.present :=
      mt builder.mem_present_iff_rowsOf.mp (not_not.mpr empty)
    simp only [TableStream.table?, TableStream.find?_placesOf_of_not_mem _ outside]
  · intro ρ _ _ index raws listed
    have member : raws ∈ builder.rowsOf (Row.table ρ) := List.mem_of_getElem? listed
    have present : Row.table ρ ∈ builder.present :=
      builder.mem_present_iff_rowsOf.mpr (List.ne_nil_of_mem member)
    have fit := (agree _ present).fitsAll (fits _ present raws member)
    obtain ⟨values, stores⟩ :=
      exists_storesAll _ (shaped _ raws member) fit (tagged _ raws member)
    refine ⟨_, ReadsColumns.ofValues values, TableStream.table?_eq_some whole rfl sized present, ?_,
      ?_, TypedRow.cells_agree stores⟩
    · exact builder.readerSizes_rowCount strings guids blobs _
    · have count := builder.readerSizes_rowCount strings guids blobs (Row.table ρ)
      rw [TableStream.rowCount, count, rowCount]
      exact Table.row_eq_ok (shaped _) listed fit stores

/-- An added row stands behind the rows of its table. -/
theorem addRow_eq_ok {builder after : TableBuilder} {table : TableId} {values : List UInt32}
    {number : Nat} (added : builder.addRow table values = .ok (number, after)) :
    values.length = table.columns.length ∧ number = builder.rowCount table + 1 ∧
      after.added = builder.added ++ [(table, values)] := by
  rw [addRow] at added
  by_cases shape : values.length = table.columns.length
  · rw [if_pos shape] at added
    cases added
    exact ⟨shape, rfl, rfl⟩
  · rw [if_neg shape] at added
    cases added

/-- A row is added to its own table only. -/
theorem rowsOf_addRow {builder after : TableBuilder} {table : TableId} {values : List UInt32}
    {number : Nat} (added : builder.addRow table values = .ok (number, after)) (other : TableId) :
    after.rowsOf other = builder.rowsOf other ++ if table = other then [values] else [] := by
  rw [rowsOf, rowsOf, (addRow_eq_ok added).2.2, List.filterMap_append]
  by_cases same : table = other
  · simp [same]
  · simp [same]

/-! A whole run of additions, from the empty builder on. -/

/-- The rows are added one after the other. -/
def addAll (rows : List (TableId × List UInt32)) : Except Fault TableBuilder :=
  rows.foldlM (fun builder row => Prod.snd <$> builder.addRow row.1 row.2) {}

/-- The rows of one table among the rows of all tables, in the order of their additions. -/
def passed (rows : List (TableId × List UInt32)) (table : TableId) : List (List UInt32) :=
  (rows.filter fun row => row.1 = table).map Prod.snd

/-- The rows of a table are those that were passed for it, in order. -/
theorem rowsOf_eq_passed (table : TableId) :
    builder.rowsOf table = passed builder.added table := by
  rw [rowsOf, passed]
  generalize builder.added = rows
  induction rows with
  | nil => rfl
  | cons row rest ih =>
    obtain ⟨owner, values⟩ := row
    by_cases same : owner = table <;> simp [same, ih]

/-- A run that succeeds keeps every row, and every row has the columns of its table. -/
theorem added_of_addAll {rows : List (TableId × List UInt32)} {builder : TableBuilder}
    (run : addAll rows = .ok builder) :
    builder.added = rows ∧ ∀ row ∈ rows, row.2.length = row.1.columns.length := by
  refine Outcome.foldlM_induction (motive := fun done builder =>
    builder.added = done ∧ ∀ row ∈ done, row.2.length = row.1.columns.length) ?_ ?_ run
  · rintro done builder row next ⟨kept, shapes⟩ step
    obtain ⟨⟨number, after⟩, added, rfl⟩ := Outcome.of_map_eq_ok step
    obtain ⟨shape, -, grown⟩ := addRow_eq_ok added
    refine ⟨by rw [grown, kept], ?_⟩
    rw [List.forall_mem_append, List.forall_mem_singleton]
    exact ⟨shapes, shape⟩
  · exact ⟨rfl, fun _ member => by cases member⟩

/-- The rows of a table are those that were passed for it, in order. -/
theorem rowsOf_of_addAll {rows : List (TableId × List UInt32)} {builder : TableBuilder}
    (run : addAll rows = .ok builder) : builder.rowsOf = passed rows := by
  funext table
  rw [rowsOf_eq_passed, (added_of_addAll run).1]

/-- A row is passed for the table that it was added to. -/
theorem mem_passed {rows : List (TableId × List UInt32)} {table : TableId}
    {raws : List UInt32} : raws ∈ passed rows table ↔ (table, raws) ∈ rows := by
  simp only [passed, List.mem_map, List.mem_filter, decide_eq_true_eq]
  constructor
  · rintro ⟨row, ⟨member, rfl⟩, rfl⟩
    exact member
  · exact fun member => ⟨(table, raws), ⟨member, rfl⟩, rfl⟩

/-- The rows of a run fit exactly if all that were passed do. -/
theorem fits_iff_of_addAll {rows : List (TableId × List UInt32)} {builder : TableBuilder}
    (run : addAll rows = .ok builder) (sizes : TableSizes) :
    builder.Fits sizes ↔ ∀ row ∈ rows, FitsAll sizes row.1.columns row.2 := by
  have kept := rowsOf_of_addAll run
  constructor
  · rintro fits ⟨table, raws⟩ member
    have inside : raws ∈ builder.rowsOf table := by
      rw [kept]
      exact mem_passed.mpr member
    exact fits table (builder.mem_present_iff_rowsOf.mpr (List.ne_nil_of_mem inside)) raws inside
  · intro fits table _ raws inside
    rw [kept] at inside
    exact fits (table, raws) (mem_passed.mp inside)

/-- Only the rows of each table have a bearing on the stream, not their interleaving. -/
theorem build_congr {other : TableBuilder} (same : other.rowsOf = builder.rowsOf) :
    other.build strings guids blobs external sorted =
      builder.build strings guids blobs external sorted := by
  have counts : other.rowCount = builder.rowCount := by
    funext table
    rw [rowCount, rowCount, same]
  have present : other.present = builder.present := by
    rw [TableBuilder.present, TableBuilder.present, counts]
  have append (sizes : TableSizes) : other.appendTable sizes = builder.appendTable sizes := by
    funext data table
    rw [appendTable, appendTable, same]
  have header (flags : UInt8) : other.header flags sorted = builder.header flags sorted := by
    rw [TableBuilder.header, TableBuilder.header, present, counts]
  rw [build, build, rowCounts, rowCounts, present, counts, header]
  simp only [append]

/-- Without another image the reader and the builder use the same widths. -/
theorem writerSizes_agreeOn_readerSizes (table : TableId) :
    (builder.writerSizes strings guids blobs []).AgreeOn
      (builder.readerSizes strings guids blobs) table := by
  have counts : (builder.writerSizes strings guids blobs []).rowCount =
      (builder.readerSizes strings guids blobs).rowCount := by
    funext table
    rw [readerSizes_rowCount]
    exact builder.rowCount_ofCounts_rowCounts _ (.inr List.not_mem_nil)
  have same : builder.writerSizes strings guids blobs [] =
      builder.readerSizes strings guids blobs :=
    congrArg (TableSizes.mk · _ _ _) counts
  exact fun column _ => congrArg (TableSizes.isWide · column) same

/-- The stream of a builder shows exactly the rows that were added to it, as every type of rows and
whatever the order of the tables was, and the builder refuses them only for a number that does not
fit its column. The rows of a table are counted with 32 bits. -/
theorem addAll_build_read {rows : List (TableId × List UInt32)} {builder : TableBuilder}
    (run : addAll rows = .ok builder) (nonempty : rows ≠ [])
    (numbered : ∀ table, (passed rows table).length < 2 ^ 32)
    (tagged : ∀ row ∈ rows, IsTaggedAll row.1.columns row.2)
    (strings guids blobs : Bytes) (sorted : UInt64) :
    ((∃ fault, builder.build strings guids blobs [] sorted = .error fault) ↔
      ∃ row ∈ rows, ¬ FitsAll (builder.writerSizes strings guids blobs []) row.1.columns row.2) ∧
    (∀ data, builder.build strings guids blobs [] sorted = .ok data →
      ∃ stream, TableStream.read data = .ok stream ∧ stream.Shows (passed rows) ∧
        (∀ kind ∈ RowType.all, stream.ShowsAs (passed rows) kind.type) ∧
        stream.sorted = sorted &&& stream.valid) ∧
    ∀ (reordered : List (TableId × List UInt32)) (other : TableBuilder),
      addAll reordered = .ok other → passed reordered = passed rows →
        other.build strings guids blobs [] sorted =
          builder.build strings guids blobs [] sorted := by
  obtain ⟨kept, shapes⟩ := added_of_addAll run
  have rowsOf := rowsOf_of_addAll run
  refine ⟨?_, ?_, ?_⟩
  · rw [build_error_iff, fits_iff_of_addAll run]
    simp only [not_forall, exists_prop]
  · intro data built
    rw [← rowsOf]
    refine Exists.imp (fun stream ⟨read, shows, mask⟩ =>
      ⟨read, shows, fun kind _ => shows.rows kind.type, mask⟩)
      (builder.build_shows strings guids blobs [] sorted ?_ ?_ ?_ ?_
        (fun table _ => builder.writerSizes_agreeOn_readerSizes strings guids blobs table) built)
    · intro table
      rw [rowCount, rowsOf]
      exact numbered table
    · obtain ⟨row, member⟩ := List.exists_mem_of_ne_nil rows nonempty
      have inside : row.2 ∈ builder.rowsOf row.1 := by
        rw [rowsOf]
        exact mem_passed.mpr member
      exact List.ne_nil_of_mem (builder.mem_present_iff_rowsOf.mpr (List.ne_nil_of_mem inside))
    · intro table raws inside
      rw [rowsOf] at inside
      exact shapes _ (mem_passed.mp inside)
    · intro table raws inside
      rw [rowsOf] at inside
      exact tagged _ (mem_passed.mp inside)
  · intro reordered other otherRun same
    apply build_congr
    rw [rowsOf_of_addAll otherRun, same, rowsOf]

instance (columns : List Column) (raws : List UInt32) : Decidable (IsTaggedAll columns raws) :=
  inferInstanceAs (Decidable (∀ entry ∈ columns.zip raws, entry.1.IsTagged entry.2))

instance (sizes : TableSizes) (columns : List Column) (raws : List UInt32) :
    Decidable (FitsAll sizes columns raws) :=
  inferInstanceAs
    (Decidable (∀ entry ∈ columns.zip raws, entry.2.toNat < 256 ^ sizes.columnSize entry.1))

/-- A reference to a type of another assembly, between two constructed types. Both types of rows are
read back. -/
theorem addAll_build_read_three :
    let rows : List (TableId × List UInt32) :=
      [(.typeSpec, [3]), (.typeRef, [6, 1, 9]), (.typeSpec, [7])]
    ∃ builder data stream, addAll rows = .ok builder ∧
      builder.build #[0] #[] #[0] [] 0xFFFFFFFF = .ok data ∧ TableStream.read data = .ok stream ∧
        stream.Shows (passed rows) ∧ stream.sorted = 0xFFFFFFFF &&& stream.valid ∧
        (∃ table row, stream.table? .typeRef = .ok (some table) ∧
          table.row TypeRefRow 1 = .ok row ∧
          List.Forall₂ Cell.Agrees (TypedRow.cells row) [6, 1, 9]) ∧
        ∃ table row, stream.table? .typeSpec = .ok (some table) ∧
          table.row TypeSpecRow 2 = .ok row ∧
          List.Forall₂ Cell.Agrees (TypedRow.cells row) [7] := by
  intro rows
  have numbered (table : TableId) : (passed rows table).length < 2 ^ 32 := by
    rw [passed, List.length_map]
    exact Nat.lt_of_le_of_lt (List.length_filter_le _ _) (by decide)
  have run : addAll rows = .ok ⟨rows⟩ := rfl
  have fits : ∀ row ∈ rows, FitsAll (TableBuilder.writerSizes ⟨rows⟩ #[0] #[] #[0] [])
      row.1.columns row.2 := by
    decide +kernel
  obtain ⟨refuses, reads, -⟩ := addAll_build_read run (by decide) numbered (by decide) #[0] #[] #[0]
    0xFFFFFFFF
  cases built : TableBuilder.build ⟨rows⟩ #[0] #[] #[0] [] 0xFFFFFFFF with
  | error fault =>
    obtain ⟨row, member, large⟩ := refuses.mp ⟨fault, built⟩
    exact absurd (fits row member) large
  | ok data =>
    obtain ⟨stream, read, shows, kinds, sorted⟩ := reads data built
    have references : stream.ShowsAs (passed rows) TypeRefRow :=
      kinds ⟨TypeRefRow⟩ (by simp [RowType.all])
    have constructed : stream.ShowsAs (passed rows) TypeSpecRow :=
      kinds ⟨TypeSpecRow⟩ (by simp [RowType.all])
    obtain ⟨typeRefs, reference, referencesRead, -, referenceRead, agree⟩ :=
      references 0 [6, 1, 9] rfl
    obtain ⟨typeSpecs, last, typeSpecsRead, -, lastRead, lastAgree⟩ := constructed 1 [7] rfl
    exact ⟨_, data, stream, run, built, read, shows, sorted,
      ⟨typeRefs, reference, referencesRead, referenceRead, agree⟩,
      typeSpecs, last, typeSpecsRead, lastRead, lastAgree⟩

end TableBuilder

end ClrDecompiler.Metadata
