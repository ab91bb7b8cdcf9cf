/-
This file computes the bytes that the builder of the tables writes, and when it refuses to.
-/

import ClrDecompiler.Proofs.Metadata.Column
import ClrDecompiler.Proofs.Metadata.Mask

namespace ClrDecompiler.Metadata

/-- The step appends the bytes of an entry to the data, unless the entry does not fit. -/
structure Appends {α : Type} (step : Bytes → α → Except Fault Bytes) (fits : α → Prop)
    (encode : α → List UInt8) : Prop where
  accepts : ∀ (data : Bytes) (entry : α), fits entry → step data entry = .ok (data ++ encode entry)
  refuses : ∀ (data : Bytes) (entry : α), ¬ fits entry → ∃ fault, step data entry = .error fault

/-- A list of entries is appended one entry after the other. -/
theorem Appends.foldlM {α : Type} {step : Bytes → α → Except Fault Bytes} {fits : α → Prop}
    {encode : α → List UInt8} (appends : Appends step fits encode) :
    Appends (fun data (entries : List α) => entries.foldlM step data)
      (fun entries => ∀ entry ∈ entries, fits entry) (fun entries => entries.flatMap encode) where
  accepts data entries all := by
    induction entries generalizing data with
    | nil => simp [pure, Except.pure]
    | cons entry rest ih =>
      rw [List.forall_mem_cons] at all
      rw [List.foldlM_cons, appends.accepts data entry all.1]
      refine (ih _ all.2).trans (congrArg Except.ok (Array.toList_inj.mp ?_))
      simp [List.append_assoc]
  refuses data entries some := by
    induction entries generalizing data with
    | nil => exact absurd (fun _ member => by cases member) some
    | cons entry rest ih =>
      rw [List.foldlM_cons]
      by_cases fit : fits entry
      · rw [appends.accepts data entry fit]
        refine ih _ fun all => some ?_
        exact List.forall_mem_cons.mpr ⟨fit, all⟩
      · obtain ⟨fault, refused⟩ := appends.refuses data entry fit
        exact ⟨fault, by rw [refused]; rfl⟩

namespace TableBuilder

variable (builder : TableBuilder) (sizes : TableSizes)

/-- A number is appended with the width of its column or refused because it does not fit. -/
theorem appends_appendIndex (column : Column) (raw : UInt32) (data : Bytes) :
    (column.Fits sizes raw →
      data.appendIndex raw (sizes.isWide column) = .ok (data ++ column.encode sizes raw)) ∧
    (¬ column.Fits sizes raw →
      ∃ fault, data.appendIndex raw (sizes.isWide column) = .error fault) := by
  rw [Column.Fits, Column.encode, TableSizes.columnSize, Bytes.appendIndex]
  cases sizes.isWide column with
  | true => exact ⟨fun _ => rfl, fun large => absurd raw.toNat_lt large⟩
  | false =>
    refine ⟨fun small => ?_, fun large => ?_⟩
    · exact if_pos small
    · exact ⟨_, if_neg large⟩

/-- A value is written with the width of its column. -/
theorem appends_appendValue :
    Appends (fun data (entry : Column × UInt32) => appendValue sizes data entry.1 entry.2)
      (fun entry => entry.1.Fits sizes entry.2) (fun entry => entry.1.encode sizes entry.2) where
  accepts data entry fits := by
    obtain ⟨column, raw⟩ := entry
    cases column with
    | word16 => exact if_pos fits
    | word32 => rfl
    | string | guid | blob | row | coded => exact (appends_appendIndex sizes _ raw data).1 fits
  refuses data entry large := by
    obtain ⟨column, raw⟩ := entry
    cases column with
    | word16 => exact ⟨_, if_neg large⟩
    | word32 => exact absurd raw.toNat_lt large
    | string | guid | blob | row | coded => exact (appends_appendIndex sizes _ raw data).2 large

/-- A row is appended exactly if all its numbers fit. -/
theorem appends_appendRow (table : TableId) :
    Appends (fun data values => appendRow sizes data table values) (FitsAll sizes table.columns)
      (encodeRow sizes table.columns) where
  accepts data values := (appends_appendValue sizes).foldlM.accepts data (table.columns.zip values)
  refuses data values := (appends_appendValue sizes).foldlM.refuses data (table.columns.zip values)

/-- The bytes of the rows of a table. -/
def encodeTable (table : TableId) : List UInt8 :=
  (builder.rowsOf table).flatMap (encodeRow sizes table.columns)

/-- Every number of every row fits its column. -/
def Fits : Prop :=
  ∀ table ∈ builder.present, ∀ raws ∈ builder.rowsOf table, FitsAll sizes table.columns raws

/-- A table is appended exactly if all its rows fit. -/
theorem appends_appendTable :
    Appends (builder.appendTable sizes)
      (fun table => ∀ raws ∈ builder.rowsOf table, FitsAll sizes table.columns raws)
      (builder.encodeTable sizes) where
  accepts data table := (appends_appendRow sizes table).foldlM.accepts data (builder.rowsOf table)
  refuses data table := (appends_appendRow sizes table).foldlM.refuses data (builder.rowsOf table)

/-- The header as a list of bytes. -/
def encodeHeader (flags : UInt8) (sorted : UInt64) : List UInt8 :=
  [0, 0, 0, 0, 2, 0, flags, 1] ++ (Bytes.littleEndian 8 (maskOf builder.present).toNat ++
    (Bytes.littleEndian 8 (sorted &&& maskOf builder.present).toNat ++
      builder.present.flatMap fun table => Bytes.littleEndian 4 (builder.rowCount table)))

/-- The header is encoded with the mask and the counts of the tables. -/
theorem toList_header (flags : UInt8) (sorted : UInt64) :
    (builder.header flags sorted).toList = builder.encodeHeader flags sorted := by
  have counts (tables : List TableId) (data : Bytes) :
      (tables.foldl (fun data table => data.appendNumber 4 (builder.rowCount table)) data).toList =
        data.toList ++
          tables.flatMap fun table => Bytes.littleEndian 4 (builder.rowCount table) := by
    induction tables generalizing data with
    | nil => simp
    | cons table rest ih =>
      rw [List.foldl_cons, ih, Bytes.toList_appendNumber, List.append_assoc, List.flatMap_cons]
  rw [header, counts, encodeHeader, Bytes.appendWord64, Bytes.appendWord64,
    Bytes.toList_appendNumber, Bytes.toList_appendNumber]
  simp only [List.append_assoc]

variable (strings guids blobs : Bytes) (external : List (TableId × Nat)) (sorted : UInt64)

/-- The sizes by which the builder writes. -/
def writerSizes : TableSizes :=
  TableSizes.ofCounts (builder.rowCounts external) (heapFlags strings guids blobs)

/-- The stream is the header and the tables, padded to a multiple of four bytes. -/
theorem build_of_fits (fits : builder.Fits (builder.writerSizes strings guids blobs external)) :
    ∃ data padding, builder.build strings guids blobs external sorted = .ok data ∧
      data.toList = builder.encodeHeader (heapFlags strings guids blobs) sorted ++
        (builder.present.flatMap
          (builder.encodeTable (builder.writerSizes strings guids blobs external)) ++ padding) := by
  have written := (builder.appends_appendTable _).foldlM.accepts
    (builder.header (heapFlags strings guids blobs) sorted) _ fits
  have padded := Bytes.toList_padTo (builder.header (heapFlags strings guids blobs) sorted ++
    builder.present.flatMap
      (builder.encodeTable (builder.writerSizes strings guids blobs external))) 4
  rw [Array.toList_appendList, toList_header, List.append_assoc] at padded
  exact ⟨_, _, congrArg (· >>= fun (data : Bytes) => pure (data.padTo 4)) written, padded⟩

/-- The builder refuses nothing but a number that does not fit its column. -/
theorem build_error_iff :
    (∃ fault, builder.build strings guids blobs external sorted = .error fault) ↔
      ¬ builder.Fits (builder.writerSizes strings guids blobs external) := by
  constructor
  · rintro ⟨fault, refused⟩ fits
    obtain ⟨data, _, written, -⟩ := builder.build_of_fits strings guids blobs external sorted fits
    rw [written] at refused
    cases refused
  · intro large
    obtain ⟨fault, refused⟩ := (builder.appends_appendTable _).foldlM.refuses
      (builder.header (heapFlags strings guids blobs) sorted) _ large
    refine ⟨fault, ?_⟩
    rw [build]
    exact congrArg (· >>= fun (data : Bytes) => pure (data.padTo 4)) refused

end TableBuilder

end ClrDecompiler.Metadata
