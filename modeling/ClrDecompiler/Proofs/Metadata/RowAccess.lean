/-
This file shows that every row of an accepted stream of tables has bytes of its own. A row is
taken from exactly these bytes, and it is refused only for a tag that stands for no table.
-/

import ClrDecompiler.Proofs.Bytes.Locality
import ClrDecompiler.Proofs.Bytes.Recognition
import ClrDecompiler.Proofs.Metadata.Limits
import ClrDecompiler.Proofs.Metadata.TableReader
import Mathlib.Data.List.Pairwise

namespace ClrDecompiler

namespace Read

variable {α β : Type}

/-- Where the step succeeds, it stops so many bytes further. -/
def Advances (step : Read α) (count : Nat) : Prop :=
  ∀ data position value after,
    step.runAt data position = (.ok value, after) → after = position + count

theorem advances_pure (value : α) : (pure value : Read α).Advances 0 := by
  intro data position found after run
  cases run
  rfl

theorem advances_liftM (outcome : Except Fault α) : (liftM outcome : Read α).Advances 0 := by
  intro data position value after run
  rw [runAt_liftM] at run
  cases run
  rfl

/-- Steps that follow one another advance by their sum. -/
theorem Advances.bind {step : Read α} {next : α → Read β} {count more : Nat}
    (first : step.Advances count) (second : ∀ value, (next value).Advances more) :
    (step >>= next).Advances (count + more) := by
  intro data position result after run
  obtain ⟨value, middle, head, tail⟩ := of_runAt_bind run
  rw [second value _ _ _ _ tail, first _ _ _ _ head, Nat.add_assoc]

/-- A number is read past its width. -/
theorem advances_map_number (make : Nat → α) (width : Nat) :
    (make <$> number width).Advances width := by
  intro data position value after run
  rw [← ended_eq_ok] at run
  by_cases inside : position + width ≤ data.size
  · rw [ended_map_number make inside] at run
    cases run
    rfl
  · rw [ended_map_number_outside make (Nat.lt_of_not_le inside)] at run
    cases run

/-- An index advances by its width. -/
theorem advances_index (wide : Bool) : (index wide).Advances (if wide then 4 else 2) := by
  cases wide with
  | true => exact advances_map_number UInt32.ofNat 4
  | false =>
    have both : (UInt16.toUInt32 <$> UInt16.ofNat <$> number 2).Advances 2 := by
      rw [Functor.map_map]
      exact advances_map_number _ 2
    exact both

end Read

namespace Metadata

section Columns

variable (sizes : TableSizes)

/-- The reader of a column advances by the size of the column. -/
theorem Column.advances_read (column : Column) :
    (column.read sizes).Advances (sizes.columnSize column) := by
  cases column with
  | word16 => exact Read.advances_map_number UInt16.ofNat 2
  | word32 => exact Read.advances_map_number UInt32.ofNat 4
  | string | guid | blob | row => exact Read.advances_index _
  | coded kind => exact (Read.advances_index _).bind fun _ => Read.advances_liftM _

/-- The readers of the columns advance by the sum of their sizes. -/
theorem advances_readValues (columns : List Column) :
    (readValues sizes columns).Advances ((columns.map sizes.columnSize).foldr (· + ·) 0) := by
  induction columns with
  | nil => exact Read.advances_pure ()
  | cons column rest ih =>
    exact (column.advances_read sizes).bind fun value => ih.bind fun values =>
      Read.advances_pure (value, values)

/-- Every reader of rows takes the size that the columns of its table add up to. -/
theorem advances_read (ρ : Type) [Row ρ] [ReadsColumns ρ] :
    (Row.read sizes : Read ρ).Advances (sizes.rowSize (Row.table ρ)) := by
  intro data position row after run
  rw [(ReadsColumns.agrees sizes).runAt_eq_ok, map_eq_pure_bind] at run
  exact ((advances_readValues sizes _).bind fun _ => Read.advances_pure _) _ _ _ _ run

/-! Any bytes are the numbers of a row. Only their tags can refuse them. -/

/-- Any bytes of the size of a column spell a number that fits it. -/
theorem Column.exists_encode (column : Column) {bytes : List UInt8}
    (size : bytes.length = sizes.columnSize column) :
    ∃ raw, column.Fits sizes raw ∧ column.encode sizes raw = bytes := by
  have small : sizes.columnSize column ≤ 4 := by
    rw [TableSizes.columnSize]
    split <;> decide
  have below := Bytes.ofLittleEndian_lt bytes
  have word : Bytes.ofLittleEndian bytes < 4294967296 :=
    Nat.lt_of_lt_of_le below (size ▸ Nat.pow_le_pow_right (n := 256) (by decide) small)
  have same : (UInt32.ofNat (Bytes.ofLittleEndian bytes)).toNat = Bytes.ofLittleEndian bytes :=
    UInt32.toNat_ofNat_of_lt' word
  refine ⟨UInt32.ofNat (Bytes.ofLittleEndian bytes), ?_, ?_⟩
  · rw [Column.Fits, same, ← size]
    exact below
  · rw [Column.encode, same, ← size]
    exact Bytes.littleEndian_ofLittleEndian bytes

/-- Any bytes of the size of a row spell numbers for its columns. -/
theorem exists_encodeRow {columns : List Column} {bytes : List UInt8}
    (size : bytes.length = (columns.map sizes.columnSize).foldr (· + ·) 0) :
    ∃ raws, raws.length = columns.length ∧ FitsAll sizes columns raws ∧
      encodeRow sizes columns raws = bytes := by
  induction columns generalizing bytes with
  | nil => exact ⟨[], rfl, fun _ member => absurd member List.not_mem_nil,
      (List.length_eq_zero_iff.mp size).symm⟩
  | cons column rest ih =>
    rw [List.map_cons, List.foldr_cons] at size
    have head : (bytes.take (sizes.columnSize column)).length = sizes.columnSize column :=
      List.length_take_of_le (by omega)
    have tail : (bytes.drop (sizes.columnSize column)).length =
        (rest.map sizes.columnSize).foldr (· + ·) 0 := by
      rw [List.length_drop]
      omega
    obtain ⟨raw, fits, first⟩ := column.exists_encode sizes head
    obtain ⟨raws, shape, others, later⟩ := ih tail
    refine ⟨raw :: raws, congrArg Nat.succ shape, ?_, ?_⟩
    · rw [FitsAll, List.zip_cons_cons, List.forall_mem_cons]
      exact ⟨fits, others⟩
    · rw [encodeRow, List.zip_cons_cons, List.flatMap_cons, first]
      exact (congrArg _ later).trans (List.take_append_drop _ _)

/-- A number whose tag has no candidate is refused. -/
theorem Column.fails_read {column : Column} {raw : UInt32} (fits : column.Fits sizes raw)
    (untagged : ¬ column.IsTagged raw) (rest : List UInt8) :
    (column.read sizes).Fails (column.encode sizes raw ++ rest) .outOfBounds := by
  cases column with
  | word16 | word32 | string | guid | blob | row => exact absurd trivial untagged
  | coded kind =>
    have outside : kind.candidates.length ≤ raw.toNat % 2 ^ kind.tagBits :=
      Nat.le_of_not_lt untagged
    have refused : kind.decode raw = .error .outOfBounds := by
      rw [CodedKind.decode, Nat.one_shiftLeft, List.getElem?_eq_none outside]
    apply (yields_index fits rest).bind_fails
    rw [refused]
    exact Read.fails_throw _ _

/-- A row is refused at the first such number. -/
theorem fails_readValues {columns : List Column} {raws : List UInt32}
    (shape : raws.length = columns.length) (fits : FitsAll sizes columns raws)
    (untagged : ¬ IsTaggedAll columns raws) (rest : List UInt8) :
    (readValues sizes columns).Fails (encodeRow sizes columns raws ++ rest) .outOfBounds := by
  induction columns generalizing raws with
  | nil => exact absurd (fun _ member => absurd member List.not_mem_nil) untagged
  | cons column columns ih =>
    cases raws with
    | nil => cases shape
    | cons raw others =>
      rw [FitsAll, List.zip_cons_cons, List.forall_mem_cons] at fits
      rw [IsTaggedAll, List.zip_cons_cons, List.forall_mem_cons] at untagged
      rw [encodeRow, List.zip_cons_cons, List.flatMap_cons, List.append_assoc]
      by_cases tagged : column.IsTagged raw
      · obtain ⟨value, stores⟩ := Column.exists_stores sizes fits.1 tagged
        have later := ih (Nat.succ.inj shape) fits.2 fun all => untagged ⟨tagged, all⟩
        exact (Column.yields_read sizes stores fits.1 _).bind_fails later.bind
      · exact (Column.fails_read sizes fits.1 tagged _).bind

end Columns

/-- What the bytes of a row give: the numbers that they spell, unless one of these has a tag
without a candidate. -/
inductive Decodes (ρ : Type) [Row ρ] [ReadsColumns ρ] (sizes : TableSizes) (bytes : List UInt8) :
    Except Fault ρ → Prop where
  | taken {raws : List UInt32} {values : Values (Row.table ρ).columns}
      (fits : FitsAll sizes (Row.table ρ).columns raws)
      (encoded : encodeRow sizes (Row.table ρ).columns raws = bytes)
      (stores : StoresAll (Row.table ρ).columns raws values) :
      Decodes ρ sizes bytes (.ok (ReadsColumns.ofValues values))
  | refused {raws : List UInt32} (shape : raws.length = (Row.table ρ).columns.length)
      (fits : FitsAll sizes (Row.table ρ).columns raws)
      (encoded : encodeRow sizes (Row.table ρ).columns raws = bytes)
      (untagged : ¬ IsTaggedAll (Row.table ρ).columns raws) :
      Decodes ρ sizes bytes (.error .outOfBounds)

/-- The reader of a row gives what the bytes of the row stand for, wherever they are. -/
theorem decodes_read (ρ : Type) [Row ρ] [ReadsColumns ρ] (sizes : TableSizes) {data : Bytes}
    {before bytes rest : List UInt8} (whole : data.toList = before ++ (bytes ++ rest))
    (size : bytes.length = sizes.rowSize (Row.table ρ)) :
    Decodes ρ sizes bytes ((Row.read sizes : Read ρ).runAt data before.length).1 := by
  obtain ⟨raws, shape, fits, encoded⟩ := exists_encodeRow sizes size
  rw [← encoded] at whole
  by_cases tagged : IsTaggedAll (Row.table ρ).columns raws
  · obtain ⟨values, stores⟩ := exists_storesAll sizes shape fits tagged
    rw [runAt_read_row stores fits whole]
    exact .taken fits encoded stores
  · obtain ⟨used, fails⟩ := fails_readValues sizes shape fits tagged rest
    rw [(ReadsColumns.agrees sizes).outcome, map_eq_pure_bind,
      fails.bind_error.2 data before whole]
    exact .refused shape fits encoded tagged

namespace TableStream

/-- A table that is known by a number has this number. -/
theorem number_of_ofNumber? {slot : Nat} {table : TableId}
    (known : TableId.ofNumber? slot = some table) : table.number = slot :=
  eq_of_beq (List.find?_some (p := fun table : TableId => table.number == slot) known)

/-- The tables follow one another inside the stream. -/
structure Laid (sizes : TableSizes) (size offset : Nat) (tables : List TableId)
    (places : List (TableId × Nat)) : Prop where
  tables : places.map Prod.fst = tables
  inside : ∀ place ∈ places, offset ≤ place.2 ∧ place.2 + tableSize sizes place.1 ≤ size
  ordered : places.Pairwise fun first second => first.2 + tableSize sizes first.1 ≤ second.2

/-- The layout puts the known tables one after the other into the data. -/
theorem laid_of_layOut {sizes : TableSizes} {size offset : Nat} {slots : List Nat}
    {unknown : Option Nat} {places : List (TableId × Nat)}
    (run : layOut sizes size slots offset unknown = .ok places) :
    Laid sizes size offset (slots.filterMap TableId.ofNumber?) places := by
  induction slots generalizing offset unknown places with
  | nil =>
    cases run
    exact ⟨rfl, fun _ member => absurd member List.not_mem_nil, .nil⟩
  | cons slot rest ih =>
    unfold layOut at run
    split at run
    · next none_known =>
      rw [List.filterMap_cons_none none_known]
      exact ih run
    · cases run
    · next table known =>
      dsimp only at run
      split at run
      · cases run
      · next fits =>
        obtain ⟨others, later, run⟩ := Outcome.of_bind_eq_ok run
        cases run
        have behind := ih later
        have stop : offset + tableSize sizes table ≤ size := Nat.le_of_not_lt fits
        rw [List.filterMap_cons_some known]
        refine ⟨congrArg _ behind.tables, ?_, .cons ?_ behind.ordered⟩
        · rw [List.forall_mem_cons]
          refine ⟨⟨Nat.le_refl _, stop⟩, fun place member => ?_⟩
          obtain ⟨after, within⟩ := behind.inside place member
          exact ⟨Nat.le_of_add_right_le after, within⟩
        · exact fun place member => (behind.inside place member).1

/-- The tables of an accepted stream lie one after the other inside its data. -/
theorem laid_of_read {data : Bytes} {stream : TableStream}
    (run : TableStream.read data = .ok stream) :
    ∃ offset, Laid stream.sizes stream.data.size offset
      ((slotsOf stream.valid).filterMap TableId.ofNumber?) stream.offsets := by
  obtain ⟨-, run⟩ := Outcome.of_guard_eq_ok run
  obtain ⟨major, -, run⟩ := Outcome.of_bind_eq_ok run
  obtain ⟨minor, -, run⟩ := Outcome.of_bind_eq_ok run
  obtain ⟨heapFlags, -, run⟩ := Outcome.of_bind_eq_ok run
  obtain ⟨valid, -, run⟩ := Outcome.of_bind_eq_ok run
  obtain ⟨sorted, -, run⟩ := Outcome.of_bind_eq_ok run
  obtain ⟨-, run⟩ := Outcome.of_guard_eq_ok run
  obtain ⟨counts, -, run⟩ := Outcome.of_bind_eq_ok run
  obtain ⟨offsets, laid, run⟩ := Outcome.of_bind_eq_ok run
  cases run
  exact ⟨_, laid_of_layOut laid⟩

/-- A table has a place exactly if it is present. -/
theorem mem_tables_iff_has {stream : TableStream} {table : TableId} :
    table ∈ (slotsOf stream.valid).filterMap TableId.ofNumber? ↔ stream.has table = true := by
  rw [List.mem_filterMap]
  constructor
  · rintro ⟨slot, member, known⟩
    rw [has, number_of_ofNumber? known]
    exact (List.mem_filter.mp member).2
  · intro present
    exact ⟨table.number, List.mem_filter.mpr ⟨List.mem_range.mpr table.number_lt, present⟩,
      TableId.ofNumber?_number table⟩

/-- Only tables that are present have a place. -/
theorem has_of_mem_offsets {data : Bytes} {stream : TableStream}
    (run : TableStream.read data = .ok stream) :
    ∀ place ∈ stream.offsets, stream.has place.1 = true := by
  intro place listed
  obtain ⟨offset, laid⟩ := laid_of_read run
  rw [← mem_tables_iff_has, ← laid.tables]
  exact List.mem_map_of_mem listed

/-- Where the rows of a table start. -/
def tableStart (stream : TableStream) (table : TableId) : Nat :=
  ((stream.offsets.find? fun place => place.1 == table).map Prod.snd).getD 0

def rowStart (stream : TableStream) (table : TableId) (number : Nat) : Nat :=
  stream.tableStart table + (number - 1) * stream.sizes.rowSize table

def rowBytes (stream : TableStream) (table : TableId) (number : Nat) : List UInt8 :=
  (stream.data.toList.drop (stream.rowStart table number)).take (stream.sizes.rowSize table)

/-- The table is present and has a row with this number. -/
def HasRow (stream : TableStream) (table : TableId) (number : Nat) : Prop :=
  stream.has table = true ∧ 0 < number ∧ number ≤ stream.rowCount table

section

variable {data : Bytes} {stream : TableStream} (run : TableStream.read data = .ok stream)
include run

/-- A table that is present has a place. -/
theorem place_of_has {table : TableId} (present : stream.has table = true) :
    (stream.offsets.find? fun place => place.1 == table) =
      some (table, stream.tableStart table) := by
  obtain ⟨offset, laid⟩ := laid_of_read run
  have member : table ∈ stream.offsets.map Prod.fst := by
    rw [laid.tables]
    exact mem_tables_iff_has.mpr present
  obtain ⟨place, listed, rfl⟩ := List.mem_map.mp member
  cases found : stream.offsets.find? fun other => other.1 == place.1 with
  | none => exact absurd (beq_self_eq_true place.1) (List.find?_eq_none.mp found place listed)
  | some other =>
    have same : other.1 = place.1 := eq_of_beq
      (List.find?_some (p := fun other : TableId × Nat => other.1 == place.1) found)
    rw [tableStart, found, ← same]
    rfl

/-- A table that is absent has none. -/
theorem no_place_of_not_has {table : TableId} (absent : stream.has table = false) :
    (stream.offsets.find? fun place => place.1 == table) = none := by
  rw [List.find?_eq_none]
  intro place listed same
  have present := has_of_mem_offsets run place listed
  rw [eq_of_beq same, absent] at present
  cases present

/-- A table that is present ends inside the data. -/
theorem tableStart_inside {table : TableId} (present : stream.has table = true) :
    stream.tableStart table + tableSize stream.sizes table ≤ stream.data.size := by
  obtain ⟨offset, laid⟩ := laid_of_read run
  exact (laid.inside _ (List.mem_of_find?_eq_some (place_of_has run present))).2

/-- Different tables have no byte in common. -/
theorem tables_apart {table other : TableId} (present : stream.has table = true)
    (otherPresent : stream.has other = true) (different : table ≠ other) :
    stream.tableStart table + tableSize stream.sizes table ≤ stream.tableStart other ∨
      stream.tableStart other + tableSize stream.sizes other ≤ stream.tableStart table := by
  obtain ⟨offset, laid⟩ := laid_of_read run
  have apart : stream.offsets.Pairwise fun first second =>
      first.2 + tableSize stream.sizes first.1 ≤ second.2 ∨
        second.2 + tableSize stream.sizes second.1 ≤ first.2 := laid.ordered.imp Or.inl
  have symmetric : Std.Symm fun first second : TableId × Nat =>
      first.2 + tableSize stream.sizes first.1 ≤ second.2 ∨
        second.2 + tableSize stream.sizes second.1 ≤ first.2 := ⟨fun _ _ => Or.symm⟩
  exact apart.forall (List.mem_of_find?_eq_some (place_of_has run present))
    (List.mem_of_find?_eq_some (place_of_has run otherPresent))
    fun same => different (congrArg Prod.fst same)

end

/-- A row lies in its table. -/
theorem HasRow.within {stream : TableStream} {table : TableId} {number : Nat}
    (row : stream.HasRow table number) : stream.tableStart table ≤ stream.rowStart table number ∧
      stream.rowStart table number + stream.sizes.rowSize table ≤
        stream.tableStart table + tableSize stream.sizes table := by
  obtain ⟨-, positive, le⟩ := row
  have size : (number - 1) * stream.sizes.rowSize table + stream.sizes.rowSize table ≤
      tableSize stream.sizes table := by
    rw [← Nat.succ_mul, Nat.succ_eq_add_one, Nat.sub_add_cancel positive]
    exact Nat.mul_le_mul_right _ le
  rw [rowStart]
  omega

theorem take_eq_append {α : Type} (entries : List α) {size skipped width : Nat}
    (inside : skipped + width ≤ size) :
    entries.take size = entries.take skipped ++ ((entries.drop skipped).take width ++
      ((entries.drop skipped).take (size - skipped)).drop width) := by
  rw [← List.take_append_drop skipped (entries.take size), List.take_take, List.drop_take,
    Nat.min_eq_left (by omega)]
  conv_lhs => rw [← List.take_append_drop width ((entries.drop skipped).take (size - skipped)),
    List.take_take, Nat.min_eq_left (by omega)]

/-- The bytes of a row stand behind those of the rows before it. -/
theorem HasRow.split {stream : TableStream} {table : TableId} {number : Nat}
    (row : stream.HasRow table number)
    (inside : stream.tableStart table + tableSize stream.sizes table ≤ stream.data.size) :
    ∃ before rest : List UInt8, (stream.data.extract (stream.tableStart table)
        (stream.tableStart table + tableSize stream.sizes table)).toList =
          before ++ (stream.rowBytes table number ++ rest) ∧
      before.length = (number - 1) * stream.sizes.rowSize table ∧
      (stream.rowBytes table number).length = stream.sizes.rowSize table := by
  obtain ⟨-, within⟩ := row.within
  rw [rowStart] at within
  rw [← Array.length_toList] at inside
  rw [Array.toList_extract, List.extract, Nat.add_sub_cancel_left, rowBytes, rowStart,
    ← List.drop_drop, take_eq_append _
      (show (number - 1) * stream.sizes.rowSize table + stream.sizes.rowSize table ≤ _ by omega)]
  refine ⟨_, _, rfl, ?_, ?_⟩
  · exact List.length_take_of_le (by rw [List.length_drop]; omega)
  · exact List.length_take_of_le (by rw [List.length_drop, List.length_drop]; omega)

/-- Two rows of one table lie apart. -/
theorem rowStart_lt {stream : TableStream} {table : TableId} {number later : Nat}
    (positive : 0 < number) (less : number < later) :
    stream.rowStart table number + stream.sizes.rowSize table ≤ stream.rowStart table later := by
  have size : (number - 1) * stream.sizes.rowSize table + stream.sizes.rowSize table ≤
      (later - 1) * stream.sizes.rowSize table := by
    rw [← Nat.succ_mul]
    exact Nat.mul_le_mul_right _ (by omega)
  rw [rowStart, rowStart]
  omega

/-- Every row of a type is decoded from its own bytes, and there are no other rows. -/
structure GivesRows (stream : TableStream) (ρ : Type) [Row ρ] [ReadsColumns ρ] : Prop where
  absent : stream.has (Row.table ρ) = false → stream.table? (Row.table ρ) = .ok none
  present : stream.has (Row.table ρ) = true → ∃ table,
    stream.table? (Row.table ρ) = .ok (some table) ∧
    table.rowCount = stream.rowCount (Row.table ρ) ∧
    ∀ number, if 0 < number ∧ number ≤ table.rowCount
      then Decodes ρ stream.sizes (stream.rowBytes (Row.table ρ) number) (table.row ρ number)
      else table.row ρ number = .error .outOfBounds

section

variable {data : Bytes} {stream : TableStream} (run : TableStream.read data = .ok stream)
include run

/-- Every row ends inside the data. -/
theorem row_inside {table : TableId} {number : Nat} (row : stream.HasRow table number) :
    stream.rowStart table number + stream.sizes.rowSize table ≤ stream.data.size :=
  Nat.le_trans row.within.2 (tableStart_inside run row.1)

/-- Different rows have no byte in common. -/
theorem rows_apart {table other : TableId} {number otherNumber : Nat}
    (row : stream.HasRow table number) (otherRow : stream.HasRow other otherNumber)
    (different : (table, number) ≠ (other, otherNumber)) :
    stream.rowStart table number + stream.sizes.rowSize table ≤
        stream.rowStart other otherNumber ∨
      stream.rowStart other otherNumber + stream.sizes.rowSize other ≤
        stream.rowStart table number := by
  by_cases same : table = other
  · subst same
    have numbers : number ≠ otherNumber := fun equal => different (by rw [equal])
    rcases Nat.lt_or_gt_of_ne numbers with less | greater
    · exact .inl (rowStart_lt row.2.1 less)
    · exact .inr (rowStart_lt otherRow.2.1 greater)
  · obtain ⟨after, before⟩ := row.within
    obtain ⟨otherAfter, otherBefore⟩ := otherRow.within
    rcases tables_apart run row.1 otherRow.1 same with apart | apart <;> omega

/-- Every type of rows is given by an accepted stream. -/
theorem givesRows (ρ : Type) [Row ρ] [ReadsColumns ρ] : stream.GivesRows ρ where
  absent absent := by rw [table?, no_place_of_not_has run absent]
  present present := by
    have cut : stream.data.slice? (stream.tableStart (Row.table ρ))
        (tableSize stream.sizes (Row.table ρ)) = some (stream.data.extract
          (stream.tableStart (Row.table ρ))
          (stream.tableStart (Row.table ρ) + tableSize stream.sizes (Row.table ρ))) :=
      if_pos (tableStart_inside run present)
    rw [tableSize] at cut
    refine ⟨_, by simp only [table?, place_of_has run present, rowCount, cut]; rfl, rfl, ?_⟩
    intro number
    split
    · next inRange =>
      have row : stream.HasRow (Row.table ρ) number := ⟨present, inRange⟩
      have listed : ¬ (number = 0 ∨ stream.sizes.rowCount (Row.table ρ) < number) :=
        not_or.mpr ⟨Nat.ne_of_gt row.2.1, Nat.not_lt_of_le row.2.2⟩
      obtain ⟨before, rest, whole, place, size⟩ := row.split (tableStart_inside run present)
      have decoded := decodes_read ρ stream.sizes whole size
      rw [place] at decoded
      rw [Table.row, if_neg listed]
      exact decoded
    · next outside =>
      exact if_pos (by dsimp only at outside ⊢; omega)

/-- No row of an accepted stream fails but for a tag, every reader takes the size of a row, and no
byte belongs to two rows. This holds for any type of rows, and so for those of all tables. -/
theorem read_gives_rows :
    (∀ (ρ : Type) [Row ρ] [ReadsColumns ρ], stream.GivesRows ρ ∧ ∀ sizes : TableSizes,
      (Row.read sizes : Read ρ).Advances (sizes.rowSize (Row.table ρ))) ∧
    (∀ kind ∈ RowType.all, stream.GivesRows kind.type ∧ ∀ sizes : TableSizes,
      (Row.read sizes : Read kind.type).Advances (sizes.rowSize (Row.table kind.type))) ∧
    (∀ table number, stream.HasRow table number →
      stream.rowStart table number + stream.sizes.rowSize table ≤ data.size) ∧
    ∀ table other number otherNumber, stream.HasRow table number →
      stream.HasRow other otherNumber → (table, number) ≠ (other, otherNumber) →
        stream.rowStart table number + stream.sizes.rowSize table ≤
            stream.rowStart other otherNumber ∨
          stream.rowStart other otherNumber + stream.sizes.rowSize other ≤
            stream.rowStart table number := by
  refine ⟨fun ρ _ _ => ⟨givesRows run ρ, fun sizes => advances_read sizes ρ⟩, ?_, ?_, ?_⟩
  · intro kind _
    exact ⟨givesRows run kind.type, fun sizes => advances_read sizes kind.type⟩
  · intro table number row
    rw [← data_of_read run]
    exact row_inside run row
  · intro table other number otherNumber
    exact rows_apart run

end

/-- One module and two types. The base of the second type has a tag without a candidate. -/
def typesStream : Bytes :=
  #[0, 0, 0, 0, 2, 0, 0, 1, 5, 0, 0, 0, 0, 0, 0, 0, 0, 0, 0, 0, 0, 0, 0, 0, 1, 0, 0, 0, 2, 0, 0, 0,
    0, 0, 10, 0, 1, 0, 0, 0, 0, 0,
    0, 0, 0, 0, 0, 0, 0, 0, 0, 0, 0, 0, 0, 0,
    1, 0, 16, 0, 32, 0, 48, 0, 3, 0, 1, 0, 1, 0]

/-- A stream with a module and two types, and without an assembly. -/
theorem read_gives_rows_types : ∃ stream, TableStream.read typesStream = .ok stream ∧
    stream.HasRow .module 1 ∧ stream.HasRow .typeDef 2 ∧ stream.GivesRows ModuleRow ∧
    stream.GivesRows TypeDefRow ∧ stream.table? .assembly = .ok none ∧
    stream.rowStart .typeDef 2 + stream.sizes.rowSize .typeDef ≤ typesStream.size ∧
    (stream.rowStart .module 1 + stream.sizes.rowSize .module ≤ stream.rowStart .typeDef 2 ∨
      stream.rowStart .typeDef 2 + stream.sizes.rowSize .typeDef ≤ stream.rowStart .module 1) := by
  have shown : (TableStream.read typesStream).map (fun stream =>
      (stream.has .module, stream.rowCount .module, stream.has .typeDef,
        stream.rowCount .typeDef, stream.has .assembly)) = .ok (true, 1, true, 2, false) := by
    decide +kernel
  cases run : TableStream.read typesStream with
  | error fault =>
    rw [run] at shown
    cases shown
  | ok stream =>
    rw [run] at shown
    obtain ⟨modules, moduleCount, types, typeCount, none⟩ :
        stream.has .module = true ∧ stream.rowCount .module = 1 ∧
          stream.has .typeDef = true ∧ stream.rowCount .typeDef = 2 ∧
            stream.has .assembly = false := by
      simpa [Except.map] using shown
    have module : stream.HasRow .module 1 := ⟨modules, by decide, moduleCount.ge⟩
    have type : stream.HasRow .typeDef 2 := ⟨types, by decide, typeCount.ge⟩
    obtain ⟨gives, kinds, inside, apart⟩ := read_gives_rows run
    exact ⟨stream, rfl, module, type, (kinds ⟨ModuleRow⟩ List.mem_cons_self).1,
      (gives TypeDefRow).1, (gives AssemblyRow).1.absent none, inside _ _ type,
      apart _ _ _ _ module type (by decide)⟩

end TableStream

end Metadata

end ClrDecompiler
