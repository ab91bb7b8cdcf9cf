/-
This file shows what the reader of the tables finds in a stream whose tables lie one after the
other: the place of each table and the values of each row.
-/

import ClrDecompiler.Proofs.Metadata.TypedRow
import ClrDecompiler.Proofs.Metadata.Mask
import Mathlib.Algebra.GroupWithZero.Nat

namespace ClrDecompiler.Metadata

open Read

namespace TableStream

/-- The bytes that a table takes. -/
def tableSize (sizes : TableSizes) (table : TableId) : Nat :=
  sizes.rowCount table * sizes.rowSize table

/-- The places of tables that lie one after the other. -/
def placesOf (sizes : TableSizes) : List TableId → Nat → List (TableId × Nat)
  | [], _ => []
  | table :: rest, offset => (table, offset) :: placesOf sizes rest (offset + tableSize sizes table)

/-- Known tables that fit the data are laid out one after the other. -/
theorem layOut_numbers (sizes : TableSizes) (size : Nat) (tables : List TableId) (offset : Nat)
    (inside : offset + (tables.map (tableSize sizes)).sum ≤ size) :
    layOut sizes size (tables.map TableId.number) offset none =
      .ok (placesOf sizes tables offset) := by
  induction tables generalizing offset with
  | nil => rfl
  | cons table rest ih =>
    rw [List.map_cons, List.sum_cons, ← Nat.add_assoc] at inside
    have stop : ¬ size < offset + sizes.rowCount table * sizes.rowSize table :=
      Nat.not_lt_of_le (Nat.le_trans (Nat.le_add_right _ _) inside)
    have later := ih _ inside
    rw [tableSize] at later
    simp only [List.map_cons, layOut, TableId.ofNumber?_number, if_neg stop, later]
    rfl

/-- A table that is not laid out has no place. -/
theorem find?_placesOf_of_not_mem (sizes : TableSizes) {tables : List TableId} {table : TableId}
    (absent : table ∉ tables) (offset : Nat) :
    (placesOf sizes tables offset).find? (fun place => place.1 == table) = none := by
  induction tables generalizing offset with
  | nil => rfl
  | cons first rest ih =>
    rw [List.mem_cons, not_or] at absent
    have other : (first == table) = false := beq_false_of_ne (Ne.symm absent.1)
    rw [placesOf, List.find?_cons, other]
    exact ih absent.2 _

/-- A table is found behind the tables before it. -/
theorem find?_placesOf (sizes : TableSizes) {tables : List TableId} {table : TableId}
    (member : table ∈ tables) (offset : Nat) :
    ∃ earlier later, tables = earlier ++ table :: later ∧
      (placesOf sizes tables offset).find? (fun place => place.1 == table) =
        some (table, offset + (earlier.map (tableSize sizes)).sum) := by
  induction tables generalizing offset with
  | nil => cases member
  | cons first rest ih =>
    by_cases same : first = table
    · subst same
      exact ⟨[], rest, rfl, by rw [placesOf, List.find?_cons, beq_self_eq_true]; rfl⟩
    · have inRest := (List.mem_cons.mp member).resolve_left (Ne.symm same)
      obtain ⟨earlier, later, rfl, found⟩ := ih inRest (offset + tableSize sizes first)
      refine ⟨first :: earlier, later, rfl, ?_⟩
      rw [placesOf, List.find?_cons, beq_false_of_ne same]
      apply found.trans
      rw [List.map_cons, List.sum_cons, Nat.add_assoc]

/-- Tables that follow one another take the sum of their sizes. -/
theorem length_flatMap_tables {sizes : TableSizes} {content : TableId → List UInt8}
    {tables : List TableId}
    (sized : ∀ table ∈ tables, (content table).length = tableSize sizes table) :
    (tables.flatMap content).length = (tables.map (tableSize sizes)).sum := by
  induction tables with
  | nil => rfl
  | cons table rest ih =>
    rw [List.forall_mem_cons] at sized
    rw [List.flatMap_cons, List.length_append, List.map_cons, List.sum_cons, sized.1, ih sized.2]

/-- The bytes of each table are cut out of the stream. -/
theorem table?_eq_some {stream : TableStream} {tables : List TableId}
    {content : TableId → List UInt8} {before after : List UInt8}
    (whole : stream.data.toList = before ++ (tables.flatMap content ++ after))
    (places : stream.offsets = placesOf stream.sizes tables before.length)
    (sized : ∀ table ∈ tables, (content table).length = tableSize stream.sizes table)
    {table : TableId} (member : table ∈ tables) :
    stream.table? table = .ok (some
      ⟨(content table).toArray, stream.rowCount table, stream.sizes⟩) := by
  obtain ⟨earlier, later, rfl, found⟩ := find?_placesOf stream.sizes member before.length
  have sizedEarlier : ∀ table ∈ earlier, (content table).length = tableSize stream.sizes table :=
    fun table inside => sized table (List.mem_append_left _ inside)
  have split : stream.data.toList = (before ++ earlier.flatMap content) ++
      (content table ++ (later.flatMap content ++ after)) := by
    rw [whole]
    simp only [List.flatMap_append, List.flatMap_cons, List.append_assoc]
  have cut := Bytes.slice?_middle split
  rw [List.length_append, length_flatMap_tables sizedEarlier, sized table member, tableSize] at cut
  simp only [table?, places, found]
  rw [show stream.rowCount table = stream.sizes.rowCount table from rfl, cut]

end TableStream

/-- All rows of a table have the same size. -/
theorem encodeRows_length (sizes : TableSizes) {table : TableId} {rows : List (List UInt32)}
    (shaped : ∀ raws ∈ rows, raws.length = table.columns.length) :
    (rows.flatMap (encodeRow sizes table.columns)).length = rows.length * sizes.rowSize table := by
  induction rows with
  | nil => exact (Nat.zero_mul _).symm
  | cons first rest ih =>
    rw [List.forall_mem_cons] at shaped
    rw [List.flatMap_cons, List.length_append, ih shaped.2, encodeRow_length sizes shaped.1,
      List.length_cons, Nat.succ_mul, Nat.add_comm]
    rfl

/-- A row is read from behind the rows before it. -/
theorem Table.row_eq_ok {ρ : Type} [Row ρ] [ReadsColumns ρ] {sizes : TableSizes}
    {rows : List (List UInt32)}
    (shaped : ∀ raws ∈ rows, raws.length = (Row.table ρ).columns.length)
    {index : Nat} {raws : List UInt32} (listed : rows[index]? = some raws)
    (fits : FitsAll sizes (Row.table ρ).columns raws) {values : Values (Row.table ρ).columns}
    (stores : StoresAll (Row.table ρ).columns raws values) :
    Table.row ρ ⟨(rows.flatMap (encodeRow sizes (Row.table ρ).columns)).toArray, rows.length, sizes⟩
      (index + 1) = .ok (ReadsColumns.ofValues values) := by
  obtain ⟨inside, rfl⟩ := List.getElem?_eq_some_iff.mp listed
  have split : rows = rows.take index ++ rows[index] :: rows.drop (index + 1) := by
    rw [← List.drop_eq_getElem_cons inside, List.take_append_drop]
  have whole : (rows.flatMap (encodeRow sizes (Row.table ρ).columns)).toArray.toList =
      (rows.take index).flatMap (encodeRow sizes (Row.table ρ).columns) ++
        (encodeRow sizes (Row.table ρ).columns rows[index] ++
          (rows.drop (index + 1)).flatMap (encodeRow sizes (Row.table ρ).columns)) := by
    change rows.flatMap _ = _
    rw [← List.flatMap_cons, ← List.flatMap_append, ← split]
  have run := runAt_read_row stores fits whole
  rw [encodeRows_length sizes fun raws member => shaped raws (List.mem_of_mem_take member),
    List.length_take_of_le (Nat.le_of_lt inside)] at run
  have present : ¬ (index + 1 = 0 ∨ rows.length < index + 1) := by omega
  rw [Table.row, if_neg present]
  simp only [Nat.add_sub_cancel, run]

end ClrDecompiler.Metadata
