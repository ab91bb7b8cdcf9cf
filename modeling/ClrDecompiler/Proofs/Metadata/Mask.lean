/-
This file relates the mask of present tables and the arrays of row counts to the tables that
they are made from.
-/

import ClrDecompiler.Metadata.TableBuilder
import ClrDecompiler.Metadata.TableStream
import ClrDecompiler.Proofs.Metadata.Token
import Mathlib.Data.List.Sort

namespace ClrDecompiler.Metadata

namespace TableId

/-- Every table is in the list of all tables. -/
theorem mem_all (table : TableId) : table ∈ all := by
  cases table <;> decide

/-- The tables are listed in the order of their numbers. -/
theorem all_increasing : (all.map number).Pairwise (· < ·) := by
  decide

/-- Every table is found by its number. -/
theorem ofNumber?_number (table : TableId) : ofNumber? table.number = some table := by
  cases table <;> rfl

/-- Tables have different numbers. -/
theorem number_injective : Function.Injective number := by
  intro table other same
  have found := congrArg ofNumber? same
  rw [ofNumber?_number, ofNumber?_number] at found
  exact Option.some.inj found

end TableId

namespace TableBuilder

/-- Each table adds its bit to the mask. -/
theorem testBit_foldl_mask (tables : List TableId) (mask : UInt64) (slot : Nat) :
    (tables.foldl (fun mask table => mask ||| (1 <<< UInt64.ofNat table.number)) mask).toNat.testBit
      slot = true ↔ mask.toNat.testBit slot = true ∨ slot ∈ tables.map TableId.number := by
  induction tables generalizing mask with
  | nil => simp
  | cons table rest ih =>
    have small : table.number < 64 := table.number_lt
    have bit : ((1 : UInt64) <<< UInt64.ofNat table.number).toNat = 2 ^ table.number := by
      have inside : table.number < 2 ^ 64 := by omega
      have fits : 2 ^ table.number < 2 ^ 64 := Nat.pow_lt_pow_right (by decide) small
      rw [UInt64.toNat_shiftLeft, UInt64.toNat_ofNat_of_lt' inside, Nat.mod_eq_of_lt small,
        UInt64.toNat_one, Nat.one_shiftLeft, Nat.mod_eq_of_lt fits]
    rw [List.foldl_cons, ih, UInt64.toNat_or, bit, Nat.testBit_or, Bool.or_eq_true,
      Nat.testBit_two_pow, decide_eq_true_eq, List.map_cons, List.mem_cons, or_assoc,
      eq_comm (a := slot)]

/-- A mask has the bits of its tables. -/
theorem testBit_maskOf (tables : List TableId) (slot : Nat) :
    (maskOf tables).toNat.testBit slot = true ↔ slot ∈ tables.map TableId.number := by
  rw [maskOf, testBit_foldl_mask]
  simp

/-- The mask has exactly the bits of its tables. -/
theorem testBit_maskOf_number (tables : List TableId) (table : TableId) :
    (maskOf tables).toNat.testBit table.number = true ↔ table ∈ tables := by
  rw [testBit_maskOf, List.mem_map_of_injective TableId.number_injective]

/-- The mask of some tables is not zero. -/
theorem maskOf_ne_zero {tables : List TableId} (nonempty : tables ≠ []) : maskOf tables ≠ 0 := by
  obtain ⟨table, member⟩ := List.exists_mem_of_ne_nil tables nonempty
  have bit := (testBit_maskOf_number tables table).mpr member
  intro zero
  rw [zero] at bit
  simp at bit

variable (builder : TableBuilder)

/-- A table is present exactly if it has rows. -/
theorem mem_present {table : TableId} :
    table ∈ builder.present ↔ builder.rowCount table ≠ 0 := by
  simp [present, TableId.mem_all]

/-- The tables that are present stand in the order of their numbers. -/
theorem present_increasing : (builder.present.map TableId.number).Pairwise (· < ·) :=
  TableId.all_increasing.sublist (List.filter_sublist.map _)

/-- The mask has the numbers of the present tables, in their order. -/
theorem slotsOf_maskOf_present :
    TableStream.slotsOf (maskOf builder.present) = builder.present.map TableId.number := by
  have ordered : (TableStream.slotsOf (maskOf builder.present)).Pairwise (· < ·) :=
    List.pairwise_lt_range.filter _
  apply ordered.eq_of_mem_iff builder.present_increasing
  intro slot
  rw [TableStream.slotsOf, List.mem_filter, testBit_maskOf, List.mem_range]
  apply and_iff_right_of_imp
  intro member
  obtain ⟨table, -, rfl⟩ := List.mem_map.mp member
  exact table.number_lt

/-! The counts of rows, as the builder takes them from its rows and the reader from the header. -/

theorem size_foldl_set {α : Type} (slot : α → Nat) (count : α → Nat) (entries : List α)
    (counts : Array Nat) :
    (entries.foldl (fun counts entry => counts.setIfInBounds (slot entry) (count entry))
      counts).size = counts.size := by
  induction entries generalizing counts with
  | nil => rfl
  | cons entry rest ih => rw [List.foldl_cons, ih, Array.size_setIfInBounds]

/-- A slot that no entry has keeps its count. -/
theorem getElem?_foldl_set_of_not_mem {α : Type} (slot : α → Nat) (count : α → Nat)
    {entries : List α} (counts : Array Nat) {place : Nat} (other : place ∉ entries.map slot) :
    (entries.foldl (fun counts entry => counts.setIfInBounds (slot entry) (count entry))
      counts)[place]? = counts[place]? := by
  induction entries generalizing counts with
  | nil => rfl
  | cons entry rest ih =>
    rw [List.map_cons, List.mem_cons, not_or] at other
    rw [List.foldl_cons, ih _ other.2, Array.getElem?_setIfInBounds_ne (Ne.symm other.1)]

/-- Every table has a count of its own. -/
theorem getElem?_foldl_set (count : TableId → Nat) (tables : List TableId) {counts : Array Nat}
    (size : counts.size = TableId.slots) (table : TableId) :
    (tables.foldl (fun counts table => counts.setIfInBounds table.number (count table))
      counts)[table.number]?.getD 0 =
        if table ∈ tables then count table else counts[table.number]?.getD 0 := by
  induction tables generalizing counts with
  | nil => rfl
  | cons first rest ih =>
    have inside : table.number < counts.size := size ▸ table.number_lt
    rw [List.foldl_cons, ih (by rw [Array.size_setIfInBounds, size])]
    by_cases member : table ∈ rest
    · rw [if_pos member, if_pos (List.mem_cons_of_mem _ member)]
    · by_cases same : table = first
      · rw [if_neg member, if_pos (by rw [same]; exact List.mem_cons_self), ← same,
          Array.getElem?_setIfInBounds_self_of_lt inside, Option.getD_some]
      · have other : first.number ≠ table.number := fun equal =>
          same (TableId.number_injective equal).symm
        rw [if_neg member, Array.getElem?_setIfInBounds_ne other, if_neg]
        rintro (_ | ⟨_, later⟩)
        · exact same rfl
        · exact member later

theorem size_noCounts : (Array.replicate TableId.slots 0).size = TableId.slots :=
  Array.size_replicate

theorem noCounts_getElem? (slot : Nat) :
    (Array.replicate TableId.slots 0)[slot]?.getD 0 = 0 := by
  rw [Array.getElem?_replicate]
  split <;> rfl

/-- A table counts its own rows, unless it has none and belongs to another image. -/
theorem rowCount_ofCounts_rowCounts {external : List (TableId × Nat)} (flags : UInt8)
    {table : TableId} (own : table ∈ builder.present ∨ table ∉ external.map Prod.fst) :
    (TableSizes.ofCounts (builder.rowCounts external) flags).rowCount table =
      builder.rowCount table := by
  simp only [TableSizes.ofCounts, rowCounts, List.foldl_append, List.foldl_map]
  rw [getElem?_foldl_set builder.rowCount builder.present
    ((size_foldl_set _ _ external _).trans size_noCounts)]
  split
  case isTrue => rfl
  case isFalse absent =>
    have foreign := own.resolve_left absent
    have other : table.number ∉ external.map fun entry => entry.1.number := by
      intro member
      obtain ⟨entry, listed, same⟩ := List.mem_map.mp member
      exact foreign (List.mem_map.mpr ⟨entry, listed, TableId.number_injective same⟩)
    rw [getElem?_foldl_set_of_not_mem _ _ _ other, noCounts_getElem?]
    exact (not_not.mp (mt builder.mem_present.mpr absent)).symm

/-- The reader finds the counts that the header lists. -/
theorem rowCount_ofCounts_countArray (flags : UInt8) (table : TableId) :
    (TableSizes.ofCounts (TableStream.countArray
      (builder.present.map fun table => (table.number, builder.rowCount table))) flags).rowCount
        table = builder.rowCount table := by
  simp only [TableSizes.ofCounts, TableStream.countArray, List.foldl_map]
  rw [getElem?_foldl_set builder.rowCount builder.present size_noCounts, noCounts_getElem?]
  split
  case isTrue => rfl
  case isFalse absent => exact (not_not.mp (mt builder.mem_present.mpr absent)).symm

end TableBuilder

end ClrDecompiler.Metadata
