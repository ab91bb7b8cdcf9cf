/-
This file bounds the number of types by the size of the metadata: the rows of all types fit into
their tokens.
-/

import ClrDecompiler.Module.Load
import ClrDecompiler.Proofs.Bytes.Reading
import ClrDecompiler.Proofs.Metadata.IndexWidth
import ClrDecompiler.Proofs.Metadata.Token
import ClrDecompiler.Proofs.Outcome

namespace ClrDecompiler

theorem Bytes.orOutOfBounds_eq_ok {α : Type} {found : Option α} {value : α}
    (run : orOutOfBounds found = .ok value) : found = some value := by
  cases found with
  | none => cases run
  | some found => exact congrArg some (Except.ok.inj run)

namespace Metadata

/-- The rows of a table lie within the data. -/
theorem TableStream.rows_within {ρ : Type} [Row ρ] {stream : TableStream} {found : List (Nat × ρ)}
    (run : stream.rows ρ = .ok found) : found = [] ∨
      found.length = stream.rowCount (Row.table ρ) ∧
        found.length * stream.sizes.rowSize (Row.table ρ) ≤ stream.data.size := by
  obtain ⟨table, cut, run⟩ := Outcome.of_bind_eq_ok run
  cases table with
  | none =>
    cases run
    exact .inl rfl
  | some table =>
    right
    have length : found.length = table.rowCount := by
      have each := Outcome.forall₂_of_mapM_eq_ok run
      rw [← each.length_eq, List.length_range]
    rw [TableStream.table?] at cut
    split at cut
    · cases cut
    · dsimp only at cut
      split at cut
      · next data slice =>
        cases cut
        have inside := (Bytes.slice?_eq_some slice).1
        rw [length]
        exact ⟨rfl, Nat.le_trans (Nat.le_add_left _ _) inside⟩
      · cases cut

/-- Many types make the indexes of types wide. -/
theorem TableSizes.rowSize_typeDef {sizes : TableSizes}
    (many : 0x4000 ≤ sizes.rowCount .typeDef) : 16 ≤ sizes.rowSize .typeDef := by
  have small (column : Column) : 2 ≤ sizes.columnSize column := by
    rw [columnSize]
    split <;> decide
  have wide : sizes.columnSize (.coded .typeDefOrRef) = 4 := by
    have coded : sizes.isWideCoded .typeDefOrRef = true := by
      rw [← Bool.not_eq_false, sizes.isWideCoded_eq_false_iff]
      intro few
      exact Nat.not_lt_of_le many (few .typeDef (by decide))
    rw [columnSize, isWide, if_pos coded]
  have first := small .string
  have fields := small (.row .field)
  have methods := small (.row .methodDef)
  change 16 ≤ 4 + (sizes.columnSize .string + (sizes.columnSize .string +
    (sizes.columnSize (.coded .typeDefOrRef) + (sizes.columnSize (.row .field) +
      (sizes.columnSize (.row .methodDef) + 0)))))
  omega

/-- A header that is read has at most the metadata that is allowed. -/
theorem CliHeader.metadata_size_le {data : Bytes} {header : CliHeader}
    (run : CliHeader.read data = .ok header) :
    header.metadata.size.toNat ≤ CliHeader.maxMetadataSize := by
  rw [CliHeader.read] at run
  split at run
  · cases run
  · have whole : CliHeader.readFields.runAt data 0 =
      (.ok header, (CliHeader.readFields.runAt data 0).2) := Prod.ext run rfl
    obtain ⟨size, _, -, whole⟩ := Read.of_runAt_bind whole
    obtain ⟨-, whole⟩ := Read.of_runAt_guard whole
    obtain ⟨major, _, -, whole⟩ := Read.of_runAt_bind whole
    obtain ⟨minor, _, -, whole⟩ := Read.of_runAt_bind whole
    obtain ⟨metadata, _, -, whole⟩ := Read.of_runAt_bind whole
    obtain ⟨-, whole⟩ := Read.of_runAt_guard whole
    obtain ⟨-, whole⟩ := Read.of_runAt_guard whole
    obtain ⟨limited, whole⟩ := Read.of_runAt_guard whole
    obtain ⟨flags, _, -, whole⟩ := Read.of_runAt_bind whole
    obtain ⟨entryPoint, _, -, whole⟩ := Read.of_runAt_bind whole
    obtain ⟨resources, _, -, whole⟩ := Read.of_runAt_bind whole
    obtain ⟨strongName, _, -, whole⟩ := Read.of_runAt_bind whole
    cases whole
    exact Nat.le_of_not_lt limited

/-- A stream of tables keeps the data that it was read from. -/
theorem TableStream.data_of_read {data : Bytes} {stream : TableStream}
    (run : TableStream.read data = .ok stream) : stream.data = data := by
  obtain ⟨-, run⟩ := Outcome.of_guard_eq_ok run
  obtain ⟨major, -, run⟩ := Outcome.of_bind_eq_ok run
  obtain ⟨minor, -, run⟩ := Outcome.of_bind_eq_ok run
  obtain ⟨heapFlags, -, run⟩ := Outcome.of_bind_eq_ok run
  obtain ⟨valid, -, run⟩ := Outcome.of_bind_eq_ok run
  obtain ⟨sorted, -, run⟩ := Outcome.of_bind_eq_ok run
  obtain ⟨-, run⟩ := Outcome.of_guard_eq_ok run
  obtain ⟨counts, -, run⟩ := Outcome.of_bind_eq_ok run
  obtain ⟨offsets, -, run⟩ := Outcome.of_bind_eq_ok run
  cases run
  rfl

/-- The data of a stream are a part of the metadata. -/
theorem Root.streamData?_size_le {root : Root} {data part : Bytes} {name : String}
    (found : root.streamData? data name = some part) : part.size ≤ data.size := by
  obtain ⟨header, -, cut⟩ := Option.bind_eq_some_iff.mp found
  obtain ⟨inside, size⟩ := Bytes.slice?_eq_some cut
  omega

theorem Root.tablesData?_size_le {root : Root} {data tables : Bytes}
    (found : root.tablesData? data = some tables) : tables.size ≤ data.size := by
  rw [tablesData?, Option.orElse_eq_orElse, Option.orElse_eq_or, Option.or_eq_some_iff] at found
  rcases found with compressed | ⟨-, plain⟩
  · exact streamData?_size_le compressed
  · exact streamData?_size_le plain

end Metadata

namespace Module

open Metadata

/-- The tables of an image are no larger than the metadata may be. -/
theorem Source.tables_size_le {image : Image.Assembly} {source : Source}
    (run : Source.ofImage image = .ok source) :
    source.tables.data.size ≤ CliHeader.maxMetadataSize := by
  obtain ⟨cli, -, run⟩ := Outcome.of_bind_eq_ok run
  obtain ⟨place, -, run⟩ := Outcome.of_bind_eq_ok run
  obtain ⟨headerData, -, run⟩ := Outcome.of_bind_eq_ok run
  obtain ⟨header, headerRun, run⟩ := Outcome.of_bind_eq_ok run
  obtain ⟨offset, -, run⟩ := Outcome.of_bind_eq_ok run
  obtain ⟨data, cut, run⟩ := Outcome.of_bind_eq_ok run
  obtain ⟨root, -, run⟩ := Outcome.of_bind_eq_ok run
  obtain ⟨heaps, -, run⟩ := Outcome.of_bind_eq_ok run
  have limit := CliHeader.metadata_size_le headerRun
  have size := (Bytes.slice?_eq_some (Bytes.orOutOfBounds_eq_ok cut)).2
  split at run
  · cases run
  · next tables found =>
    obtain ⟨stream, streamRun, run⟩ := Outcome.of_bind_eq_ok run
    cases run
    have part := Root.tablesData?_size_le found
    rw [TableStream.data_of_read streamRun]
    omega

/-- No image has more types than rows fit into tokens. -/
theorem Source.types_le {image : Image.Assembly} {source : Source}
    (run : Source.ofImage image = .ok source) {rows : List (Nat × TypeDefRow)}
    (found : source.rows TypeDefRow = .ok rows) : rows.length ≤ 0x1000000 := by
  have limit : source.tables.data.size ≤ 0x10000000 := Source.tables_size_le run
  rcases TableStream.rows_within found with rfl | ⟨length, inside⟩
  · exact Nat.zero_le _
  · by_contra many
    change rows.length = source.tables.sizes.rowCount .typeDef at length
    have wide : 16 ≤ source.tables.sizes.rowSize .typeDef :=
      TableSizes.rowSize_typeDef (by omega)
    have least := Nat.mul_le_mul_left rows.length wide
    have most : rows.length * source.tables.sizes.rowSize .typeDef ≤ source.tables.data.size :=
      inside
    omega

end Module

end ClrDecompiler
