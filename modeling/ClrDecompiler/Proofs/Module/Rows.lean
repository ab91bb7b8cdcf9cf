/-
This file relates the entries of a loaded module to the rows that they come from. An entry has the
token of its row, and no row is missing from the counts of the module.
-/

import ClrDecompiler.Proofs.Metadata.RowAccess
import ClrDecompiler.Proofs.Module.NestingConsistency

namespace ClrDecompiler

open Metadata Signature

namespace Metadata.TableStream

theorem lookup_summary {stream : TableStream} {table : TableId} (has : stream.has table = true) :
    stream.summary.lookup table = some (stream.rowCount table) := by
  have listed : table ∈ TableId.all.filter stream.has :=
    List.mem_filter.mpr ⟨TableId.mem_all table, has⟩
  rw [summary]
  generalize TableId.all.filter stream.has = tables at listed
  induction tables with
  | nil => cases listed
  | cons first rest ih =>
    rw [List.map_cons, List.lookup_cons]
    by_cases same : table = first
    · rw [same, beq_self_eq_true]
    · rw [beq_false_of_ne same]
      exact ih ((List.mem_cons.mp listed).resolve_left same)

/-- The summary counts all rows that are read, and they are numbered from one. -/
theorem rows_counted {ρ : Type} [Row ρ] {data : Bytes} {stream : TableStream}
    (opened : TableStream.read data = .ok stream) {found : List (Nat × ρ)}
    (run : stream.rows ρ = .ok found) :
    found.length ≤ (stream.summary.lookup (Row.table ρ)).getD 0 := by
  obtain rfl | ⟨length, -⟩ := rows_within run
  · exact Nat.zero_le _
  · obtain ⟨table, cut, run⟩ := Outcome.of_bind_eq_ok run
    cases table with
    | none =>
      cases run
      exact Nat.zero_le _
    | some table =>
      rw [TableStream.table?] at cut
      split at cut
      · cases cut
      · next other offset placed =>
        have has := has_of_mem_offsets opened _ (List.mem_of_find?_eq_some placed)
        have same : other = Row.table ρ := eq_of_beq
          (List.find?_some (p := fun place : TableId × Nat => place.1 == Row.table ρ) placed)
        rw [length, lookup_summary (same ▸ has)]
        exact Nat.le_refl _

/-- The rows of a table are numbered from one on. -/
theorem rows_numbered {ρ : Type} [Row ρ] {stream : TableStream} {found : List (Nat × ρ)}
    (run : stream.rows ρ = .ok found) (index : Nat) (entry : Nat × ρ)
    (listed : found[index]? = some entry) : entry.1 = index + 1 := by
  obtain ⟨table, -, run⟩ := Outcome.of_bind_eq_ok run
  cases table with
  | none =>
    cases run
    cases listed
  | some table =>
    have each := Outcome.forall₂_of_mapM_eq_ok run
    obtain ⟨inside, rfl⟩ := List.getElem?_eq_some_iff.mp listed
    have entry := each.get (i := index) (by rw [each.length_eq]; exact inside) inside
    simp only [List.get_eq_getElem, List.getElem_range] at entry
    obtain ⟨row, -, entry⟩ := Outcome.of_bind_eq_ok entry
    exact congrArg Prod.fst (Except.ok.inj entry).symm

end Metadata.TableStream

namespace Module

/-- Every entry has the token of its place. -/
def IsNumbered {α : Type} (tokenOf : α → Token) (table : TableId) (entries : Array α) : Prop :=
  ∀ (index : Nat) (entry : α), entries[index]? = some entry →
    tokenOf entry = Token.ofRow table (index + 1)

/-- A lookup gives the entry of a token and no other, and gives every entry. -/
structure FindsEntries {α : Type} (tokenOf : α → Token) (entries : Array α)
    (lookup : Token → Option α) : Prop where
  sound : ∀ token entry, lookup token = some entry → tokenOf entry = token ∧ entry ∈ entries
  complete : ∀ entry ∈ entries, lookup (tokenOf entry) = some entry

/-- The token of a row leads to its entry. -/
theorem listed?_ofRow {α : Type} {table : TableId} (entries : Array α) {number : Nat}
    (positive : 0 < number) (fits : number < 0x1000000) :
    listed? table entries (Token.ofRow table number) = entries[number - 1]? := by
  rw [listed?, Token.ofRow_pointsInto fits, Token.ofRow_isNull fits positive, Token.ofRow_row fits]
  rfl

theorem mem_of_listed? {α : Type} {table : TableId} {entries : Array α} {token : Token} {entry : α}
    (found : listed? table entries token = some entry) : entry ∈ entries := by
  rw [listed?] at found
  split at found
  · exact Array.mem_of_getElem? found
  · cases found

/-- Entries at the numbers of their rows are found by their tokens, and by no others. -/
theorem findsEntries_listed? {α : Type} {tokenOf : α → Token} {table : TableId} {entries : Array α}
    (numbered : IsNumbered tokenOf table entries) (few : entries.size < 0x1000000) :
    FindsEntries tokenOf entries (listed? table entries) := by
  constructor
  · intro token entry found
    rw [listed?] at found
    split at found
    · next points =>
      rw [Bool.and_eq_true, Bool.not_eq_true'] at points
      have positive := Token.row_ne_zero points.2
      have place : token.row.toNat - 1 + 1 = token.row.toNat := by omega
      refine ⟨?_, Array.mem_of_getElem? found⟩
      rw [numbered _ entry found, place]
      exact (Token.eq_ofRow points.1).1.symm
    · cases found
  · intro entry member
    obtain ⟨index, inside, rfl⟩ := Array.mem_iff_getElem.mp member
    have listed := Array.getElem?_eq_getElem inside
    rw [numbered index _ listed, listed?_ofRow entries (Nat.succ_pos index) (by omega)]
    exact listed

/-- Entries that are made from the rows one by one have their numbers. -/
theorem isNumbered_of_mapM {ρ α : Type} {tokenOf : α → Token} {table : TableId}
    {rows : List (Nat × ρ)} {make : Nat × ρ → Except Fault α} {entries : List α}
    (numbered : ∀ (index : Nat) (row : Nat × ρ), rows[index]? = some row → row.1 = index + 1)
    (made : ∀ row entry, make row = .ok entry → tokenOf entry = Token.ofRow table row.1)
    (run : rows.mapM make = .ok entries) :
    IsNumbered tokenOf table entries.toArray ∧ entries.length = rows.length := by
  have each := Outcome.forall₂_of_mapM_eq_ok run
  refine ⟨?_, each.length_eq.symm⟩
  intro index entry listed
  rw [List.getElem?_toArray] at listed
  obtain ⟨inside, rfl⟩ := List.getElem?_eq_some_iff.mp listed
  have before : index < rows.length := by rw [each.length_eq]; exact inside
  rw [← numbered index _ (List.getElem?_eq_getElem before)]
  exact made _ _ (each.get before inside)

namespace Source

variable {source : Source}

theorem typeRefs_numbered {found : List TypeReference} (run : source.typeRefs = .ok found) :
    ∃ rows, source.rows TypeRefRow = .ok rows ∧
      IsNumbered TypeReference.token .typeRef found.toArray ∧ found.length = rows.length := by
  obtain ⟨rows, read, run⟩ := Outcome.of_bind_eq_ok run
  refine ⟨rows, read, isNumbered_of_mapM (TableStream.rows_numbered read) ?_ run⟩
  intro row entry made
  obtain ⟨namespaceName, -, made⟩ := Outcome.of_bind_eq_ok made
  obtain ⟨name, -, made⟩ := Outcome.of_bind_eq_ok made
  cases made
  rfl

theorem memberRefs_numbered {found : List MemberReference} (run : source.memberRefs = .ok found) :
    ∃ rows, source.rows MemberRefRow = .ok rows ∧
      IsNumbered MemberReference.token .memberRef found.toArray ∧ found.length = rows.length := by
  obtain ⟨rows, read, run⟩ := Outcome.of_bind_eq_ok run
  refine ⟨rows, read, isNumbered_of_mapM (TableStream.rows_numbered read) ?_ run⟩
  intro row entry made
  obtain ⟨blob, -, made⟩ := Outcome.of_bind_eq_ok made
  obtain ⟨signature, -, made⟩ := Outcome.of_bind_eq_ok made
  obtain ⟨name, -, made⟩ := Outcome.of_bind_eq_ok made
  cases made
  rfl

theorem methodSpecs_numbered {found : List MethodSpecification}
    (run : source.methodSpecs = .ok found) :
    ∃ rows, source.rows MethodSpecRow = .ok rows ∧
      IsNumbered MethodSpecification.token .methodSpec found.toArray ∧
      found.length = rows.length := by
  obtain ⟨rows, read, run⟩ := Outcome.of_bind_eq_ok run
  refine ⟨rows, read, isNumbered_of_mapM (TableStream.rows_numbered read) ?_ run⟩
  intro row entry made
  obtain ⟨blob, -, made⟩ := Outcome.of_bind_eq_ok made
  obtain ⟨arguments, -, made⟩ := Outcome.of_bind_eq_ok made
  cases made
  rfl

theorem tables_of_ofImage {image : Image.Assembly} (run : Source.ofImage image = .ok source) :
    ∃ data, TableStream.read data = .ok source.tables := by
  obtain ⟨cli, -, run⟩ := Outcome.of_bind_eq_ok run
  obtain ⟨place, -, run⟩ := Outcome.of_bind_eq_ok run
  obtain ⟨headerData, -, run⟩ := Outcome.of_bind_eq_ok run
  obtain ⟨header, -, run⟩ := Outcome.of_bind_eq_ok run
  obtain ⟨offset, -, run⟩ := Outcome.of_bind_eq_ok run
  obtain ⟨data, -, run⟩ := Outcome.of_bind_eq_ok run
  obtain ⟨root, -, run⟩ := Outcome.of_bind_eq_ok run
  obtain ⟨heaps, -, run⟩ := Outcome.of_bind_eq_ok run
  split at run
  · cases run
  · next tables _ =>
    obtain ⟨stream, opened, run⟩ := Outcome.of_bind_eq_ok run
    cases run
    exact ⟨tables, opened⟩

end Source

/-- What a module has of its source. -/
structure LoadedFrom (source : Source) (module : Module) : Prop where
  typeRefs : source.typeRefs = .ok module.typeRefs.toList
  memberRefs : source.memberRefs = .ok module.memberRefs.toList
  methodSpecs : source.methodSpecs = .ok module.methodSpecs.toList
  types : source.types module.typeRefs module.typeSpecs = .ok module.types
  tableRows : module.tableRows = source.tables.summary
  opened : ∃ data, TableStream.read data = .ok source.tables

/-- A loaded module comes from the source in its image. -/
theorem loadedFrom_of_load {path : String} {image : Image.Assembly} {module : Module}
    (run : load path image = .ok module) :
    ∃ source, Source.ofImage image = .ok source ∧ LoadedFrom source module := by
  obtain ⟨source, opened, run⟩ := Outcome.of_bind_eq_ok run
  obtain ⟨moduleRows, -, run⟩ := Outcome.of_bind_eq_ok run
  split at run
  · cases run
  · obtain ⟨name, -, run⟩ := Outcome.of_bind_eq_ok run
    obtain ⟨names, -, run⟩ := Outcome.of_bind_eq_ok run
    obtain ⟨identity, -, run⟩ := Outcome.of_bind_eq_ok run
    obtain ⟨references, -, run⟩ := Outcome.of_bind_eq_ok run
    obtain ⟨typeRefs, typeRefsRun, run⟩ := Outcome.of_bind_eq_ok run
    obtain ⟨typeSpecs, -, run⟩ := Outcome.of_bind_eq_ok run
    obtain ⟨memberRefs, memberRefsRun, run⟩ := Outcome.of_bind_eq_ok run
    obtain ⟨methodSpecs, methodSpecsRun, run⟩ := Outcome.of_bind_eq_ok run
    obtain ⟨localSignatures, -, run⟩ := Outcome.of_bind_eq_ok run
    obtain ⟨types, typesRun, run⟩ := Outcome.of_bind_eq_ok run
    obtain ⟨fieldConstants, -, run⟩ := Outcome.of_bind_eq_ok run
    obtain ⟨attributes, -, run⟩ := Outcome.of_bind_eq_ok run
    obtain ⟨framework, -, run⟩ := Outcome.of_bind_eq_ok run
    cases run
    exact ⟨source, opened, typeRefsRun, memberRefsRun, methodSpecsRun, typesRun, rfl,
      Source.tables_of_ofImage opened⟩

/-- A module counts all rows of its source. -/
theorem LoadedFrom.length_le {source : Source} {module : Module} (loaded : LoadedFrom source module)
    {ρ : Type} [Row ρ] {rows : List (Nat × ρ)} (run : source.rows ρ = .ok rows) :
    rows.length ≤ module.rowCount (Row.table ρ) := by
  obtain ⟨data, opened⟩ := loaded.opened
  rw [rowCount, loaded.tableRows]
  exact TableStream.rows_counted opened run

end Module

end ClrDecompiler
