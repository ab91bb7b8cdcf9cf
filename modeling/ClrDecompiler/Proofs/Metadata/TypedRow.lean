/-
This file compares rows with the numbers that are stored for them: what each type of rows says
of each column of its table.
-/

import ClrDecompiler.Proofs.Metadata.RowReader
import Mathlib.Data.List.Forall2

namespace ClrDecompiler.Metadata

/-- What a row says of one column of its table. -/
inductive Cell where
  | dropped
  | lowByte (value : UInt8)
  | word16 (value : UInt16)
  | word32 (value : UInt32)
  | coded (kind : CodedKind) (index : CodedIndex)
  deriving DecidableEq, Repr

namespace Cell

/-- The stored number is the one that the row speaks of. -/
def Agrees : Cell → UInt32 → Prop
  | .dropped, _ => True
  | .lowByte value, raw => raw.toNat % 256 = value.toNat
  | .word16 value, raw => raw = value.toUInt32
  | .word32 value, raw => raw = value
  | .coded kind index, raw => (Column.coded kind).Stores raw index

/-- The first cell says at most what the second one says. -/
inductive Weakens : Cell → Cell → Prop where
  | same (cell : Cell) : Weakens cell cell
  | dropped (cell : Cell) : Weakens .dropped cell
  | lowByte (value : UInt16) : Weakens (.lowByte value.toUInt8) (.word16 value)

theorem Weakens.agrees {weak cell : Cell} {raw : UInt32} (weakens : Weakens weak cell)
    (agrees : cell.Agrees raw) : weak.Agrees raw := by
  cases weakens with
  | same => exact agrees
  | dropped => trivial
  | lowByte value =>
    cases agrees
    change value.toUInt32.toNat % 256 = value.toUInt8.toNat
    rw [UInt16.toNat_toUInt32, UInt16.toNat_toUInt8]

/-- Cells that say less agree with whatever the others agree with. -/
theorem agrees_of_weakens {weak cells : List Cell} {raws : List UInt32}
    (weakens : List.Forall₂ Weakens weak cells) (agrees : List.Forall₂ Agrees cells raws) :
    List.Forall₂ Agrees weak raws := by
  induction weakens generalizing raws with
  | nil => exact agrees
  | cons head tail ih =>
    cases agrees with
    | cons first later => exact .cons (head.agrees first) (ih later)

end Cell

def Column.cell : (column : Column) → column.Value → Cell
  | .word16, value => .word16 value
  | .word32, value => .word32 value
  | .string, value => .word32 value
  | .guid, value => .word32 value
  | .blob, value => .word32 value
  | .row _, value => .word32 value
  | .coded kind, value => .coded kind value

theorem Column.cell_agrees {column : Column} {raw : UInt32} {value : column.Value}
    (stores : column.Stores raw value) : (column.cell value).Agrees raw := by
  cases column <;> exact stores

def Values.cells : {columns : List Column} → Values columns → List Cell
  | [], _ => []
  | column :: _, (value, values) => column.cell value :: Values.cells values

/-- The values of a row agree with the numbers that stand for them. -/
theorem Values.cells_agree {columns : List Column} {raws : List UInt32} {values : Values columns}
    (stores : StoresAll columns raws values) : List.Forall₂ Cell.Agrees values.cells raws := by
  induction columns generalizing raws with
  | nil =>
    cases stores
    exact .nil
  | cons column columns ih =>
    obtain ⟨value, values⟩ := values
    obtain ⟨raw, others, rfl, first, later⟩ := stores
    exact .cons (Column.cell_agrees first) (ih later)

/-- A type of rows whose fields are known to be the columns of the table. -/
class TypedRow (ρ : Type) [Row ρ] extends ReadsColumns ρ where
  cells : ρ → List Cell
  weakens : ∀ values : Values (Row.table ρ).columns,
    List.Forall₂ Cell.Weakens (cells (ofValues values)) values.cells

/-- A row agrees with the numbers that its values are stored as. -/
theorem TypedRow.cells_agree {ρ : Type} [Row ρ] [TypedRow ρ] {raws : List UInt32}
    {values : Values (Row.table ρ).columns} (stores : StoresAll (Row.table ρ).columns raws values) :
    List.Forall₂ Cell.Agrees (cells (ReadsColumns.ofValues values : ρ)) raws :=
  Cell.agrees_of_weakens (weakens values) (Values.cells_agree stores)

section

open Cell

/-- Rows that say everything of their columns. -/
theorem weakens_all (cells : List Cell) : List.Forall₂ Weakens cells cells :=
  List.forall₂_same.mpr fun cell _ => .same cell

instance : TypedRow ModuleRow where
  cells row := [dropped, word32 row.name, word32 row.mvid, dropped, dropped]
  weakens _ := .cons (.dropped _) (.cons (.same _) (.cons (.same _)
    (.cons (.dropped _) (.cons (.dropped _) .nil))))

instance : TypedRow TypeRefRow where
  cells row := [coded .resolutionScope row.scope, word32 row.name, word32 row.namespaceName]
  weakens _ := weakens_all _

instance : TypedRow TypeDefRow where
  cells row := [word32 row.flags, word32 row.name, word32 row.namespaceName,
    coded .typeDefOrRef row.baseType, word32 row.fields, word32 row.methods]
  weakens _ := weakens_all _

instance : TypedRow FieldPtrRow where
  cells row := [word32 row.field]
  weakens _ := weakens_all _

instance : TypedRow FieldRow where
  cells row := [word16 row.flags, word32 row.name, word32 row.signature]
  weakens _ := weakens_all _

instance : TypedRow MethodPtrRow where
  cells row := [word32 row.method]
  weakens _ := weakens_all _

instance : TypedRow MethodDefRow where
  cells row := [word32 row.address, word16 row.implementation, word16 row.flags,
    word32 row.name, word32 row.signature, word32 row.params]
  weakens _ := weakens_all _

instance : TypedRow ParamRow where
  cells row := [word16 row.flags, word16 row.sequence, word32 row.name]
  weakens _ := weakens_all _

instance : TypedRow InterfaceImplRow where
  cells row := [word32 row.implementer, coded .typeDefOrRef row.implemented]
  weakens _ := weakens_all _

instance : TypedRow MemberRefRow where
  cells row := [coded .memberRefParent row.parent, word32 row.name, word32 row.signature]
  weakens _ := weakens_all _

instance : TypedRow ConstantRow where
  cells row := [lowByte row.elementType, coded .hasConstant row.parent, word32 row.value]
  weakens _ := .cons (.lowByte _) (weakens_all _)

instance : TypedRow CustomAttributeRow where
  cells row := [coded .hasCustomAttribute row.parent,
    coded .customAttributeType row.constructor, word32 row.value]
  weakens _ := weakens_all _

instance : TypedRow StandAloneSigRow where
  cells row := [word32 row.signature]
  weakens _ := weakens_all _

instance : TypedRow TypeSpecRow where
  cells row := [word32 row.signature]
  weakens _ := weakens_all _

instance : TypedRow AssemblyRow where
  cells row := [dropped, word16 row.version.major, word16 row.version.minor,
    word16 row.version.build, word16 row.version.revision, word32 row.flags, word32 row.key,
    word32 row.name, word32 row.culture]
  weakens _ := .cons (.dropped _) (weakens_all _)

instance : TypedRow AssemblyRefRow where
  cells row := [word16 row.version.major, word16 row.version.minor, word16 row.version.build,
    word16 row.version.revision, word32 row.flags, word32 row.key, word32 row.name,
    word32 row.culture, dropped]
  weakens _ := .cons (.same _) (.cons (.same _) (.cons (.same _) (.cons (.same _)
    (.cons (.same _) (.cons (.same _) (.cons (.same _) (.cons (.same _)
      (.cons (.dropped _) .nil))))))))

instance : TypedRow NestedClassRow where
  cells row := [word32 row.nested, word32 row.enclosing]
  weakens _ := weakens_all _

instance : TypedRow GenericParamRow where
  cells row := [word16 row.number, word16 row.flags, coded .typeOrMethodDef row.owner,
    word32 row.name]
  weakens _ := weakens_all _

instance : TypedRow MethodSpecRow where
  cells row := [coded .methodDefOrRef row.method, word32 row.instantiation]
  weakens _ := weakens_all _

instance : TypedRow DocumentRow where
  cells row := [word32 row.name, word32 row.algorithm, word32 row.hash, word32 row.language]
  weakens _ := weakens_all _

instance : TypedRow MethodDebugInformationRow where
  cells row := [word32 row.document, word32 row.points]
  weakens _ := weakens_all _

end

/-- A type of rows with its reader and with what it says of its columns. -/
structure RowType where
  type : Type
  [row : Row type]
  [typed : TypedRow type]

attribute [instance] RowType.row RowType.typed

/-- The types as which the rows of tables are read. -/
def RowType.all : List RowType :=
  [⟨ModuleRow⟩, ⟨TypeRefRow⟩, ⟨TypeDefRow⟩, ⟨FieldPtrRow⟩, ⟨FieldRow⟩, ⟨MethodPtrRow⟩,
    ⟨MethodDefRow⟩, ⟨ParamRow⟩, ⟨InterfaceImplRow⟩, ⟨MemberRefRow⟩, ⟨ConstantRow⟩,
    ⟨CustomAttributeRow⟩, ⟨StandAloneSigRow⟩, ⟨TypeSpecRow⟩, ⟨AssemblyRow⟩, ⟨AssemblyRefRow⟩,
    ⟨NestedClassRow⟩, ⟨GenericParamRow⟩, ⟨MethodSpecRow⟩, ⟨DocumentRow⟩,
    ⟨MethodDebugInformationRow⟩]

/-- No two types of rows are read from the same table. -/
theorem RowType.tables_nodup : (all.map fun kind => Row.table kind.type).Nodup := by
  decide +kernel

end ClrDecompiler.Metadata
