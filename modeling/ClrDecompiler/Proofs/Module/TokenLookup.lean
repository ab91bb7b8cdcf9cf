/-
This file follows the members of a module from the lists in its rows to the types that are loaded,
and shows that the lookups by token find all declarations of a module and nothing else.
-/

import ClrDecompiler.Metadata.RootBuilder
import ClrDecompiler.Metadata.TableBuilder
import ClrDecompiler.Proofs.Module.Owners

namespace ClrDecompiler.Module

open Metadata Signature

/-- The members of a type, apart from everything else in it. -/
def membersOf (type : TypeDefinition) : List FieldDefinition × List MethodDefinition :=
  (type.fields, type.methods)

namespace Source

/-! The rows that nest types and let them implement interfaces leave the members alone. -/

theorem map_modifyRow {α β : Type} {view : α → β} {change : α → α}
    (keeps : ∀ entry, view (change entry) = view entry) (entries : Array α) (number : Nat) :
    (modifyRow entries number change).map view = entries.map view := by
  apply Array.ext_getElem?
  intro index
  rw [Array.getElem?_map, Array.getElem?_map, getElem?_modifyRow, Option.map_map]
  apply congrArg (Option.map · entries[index]?)
  funext entry
  dsimp only [Function.comp_apply]
  split_ifs
  · exact keeps entry
  · rfl

theorem members_nest (types : Array TypeDefinition) (row : NestedClassRow) :
    (nest types row).map membersOf = types.map membersOf := by
  rw [nest_eq]
  split
  · rw [map_modifyRow, map_modifyRow]
    · exact fun _ => rfl
    · exact fun _ => rfl
  · rfl

theorem members_implement (typeSpecs : Array TypeSig) (types : Array TypeDefinition)
    (row : InterfaceImplRow) :
    (implement typeSpecs types row).map membersOf = types.map membersOf := by
  rw [implement, map_modifyRow]
  exact fun _ => rfl

/-- What no step changes is the same after all steps. -/
theorem foldl_keeps {σ ρ β : Type} (view : σ → β) {step : σ → ρ → σ}
    (keeps : ∀ state row, view (step state row) = view state) (rows : List ρ) (state : σ) :
    view (rows.foldl step state) = view state := by
  induction rows generalizing state with
  | nil => rfl
  | cons row rest ih => rw [List.foldl_cons, ih, keeps]

/-- The links between types do not change their members. -/
theorem members_of_rows (nestings : List (Nat × NestedClassRow))
    (implementations : List (Nat × InterfaceImplRow)) (typeSpecs : Array TypeSig)
    (declared : Array TypeDefinition) :
    (implementations.foldl (fun types (_, row) => implement typeSpecs types row)
      ((nestings.foldl (fun types (_, row) => nest types row) declared).map sortNested)).map
        membersOf = declared.map membersOf := by
  let view (types : Array TypeDefinition) := types.map membersOf
  have sorted (types : Array TypeDefinition) : view (types.map sortNested) = view types :=
    Array.map_map
  refine (foldl_keeps view ?_ implementations _).trans ((sorted _).trans ?_)
  · exact fun types entry => members_implement typeSpecs types entry.2
  · exact foldl_keeps view (fun types entry => members_nest types entry.2) nestings declared

/-! The members of a type are made from the rows in its lists. -/

def fieldAt (source : Source) (rows : TypeRows) (number : Nat) : Except Fault FieldDefinition := do
  source.field number (← Bytes.orOutOfBounds (TypeRows.row? rows.fields number))

def methodAt (source : Source) (rows : TypeRows) (number : Nat) :
    Except Fault MethodDefinition := do
  let found ← Bytes.orOutOfBounds (TypeRows.row? rows.methods number)
  let owner := Token.ofRow .methodDef number
  source.method rows.params (namesOf rows.genericParams owner) number found
    (rows.methods[number]?.map (·.params.toNat))

/-- The numbers of the field rows of all types. -/
def TypeRows.fieldLists (rows : TypeRows) : List (List Nat) :=
  rows.types.toList.zipIdx.map fun (row, index) => rows.fieldNumbers index row

def TypeRows.methodLists (rows : TypeRows) : List (List Nat) :=
  rows.types.toList.zipIdx.map fun (row, index) => rows.methodNumbers index row

theorem TypeRows.of_row?_eq_some {α : Type} {rows : Array α} {number : Nat} {row : α}
    (found : TypeRows.row? rows number = some row) : 0 < number ∧ number ≤ rows.size := by
  by_contra outside
  rw [Option.isNone_iff_eq_none.mp ((row?_isNone rows number).mpr outside)] at found
  cases found

variable {source : Source} {rows : TypeRows}

/-- A field that is read has the token of its row. -/
theorem fieldAt_eq_ok {number : Nat} {field : FieldDefinition}
    (run : source.fieldAt rows number = .ok field) :
    field.token = Token.ofRow .field number ∧ 0 < number ∧ number ≤ rows.fields.size := by
  obtain ⟨row, found, run⟩ := Outcome.of_bind_eq_ok run
  obtain ⟨blob, -, run⟩ := Outcome.of_bind_eq_ok run
  obtain ⟨name, -, run⟩ := Outcome.of_bind_eq_ok run
  obtain ⟨type, -, run⟩ := Outcome.of_bind_eq_ok run
  cases run
  exact ⟨rfl, TypeRows.of_row?_eq_some (Bytes.orOutOfBounds_eq_ok found)⟩

/-- A method that is read has the token of its row. -/
theorem methodAt_eq_ok {number : Nat} {method : MethodDefinition}
    (run : source.methodAt rows number = .ok method) :
    method.token = Token.ofRow .methodDef number ∧ 0 < number ∧ number ≤ rows.methods.size := by
  obtain ⟨row, found, run⟩ := Outcome.of_bind_eq_ok run
  obtain ⟨name, -, run⟩ := Outcome.of_bind_eq_ok run
  obtain ⟨blob, -, run⟩ := Outcome.of_bind_eq_ok run
  obtain ⟨signature, -, run⟩ := Outcome.of_bind_eq_ok run
  obtain ⟨params, -, run⟩ := Outcome.of_bind_eq_ok run
  cases run
  exact ⟨rfl, TypeRows.of_row?_eq_some (Bytes.orOutOfBounds_eq_ok found)⟩

/-- The members of a type are read by their numbers. -/
theorem typeDefinition_members {typeRefs : Array TypeReference} {typeSpecs : Array TypeSig}
    {index : Nat} {row : TypeDefRow} {type : TypeDefinition}
    (run : source.typeDefinition rows typeRefs typeSpecs index row = .ok type) :
    (rows.fieldNumbers index row).mapM (source.fieldAt rows) = .ok type.fields ∧
      (rows.methodNumbers index row).mapM (source.methodAt rows) = .ok type.methods := by
  obtain ⟨fields, fieldsRun, run⟩ := Outcome.of_bind_eq_ok run
  obtain ⟨methods, methodsRun, run⟩ := Outcome.of_bind_eq_ok run
  cases run
  exact ⟨fieldsRun, methodsRun⟩

/-- The types that are loaded have the members of the rows in their lists. -/
theorem types_members {typeRefs : Array TypeReference} {typeSpecs : Array TypeSig}
    {types : Array TypeDefinition} (run : source.types typeRefs typeSpecs = .ok types) :
    ∃ rows, source.typeRows = .ok rows ∧
      List.Forall₂ (fun type list => list.mapM (source.fieldAt rows) = .ok type.fields)
        types.toList rows.fieldLists ∧
      List.Forall₂ (fun type list => list.mapM (source.methodAt rows) = .ok type.methods)
        types.toList rows.methodLists := by
  obtain ⟨rows, rowsRun, run⟩ := Outcome.of_bind_eq_ok run
  obtain ⟨declared, declaredRun, run⟩ := Outcome.of_bind_eq_ok run
  obtain ⟨nestings, -, run⟩ := Outcome.of_bind_eq_ok run
  obtain ⟨implementations, -, run⟩ := Outcome.of_bind_eq_ok run
  cases run
  refine ⟨rows, rowsRun, ?_⟩
  have each := Outcome.forall₂_of_mapM_eq_ok declaredRun
  -- What the members are is known of the declared types, and the later rows keep it.
  have kept := congrArg Array.toList
    (members_of_rows nestings implementations typeSpecs declared.toArray)
  rw [Array.toList_map, Array.toList_map] at kept
  have made : List.Forall₂ (fun (fields, methods) (row, index) =>
      (rows.fieldNumbers index row).mapM (source.fieldAt rows) = .ok fields ∧
        (rows.methodNumbers index row).mapM (source.methodAt rows) = .ok methods)
      (declared.map membersOf) rows.types.toList.zipIdx := by
    rw [List.forall₂_map_left_iff]
    exact (each.imp fun _ _ run => typeDefinition_members run).flip
  rw [← kept, List.forall₂_map_left_iff] at made
  constructor
  · rw [TypeRows.fieldLists, List.forall₂_map_right_iff]
    exact made.imp fun _ _ members => members.1
  · rw [TypeRows.methodLists, List.forall₂_map_right_iff]
    exact made.imp fun _ _ members => members.2

theorem memberRows_size (run : source.typeRows = .ok rows) :
    ∃ fields methods, source.rows FieldRow = .ok fields ∧
      source.rows MethodDefRow = .ok methods ∧ rows.fields.size = fields.length ∧
      rows.methods.size = methods.length := by
  obtain ⟨types, -, run⟩ := Outcome.of_bind_eq_ok run
  obtain ⟨fields, fieldsRead, run⟩ := Outcome.of_bind_eq_ok run
  obtain ⟨methods, methodsRead, run⟩ := Outcome.of_bind_eq_ok run
  obtain ⟨params, -, run⟩ := Outcome.of_bind_eq_ok run
  obtain ⟨fieldPointers, -, run⟩ := Outcome.of_bind_eq_ok run
  obtain ⟨methodPointers, -, run⟩ := Outcome.of_bind_eq_ok run
  obtain ⟨genericParams, -, run⟩ := Outcome.of_bind_eq_ok run
  obtain ⟨names, -, run⟩ := Outcome.of_bind_eq_ok run
  cases run
  refine ⟨fields, methods, fieldsRead, methodsRead, ?_, ?_⟩ <;>
    rw [List.size_toArray, List.length_map]

/-- The types stand at the numbers of their rows. -/
theorem types_numbered {typeRefs : Array TypeReference} {typeSpecs : Array TypeSig}
    {types : Array TypeDefinition} (run : source.types typeRefs typeSpecs = .ok types) :
    IsNumbered TypeDefinition.token .typeDef types := by
  obtain ⟨declared, nestings, -, -, -, has⟩ := types_links run
  intro index type listed
  exact congrArg (·.1) (has index type listed)

end Source

namespace LoadedFrom

variable {source : Source} {module : Module} (loaded : LoadedFrom source module)
  (few : ∀ table, module.rowCount table < 0x1000000)

include loaded few

/-- There are fewer rows than tokens for them. -/
theorem length_lt {ρ : Type} [Row ρ] {rows : List (Nat × ρ)} (read : source.rows ρ = .ok rows) :
    rows.length < 0x1000000 :=
  Nat.lt_of_le_of_lt (loaded.length_le read) (few _)

theorem types_lt : module.types.size < 0x1000000 := by
  obtain ⟨declared, nestings, declaredRun, size, -⟩ := Source.types_links loaded.types
  obtain ⟨rows, read, count⟩ := Source.typeRows_size declaredRun
  rw [size, count]
  exact loaded.length_lt few read

/-- Types are found by their tokens, and by no others. -/
theorem findsTypes : FindsEntries TypeDefinition.token module.types module.type? :=
  findsEntries_listed? (Source.types_numbered loaded.types) (loaded.types_lt few)

/-- Entries of the rows of a table are found by their tokens. -/
theorem findsEntries {ρ α : Type} [Row ρ] {tokenOf : α → Token} {entries : Array α}
    (made : ∃ rows, source.rows ρ = .ok rows ∧
      IsNumbered tokenOf (Row.table ρ) entries ∧ entries.size = rows.length) :
    FindsEntries tokenOf entries (listed? (Row.table ρ) entries) := by
  obtain ⟨rows, read, numbered, size⟩ := made
  apply findsEntries_listed? numbered
  rw [size]
  exact loaded.length_lt few read

theorem findsTypeRefs : FindsEntries TypeReference.token module.typeRefs module.typeRef? :=
  loaded.findsEntries few (Source.typeRefs_numbered loaded.typeRefs)

/-- References to members are found by their tokens, and by no others. -/
theorem findsMemberRefs : FindsEntries MemberReference.token module.memberRefs module.memberRef? :=
  loaded.findsEntries few (Source.memberRefs_numbered loaded.memberRefs)

theorem findsMethodSpecs :
    FindsEntries MethodSpecification.token module.methodSpecs module.methodSpec? :=
  loaded.findsEntries few (Source.methodSpecs_numbered loaded.methodSpecs)

/-- The members of all types are those of the rows in the lists. -/
theorem lists : ∃ rows, source.typeRows = .ok rows ∧
    Lists module .field (·.fields) FieldDefinition.token rows.fields.size (source.fieldAt rows)
      rows.fieldLists ∧
    Lists module .methodDef (·.methods) MethodDefinition.token rows.methods.size
      (source.methodAt rows) rows.methodLists := by
  obtain ⟨rows, rowsRun, fields, methods⟩ := Source.types_members loaded.types
  obtain ⟨fieldRows, methodRows, fieldsRead, methodsRead, fieldCount, methodCount⟩ :=
    Source.memberRows_size rowsRun
  have fewFields : rows.fields.size < 0x1000000 := fieldCount ▸ loaded.length_lt few fieldsRead
  have fewMethods : rows.methods.size < 0x1000000 := methodCount ▸ loaded.length_lt few methodsRead
  have small := loaded.types_lt few
  exact ⟨rows, rowsRun, ⟨fields, fun _ _ => Source.fieldAt_eq_ok, fewFields, small⟩,
    ⟨methods, fun _ _ => Source.methodAt_eq_ok, fewMethods, small⟩⟩

end LoadedFrom

/-- The tokens of a module lead to its declarations and to nothing else. A member is found by the
last type with its row, in whatever order the lists have the rows and however often they do. -/
theorem lookups_of_load {path : String} {image : Image.Assembly} {module : Module}
    (run : load path image = .ok module) (few : ∀ table, module.rowCount table < 0x1000000) :
    FindsEntries TypeDefinition.token module.types module.type? ∧
      FindsEntries TypeReference.token module.typeRefs module.typeRef? ∧
      FindsEntries MemberReference.token module.memberRefs module.memberRef? ∧
      FindsEntries MethodSpecification.token module.methodSpecs module.methodSpec? ∧
      FindsMembers module (·.methods) MethodDefinition.token module.method? ∧
      FindsMembers module (·.fields) FieldDefinition.token module.field? ∧
      ∃ source rows, Source.ofImage image = .ok source ∧ source.typeRows = .ok rows ∧
        ∀ token,
          module.method? token = module.owned? .methodDef (·.methods)
            (ownersOf rows.methods.size rows.methodLists) token ∧
          module.field? token = module.owned? .field (·.fields)
            (ownersOf rows.fields.size rows.fieldLists) token := by
  obtain ⟨source, opened, loaded⟩ := loadedFrom_of_load run
  obtain ⟨rows, rowsRun, fields, methods⟩ := loaded.lists few
  refine ⟨loaded.findsTypes few, loaded.findsTypeRefs few, loaded.findsMemberRefs few,
    loaded.findsMethodSpecs few, methods.findsMembers, fields.findsMembers, ?_⟩
  exact ⟨source, rows, opened, rowsRun, fun token =>
    ⟨methods.member?_eq_owned? token, fields.member?_eq_owned? token⟩⟩

/-! A small image: the lists of three types have the second row, the first and the second again. -/

section Sample

open Bytes

def pointedRows : List (TableId × List UInt32) :=
  [(.module, [0, 0, 0, 0, 0]), (.typeDef, [0, 0, 0, 0, 1, 1]), (.typeDef, [0, 0, 0, 0, 2, 2]),
    (.typeDef, [0, 0, 0, 0, 3, 3]), (.fieldPtr, [2]), (.fieldPtr, [1]), (.fieldPtr, [2]),
    (.field, [0, 0, 1]), (.field, [0, 0, 1]), (.methodPtr, [2]), (.methodPtr, [1]),
    (.methodPtr, [2]), (.methodDef, [0, 0, 0, 0, 4, 1]), (.methodDef, [0, 0, 0, 0, 4, 1])]

/-- The signatures of a field that holds a number and of a method without parameters. -/
def pointedSignatures : Bytes :=
  #[0x00, 0x02, 0x06, 0x08, 0x03, 0x00, 0x00, 0x01]

def pointedMetadata : Except Fault Bytes := do
  let tables ← TableBuilder.build ⟨pointedRows⟩ #[] #[] pointedSignatures [] 0
  Root.build "v4" [("#~", tables), ("#Blob", pointedSignatures)]

/-- The header of managed code and the metadata after it make up the only section, which has the
same place in memory as in the file. -/
def imageOf (metadata : List UInt8) : Bytes :=
  let cli := littleEndian 4 72 ++ littleEndian 4 0 ++
    (littleEndian 4 0x1A0 ++ littleEndian 4 metadata.length) ++ List.replicate 56 0
  let start := [0x4D, 0x5A] ++ List.replicate 58 0 ++ littleEndian 4 0x40
  let header := [0x50, 0x45, 0x00, 0x00] ++ littleEndian 2 0x14C ++ littleEndian 2 1 ++
    List.replicate 12 0 ++ littleEndian 2 216 ++ littleEndian 2 0
  let optional := littleEndian 2 0x10B ++ List.replicate 34 0 ++ littleEndian 4 1 ++
    List.replicate 52 0 ++ littleEndian 4 15 ++ List.replicate 112 0 ++
    (littleEndian 4 0x158 ++ littleEndian 4 72)
  let size := littleEndian 4 (cli ++ metadata).length
  let part := List.replicate 8 0 ++ (size ++ littleEndian 4 0x158) ++
    (size ++ littleEndian 4 0x158) ++ List.replicate 16 0
  (start ++ header ++ optional ++ part ++ cli ++ metadata).toArray

def pointedImage : Bytes :=
  imageOf (pointedMetadata.toOption.getD #[]).toList

/-- The first row has the second type for its owner, and the second row the third type. -/
def HasPointedOwners (module : Module) : Prop :=
  ∀ row ∈ [1, 2],
    (module.method? (Token.ofRow .methodDef row)).map (·.1.token) =
        some (Token.ofRow .typeDef (row + 1)) ∧
      (module.field? (Token.ofRow .field row)).map (·.1.token) =
        some (Token.ofRow .typeDef (row + 1))

instance (module : Module) : Decidable (HasPointedOwners module) :=
  inferInstanceAs (Decidable (∀ row ∈ [1, 2], _))

end Sample

theorem lookups_of_load_pointed :
    ∃ image module, Image.Assembly.read pointedImage = .ok image ∧ load "" image = .ok module ∧
      (∀ table, module.rowCount table < 0x1000000) ∧
      FindsMembers module (·.methods) MethodDefinition.token module.method? ∧
      FindsMembers module (·.fields) FieldDefinition.token module.field? ∧
      HasPointedOwners module := by
  have accepted : (ofBytes "" pointedImage).toOption.any (fun module =>
      (∀ table ∈ TableId.all, module.rowCount table < 0x1000000) ∧ HasPointedOwners module) =
        true := by decide +kernel
  rw [ofBytes] at accepted
  cases opened : Image.Assembly.read pointedImage with
  | error fault =>
    rw [opened] at accepted
    cases accepted
  | ok image =>
    rw [opened] at accepted
    change (load "" image).toOption.any _ = true at accepted
    cases run : load "" image with
    | error fault =>
      rw [run] at accepted
      cases accepted
    | ok module =>
      rw [run] at accepted
      obtain ⟨few, owners⟩ := of_decide_eq_true accepted
      have small (table : TableId) := few table (TableId.mem_all table)
      obtain ⟨-, -, -, -, methods, fields, -⟩ := lookups_of_load run small
      exact ⟨image, module, rfl, run, small, methods, fields, owners⟩

end ClrDecompiler.Module
