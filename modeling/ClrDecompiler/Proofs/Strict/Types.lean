/-
This file reads the types of a module and their members with accesses that are made without
asking, and shows that they stay in range whatever the rows name.
-/

import ClrDecompiler.Proofs.Strict.Body
import ClrDecompiler.Proofs.Strict.Source

namespace ClrDecompiler.Strict

open Metadata Signature ClrDecompiler.Module

/-- The place of a pointer is one less than the number of the row. -/
def physical (pointers : Array UInt32) (logical : Nat) : Run Nat :=
  if pointers.isEmpty then .ok logical
  else do
    let index ← difference logical 1
    return (pointers[index]?.getD 0).toNat

def baseName? (rows : Module.Source.TypeRows) (typeRefs : Array TypeReference)
    (base : CodedIndex) : Run (Option String) :=
  if base.isNull then .ok none
  else match base.table with
    | .typeDef => do
      let index ← difference base.row.toNat 1
      return rows.names[index]?.map fun names => qualifiedName names.1 names.2
    | .typeRef => do
      let index ← difference base.row.toNat 1
      return typeRefs[index]?.map (·.qualifiedName)
    | _ => .ok none

namespace Source

variable (source : Source)

def field (number : Nat) (row : FieldRow) : Run FieldDefinition := do
  let blob ← blob source.heaps row.signature
  let name ← string source.heaps row.name
  let type ← parseField.runFrom blob 0
  return { token := Token.ofRow .field number, name, flags := row.flags, type }

/-- The data is asked for what follows the place of the body. -/
def body (address : UInt32) : Run Cil.MethodBody := do
  let offset ← offsetOf source.image address.toNat
  if source.image.data.size < offset then throw (.refused .outOfBounds)
  readBody (source.image.data.extract offset source.image.data.size)

def body? (row : MethodDefRow) : Run (Option Cil.MethodBody) :=
  if row.address ≠ 0 ∧ row.implementation &&& 3 = 0 then attempt (source.body row.address)
  else .ok none

def params (rows : Array ParamRow) (start : Nat) (next : Option Nat) :
    Run (List ParamDefinition) := do
  let found ← (Module.Source.run start next rows.size).mapM fun number => do
    return rows[← difference number 1]?
  (found.filterMap id).mapM fun row => do
    return { sequence := row.sequence, name := ← string source.heaps row.name, flags := row.flags }

def method (paramRows : Array ParamRow) (genericParams : List String) (number : Nat)
    (row : MethodDefRow) (next : Option Nat) : Run MethodDefinition := do
  let name ← string source.heaps row.name
  let signature ← parseMethod.runFrom (← blob source.heaps row.signature) 0
  let params ← source.params paramRows row.params.toNat next
  return {
    token := Token.ofRow .methodDef number
    name, flags := row.flags, implementation := row.implementation, address := row.address
    signature, params, genericParams, body := ← source.body? row }

def typeRows : Run Module.Source.TypeRows := do
  let types ← source.rows TypeDefRow
  let fields ← source.rows FieldRow
  let methods ← source.rows MethodDefRow
  let params ← source.rows ParamRow
  let fieldPointers ← source.rows FieldPtrRow
  let methodPointers ← source.rows MethodPtrRow
  let genericParams ← source.genericParams
  let names ← types.mapM fun (_, row) => do
    return (← string source.heaps row.namespaceName, ← string source.heaps row.name)
  return {
    types := (types.map (·.2)).toArray
    fields := (fields.map (·.2)).toArray
    methods := (methods.map (·.2)).toArray
    params := (params.map (·.2)).toArray
    fieldPointers := (fieldPointers.map (·.2.field)).toArray
    methodPointers := (methodPointers.map (·.2.method)).toArray
    genericParams, names := names.toArray }

variable (rows : Module.Source.TypeRows)

/-- The place of the owner of a field is one less than the number of its row. -/
def fieldAt (logical : Nat) : Run FieldDefinition := do
  let number ← physical rows.fieldPointers logical
  match Module.Source.TypeRows.row? rows.fields number with
  | none => throw (.refused .outOfBounds)
  | some row =>
    let _owner ← difference number 1
    source.field number row

def methodAt (logical : Nat) : Run MethodDefinition := do
  let number ← physical rows.methodPointers logical
  match Module.Source.TypeRows.row? rows.methods number with
  | none => throw (.refused .outOfBounds)
  | some row =>
    let owner := Token.ofRow .methodDef number
    source.method rows.params (Module.Source.namesOf rows.genericParams owner) number row
      (rows.methods[number]?.map (·.params.toNat))

def typeDefinition (typeRefs : Array TypeReference) (typeSpecs : Array TypeSig) (index : Nat)
    (row : TypeDefRow) : Run TypeDefinition := do
  let next := rows.types[index + 1]?
  let (namespaceName, name) ← item rows.names index
  let token := Token.ofRow .typeDef (index + 1)
  let fields ← (Module.Source.run row.fields.toNat (next.map (·.fields.toNat))
    rows.fieldCount).mapM (source.fieldAt rows)
  let methods ← (Module.Source.run row.methods.toNat (next.map (·.methods.toNat))
    rows.methodCount).mapM (source.methodAt rows)
  let baseName ← baseName? rows typeRefs row.baseType
  return {
    token, flags := row.flags, namespaceName, name
    kind := TypeKind.classify row.flags (qualifiedName namespaceName name) baseName
    baseType := if row.baseType.isNull then none
      else some (Module.Source.typeOf row.baseType typeSpecs)
    interfaces := [], genericParams := Module.Source.namesOf rows.genericParams token
    fields, methods, enclosing := none, nested := [] }

/-- Types that are nested or implement interfaces are asked for by number. -/
def types (typeRefs : Array TypeReference) (typeSpecs : Array TypeSig) :
    Run (Array TypeDefinition) := do
  let rows ← source.typeRows
  let declared ← rows.types.toList.zipIdx.mapM fun (row, index) =>
    source.typeDefinition rows typeRefs typeSpecs index row
  let nestings ← source.rows NestedClassRow
  let nested :=
    nestings.foldl (fun types (_, row) => Module.Source.nest types row) declared.toArray
  let implementations ← source.rows InterfaceImplRow
  return implementations.foldl (fun types (_, row) => Module.Source.implement typeSpecs types row)
    (nested.map Module.Source.sortNested)

end Source

/-- A run of rows is counted from one. -/
theorem pos_of_mem_run {start count number : Nat} {next : Option Nat}
    (member : number ∈ Module.Source.run start next count) : 0 < number := by
  rw [Module.Source.run, List.mem_range'_1] at member
  omega

/-- A row is looked up through the pointers, if there are any. -/
theorem physical_eq_ok (pointers : Array UInt32) {logical : Nat} (positive : 0 < logical) :
    physical pointers logical = .ok (Module.Source.physical pointers logical) := by
  rw [physical, Module.Source.physical]
  split
  · rfl
  · rw [difference_eq_ok positive]
    rfl

/-- Only the number of a row above zero is looked up. -/
theorem baseName?_eq_ok (rows : Module.Source.TypeRows) (typeRefs : Array TypeReference)
    (base : CodedIndex) : baseName? rows typeRefs base = .ok (rows.baseName? typeRefs base) := by
  rw [baseName?, Module.Source.TypeRows.baseName?]
  by_cases null : base.row = 0
  · have absent : base.isNull = true := beq_iff_eq.mpr null
    rw [if_pos absent, null]
    cases base.table <;> rfl
  · have present : ¬ base.isNull = true := mt beq_iff_eq.mp null
    have nonzero : ¬ base.row.toNat = 0 := mt (UInt32.toNat_inj (b := 0)).mp null
    rw [if_neg present]
    cases base.table <;>
      simp only [Module.Source.TypeRows.row?, if_neg nonzero,
        difference_eq_ok (Nat.pos_of_ne_zero nonzero)] <;> rfl

/-- Every type has a name. -/
theorem names_of_typeRows {source : Module.Source} {rows : Module.Source.TypeRows}
    (run : source.typeRows = .ok rows) : rows.names.size = rows.types.size := by
  obtain ⟨types, -, run⟩ := Outcome.of_bind_eq_ok run
  obtain ⟨fields, -, run⟩ := Outcome.of_bind_eq_ok run
  obtain ⟨methods, -, run⟩ := Outcome.of_bind_eq_ok run
  obtain ⟨params, -, run⟩ := Outcome.of_bind_eq_ok run
  obtain ⟨fieldPointers, -, run⟩ := Outcome.of_bind_eq_ok run
  obtain ⟨methodPointers, -, run⟩ := Outcome.of_bind_eq_ok run
  obtain ⟨genericParams, -, run⟩ := Outcome.of_bind_eq_ok run
  obtain ⟨names, named, run⟩ := Outcome.of_bind_eq_ok run
  cases run
  have length := (Outcome.forall₂_of_mapM_eq_ok named).length_eq
  rw [List.size_toArray, List.size_toArray, List.length_map, length]

namespace Source.Represents

variable {strict : Strict.Source} {source : Module.Source} (represents : strict.Represents source)
include represents

/-- A field is read as in the model. -/
theorem field (number : Nat) (row : FieldRow) :
    Settles (strict.field number row) (source.field number row) :=
  (represents.blob _).bind fun _ run => (represents.string _).bind fun _ _ =>
    (Follows.ofBlob .parseField (represents.addressable_blob run)).bind fun _ _ => .value _

/-- A method body is loaded alike. -/
theorem body (address : UInt32) : Settles (strict.body address) (source.body address) := by
  obtain ⟨same, mapped, blobs, rows⟩ := represents
  refine (settles_offsetOf mapped _).bind fun offset _ => .guard Iff.rfl fun _ => ?_
  exact settles_readBody (mapped.data.extract _ _)

/-- A body that cannot be read is left out in both. -/
theorem body? (row : MethodDefRow) : strict.body? row = .ok (source.body? row) := by
  rw [Source.body?, Module.Source.body?]
  split
  · exact (represents.body row.address).attempt
  · rfl

/-- The parameters of a method are those up to the first one of the next method. -/
theorem params (rows : Array ParamRow) (start : Nat) (next : Option Nat) :
    Settles (strict.params rows start next) (source.params rows start next) := by
  have found : ((Module.Source.run start next rows.size).mapM fun number => do
      return rows[← difference number 1]?) =
        .ok ((Module.Source.run start next rows.size).map fun number => rows[number - 1]?) := by
    refine mapM_eq_ok fun number member => ?_
    rw [difference_eq_ok (pos_of_mem_run member)]
    rfl
  refine .access found ?_
  rw [Module.Source.params, List.filterMap_map]
  exact Settles.mapM fun row _ => (represents.string _).bind fun _ _ => .value _

/-- A method is read as in the model. -/
theorem method (paramRows : Array ParamRow) (genericParams : List String) (number : Nat)
    (row : MethodDefRow) (next : Option Nat) :
    Settles (strict.method paramRows genericParams number row next)
      (source.method paramRows genericParams number row next) :=
  (represents.string _).bind fun _ _ => (represents.blob _).bind fun _ run =>
    (Follows.ofBlob .parseMethod (represents.addressable_blob run)).bind fun _ _ =>
      (represents.params _ _ _).bind fun _ _ => .access (represents.body? row) (.value _)

/-- All rows that describe types are read as in the model. -/
theorem typeRows : Settles strict.typeRows source.typeRows := by
  refine (represents.rows TypeDefRow).bind fun types _ => ?_
  refine (represents.rows FieldRow).bind fun fields _ => ?_
  refine (represents.rows MethodDefRow).bind fun methods _ => ?_
  refine (represents.rows ParamRow).bind fun params _ => ?_
  refine (represents.rows FieldPtrRow).bind fun fieldPointers _ => ?_
  refine (represents.rows MethodPtrRow).bind fun methodPointers _ => ?_
  refine represents.genericParams.bind fun genericParams _ => ?_
  refine (Settles.mapM fun entry _ => ?_).bind fun names _ => .value _
  exact (represents.string _).bind fun _ _ => (represents.string _).bind fun _ _ => .value _

variable (rows : Module.Source.TypeRows)

/-- A field is found by its number, which starts at one. -/
theorem fieldAt {logical : Nat} (positive : 0 < logical) :
    Settles (strict.fieldAt rows logical)
      (Bytes.orOutOfBounds (Module.Source.TypeRows.row? rows.fields
        (Module.Source.physical rows.fieldPointers logical)) >>= fun row =>
          source.field (Module.Source.physical rows.fieldPointers logical) row) := by
  refine .access (physical_eq_ok rows.fieldPointers positive) ?_
  generalize Module.Source.physical rows.fieldPointers logical = number
  cases found : Module.Source.TypeRows.row? rows.fields number with
  | none => exact .refused _
  | some row =>
    have counted : 0 < number := by
      refine Nat.pos_of_ne_zero fun zero => ?_
      rw [Module.Source.TypeRows.row?, if_pos zero] at found
      cases found
    exact .access (difference_eq_ok counted) (represents.field number row)

/-- A method is found by its number, which starts at one. -/
theorem methodAt {logical : Nat} (positive : 0 < logical) :
    Settles (strict.methodAt rows logical)
      (Bytes.orOutOfBounds (Module.Source.TypeRows.row? rows.methods
        (Module.Source.physical rows.methodPointers logical)) >>= fun row =>
          source.method rows.params
            (Module.Source.namesOf rows.genericParams
              (Token.ofRow .methodDef (Module.Source.physical rows.methodPointers logical)))
            (Module.Source.physical rows.methodPointers logical) row
            (rows.methods[Module.Source.physical rows.methodPointers logical]?.map
              (·.params.toNat))) := by
  refine .access (physical_eq_ok rows.methodPointers positive) ?_
  generalize Module.Source.physical rows.methodPointers logical = number
  cases Module.Source.TypeRows.row? rows.methods number with
  | none => exact .refused _
  | some row => exact represents.method _ _ number row _

/-- A type is read with its fields and methods as in the model. -/
theorem typeDefinition (typeRefs : Array TypeReference) (typeSpecs : Array TypeSig) {index : Nat}
    (inside : index < rows.names.size) (row : TypeDefRow) :
    Settles (strict.typeDefinition rows typeRefs typeSpecs index row)
      (source.typeDefinition rows typeRefs typeSpecs index row) := by
  have named : rows.names[index]? = some rows.names[index] := Array.getElem?_eq_getElem inside
  rw [Module.Source.typeDefinition, Module.Source.TypeRows.fieldNumbers,
    Module.Source.TypeRows.methodNumbers, List.mapM_map, List.mapM_map, named]
  refine .access (item_eq_ok named) ?_
  refine (Settles.mapM fun logical member => represents.fieldAt rows (pos_of_mem_run member)).bind
    fun fields _ => ?_
  refine (Settles.mapM fun logical member => represents.methodAt rows (pos_of_mem_run member)).bind
    fun methods _ => ?_
  exact .access (baseName?_eq_ok rows typeRefs row.baseType) (.value _)

/-- All types are read as in the model. -/
theorem types (typeRefs : Array TypeReference) (typeSpecs : Array TypeSig) :
    Settles (strict.types typeRefs typeSpecs) (source.types typeRefs typeSpecs) := by
  refine represents.typeRows.bind fun rows run => ?_
  have names := names_of_typeRows run
  have inside : ∀ entry ∈ rows.types.toList.zipIdx, entry.2 < rows.names.size := by
    intro entry member
    have below := List.snd_lt_of_mem_zipIdx member
    rwa [Nat.add_zero, Array.length_toList, ← names] at below
  refine (Settles.mapM fun entry member => represents.typeDefinition rows typeRefs typeSpecs
    (inside entry member) entry.1).bind fun types _ => ?_
  refine (represents.rows NestedClassRow).bind fun nestings _ => ?_
  exact (represents.rows InterfaceImplRow).bind fun implementations _ => .value _

end Source.Represents

end ClrDecompiler.Strict
