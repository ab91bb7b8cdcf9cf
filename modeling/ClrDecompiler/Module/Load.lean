/-
This file loads modules: the rows of the metadata tables become types with their members,
references and constants.
-/

import ClrDecompiler.Metadata.Heap
import ClrDecompiler.Metadata.Root
import ClrDecompiler.Metadata.TableStream
import ClrDecompiler.Module.Lookup
import ClrDecompiler.Signature.Reader

namespace ClrDecompiler.Module

open Metadata Signature

structure Heaps where
  strings : Option StringHeap
  blobs : Option BlobHeap
  guids : Option GuidHeap
  userStrings : Bytes

namespace Heaps

def ofRoot (root : Root) (data : Bytes) : Except Fault Heaps := do
  let strings ← (root.streamData? data "#Strings").mapM StringHeap.ofBytes
  let blobs ← (root.streamData? data "#Blob").mapM BlobHeap.ofBytes
  let guids ← (root.streamData? data "#GUID").mapM GuidHeap.ofBytes
  return { strings, blobs, guids, userStrings := (root.streamData? data "#US").getD #[] }

/-- Index zero is the empty text whether there is a heap or not. -/
def string (heaps : Heaps) (index : UInt32) : Except Fault String :=
  if index = 0 then .ok ""
  else match heaps.strings with
    | some strings => strings.get index.toNat
    | none => .error (.malformed .stringHeapMissing)

def blob (heaps : Heaps) (index : UInt32) : Except Fault Bytes :=
  if index = 0 then .ok #[]
  else match heaps.blobs with
    | some blobs => blobs.get index.toNat
    | none => .error (.malformed .blobHeapMissing)

def guid? (heaps : Heaps) (index : UInt32) : Option Bytes := do
  (← heaps.guids).get index.toNat |>.toOption

end Heaps

/-- What the parts of a module are loaded from. -/
structure Source where
  image : Image.Assembly
  root : Root
  header : CliHeader
  heaps : Heaps
  tables : TableStream

namespace Source

def ofImage (image : Image.Assembly) : Except Fault Source := do
  let cli ← image.cli
  let header ← CliHeader.read (← image.slice (← image.offset cli.address.toNat) cli.size.toNat)
  let offset ← image.offset header.metadata.address.toNat
  let data ← image.slice offset header.metadata.size.toNat
  let root ← Root.read data
  let heaps ← Heaps.ofRoot root data
  match root.tablesData? data with
  | none => throw (.malformed .tablesMissing)
  | some tables => return { image, root, header, heaps, tables := ← TableStream.read tables }

def rows (ρ : Type) [Row ρ] (source : Source) : Except Fault (List (Nat × ρ)) :=
  source.tables.rows ρ

def identity (source : Source) (name : UInt32) (version : Version) (culture flags key : UInt32) :
    Except Fault AssemblyIdentity := do
  let name ← source.heaps.string name
  let culture ← source.heaps.string culture
  return AssemblyIdentity.ofRow name version culture flags (← source.heaps.blob key)

def ownIdentity (source : Source) : Except Fault (Option AssemblyIdentity) := do
  match ← source.rows AssemblyRow with
  | [] => return none
  | (_, row) :: _ =>
    return some (← source.identity row.name row.version row.culture row.flags row.key)

def references (source : Source) : Except Fault (List AssemblyIdentity) := do
  (← source.rows AssemblyRefRow).mapM fun (_, row) =>
    source.identity row.name row.version row.culture row.flags row.key

def typeRefs (source : Source) : Except Fault (List TypeReference) := do
  (← source.rows TypeRefRow).mapM fun (number, row) => do
    let namespaceName ← source.heaps.string row.namespaceName
    let name ← source.heaps.string row.name
    return { token := Token.ofRow .typeRef number, scope := row.scope, namespaceName, name }

/-- A type that cannot be read is unknown. -/
def typeSpecs (source : Source) : Except Fault (List TypeSig) := do
  (← source.rows TypeSpecRow).mapM fun (_, row) => do
    let blob ← source.heaps.blob row.signature
    return (ofBlob readTypeSpec blob).toOption.getD .unknown

def memberSig (blob : Bytes) : Except Fault MemberSig :=
  if blob[0]? = some 0x06 then .field <$> ofBlob readField blob
  else .method <$> ofBlob readMethod blob

def memberRefs (source : Source) : Except Fault (List MemberReference) := do
  (← source.rows MemberRefRow).mapM fun (number, row) => do
    let signature ← memberSig (← source.heaps.blob row.signature)
    let name ← source.heaps.string row.name
    return { token := Token.ofRow .memberRef number, parent := row.parent, name, signature }

def methodSpecs (source : Source) : Except Fault (List MethodSpecification) := do
  (← source.rows MethodSpecRow).mapM fun (number, row) => do
    let arguments ← ofBlob readMethodSpec (← source.heaps.blob row.instantiation)
    return { token := Token.ofRow .methodSpec number, method := row.method.token, arguments }

/-- Signatures of another kind and those that cannot be read are left out. -/
def localSignatures (source : Source) : Except Fault (List (Option (List TypeSig))) := do
  (← source.rows StandAloneSigRow).mapM fun (_, row) => do
    let blob ← source.heaps.blob row.signature
    return if blob[0]? = some 0x07 then (ofBlob readLocals blob).toOption else none

/-- A run of rows ends where the next one starts, and within the table. -/
def run (start : Nat) (next : Option Nat) (count : Nat) : List Nat :=
  let stop := min (next.getD (count + 1)) (count + 1)
  let first := min (max start 1) stop
  List.range' first (stop - first)

/-- A table of pointers rearranges the rows of another. -/
def physical (pointers : Array UInt32) (logical : Nat) : Nat :=
  if pointers.isEmpty then logical else (pointers[logical - 1]?.getD 0).toNat

/-- The names of the type parameters of every owner, by their numbers. -/
def genericParams (source : Source) : Except Fault (List (Token × UInt16 × String)) := do
  let params ← (← source.rows GenericParamRow).mapM fun (_, row) => do
    return (row.owner.token, row.number, ← source.heaps.string row.name)
  return params.mergeSort fun first second => first.2.1 ≤ second.2.1

def namesOf (params : List (Token × UInt16 × String)) (owner : Token) : List String :=
  params.filterMap fun (token, _, name) => if token == owner then some name else none

def typeOf (index : CodedIndex) (typeSpecs : Array TypeSig) : TypeSig :=
  if index.table = .typeSpec then
    if index.isNull then .unknown else (typeSpecs[index.row.toNat - 1]?).getD .unknown
  else .classType index.token

def field (source : Source) (number : Nat) (row : FieldRow) : Except Fault FieldDefinition := do
  let blob ← source.heaps.blob row.signature
  let name ← source.heaps.string row.name
  let type ← ofBlob readField blob
  return { token := Token.ofRow .field number, name, flags := row.flags, type }

def body (source : Source) (address : UInt32) : Except Fault Cil.MethodBody := do
  let offset ← source.image.offset address.toNat
  if source.image.data.size < offset then throw .outOfBounds
  Cil.MethodBody.read (source.image.data.extract offset source.image.data.size)

/-- Only code of the intermediate language is read. A body that cannot be read is left out. -/
def body? (source : Source) (row : MethodDefRow) : Option Cil.MethodBody :=
  if row.address ≠ 0 ∧ row.implementation &&& 3 = 0 then (source.body row.address).toOption
  else none

def params (source : Source) (rows : Array ParamRow) (start : Nat) (next : Option Nat) :
    Except Fault (List ParamDefinition) :=
  (run start next rows.size).filterMap (fun number => rows[number - 1]?) |>.mapM fun row => do
    return { sequence := row.sequence, name := ← source.heaps.string row.name, flags := row.flags }

def method (source : Source) (paramRows : Array ParamRow) (genericParams : List String)
    (number : Nat) (row : MethodDefRow) (next : Option Nat) : Except Fault MethodDefinition := do
  let name ← source.heaps.string row.name
  let signature ← ofBlob readMethod (← source.heaps.blob row.signature)
  let params ← source.params paramRows row.params.toNat next
  return {
    token := Token.ofRow .methodDef number
    name, flags := row.flags, implementation := row.implementation, address := row.address
    signature, params, genericParams, body := source.body? row }

/-- The rows that make up the types. -/
structure TypeRows where
  types : Array TypeDefRow
  fields : Array FieldRow
  methods : Array MethodDefRow
  params : Array ParamRow
  fieldPointers : Array UInt32
  methodPointers : Array UInt32
  genericParams : List (Token × UInt16 × String)
  names : Array (String × String)

def typeRows (source : Source) : Except Fault TypeRows := do
  let types ← source.rows TypeDefRow
  let fields ← source.rows FieldRow
  let methods ← source.rows MethodDefRow
  let params ← source.rows ParamRow
  let fieldPointers ← source.rows FieldPtrRow
  let methodPointers ← source.rows MethodPtrRow
  let genericParams ← source.genericParams
  let names ← types.mapM fun (_, row) => do
    return (← source.heaps.string row.namespaceName, ← source.heaps.string row.name)
  return {
    types := (types.map (·.2)).toArray
    fields := (fields.map (·.2)).toArray
    methods := (methods.map (·.2)).toArray
    params := (params.map (·.2)).toArray
    fieldPointers := (fieldPointers.map (·.2.field)).toArray
    methodPointers := (methodPointers.map (·.2.method)).toArray
    genericParams, names := names.toArray }

namespace TypeRows

def fieldCount (rows : TypeRows) : Nat :=
  if rows.fieldPointers.isEmpty then rows.fields.size else rows.fieldPointers.size

def methodCount (rows : TypeRows) : Nat :=
  if rows.methodPointers.isEmpty then rows.methods.size else rows.methodPointers.size

/-- The numbers of the field rows of the type at an index, in order. -/
def fieldNumbers (rows : TypeRows) (index : Nat) (row : TypeDefRow) : List Nat :=
  let next := rows.types[index + 1]?.map (·.fields.toNat)
  (run row.fields.toNat next rows.fieldCount).map (physical rows.fieldPointers)

def methodNumbers (rows : TypeRows) (index : Nat) (row : TypeDefRow) : List Nat :=
  let next := rows.types[index + 1]?.map (·.methods.toNat)
  (run row.methods.toNat next rows.methodCount).map (physical rows.methodPointers)

/-- The row with a number, counted from one. -/
def row? {α : Type} (rows : Array α) (number : Nat) : Option α :=
  if number = 0 then none else rows[number - 1]?

/-- The name of a base type outside its enclosing types. -/
def baseName? (rows : TypeRows) (typeRefs : Array TypeReference) (base : CodedIndex) :
    Option String :=
  match base.table with
  | .typeDef => (row? rows.names base.row.toNat).map fun names => qualifiedName names.1 names.2
  | .typeRef => (row? typeRefs base.row.toNat).map (·.qualifiedName)
  | _ => none

end TypeRows

def typeDefinition (source : Source) (rows : TypeRows) (typeRefs : Array TypeReference)
    (typeSpecs : Array TypeSig) (index : Nat) (row : TypeDefRow) :
    Except Fault TypeDefinition := do
  let fields ← (rows.fieldNumbers index row).mapM fun number => do
    source.field number (← Bytes.orOutOfBounds (TypeRows.row? rows.fields number))
  let methods ← (rows.methodNumbers index row).mapM fun number => do
    let found ← Bytes.orOutOfBounds (TypeRows.row? rows.methods number)
    let owner := Token.ofRow .methodDef number
    source.method rows.params (namesOf rows.genericParams owner) number found
      (rows.methods[number]?.map (·.params.toNat))
  let token := Token.ofRow .typeDef (index + 1)
  let (namespaceName, name) := rows.names[index]?.getD ("", "")
  return {
    token, flags := row.flags, namespaceName, name
    kind := TypeKind.classify row.flags (qualifiedName namespaceName name)
      (rows.baseName? typeRefs row.baseType)
    baseType := if row.baseType.isNull then none else some (typeOf row.baseType typeSpecs)
    interfaces := [], genericParams := namesOf rows.genericParams token
    fields, methods, enclosing := none, nested := [] }

/-- The entry at a row number is changed, if there is one. -/
def modifyRow {α : Type} (entries : Array α) (number : Nat) (change : α → α) : Array α :=
  if number = 0 then entries else entries.modify (number - 1) change

/-- A type that would be nested in itself is left alone. A type named by several rows gets
the last enclosing type, and each of the others keeps its link to the type. -/
def nest (types : Array TypeDefinition) (row : NestedClassRow) : Array TypeDefinition :=
  let nested := row.nested.toNat
  if (TypeRows.row? types nested).isNone ∨ row.nested = row.enclosing then types
  else
    let inner := Token.ofParts 2 row.nested
    let outer := Token.ofParts 2 row.enclosing
    let linked := modifyRow types nested fun definition =>
      { definition with enclosing := some outer }
    modifyRow linked row.enclosing.toNat fun definition =>
      { definition with nested := definition.nested ++ [inner] }

def sortNested (definition : TypeDefinition) : TypeDefinition :=
  { definition with
    nested := definition.nested.mergeSort fun first second => first.value ≤ second.value }

def implement (typeSpecs : Array TypeSig) (types : Array TypeDefinition)
    (row : InterfaceImplRow) : Array TypeDefinition :=
  modifyRow types row.implementer.toNat fun definition =>
    { definition with interfaces := definition.interfaces ++ [typeOf row.implemented typeSpecs] }

def types (source : Source) (typeRefs : Array TypeReference) (typeSpecs : Array TypeSig) :
    Except Fault (Array TypeDefinition) := do
  let rows ← source.typeRows
  let declared ← rows.types.toList.zipIdx.mapM fun (row, index) =>
    source.typeDefinition rows typeRefs typeSpecs index row
  let nestings ← source.rows NestedClassRow
  let nested := nestings.foldl (fun types (_, row) => nest types row) declared.toArray
  let implementations ← source.rows InterfaceImplRow
  return implementations.foldl (fun types (_, row) => implement typeSpecs types row)
    (nested.map sortNested)

def signedConstant (width : Nat) (elementType : UInt8) : Read ConstantValue := do
  return .signed (← Read.signed width) elementType

def unsignedConstant (width : Nat) (elementType : UInt8) : Read ConstantValue := do
  return .unsigned (← Read.number width) elementType

def readConstant (elementType : UInt8) : Read ConstantValue :=
  match elementType with
  | 0x02 => (fun value => .boolean (value ≠ 0)) <$> Read.word8
  | 0x03 => .char <$> Read.word16
  | 0x04 => signedConstant 1 elementType
  | 0x05 => unsignedConstant 1 elementType
  | 0x06 => signedConstant 2 elementType
  | 0x07 => unsignedConstant 2 elementType
  | 0x08 => signedConstant 4 elementType
  | 0x09 => unsignedConstant 4 elementType
  | 0x0A => signedConstant 8 elementType
  | 0x0B => unsignedConstant 8 elementType
  | 0x0C => .float32 <$> Read.word32
  | 0x0D => .float64 <$> Read.word64
  | 0x0E => do
    let data ← Read.bytes (← Read.size)
    return .string (String.ofList (Utf16.decode (Utf16.units data.toList)))
  | 0x12 => return .null
  | _ => throw (.malformed (.constantType elementType))

/-- Constants that cannot be read and those of parameters and properties are left out. -/
def fieldConstants (source : Source) : Except Fault (List (Token × ConstantValue)) := do
  let found ← (← source.rows ConstantRow).mapM fun (_, row) => do
    if row.parent.table = .field then
      let blob ← source.heaps.blob row.value
      return ((readConstant row.elementType).runOn blob).toOption.map (row.parent.token, ·)
    else return none
  return found.filterMap id

def frameworkAttribute : String := "System.Runtime.Versioning.TargetFrameworkAttribute"

/-- Whether a row puts the attribute that names the framework on the assembly. -/
def namesFramework (typeRefs : Array TypeReference) (memberRefs : Array MemberReference)
    (row : CustomAttributeRow) : Bool :=
  if row.parent.table = .assembly ∧ row.constructor.table = .memberRef then
    match TypeRows.row? memberRefs row.constructor.row.toNat with
    | some constructor =>
      constructor.parent.table == .typeRef &&
        (TypeRows.row? typeRefs constructor.parent.row.toNat).any fun reference =>
          reference.qualifiedName == frameworkAttribute
    | none => false
  else false

def readAttributeText (row : Nat) : Read (Option String) := do
  if (← Read.word16) ≠ 1 then throw (.malformed (.attributeProlog row))
  Read.serializedText

/-- The first attribute with a text decides. -/
def frameworkOf (source : Source) (typeRefs : Array TypeReference)
    (memberRefs : Array MemberReference) :
    List (Nat × CustomAttributeRow) → Except Fault (Option TargetFramework)
  | [] => .ok none
  | (number, row) :: rest => do
    if namesFramework typeRefs memberRefs row then
      let blob ← source.heaps.blob row.value
      match ← (readAttributeText number).runOn blob with
      | some text => return TargetFramework.ofAttribute? text
      | none => frameworkOf source typeRefs memberRefs rest
    else frameworkOf source typeRefs memberRefs rest

end Source

/-- The module in an image. A debug directory that cannot be read counts as empty. -/
def load (path : String) (image : Image.Assembly) : Except Fault Module := do
  let debugEntries := image.debugEntries.toOption.getD []
  let source ← Source.ofImage image
  let (name, mvid) ← match ← source.rows ModuleRow with
    | [] => throw (.malformed .moduleMissing)
    | (_, row) :: _ => pure (← source.heaps.string row.name, source.heaps.guid? row.mvid)
  let identity ← source.ownIdentity
  let references ← source.references
  let typeRefs := (← source.typeRefs).toArray
  let typeSpecs := (← source.typeSpecs).toArray
  let memberRefs := (← source.memberRefs).toArray
  let methodSpecs := (← source.methodSpecs).toArray
  let localSignatures := (← source.localSignatures).toArray
  let types ← source.types typeRefs typeSpecs
  let fieldConstants ← source.fieldConstants
  let named ← source.frameworkOf typeRefs memberRefs (← source.rows CustomAttributeRow)
  let entryPoint := source.header.entryPoint?.filter fun token => token.pointsInto .methodDef
  return {
    image, path, name, mvid, identity, references, debugEntries, entryPoint, types, typeRefs
    typeSpecs, memberRefs, methodSpecs, localSignatures, fieldConstants
    runtimeVersion := source.root.version
    framework := named.getD (TargetFramework.ofRuntimeVersion source.root.version)
    tableRows := source.tables.summary
    userStrings := source.heaps.userStrings }

def ofBytes (path : String) (data : Bytes) : Except Fault Module := do
  load path (← Image.Assembly.read data)

end ClrDecompiler.Module
