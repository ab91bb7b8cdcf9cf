/-
This file reads the rows of the tables that carry types, signatures and symbols names.
-/

import ClrDecompiler.Metadata.TableSizes

namespace ClrDecompiler.Metadata

namespace TableSizes

def readString (sizes : TableSizes) : Read UInt32 :=
  Read.index sizes.wideStrings

def readGuid (sizes : TableSizes) : Read UInt32 :=
  Read.index sizes.wideGuids

def readBlob (sizes : TableSizes) : Read UInt32 :=
  Read.index sizes.wideBlobs

def readRow (sizes : TableSizes) (table : TableId) : Read UInt32 :=
  Read.index (sizes.isWideRow table)

def readCoded (sizes : TableSizes) (kind : CodedKind) : Read CodedIndex := do
  liftM (kind.decode (← Read.index (sizes.isWideCoded kind)))

end TableSizes

/-- A type of rows of one table. The reader takes the columns of a row one after the other. -/
class Row (ρ : Type) where
  table : TableId
  read : TableSizes → Read ρ

structure ModuleRow where
  name : UInt32
  mvid : UInt32
  deriving DecidableEq, Repr

instance : Row ModuleRow where
  table := .module
  read sizes := do
    let _ ← Read.word16
    let name ← sizes.readString
    let mvid ← sizes.readGuid
    let _ ← sizes.readGuid
    let _ ← sizes.readGuid
    return { name, mvid }

structure TypeRefRow where
  scope : CodedIndex
  name : UInt32
  namespaceName : UInt32
  deriving DecidableEq, Repr

instance : Row TypeRefRow where
  table := .typeRef
  read sizes := do
    return {
      scope := ← sizes.readCoded .resolutionScope
      name := ← sizes.readString
      namespaceName := ← sizes.readString }

/-- The fields and methods of a type are the runs of rows that start at the two lists. -/
structure TypeDefRow where
  flags : UInt32
  name : UInt32
  namespaceName : UInt32
  baseType : CodedIndex
  fields : UInt32
  methods : UInt32
  deriving DecidableEq, Repr

instance : Row TypeDefRow where
  table := .typeDef
  read sizes := do
    return {
      flags := ← Read.word32
      name := ← sizes.readString
      namespaceName := ← sizes.readString
      baseType := ← sizes.readCoded .typeDefOrRef
      fields := ← sizes.readRow .field
      methods := ← sizes.readRow .methodDef }

structure FieldPtrRow where
  field : UInt32
  deriving DecidableEq, Repr

instance : Row FieldPtrRow where
  table := .fieldPtr
  read sizes := do
    return { field := ← sizes.readRow .field }

structure FieldRow where
  flags : UInt16
  name : UInt32
  signature : UInt32
  deriving DecidableEq, Repr

instance : Row FieldRow where
  table := .field
  read sizes := do
    return {
      flags := ← Read.word16
      name := ← sizes.readString
      signature := ← sizes.readBlob }

structure MethodPtrRow where
  method : UInt32
  deriving DecidableEq, Repr

instance : Row MethodPtrRow where
  table := .methodPtr
  read sizes := do
    return { method := ← sizes.readRow .methodDef }

structure MethodDefRow where
  address : UInt32
  implementation : UInt16
  flags : UInt16
  name : UInt32
  signature : UInt32
  params : UInt32
  deriving DecidableEq, Repr

instance : Row MethodDefRow where
  table := .methodDef
  read sizes := do
    return {
      address := ← Read.word32
      implementation := ← Read.word16
      flags := ← Read.word16
      name := ← sizes.readString
      signature := ← sizes.readBlob
      params := ← sizes.readRow .param }

/-- The return value has the sequence number zero. -/
structure ParamRow where
  flags : UInt16
  sequence : UInt16
  name : UInt32
  deriving DecidableEq, Repr

instance : Row ParamRow where
  table := .param
  read sizes := do
    return {
      flags := ← Read.word16
      sequence := ← Read.word16
      name := ← sizes.readString }

structure InterfaceImplRow where
  implementer : UInt32
  implemented : CodedIndex
  deriving DecidableEq, Repr

instance : Row InterfaceImplRow where
  table := .interfaceImpl
  read sizes := do
    return {
      implementer := ← sizes.readRow .typeDef
      implemented := ← sizes.readCoded .typeDefOrRef }

structure MemberRefRow where
  parent : CodedIndex
  name : UInt32
  signature : UInt32
  deriving DecidableEq, Repr

instance : Row MemberRefRow where
  table := .memberRef
  read sizes := do
    return {
      parent := ← sizes.readCoded .memberRefParent
      name := ← sizes.readString
      signature := ← sizes.readBlob }

/-- The low byte of the first column is the element type of the value. -/
structure ConstantRow where
  elementType : UInt8
  parent : CodedIndex
  value : UInt32
  deriving DecidableEq, Repr

instance : Row ConstantRow where
  table := .constant
  read sizes := do
    let elementType ← Read.word8
    let _ ← Read.word8
    return {
      elementType
      parent := ← sizes.readCoded .hasConstant
      value := ← sizes.readBlob }

structure CustomAttributeRow where
  parent : CodedIndex
  constructor : CodedIndex
  value : UInt32
  deriving DecidableEq, Repr

instance : Row CustomAttributeRow where
  table := .customAttribute
  read sizes := do
    return {
      parent := ← sizes.readCoded .hasCustomAttribute
      constructor := ← sizes.readCoded .customAttributeType
      value := ← sizes.readBlob }

structure StandAloneSigRow where
  signature : UInt32
  deriving DecidableEq, Repr

instance : Row StandAloneSigRow where
  table := .standAloneSig
  read sizes := do
    return { signature := ← sizes.readBlob }

structure TypeSpecRow where
  signature : UInt32
  deriving DecidableEq, Repr

instance : Row TypeSpecRow where
  table := .typeSpec
  read sizes := do
    return { signature := ← sizes.readBlob }

structure Version where
  major : UInt16
  minor : UInt16
  build : UInt16
  revision : UInt16
  deriving DecidableEq, Repr

structure AssemblyRow where
  version : Version
  flags : UInt32
  key : UInt32
  name : UInt32
  culture : UInt32
  deriving DecidableEq, Repr

instance : Row AssemblyRow where
  table := .assembly
  read sizes := do
    let _ ← Read.word32
    return {
      version := {
        major := ← Read.word16
        minor := ← Read.word16
        build := ← Read.word16
        revision := ← Read.word16 }
      flags := ← Read.word32
      key := ← sizes.readBlob
      name := ← sizes.readString
      culture := ← sizes.readString }

/-- The key is a whole public key or only the token of one. -/
structure AssemblyRefRow where
  version : Version
  flags : UInt32
  key : UInt32
  name : UInt32
  culture : UInt32
  deriving DecidableEq, Repr

instance : Row AssemblyRefRow where
  table := .assemblyRef
  read sizes := do
    let row : AssemblyRefRow := {
      version := {
        major := ← Read.word16
        minor := ← Read.word16
        build := ← Read.word16
        revision := ← Read.word16 }
      flags := ← Read.word32
      key := ← sizes.readBlob
      name := ← sizes.readString
      culture := ← sizes.readString }
    let _ ← sizes.readBlob
    return row

structure NestedClassRow where
  nested : UInt32
  enclosing : UInt32
  deriving DecidableEq, Repr

instance : Row NestedClassRow where
  table := .nestedClass
  read sizes := do
    return {
      nested := ← sizes.readRow .typeDef
      enclosing := ← sizes.readRow .typeDef }

structure GenericParamRow where
  number : UInt16
  flags : UInt16
  owner : CodedIndex
  name : UInt32
  deriving DecidableEq, Repr

instance : Row GenericParamRow where
  table := .genericParam
  read sizes := do
    return {
      number := ← Read.word16
      flags := ← Read.word16
      owner := ← sizes.readCoded .typeOrMethodDef
      name := ← sizes.readString }

structure MethodSpecRow where
  method : CodedIndex
  instantiation : UInt32
  deriving DecidableEq, Repr

instance : Row MethodSpecRow where
  table := .methodSpec
  read sizes := do
    return {
      method := ← sizes.readCoded .methodDefOrRef
      instantiation := ← sizes.readBlob }

structure DocumentRow where
  name : UInt32
  algorithm : UInt32
  hash : UInt32
  language : UInt32
  deriving DecidableEq, Repr

instance : Row DocumentRow where
  table := .document
  read sizes := do
    return {
      name := ← sizes.readBlob
      algorithm := ← sizes.readGuid
      hash := ← sizes.readBlob
      language := ← sizes.readGuid }

structure MethodDebugInformationRow where
  document : UInt32
  points : UInt32
  deriving DecidableEq, Repr

instance : Row MethodDebugInformationRow where
  table := .methodDebugInformation
  read sizes := do
    return {
      document := ← sizes.readRow .document
      points := ← sizes.readBlob }

end ClrDecompiler.Metadata
