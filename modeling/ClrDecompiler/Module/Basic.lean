/-
This file defines modules: the types that an assembly declares and the declarations of
other assemblies that it refers to.
-/

import ClrDecompiler.Cil.MethodBody
import ClrDecompiler.Image.Assembly
import ClrDecompiler.Metadata.Attributes
import ClrDecompiler.Metadata.Framework
import ClrDecompiler.Metadata.Identity
import ClrDecompiler.Metadata.TypeName
import ClrDecompiler.Path
import ClrDecompiler.Signature.Basic

namespace ClrDecompiler

open Metadata Signature

structure FieldDefinition where
  token : Token
  name : String
  flags : UInt16
  type : TypeSig

/-- The field of an enumeration that holds its value. -/
def FieldDefinition.isEnumValue (field : FieldDefinition) : Bool :=
  field.name == "value__" && hasFlag field.flags FieldFlags.runtimeSpecialName

/-- The return value has the sequence number zero. -/
structure ParamDefinition where
  sequence : UInt16
  name : String
  flags : UInt16
  deriving DecidableEq, Repr

structure MethodDefinition where
  token : Token
  name : String
  flags : UInt16
  implementation : UInt16
  address : UInt32
  signature : MethodSig
  params : List ParamDefinition
  genericParams : List String
  body : Option Cil.MethodBody

namespace MethodDefinition

def has (method : MethodDefinition) (flag : UInt16) : Bool :=
  hasFlag method.flags flag

def isConstructor (method : MethodDefinition) : Bool :=
  method.name == ".ctor"

def isTypeInitializer (method : MethodDefinition) : Bool :=
  method.name == ".cctor"

/-- The name of a parameter, or its position if it has none. -/
def paramName (method : MethodDefinition) (index : Nat) : String :=
  match method.params.find? fun param => param.sequence.toNat == index + 1 with
  | some param => if param.name.isEmpty then s!"P_{index}" else param.name
  | none => s!"P_{index}"

def isOutParam (method : MethodDefinition) (index : Nat) : Bool :=
  method.params.any fun param =>
    param.sequence.toNat == index + 1 && hasFlag param.flags ParamFlags.out

end MethodDefinition

structure TypeDefinition where
  token : Token
  flags : UInt32
  namespaceName : String
  name : String
  kind : TypeKind
  baseType : Option TypeSig
  interfaces : List TypeSig
  genericParams : List String
  fields : List FieldDefinition
  methods : List MethodDefinition
  enclosing : Option Token
  nested : List Token

namespace TypeDefinition

def displayName (definition : TypeDefinition) : String :=
  stripArity definition.name

def qualifiedName (definition : TypeDefinition) : String :=
  Metadata.qualifiedName definition.namespaceName definition.name

def isNested (definition : TypeDefinition) : Bool :=
  definition.enclosing.isSome

/-- The type that holds the members outside any type. -/
def isModuleType (definition : TypeDefinition) : Bool :=
  definition.token.row == 1 && definition.name == "<Module>"

def has (definition : TypeDefinition) (flag : UInt32) : Bool :=
  definition.flags &&& flag ≠ 0

/-- A class that is both abstract and sealed. -/
def isStaticClass (definition : TypeDefinition) : Bool :=
  definition.kind == .classType && definition.has TypeFlags.abstract &&
    definition.has TypeFlags.sealed

end TypeDefinition

structure TypeReference where
  token : Token
  scope : CodedIndex
  namespaceName : String
  name : String
  deriving DecidableEq, Repr

def TypeReference.qualifiedName (reference : TypeReference) : String :=
  Metadata.qualifiedName reference.namespaceName reference.name

inductive MemberSig where
  | method (signature : MethodSig)
  | field (type : TypeSig)

structure MemberReference where
  token : Token
  parent : CodedIndex
  name : String
  signature : MemberSig

structure MethodSpecification where
  token : Token
  method : Token
  arguments : List TypeSig

/-- The value of a constant field. Integers keep their element type and floating-point
numbers their bit patterns. -/
inductive ConstantValue where
  | boolean (value : Bool)
  | char (unit : UInt16)
  | signed (value : Int) (elementType : UInt8)
  | unsigned (value : Nat) (elementType : UInt8)
  | float32 (bits : UInt32)
  | float64 (bits : UInt64)
  | string (text : String)
  | null
  deriving DecidableEq, Repr

structure Module where
  image : Image.Assembly
  path : String
  name : String
  mvid : Option Bytes
  runtimeVersion : String
  identity : Option AssemblyIdentity
  references : List AssemblyIdentity
  framework : TargetFramework
  debugEntries : List Image.DebugEntry
  entryPoint : Option Token
  tableRows : List (TableId × Nat)
  types : Array TypeDefinition
  typeRefs : Array TypeReference
  typeSpecs : Array TypeSig
  memberRefs : Array MemberReference
  methodSpecs : Array MethodSpecification
  localSignatures : Array (Option (List TypeSig))
  fieldConstants : List (Token × ConstantValue)
  userStrings : Bytes

namespace Module

def fileName (module : Module) : String :=
  (Path.fileName? module.path).getD module.name

/-- A module without a manifest is named by its file. -/
def assemblyName (module : Module) : String :=
  match module.identity with
  | some identity => identity.name
  | none => (Path.fileStem? module.name).getD module.name

/-- The debug entry that names the symbols. -/
def codeView? (module : Module) : Option Image.DebugEntry :=
  module.debugEntries.find? fun entry => entry.type == Image.DebugEntry.codeViewType

def rowCount (module : Module) (table : TableId) : Nat :=
  (module.tableRows.lookup table).getD 0

def topLevelTypes (module : Module) : List TypeDefinition :=
  module.types.toList.filter (!·.isNested)

end Module

end ClrDecompiler
