/-
This file names the attribute bits of types, fields, methods and parameters.
-/

namespace ClrDecompiler.Metadata

/-- Whether all bits of a flag are set. -/
def hasFlag (flags flag : UInt16) : Bool :=
  flags &&& flag == flag

/-- The lowest three bits of the flags of a method or field. -/
def memberAccess (flags : UInt16) : UInt16 :=
  flags &&& 0x0007

def methodModifiers (flags : UInt16) : UInt16 :=
  flags &&& 0xFFF0

/-- The implementation flags without the bits that have no meaning. -/
def knownImplementation (flags : UInt16) : UInt16 :=
  flags &&& 0x10AF

/-- The field attributes without the access bits and the bits that have no meaning. -/
def knownFieldAttributes (flags : UInt16) : UInt16 :=
  flags &&& 0xB7F0

/-- Who may use a member. A family is a type with the types derived from it. -/
inductive Access where
  | compilerControlled
  | ownType
  | familyAndAssembly
  | assembly
  | family
  | familyOrAssembly
  | everyone
  deriving DecidableEq, Repr

def Access.ofFlags (flags : UInt16) : Access :=
  match (memberAccess flags).toNat with
  | 1 => .ownType
  | 2 => .familyAndAssembly
  | 3 => .assembly
  | 4 => .family
  | 5 => .familyOrAssembly
  | 6 => .everyone
  | _ => .compilerControlled

/-- Who may use a type. Nested types have the access of members. -/
inductive Visibility where
  | topLevel (isPublic : Bool)
  | nested (access : Access)
  deriving DecidableEq, Repr

def Visibility.ofFlags (flags : UInt32) : Visibility :=
  match (flags &&& 0x7).toNat with
  | 1 => .topLevel true
  | 2 => .nested .everyone
  | 3 => .nested .ownType
  | 4 => .nested .family
  | 5 => .nested .assembly
  | 6 => .nested .familyAndAssembly
  | 7 => .nested .familyOrAssembly
  | _ => .topLevel false

/-- How the fields of a type are laid out in memory. -/
inductive Layout where
  | automatic
  | sequential
  | explicit
  deriving DecidableEq, Repr

def Layout.ofFlags (flags : UInt32) : Layout :=
  match (flags &&& 0x18).toNat with
  | 0x08 => .sequential
  | 0x10 => .explicit
  | _ => .automatic

namespace TypeFlags

def interface : UInt32 := 0x20
def abstract : UInt32 := 0x80
def sealed : UInt32 := 0x100
def specialName : UInt32 := 0x400
def imported : UInt32 := 0x1000
def serializable : UInt32 := 0x2000
def beforeFieldInit : UInt32 := 0x100000

end TypeFlags

namespace FieldFlags

def static : UInt16 := 0x0010
def readOnly : UInt16 := 0x0020
def literal : UInt16 := 0x0040
def notSerialized : UInt16 := 0x0080
def specialName : UInt16 := 0x0200
def runtimeSpecialName : UInt16 := 0x0400

end FieldFlags

namespace MethodFlags

def static : UInt16 := 0x0010
def final : UInt16 := 0x0020
def virtual : UInt16 := 0x0040
def hideBySignature : UInt16 := 0x0080
def newSlot : UInt16 := 0x0100
def strict : UInt16 := 0x0200
def abstract : UInt16 := 0x0400
def specialName : UInt16 := 0x0800
def runtimeSpecialName : UInt16 := 0x1000
def foreign : UInt16 := 0x2000

end MethodFlags

namespace ImplementationFlags

def native : UInt16 := 0x0001
def runtime : UInt16 := 0x0003
def noInlining : UInt16 := 0x0008
def synchronized : UInt16 := 0x0020
def preserveSignature : UInt16 := 0x0080
def internalCall : UInt16 := 0x1000

end ImplementationFlags

namespace ParamFlags

def out : UInt16 := 0x0002

end ParamFlags

end ClrDecompiler.Metadata
