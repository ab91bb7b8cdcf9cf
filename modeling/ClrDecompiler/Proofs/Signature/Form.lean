/-
This file describes the encodings of signatures apart from their reader: which byte strings
stand for a type, a method, a field, the local variables or the type arguments of a method.
-/

import ClrDecompiler.Proofs.Bytes.Compressed
import ClrDecompiler.Signature.Reader

namespace ClrDecompiler.Signature

open Metadata Compressed

/-! Which types have an encoding, and how deeply they are nested. -/

namespace TypeSig

def isByRef : TypeSig → Bool
  | .byRef _ => true
  | _ => false

/-- Only a type that has a name can be instantiated. -/
def isNamed : TypeSig → Bool
  | .valueType _ | .classType _ => true
  | _ => false

mutual

/-- The number of types that stand in each other, the type itself included. -/
def nesting : TypeSig → Nat
  | .pointer element | .byRef element | .vector element | .pinned element
  | .array element _ => element.nesting + 1
  | .generic base arguments => max base.nesting (nestingOfAll arguments) + 1
  | .function ⟨_, _, _, _, ⟨_, returns⟩, params⟩ =>
    max returns.nesting (nestingOfParams params) + 1
  | _ => 1

def nestingOfAll : List TypeSig → Nat
  | [] => 0
  | first :: rest => max first.nesting (nestingOfAll rest)

def nestingOfParams : List (Parameter TypeSig) → Nat
  | [] => 0
  | ⟨_, first⟩ :: rest => max first.nesting (nestingOfParams rest)

end

/-- The tables that a type token can point into, in the order of their tags. -/
def tokenTables : List TableId :=
  [.typeDef, .typeRef, .typeSpec]

def isTypeToken (token : Token) : Bool :=
  tokenTables.any token.pointsInto

/-- Compressed numbers have up to 29 bits. -/
def isNumber (value : Nat) : Bool :=
  value < 0x20000000

mutual

/-- A type has an encoding if its numbers and tokens have one, if a name is instantiated and
if a parameter that is a reference says so itself. -/
def isExpressible : TypeSig → Bool
  | .unknown => false
  | .pointer element | .byRef element | .vector element | .pinned element =>
    element.isExpressible
  | .valueType token | .classType token => isTypeToken token
  | .typeParam number | .methodParam number => isNumber number
  | .array element rank => element.isExpressible && isNumber rank
  | .generic base arguments =>
    base.isNamed && base.isExpressible && isNumber arguments.length && areExpressible arguments
  | .function ⟨_, _, _, genericCount, ⟨reference, returns⟩, params⟩ =>
    isNumber genericCount && isNumber params.length &&
      (reference || !returns.isByRef) && returns.isExpressible && areExpressibleParams params
  | _ => true

def areExpressible : List TypeSig → Bool
  | [] => true
  | first :: rest => first.isExpressible && areExpressible rest

def areExpressibleParams : List (Parameter TypeSig) → Bool
  | [] => true
  | ⟨reference, first⟩ :: rest =>
    (reference || !first.isByRef) && first.isExpressible && areExpressibleParams rest

end

end TypeSig

def MethodShape.isExpressible (method : MethodSig) : Bool :=
  (TypeSig.function method).isExpressible

/-- The types that stand directly in the signature of a method. -/
def MethodShape.types (method : MethodSig) : List TypeSig :=
  method.returns.type :: method.params.map (·.type)

/-! The forms of the parts of a signature. -/

/-- The number of the row and the tag of the table share one compressed number. -/
inductive TokenForm : Token → List UInt8 → Prop where
  | mk {table : TableId} {row tag : Nat} {encoding : List UInt8}
      (tagged : TypeSig.tokenTables[tag]? = some table) (fits : row < 0x1000000)
      (number : UnsignedForm (4 * row + tag) encoding) :
      TokenForm (Token.ofRow table row) encoding

inductive ModifiersForm : List UInt8 → Prop where
  | nil : ModifiersForm []
  | cons {lead : UInt8} {token : Token} {encoding others : List UInt8}
      (modifier : lead = 0x1F ∨ lead = 0x20) (target : TokenForm token encoding)
      (tail : ModifiersForm others) : ModifiersForm (lead :: (encoding ++ others))

/-- The sizes and the lower bounds of an array, each list after its length. -/
inductive BoundsForm : List UInt8 → Prop where
  | mk {sizes : List Nat} {bounds : List Int} {count values boundCount boundValues : List UInt8}
      (sizeCount : UnsignedForm sizes.length count)
      (sizeValues : Sequence UnsignedForm sizes values)
      (lowerCount : UnsignedForm bounds.length boundCount)
      (lowerValues : Sequence SignedForm bounds boundValues) :
      BoundsForm (count ++ (values ++ (boundCount ++ boundValues)))

/-- A method without type parameters of its own has no bit and no number for them. -/
inductive GenericCountForm (convention : UInt8) : Nat → List UInt8 → Prop where
  | absent (clear : convention &&& 0x10 = 0) : GenericCountForm convention 0 []
  | present {count : Nat} {encoding : List UInt8} (marked : convention &&& 0x10 ≠ 0)
      (number : UnsignedForm count encoding) : GenericCountForm convention count encoding

section

variable (form : TypeSig → List UInt8 → Prop)

/-- A type after custom modifiers. -/
inductive ModifiedForm : TypeSig → List UInt8 → Prop where
  | mk {type : TypeSig} {modifiers encoding : List UInt8} (before : ModifiersForm modifiers)
      (inner : form type encoding) : ModifiedForm type (modifiers ++ encoding)

inductive ParameterForm : Parameter TypeSig → List UInt8 → Prop where
  | value {type : TypeSig} {modifiers encoding : List UInt8} (before : ModifiersForm modifiers)
      (inner : form type encoding) (plain : type.isByRef = false) :
      ParameterForm ⟨false, type⟩ (modifiers ++ encoding)
  | reference {type : TypeSig} {modifiers encoding : List UInt8}
      (before : ModifiersForm modifiers) (inner : form type encoding) :
      ParameterForm ⟨true, type⟩ (modifiers ++ 0x10 :: encoding)

/-- The calling convention, the numbers of type parameters and of parameters, the result and
the parameters. -/
inductive MethodForm : MethodSig → List UInt8 → Prop where
  | mk {hasThis explicitThis vararg : Bool} {genericCount : Nat} {returns : Parameter TypeSig}
      {params : List (Parameter TypeSig)} {convention : UInt8}
      {generics count result values : List UInt8}
      (implicit : hasThis = (convention &&& 0x20 ≠ 0 : Bool))
      (explicit : explicitThis = (convention &&& 0x40 ≠ 0 : Bool))
      (variadic : vararg = (convention &&& 0x0F = 0x05 : Bool))
      (genericNumber : GenericCountForm convention genericCount generics)
      (number : UnsignedForm params.length count)
      (returned : ParameterForm form returns result)
      (passed : Sequence (ParameterForm form) params values) :
      MethodForm ⟨hasThis, explicitThis, vararg, genericCount, returns, params⟩
        (convention :: (generics ++ (count ++ (result ++ values))))

end

/-- The bytes of the types that consist of nothing else. -/
def simpleByte? : TypeSig → Option UInt8
  | .void => some 0x01
  | .boolean => some 0x02
  | .char => some 0x03
  | .int8 => some 0x04
  | .uint8 => some 0x05
  | .int16 => some 0x06
  | .uint16 => some 0x07
  | .int32 => some 0x08
  | .uint32 => some 0x09
  | .int64 => some 0x0A
  | .uint64 => some 0x0B
  | .float32 => some 0x0C
  | .float64 => some 0x0D
  | .string => some 0x0E
  | .typedByRef => some 0x16
  | .nativeInt => some 0x18
  | .nativeUint => some 0x19
  | .object => some 0x1C
  | _ => none

inductive TypeForm : TypeSig → List UInt8 → Prop where
  | simple {type : TypeSig} {lead : UInt8} (listed : simpleByte? type = some lead) :
      TypeForm type [lead]
  | pointer {element : TypeSig} {modifiers encoding : List UInt8}
      (before : ModifiersForm modifiers) (inner : TypeForm element encoding) :
      TypeForm (.pointer element) (0x0F :: (modifiers ++ encoding))
  | byRef {element : TypeSig} {encoding : List UInt8} (inner : TypeForm element encoding) :
      TypeForm (.byRef element) (0x10 :: encoding)
  | valueType {token : Token} {encoding : List UInt8} (target : TokenForm token encoding) :
      TypeForm (.valueType token) (0x11 :: encoding)
  | classType {token : Token} {encoding : List UInt8} (target : TokenForm token encoding) :
      TypeForm (.classType token) (0x12 :: encoding)
  | typeParam {number : Nat} {encoding : List UInt8} (value : UnsignedForm number encoding) :
      TypeForm (.typeParam number) (0x13 :: encoding)
  | array {element : TypeSig} {rank : Nat} {encoding dimensions bounds : List UInt8}
      (inner : TypeForm element encoding) (value : UnsignedForm rank dimensions)
      (shape : BoundsForm bounds) :
      TypeForm (.array element rank) (0x14 :: (encoding ++ (dimensions ++ bounds)))
  | generic {base : TypeSig} {arguments : List TypeSig} {encoding count values : List UInt8}
      (named : base.isNamed = true) (inner : TypeForm base encoding)
      (number : UnsignedForm arguments.length count)
      (applied : Sequence TypeForm arguments values) :
      TypeForm (.generic base arguments) (0x15 :: (encoding ++ (count ++ values)))
  | function {method : MethodSig} {encoding : List UInt8}
      (shape : MethodForm TypeForm method encoding) :
      TypeForm (.function method) (0x1B :: encoding)
  | vector {element : TypeSig} {modifiers encoding : List UInt8}
      (before : ModifiersForm modifiers) (inner : TypeForm element encoding) :
      TypeForm (.vector element) (0x1D :: (modifiers ++ encoding))
  | methodParam {number : Nat} {encoding : List UInt8} (value : UnsignedForm number encoding) :
      TypeForm (.methodParam number) (0x1E :: encoding)
  | pinned {element : TypeSig} {encoding : List UInt8} (inner : TypeForm element encoding) :
      TypeForm (.pinned element) (0x45 :: encoding)

/-! The forms of whole signatures. -/

inductive FieldForm : TypeSig → List UInt8 → Prop where
  | mk {type : TypeSig} {encoding : List UInt8} (inner : ModifiedForm TypeForm type encoding) :
      FieldForm type (0x06 :: encoding)

inductive LocalsForm : List TypeSig → List UInt8 → Prop where
  | mk {types : List TypeSig} {count values : List UInt8}
      (number : UnsignedForm types.length count)
      (locals : Sequence (ModifiedForm TypeForm) types values) :
      LocalsForm types (0x07 :: (count ++ values))

inductive ArgumentsForm : List TypeSig → List UInt8 → Prop where
  | mk {types : List TypeSig} {count values : List UInt8}
      (number : UnsignedForm types.length count) (applied : Sequence TypeForm types values) :
      ArgumentsForm types (0x0A :: (count ++ values))

end ClrDecompiler.Signature
