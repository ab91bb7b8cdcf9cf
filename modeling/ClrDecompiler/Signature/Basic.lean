/-
This file defines the types and the shapes of methods that signatures describe.
-/

import ClrDecompiler.Metadata.Token

namespace ClrDecompiler.Signature

open Metadata

structure Parameter (τ : Type) where
  byRef : Bool
  type : τ
  deriving Repr

/-- A method without its name: its calling convention, the number of its own type
parameters, its result and its parameters. -/
structure MethodShape (τ : Type) where
  hasThis : Bool
  explicitThis : Bool
  vararg : Bool
  genericCount : Nat
  returns : Parameter τ
  params : List (Parameter τ)
  deriving Repr

/-- The types of fields, parameters and local variables. A vector is an array of one
dimension that starts at zero. -/
inductive TypeSig where
  | unknown
  | void
  | boolean
  | char
  | int8
  | uint8
  | int16
  | uint16
  | int32
  | uint32
  | int64
  | uint64
  | float32
  | float64
  | string
  | typedByRef
  | nativeInt
  | nativeUint
  | object
  | pointer (element : TypeSig)
  | byRef (element : TypeSig)
  | vector (element : TypeSig)
  | pinned (element : TypeSig)
  | valueType (token : Token)
  | classType (token : Token)
  | typeParam (number : Nat)
  | methodParam (number : Nat)
  | array (element : TypeSig) (rank : Nat)
  | generic (base : TypeSig) (arguments : List TypeSig)
  | function (method : MethodShape TypeSig)
  deriving Inhabited

abbrev MethodSig := MethodShape TypeSig

mutual

/-- The tokens in a type, from left to right. -/
def TypeSig.tokens : TypeSig → List Token
  | .valueType token | .classType token => [token]
  | .pointer element | .byRef element | .vector element | .pinned element | .array element _ =>
    element.tokens
  | .generic base arguments => base.tokens ++ tokensOf arguments
  | .function ⟨_, _, _, _, ⟨_, returns⟩, params⟩ => returns.tokens ++ tokensOfParameters params
  | _ => []

def tokensOf : List TypeSig → List Token
  | [] => []
  | first :: rest => first.tokens ++ tokensOf rest

def tokensOfParameters : List (Parameter TypeSig) → List Token
  | [] => []
  | ⟨_, first⟩ :: rest => first.tokens ++ tokensOfParameters rest

end

def MethodShape.paramTokens (method : MethodSig) : List Token :=
  tokensOfParameters method.params

/-- The tokens in the types of a method, that of its result first. -/
def MethodShape.tokens (method : MethodSig) : List Token :=
  method.returns.type.tokens ++ method.paramTokens

end ClrDecompiler.Signature
