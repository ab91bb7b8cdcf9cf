/-
This file spells types, as C# source and as assembly listings write them.
-/

import ClrDecompiler.Module.Lookup

namespace ClrDecompiler.Module

open Metadata Signature

inductive NameStyle where
  | csharp
  | listing
  deriving DecidableEq, Repr

/-- The names of the type parameters that a signature can refer to by number. -/
structure GenericNames where
  typeParams : List String := []
  methodParams : List String := []

def GenericNames.ofType (definition : TypeDefinition) : GenericNames :=
  { typeParams := definition.genericParams }

def GenericNames.ofMethod (definition : TypeDefinition) (method : MethodDefinition) :
    GenericNames :=
  { typeParams := definition.genericParams, methodParams := method.genericParams }

/-- The types that are keywords of C#. -/
def keyword? : String → Option String
  | "System.Void" => some "void"
  | "System.Object" => some "object"
  | "System.String" => some "string"
  | "System.Boolean" => some "bool"
  | "System.Char" => some "char"
  | "System.SByte" => some "sbyte"
  | "System.Byte" => some "byte"
  | "System.Int16" => some "short"
  | "System.UInt16" => some "ushort"
  | "System.Int32" => some "int"
  | "System.UInt32" => some "uint"
  | "System.Int64" => some "long"
  | "System.UInt64" => some "ulong"
  | "System.Single" => some "float"
  | "System.Double" => some "double"
  | "System.Decimal" => some "decimal"
  | "System.IntPtr" => some "nint"
  | "System.UIntPtr" => some "nuint"
  | _ => none

/-- The parts of a spelling that depend on the style, on the type parameters in scope and on
the module that tokens point into. -/
structure Speller where
  style : NameStyle
  names : GenericNames
  token : Token → String

namespace Speller

def choose (speller : Speller) (csharp listing : String) : String :=
  match speller.style with
  | .csharp => csharp
  | .listing => listing

/-- The name of a type parameter, or its number after a letter if it has none. -/
def genericName (names : List String) (number : Nat) (letter : String) : String :=
  match names[number]? with
  | some name => if name.isEmpty then letter ++ toString number else name
  | none => letter ++ toString number

def typeParam (speller : Speller) (number : Nat) : String :=
  speller.choose (genericName speller.names.typeParams number "T")
    ("!" ++ genericName speller.names.typeParams number "")

def methodParam (speller : Speller) (number : Nat) : String :=
  speller.choose (genericName speller.names.methodParams number "M")
    ("!!" ++ genericName speller.names.methodParams number "")

/-- Listings say before a token what kind of type it is, unless it stands for a signature. -/
def namedType (speller : Speller) (kind : String) (token : Token) : String :=
  match speller.style with
  | .csharp => speller.token token
  | .listing =>
    if token.pointsInto .typeSpec then speller.token token else kind ++ " " ++ speller.token token

def reference (speller : Speller) (byRef : Bool) (name : String) : String :=
  if byRef then speller.choose ("ref " ++ name) (name ++ "&") else name

/-- C# has a shorter form for a value that may be absent. -/
def instantiation (speller : Speller) (base : String) (arguments : List String) : String :=
  match speller.style, base, arguments with
  | .csharp, "System.Nullable", [argument] => argument ++ "?"
  | _, _, _ => base ++ "<" ++ ", ".intercalate arguments ++ ">"

def functionPointer (speller : Speller) (returns : String) (params : List String) : String :=
  match speller.style with
  | .csharp => "delegate*<" ++ ", ".intercalate (params ++ [returns]) ++ ">"
  | .listing => "method " ++ returns ++ " *(" ++ ", ".intercalate params ++ ")"

mutual

def type (speller : Speller) : TypeSig → String
  | .unknown => "object"
  | .void => "void"
  | .boolean => "bool"
  | .char => "char"
  | .int8 => speller.choose "sbyte" "int8"
  | .uint8 => speller.choose "byte" "uint8"
  | .int16 => speller.choose "short" "int16"
  | .uint16 => speller.choose "ushort" "uint16"
  | .int32 => speller.choose "int" "int32"
  | .uint32 => speller.choose "uint" "uint32"
  | .int64 => speller.choose "long" "int64"
  | .uint64 => speller.choose "ulong" "uint64"
  | .float32 => speller.choose "float" "float32"
  | .float64 => speller.choose "double" "float64"
  | .string => "string"
  | .typedByRef => speller.choose "TypedReference" "typedref"
  | .nativeInt => speller.choose "nint" "native int"
  | .nativeUint => speller.choose "nuint" "native unsigned int"
  | .object => "object"
  | .pointer element => speller.type element ++ "*"
  | .byRef element => speller.reference true (speller.type element)
  | .vector element => speller.type element ++ "[]"
  | .pinned element => speller.choose (speller.type element) (speller.type element ++ " pinned")
  | .valueType token => speller.namedType "valuetype" token
  | .classType token => speller.namedType "class" token
  | .typeParam number => speller.typeParam number
  | .methodParam number => speller.methodParam number
  | .array element rank =>
    speller.type element ++ "[" ++ String.ofList (List.replicate (rank - 1) ',') ++ "]"
  | .generic base arguments => speller.instantiation (speller.type base) (speller.types arguments)
  | .function ⟨_, _, _, _, ⟨byRef, returns⟩, params⟩ =>
    speller.functionPointer (speller.reference byRef (speller.type returns))
      (speller.parameters params)

def types (speller : Speller) : List TypeSig → List String
  | [] => []
  | first :: rest => speller.type first :: speller.types rest

def parameters (speller : Speller) : List (Parameter TypeSig) → List String
  | [] => []
  | ⟨byRef, first⟩ :: rest =>
    speller.reference byRef (speller.type first) :: speller.parameters rest

end

def parameter (speller : Speller) (parameter : Parameter TypeSig) : String :=
  speller.reference parameter.byRef (speller.type parameter.type)

end Speller

/-- Spellings go through this many enclosing types. -/
def maxEnclosing : Nat := 64

def declaredName (module : Module) (style : NameStyle) (definition : TypeDefinition) : String :=
  match module.enclosingChain (maxEnclosing - 1) definition with
  | [] => ""
  | outermost :: inner =>
    match style with
    | .csharp =>
      match keyword? outermost.qualifiedName with
      | some keyword => keyword
      | none =>
        let names := ".".intercalate ((outermost :: inner).map (·.displayName))
        qualifiedName outermost.namespaceName names
    | .listing => "/".intercalate (outermost.qualifiedName :: inner.map (·.name))

/-- The assembly or module in which a type is found stands before its name in listings. -/
def scopeText (module : Module) (scope : CodedIndex) : String :=
  match scope.table with
  | .assemblyRef =>
    if scope.isNull then ""
    else match module.references[scope.row.toNat - 1]? with
      | some assembly => "[" ++ assembly.name ++ "]"
      | none => ""
  | .moduleRef => if scope.isNull then "" else s!"[.module {scope.row}]"
  | _ => ""

def outermostReferenceName (module : Module) (style : NameStyle) (reference : TypeReference) :
    String :=
  match style with
  | .csharp =>
    (keyword? reference.qualifiedName).getD (stripArity reference.qualifiedName)
  | .listing => module.scopeText reference.scope ++ reference.qualifiedName

/-- The scope of a nested type is a reference to the type around it. -/
def outerReference? (module : Module) (reference : TypeReference) : Option TypeReference :=
  if reference.scope.table = .typeRef then module.typeRef? reference.scope.token else none

/-- A type is referred to in the type that encloses it, up to a bound on the nesting. -/
def referenceNameWithin (module : Module) (style : NameStyle) : Nat → TypeReference → String
  | 0, reference => module.outermostReferenceName style reference
  | bound + 1, reference =>
    match module.outerReference? reference with
    | none => module.outermostReferenceName style reference
    | some outer =>
      let outerName := module.referenceNameWithin style bound outer
      match style with
      | .csharp => outerName ++ "." ++ stripArity reference.name
      | .listing => outerName ++ "/" ++ reference.name

def referenceName (module : Module) (style : NameStyle) (reference : TypeReference) : String :=
  module.referenceNameWithin style maxEnclosing reference

/-- Tokens with their spellings, if all of them have one. -/
def spellAll (spell : Token → Option String) (tokens : List Token) :
    Option (List (Token × String)) :=
  tokens.mapM fun token => return (token, ← spell token)

/-- The spelling of a token. Signatures can name other signatures, which are spelled through as
many of them as a bound allows. -/
def tokenNameWithin (module : Module) (style : NameStyle) (names : GenericNames) :
    Nat → Token → Option String
  | 0, _ => none
  | bound + 1, token =>
    match module.type? token, module.typeRef? token, module.typeSpec? token with
    | some definition, _, _ => some (module.declaredName style definition)
    | none, some reference, _ => some (module.referenceName style reference)
    | none, none, some type =>
      (spellAll (module.tokenNameWithin style names bound) type.tokens).map fun spelled =>
        Speller.type ⟨style, names, fun token => (spelled.lookup token).getD token.text⟩ type
    | none, none, none => some token.text

/-- Signatures that do not name themselves are named through fewer than all of them. A spelling of
any other signature does not come to an end. -/
def tokenName? (module : Module) (style : NameStyle) (names : GenericNames) (token : Token) :
    Option String :=
  module.tokenNameWithin style names (module.typeSpecs.size + 1) token

/-- Whether the spelling of a token comes to an end, which is the same in every style. -/
def nameEnds (module : Module) (token : Token) : Bool :=
  (module.tokenName? .listing {} token).isSome

/-- A spelling of tokens that never comes to an end is a fault. -/
def checkNames (module : Module) (tokens : List Token) : Except Fault Unit :=
  if tokens.all module.nameEnds then .ok () else .error .endlessName

/-- The spelling of a token, if it comes to an end. -/
def tokenName (module : Module) (style : NameStyle) (names : GenericNames) (token : Token) :
    String :=
  (module.tokenName? style names token).getD token.text

def speller (module : Module) (style : NameStyle) (names : GenericNames) : Speller :=
  ⟨style, names, module.tokenName style names⟩

def typeName (module : Module) (style : NameStyle) (names : GenericNames) (type : TypeSig) :
    String :=
  (module.speller style names).type type

end ClrDecompiler.Module
