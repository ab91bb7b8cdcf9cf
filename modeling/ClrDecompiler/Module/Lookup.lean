/-
This file finds the declarations of a module by their tokens and its types by their names.
-/

import ClrDecompiler.Metadata.Heap
import ClrDecompiler.Module.Basic

namespace ClrDecompiler.Module

open Metadata Signature

/-- The entry of a token in the list of a table. -/
def listed? {α : Type} (table : TableId) (entries : Array α) (token : Token) : Option α :=
  if token.pointsInto table && !token.isNull then entries[token.row.toNat - 1]? else none

def type? (module : Module) (token : Token) : Option TypeDefinition :=
  listed? .typeDef module.types token

def typeRef? (module : Module) (token : Token) : Option TypeReference :=
  listed? .typeRef module.typeRefs token

def typeSpec? (module : Module) (token : Token) : Option TypeSig :=
  listed? .typeSpec module.typeSpecs token

def memberRef? (module : Module) (token : Token) : Option MemberReference :=
  listed? .memberRef module.memberRefs token

def methodSpec? (module : Module) (token : Token) : Option MethodSpecification :=
  listed? .methodSpec module.methodSpecs token

/-- The last type with a member of the token, and its last such member. -/
def member? {α : Type} (module : Module) (members : TypeDefinition → List α)
    (tokenOf : α → Token) (token : Token) : Option (TypeDefinition × α) :=
  module.types.toList.reverse.findSome? fun definition =>
    ((members definition).reverse.find? fun found => tokenOf found == token).map (definition, ·)

def method? (module : Module) (token : Token) : Option (TypeDefinition × MethodDefinition) :=
  if token.pointsInto .methodDef && !token.isNull then
    module.member? (·.methods) (·.token) token
  else none

def field? (module : Module) (token : Token) : Option (TypeDefinition × FieldDefinition) :=
  if token.pointsInto .field && !token.isNull then
    module.member? (·.fields) (·.token) token
  else none

def fieldConstant? (module : Module) (token : Token) : Option ConstantValue :=
  module.fieldConstants.lookup token

/-- The types of the local variables of a method body. -/
def locals? (module : Module) (token : Token) : Option (List TypeSig) :=
  (listed? .standAloneSig module.localSignatures token).join

/-- The number of the table in the tokens of string literals. -/
def userStringTable : UInt8 := 0x70

def userString? (module : Module) (token : Token) : Option String :=
  if token.table == userStringTable then
    match UserStringHeap.ofBytes module.userStrings with
    | .ok heap => (heap.get token.row.toNat).toOption
    | .error _ => none
  else none

def nestedTypes (module : Module) (definition : TypeDefinition) : List TypeDefinition :=
  definition.nested.filterMap module.type?

def enclosing? (module : Module) (definition : TypeDefinition) : Option TypeDefinition :=
  definition.enclosing.bind module.type?

/-- The chain of enclosing types, outermost first, with a bound on its length. -/
def enclosingChain (module : Module) : Nat → TypeDefinition → List TypeDefinition
  | 0, definition => [definition]
  | bound + 1, definition =>
    match module.enclosing? definition with
    | some outer => enclosingChain module bound outer ++ [definition]
    | none => [definition]

/-- The name of the outermost type and, after plus signs, those of the types nested in it. -/
def chainName : List TypeDefinition → String
  | [] => ""
  | outermost :: inner =>
    "+".intercalate (outermost.qualifiedName :: inner.map (·.name))

/-- The name of a type under which programs find it. -/
def reflectionName (module : Module) (definition : TypeDefinition) : String :=
  chainName (module.enclosingChain module.types.size definition)

def findType? (module : Module) (query : TypeQuery) : Option TypeDefinition :=
  module.types.toList.find? fun definition => query.accepts (module.reflectionName definition)

end ClrDecompiler.Module
