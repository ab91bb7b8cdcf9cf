/-
This file writes the instructions of a method with the names of what their operands refer
to.
-/

import ClrDecompiler.Cil.Instruction
import ClrDecompiler.Listing.Constant
import ClrDecompiler.Module.Names

namespace ClrDecompiler.Listing

open Metadata Signature Source

def spell (module : Module) (names : Module.GenericNames) (type : TypeSig) : String :=
  module.typeName .listing names type

/-- A type without the word that says it is a class. -/
def withoutClassWord : List Char → List Char
  | 'c' :: 'l' :: 'a' :: 's' :: 's' :: ' ' :: rest => withoutClassWord rest
  | text => text

def bareType (text : String) : String :=
  String.ofList (withoutClassWord text.toList)

/-- The owner of a referenced member. Owners that are no types have no names. -/
def ownerName (module : Module) (owner : CodedIndex) : String :=
  match owner.table with
  | .typeRef | .typeDef | .typeSpec => bareType (module.tokenName .listing {} owner.token)
  | _ => owner.token.text

/-- The tokens that the name of an owner spells. -/
def ownerTokens (owner : CodedIndex) : List Token :=
  match owner.table with
  | .typeRef | .typeDef | .typeSpec => [owner.token]
  | _ => []

def fieldText (type owner name : String) : String :=
  type ++ " " ++ owner ++ "::" ++ name

/-- A method with its types. A call with type arguments has them after the name. -/
def methodText (module : Module) (names : Module.GenericNames) (signature : MethodSig)
    (owner name arguments : String) : String :=
  let speller := module.speller .listing names
  (if signature.hasThis then "instance " else "") ++ speller.parameter signature.returns ++ " " ++
    owner ++ "::" ++ name ++ arguments ++ "(" ++
    ", ".intercalate (signature.params.map speller.parameter) ++ ")"

def declaredField? (module : Module) (token : Token) : Option String :=
  (module.field? token).map fun (owner, field) =>
    fieldText (spell module (Module.GenericNames.ofType owner) field.type)
      (module.declaredName .listing owner) field.name

def declaredMethod? (module : Module) (arguments : String) (token : Token) : Option String :=
  (module.method? token).map fun (owner, method) =>
    methodText module (Module.GenericNames.ofMethod owner method) method.signature
      (module.declaredName .listing owner) method.name arguments

def referencedMember? (module : Module) (arguments : String) (token : Token) : Option String :=
  (module.memberRef? token).map fun member =>
    let owner := ownerName module member.parent
    match member.signature with
    | .field type => fieldText (spell module {} type) owner member.name
    | .method signature => methodText module {} signature owner member.name arguments

def memberTokens (module : Module) (token : Token) : List Token :=
  match module.memberRef? token with
  | none => []
  | some member => ownerTokens member.parent ++
    match member.signature with
    | .field type => type.tokens
    | .method signature => signature.tokens

/-- A method that is declared or referred to, with type arguments for it. -/
def methodNamed? (module : Module) (arguments : String) (token : Token) : Option String :=
  if token.pointsInto .methodDef then declaredMethod? module arguments token
  else if token.pointsInto .memberRef then referencedMember? module arguments token
  else none

def calledTokens (module : Module) (token : Token) : List Token :=
  if token.pointsInto .methodDef then
    (module.method? token).toList.flatMap fun (_, method) => method.signature.tokens
  else if token.pointsInto .memberRef then memberTokens module token
  else []

def specifiedMethod? (module : Module) (token : Token) : Option String := do
  let specification ← module.methodSpec? token
  let arguments := ", ".intercalate (specification.arguments.map (spell module {}))
  methodNamed? module ("<" ++ arguments ++ ">") specification.method

/-- What a token stands for, where names of type parameters are known. -/
def tokenName? (module : Module) (names : Module.GenericNames) (token : Token) : Option String :=
  match TableId.ofNumber? token.table.toNat with
  | some .field => declaredField? module token
  | some .methodDef | some .memberRef => methodNamed? module "" token
  | some .methodSpec => specifiedMethod? module token
  | some .typeRef | some .typeDef | some .typeSpec =>
    some (module.tokenName .listing names token)
  | _ => none

/-- The tokens that are spelled for what a token stands for. -/
def spelledTokens (module : Module) (token : Token) : List Token :=
  match TableId.ofNumber? token.table.toNat with
  | some .field => (module.field? token).toList.flatMap fun (_, field) => field.type.tokens
  | some .methodDef | some .memberRef => calledTokens module token
  | some .methodSpec => (module.methodSpec? token).toList.flatMap fun specification =>
    specification.arguments.flatMap TypeSig.tokens ++ calledTokens module specification.method
  | some .typeRef | some .typeDef | some .typeSpec => [token]
  | _ => []

/-- Where any token can stand, members are announced by what they are. -/
def memberWord (module : Module) (token : Token) : String :=
  match TableId.ofNumber? token.table.toNat with
  | some .field => "field "
  | some .methodDef | some .methodSpec => "method "
  | some .memberRef =>
    match module.memberRef? token with
    | some ⟨_, _, _, .field _⟩ => "field "
    | _ => "method "
  | _ => ""

def tokenText (module : Module) (names : Module.GenericNames) (mnemonic : String)
    (token : Token) : String :=
  if token.table == Module.userStringTable then
    ((module.userString? token).map stringLiteral).getD token.text
  else
    (if mnemonic == "ldtoken" then memberWord module token else "") ++
      (tokenName? module names token).getD token.text

/-- An argument by its name. The object of an instance method is the argument zero. -/
def argumentName (method : MethodDefinition) (index : Nat) : String :=
  let named (position : Nat) : String :=
    if position < method.signature.params.length then method.paramName position
    else toString index
  match method.signature.hasThis, index with
  | true, 0 => "0"
  | true, position + 1 => named position
  | false, position => named position

/-- Whether a word occurs in a text. -/
def mentions (word : List Char) : List Char → Bool
  | [] => word.isEmpty
  | first :: rest => word.isPrefixOf (first :: rest) || mentions word rest

def variableName (method : MethodDefinition) (mnemonic : String) (index : Nat) : String :=
  if mentions "arg".toList mnemonic.toList then argumentName method index
  else if mentions "loc".toList mnemonic.toList then "V_" ++ toString index
  else toString index

def operandText? (module : Module) (definition : TypeDefinition) (method : MethodDefinition)
    (instruction : Cil.Instruction) : Option String :=
  let mnemonic := instruction.opcode.name
  match instruction.operand with
  | .none => none
  | .signed value => some (toString value)
  | .unsigned index => some (variableName method mnemonic index)
  | .float32 bits => some (Decimal.text Decimal.single bits.toNat)
  | .float64 bits => some (Decimal.text Decimal.double bits.toNat)
  | .target offset => some (Cil.label offset)
  | .jumpTable targets => some ("(" ++ ", ".intercalate (targets.map Cil.label) ++ ")")
  | .token token =>
    some (tokenText module (Module.GenericNames.ofMethod definition method) mnemonic token)

def operandTokens (module : Module) (instruction : Cil.Instruction) : List Token :=
  match instruction.operand with
  | .token token => spelledTokens module token
  | _ => []

def instructionText (module : Module) (definition : TypeDefinition) (method : MethodDefinition)
    (instruction : Cil.Instruction) : String :=
  let head := Cil.label instruction.offset ++ ": " ++ instruction.opcode.name
  match operandText? module definition method instruction with
  | some operand => head ++ " " ++ operand
  | none => head

end ClrDecompiler.Listing
