/-
This file declares the members of types in C#. Bodies are left out.
-/

import ClrDecompiler.Module.Names
import ClrDecompiler.Source.Document
import ClrDecompiler.Source.Literal

namespace ClrDecompiler.Source

open Metadata Signature

def accessWord : Access → String
  | .everyone => "public"
  | .family => "protected"
  | .assembly => "internal"
  | .familyOrAssembly => "protected internal"
  | .familyAndAssembly => "private protected"
  | .ownType => "private"
  | .compilerControlled => "private"

def words (parts : List String) : String :=
  " ".intercalate parts

/-- Words that stand in a declaration on a condition. -/
def wordsIf (condition : Bool) (parts : List String) : List String :=
  if condition then parts else []

/-- The names of type parameters. Unnamed ones are numbered after a letter. -/
def genericList (letter : String) : List String → String
  | [] => ""
  | names =>
    let spelled := names.mapIdx fun index name =>
      if name.isEmpty then letter ++ toString index else name
    "<" ++ ", ".intercalate spelled ++ ">"

def spell (module : Module) (names : Module.GenericNames) (type : TypeSig) : String :=
  module.typeName .csharp names type

/-- The return type of a method. -/
def returnWord (module : Module) (names : Module.GenericNames) (signature : MethodSig) : String :=
  (module.speller .csharp names).parameter signature.returns

/-- A reference is passed in and out unless it only leads out. -/
def paramText (module : Module) (names : Module.GenericNames) (method : MethodDefinition)
    (index : Nat) (param : Parameter TypeSig) : String :=
  let direction := if method.isOutParam index then "out" else "ref"
  words (wordsIf param.byRef [direction] ++
    [spell module names param.type, method.paramName index])

def paramList (module : Module) (definition : TypeDefinition) (method : MethodDefinition) :
    String :=
  let names := Module.GenericNames.ofMethod definition method
  let params := method.signature.params.mapIdx (paramText module names method)
  ", ".intercalate (params ++ wordsIf method.signature.vararg ["__arglist"])

/-- The value of a field that is a compile-time constant. -/
def constantOf? (module : Module) (field : FieldDefinition) : Option ConstantValue :=
  if hasFlag field.flags FieldFlags.literal then module.fieldConstant? field.token else none

def fieldLine (module : Module) (definition : TypeDefinition) (field : FieldDefinition) : Line :=
  let constant := constantOf? module field
  let kind := match constant with
    | some _ => ["const"]
    | none => wordsIf (hasFlag field.flags FieldFlags.static) ["static"] ++
      wordsIf (hasFlag field.flags FieldFlags.readOnly) ["readonly"]
  let value := match constant with
    | some value => ["=", literal value]
    | none => []
  Line.plain (words (
    wordsIf (definition.kind != .interface) [accessWord (Access.ofFlags field.flags)] ++ kind ++
    [spell module (Module.GenericNames.ofType definition) field.type, field.name] ++ value) ++ ";")

/-- The members of an interface are public. -/
def scopeWords (definition : TypeDefinition) (method : MethodDefinition) : List String :=
  if method.isTypeInitializer then ["static"]
  else wordsIf (definition.kind != .interface) [accessWord (Access.ofFlags method.flags)] ++
    wordsIf (method.has MethodFlags.static) ["static"]

/-- How a method takes part in overriding. -/
def overridingWords (method : MethodDefinition) : List String :=
  if method.has MethodFlags.abstract then ["abstract"]
  else if method.has MethodFlags.virtual then
    match method.has MethodFlags.newSlot, method.has MethodFlags.final with
    | false, true => ["sealed", "override"]
    | false, false => ["override"]
    | true, false => ["virtual"]
    | true, true => []
  else []

/-- Whether the code of a method is outside the module. -/
def isExtern (definition : TypeDefinition) (method : MethodDefinition) : Bool :=
  method.has MethodFlags.foreign ||
    hasFlag method.implementation ImplementationFlags.internalCall ||
    (method.address == 0 && !method.has MethodFlags.abstract && definition.kind != .interface)

def hasBody (definition : TypeDefinition) (method : MethodDefinition) : Bool :=
  !method.has MethodFlags.abstract && !isExtern definition method &&
    !(definition.kind == .interface && method.address == 0)

/-- Constructors have the name of their type and return nothing. -/
def isInitializer (method : MethodDefinition) : Bool :=
  method.isConstructor || method.isTypeInitializer

def methodWords (module : Module) (definition : TypeDefinition) (method : MethodDefinition) :
    List String :=
  if isInitializer method then [definition.displayName]
  else
    [returnWord module (Module.GenericNames.ofMethod definition method) method.signature,
      method.name ++ genericList "M" method.genericParams]

/-- The tokens that the declaration of a method spells. -/
def methodTokens (method : MethodDefinition) : List Token :=
  if isInitializer method then method.signature.paramTokens else method.signature.tokens

def methodText (module : Module) (definition : TypeDefinition) (method : MethodDefinition) :
    String :=
  words (scopeWords definition method ++
    wordsIf (definition.kind != .interface) (overridingWords method) ++
    wordsIf (isExtern definition method) ["extern"] ++ methodWords module definition method) ++
  "(" ++ paramList module definition method ++ ")"

/-- A body does nothing in a constructor and throws in any other method. -/
def methodLines (module : Module) (definition : TypeDefinition) (method : MethodDefinition) :
    List Line :=
  let text := methodText module definition method
  if hasBody definition method then
    Line.block (Line.declaring method.token text)
      (if isInitializer method then [] else [Line.plain "throw null;"])
  else
    [Line.declaring method.token (text ++ ";")]

end ClrDecompiler.Source
