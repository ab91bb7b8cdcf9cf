/-
This file renders the types of a module as C# source.
-/

import ClrDecompiler.Source.Language
import ClrDecompiler.Source.Member

namespace ClrDecompiler.Source

open Metadata Signature

def visibilityWord : Visibility → String
  | .topLevel true => "public"
  | .topLevel false => "internal"
  | .nested access => accessWord access

def kindWord : TypeKind → String
  | .interface => "interface"
  | .struct => "struct"
  | .enum => "enum"
  | _ => "class"

/-- What a class cannot be used for. A version without static classes seals them. -/
def classWords (language : Language) (definition : TypeDefinition) : List String :=
  if definition.kind != .classType then []
  else if definition.isStaticClass then
    [if language.hasStaticClasses then "static" else "sealed"]
  else if definition.has TypeFlags.abstract then ["abstract"]
  else wordsIf (definition.has TypeFlags.sealed) ["sealed"]

/-- The number type of an enumeration. -/
def underlyingType? (definition : TypeDefinition) : Option TypeSig :=
  (definition.fields.find? (·.isEnumValue)).map (·.type)

/-- The types that a declaration names after a colon. Defaults are not named. -/
def bases (module : Module) (definition : TypeDefinition) : List String :=
  let spelled := spell module (Module.GenericNames.ofType definition)
  let interfaces := definition.interfaces.map spelled
  match definition.kind with
  | .classType => (definition.baseType.map spelled).toList.filter (· != "object") ++ interfaces
  | .enum => ((underlyingType? definition).map spelled).toList.filter (· != "int")
  | _ => interfaces

/-- The types that can stand after the colon. -/
def baseTypes (definition : TypeDefinition) : List TypeSig :=
  match definition.kind with
  | .classType => definition.baseType.toList ++ definition.interfaces
  | .enum => (underlyingType? definition).toList
  | _ => definition.interfaces

def typeName (definition : TypeDefinition) : String :=
  definition.displayName ++ genericList "T" definition.genericParams

def typeText (module : Module) (language : Language) (definition : TypeDefinition) : String :=
  let head := words ([visibilityWord (Visibility.ofFlags definition.flags)] ++
    classWords language definition ++ [kindWord definition.kind, typeName definition])
  match bases module definition with
  | [] => head
  | named => head ++ " : " ++ ", ".intercalate named

def enumMember (module : Module) (field : FieldDefinition) : String :=
  match module.fieldConstant? field.token with
  | some value => field.name ++ " = " ++ literal value
  | none => field.name

def enumLines (module : Module) (definition : TypeDefinition) : List Line :=
  let members := (definition.fields.filter (!·.isEnumValue)).map (enumMember module)
  (members.dropLast.map (· ++ ",") ++ members.getLast?.toList).map Line.plain

/-- A delegate is declared by the method that calls it. -/
def delegateLine (module : Module) (definition : TypeDefinition) : Line :=
  let head := visibilityWord (Visibility.ofFlags definition.flags) ++ " delegate "
  match definition.methods.find? (·.name == "Invoke") with
  | some invoke =>
    let returns := returnWord module (Module.GenericNames.ofType definition) invoke.signature
    Line.declaring invoke.token (head ++ returns ++ " " ++ typeName definition ++ "(" ++
      paramList module definition invoke ++ ");")
  | none => Line.plain (head ++ "void " ++ typeName definition ++ "();")

/-- The members of a type in groups. The fields form one group. -/
def memberGroups (module : Module) (definition : TypeDefinition) : List (List Line) :=
  let fields := definition.fields.map (fieldLine module definition)
  (if fields.isEmpty then [] else [fields]) ++
    definition.methods.map (methodLines module definition)

/-- A type with the types nested in it. The number bounds the depth of the nesting. -/
def typeLines (module : Module) (language : Language) : Nat → TypeDefinition → List Line
  | 0, _ => []
  | bound + 1, definition =>
    let head := Line.plain (typeText module language definition)
    match definition.kind with
    | .delegate => [delegateLine module definition]
    | .enum => Line.block head (enumLines module definition)
    | _ => Line.block head (Line.separated (memberGroups module definition ++
        (module.nestedTypes definition).map (typeLines module language bound)))

/-- The tokens that the declaration of a type spells, without those of nested types. -/
def ownTokens (definition : TypeDefinition) : List Token :=
  let bases := (baseTypes definition).flatMap TypeSig.tokens
  match definition.kind with
  | .delegate =>
    (definition.methods.find? (·.name == "Invoke")).toList.flatMap (·.signature.tokens)
  | .enum => bases
  | _ => bases ++ definition.fields.flatMap (·.type.tokens) ++
    definition.methods.flatMap methodTokens

/-- The tokens that the lines of a type spell, under the same bound on the depth. -/
def typeTokens (module : Module) : Nat → TypeDefinition → List Token
  | 0, _ => []
  | bound + 1, definition =>
    match definition.kind with
    | .delegate | .enum => ownTokens definition
    | _ => ownTokens definition ++
      (module.nestedTypes definition).flatMap (typeTokens module bound)

/-- Nested types lie in the namespace of the type around them. -/
def namespaceOf (module : Module) (definition : TypeDefinition) : String :=
  match module.enclosingChain Module.maxEnclosing definition with
  | outermost :: _ => outermost.namespaceName
  | [] => definition.namespaceName

def namespaceLines (module : Module) (language : Language) (types : List TypeDefinition)
    (name : String) : List Line :=
  let members := types.filter fun definition => namespaceOf module definition == name
  let lines := Line.separated (members.map (typeLines module language module.types.size))
  if name.isEmpty then lines else Line.block (Line.plain ("namespace " ++ name)) lines

/-- The namespaces in the order in which the types first name them. -/
def namespaces (module : Module) (types : List TypeDefinition) : List String :=
  (types.map (namespaceOf module)).eraseDups

def headerLines (module : Module) : List Line :=
  [Line.plain ("// " ++ module.name)] ++
  module.identity.toList.map (fun identity => Line.plain ("// " ++ identity.text)) ++
  [Line.plain ("// Target framework: " ++ module.framework.moniker), Line.blank]

/-- The document of types, where names that never come to an end are left as numbers. -/
def ofTypes (module : Module) (language : Language) (types : List TypeDefinition) : Document :=
  Document.ofLines (headerLines module ++
    Line.separated ((namespaces module types).map (namespaceLines module language types)))

/-- There is a document of types only if all names in it come to an end. -/
def decompile (module : Module) (language : Language) (types : List TypeDefinition) :
    Except Fault Document := do
  module.checkNames (types.flatMap (typeTokens module module.types.size))
  return ofTypes module language types

/-- The type of global members is only rendered if there are any. -/
def isRendered (definition : TypeDefinition) : Bool :=
  !definition.isModuleType || !definition.fields.isEmpty || !definition.methods.isEmpty

def renderedTypes (module : Module) : List TypeDefinition :=
  module.topLevelTypes.filter isRendered

def ofModule (module : Module) (language : Language) : Except Fault Document :=
  decompile module language (renderedTypes module)

/-- The document of the type that a user asks for. -/
def ofType (module : Module) (language : Language) (query : TypeQuery) :
    Except Fault Document :=
  match module.findType? query with
  | some definition => decompile module language [definition]
  | none => .error (.typeNotFound query.text)

end ClrDecompiler.Source
