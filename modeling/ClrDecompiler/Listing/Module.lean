/-
This file lists the types of a module as assembly source.
-/

import ClrDecompiler.Listing.Method
import ClrDecompiler.Metadata.Guid

namespace ClrDecompiler.Listing

open Metadata Signature Source

def visibilityWords : Visibility → List String
  | .topLevel true => ["public"]
  | .topLevel false => ["private"]
  | .nested access => ["nested", accessWord access]

def layoutWord : Layout → String
  | .automatic => "auto"
  | .sequential => "sequential"
  | .explicit => "explicit"

def typeFlagWords : List (UInt32 × String) := [
  (TypeFlags.abstract, "abstract"), (TypeFlags.sealed, "sealed"),
  (TypeFlags.specialName, "specialname"), (TypeFlags.imported, "import"),
  (TypeFlags.serializable, "serializable"), (TypeFlags.beforeFieldInit, "beforefieldinit")]

/-- Nested types are named without those around them. -/
def typeName (definition : TypeDefinition) : String :=
  if definition.isNested then definition.name else definition.qualifiedName

def typeHeader (definition : TypeDefinition) : String :=
  words ([".class"] ++ wordsIf (definition.has TypeFlags.interface) ["interface"] ++
    visibilityWords (Visibility.ofFlags definition.flags) ++
    [layoutWord (Layout.ofFlags definition.flags), "ansi"] ++
    (typeFlagWords.filter fun (flag, _) => definition.has flag).map (·.2) ++
    [typeName definition ++ genericText definition.genericParams])

def baseLines (module : Module) (definition : TypeDefinition) : List Line :=
  let spelled (type : TypeSig) : String :=
    bareType (spell module (Module.GenericNames.ofType definition) type)
  let implemented := definition.interfaces.map spelled
  definition.baseType.toList.map (fun base => Line.plain ("\textends " ++ spelled base)) ++
    if implemented.isEmpty then []
    else [Line.plain ("\timplements " ++ ",\n\t\t\t   ".intercalate implemented)]

def headTokens (definition : TypeDefinition) : List Token :=
  (definition.baseType.toList ++ definition.interfaces).flatMap TypeSig.tokens

def fieldFlagWords : List (UInt16 × String) := [
  (FieldFlags.static, "static"), (FieldFlags.readOnly, "initonly"),
  (FieldFlags.literal, "literal"), (FieldFlags.notSerialized, "notserialized"),
  (FieldFlags.specialName, "specialname"), (FieldFlags.runtimeSpecialName, "rtspecialname")]

def fieldLine (module : Module) (definition : TypeDefinition) (field : FieldDefinition) : Line :=
  let value := match module.fieldConstant? field.token with
    | some value => ["=", constant value]
    | none => []
  Line.plain (words ([".field", accessWord (Access.ofFlags field.flags)] ++
    flagWords field.flags fieldFlagWords ++
    [spell module (Module.GenericNames.ofType definition) field.type, field.name] ++ value))

/-- Outputs with a blank line between two of them. -/
def separated : List Output → Output
  | [] => Output.ofLines []
  | [only] => only
  | first :: rest => first ++ Output.ofLines [Line.blank] ++ separated rest

def memberOutput (module : Module) (options : Options) (definition : TypeDefinition) : Output :=
  let fields := definition.fields.map (fieldLine module definition)
  let gap := if fields.isEmpty || definition.methods.isEmpty then [] else [Line.blank]
  namesOutput module (definition.fields.flatMap (·.type.tokens)) ++
    Output.ofLines (fields ++ gap) ++
    separated (definition.methods.map (methodOutput module options definition))

/-- A type with the types nested in it before its members. The number bounds the depth of the
nesting. -/
def typeOutput (module : Module) (options : Options) : Nat → TypeDefinition → Output
  | 0, _ => Output.ofLines []
  | bound + 1, definition =>
    if options.cancelled then Output.failed .cancelled
    else
      let nested := (module.nestedTypes definition).map fun inner =>
        typeOutput module options bound inner ++ Output.ofLines [Line.blank]
      namesOutput module (headTokens definition) ++
        Output.ofLines (Line.plain (typeHeader definition) :: baseLines module definition ++
          [Line.plain "\x7b"]) ++
        (Output.concat nested ++ memberOutput module options definition).indent ++
        Output.ofLines [Line.plain ("\x7d // end of class " ++ typeName definition)]

def versionText (version : Version) : String :=
  Text.replace (· == '.') ':' version.text

/-- The bytes of a public key token. -/
def keyBytes (token : Bytes) : String :=
  words (token.toList.map fun byte => Hex.upper 2 byte.toNat)

def referenceLines (reference : AssemblyIdentity) : List Line :=
  ([".assembly extern " ++ reference.name, "\x7b"] ++
    reference.keyToken.toList.map
      (fun token => "\t.publickeytoken = (" ++ keyBytes token ++ " )") ++
    ["\t.ver " ++ versionText reference.version, "\x7d"]).map Line.plain

def identityLines (identity : AssemblyIdentity) : List Line :=
  [".assembly " ++ identity.name, "\x7b", "\t.ver " ++ versionText identity.version,
    "\x7d"].map Line.plain

/-- An identifier between braces. -/
def identifierText (mvid : Bytes) : String :=
  "\x7b" ++ (Guid.text mvid).toUpper ++ "\x7d"

def manifestLines (module : Module) (options : Options) : List Line :=
  module.references.flatMap referenceLines ++ module.identity.toList.flatMap identityLines ++
  ([".module " ++ module.name] ++
    module.mvid.toList.map (fun mvid => "// MVID: " ++ identifierText mvid) ++
    [".imagebase 0x" ++ Hex.lower 8 module.image.header.imageBase] ++
    options.symbols.toList.map (fun symbols => "// Symbols: " ++ symbols.description) ++
    [""]).map Line.plain

/-- The listing of a module. A blank line follows every type. -/
def ofModule (module : Module) (options : Options) : Output :=
  let types := module.topLevelTypes.map fun definition =>
    typeOutput module options module.types.size definition ++ Output.ofLines [Line.blank]
  Output.ofLines (manifestLines module options) ++ Output.concat types

end ClrDecompiler.Listing
