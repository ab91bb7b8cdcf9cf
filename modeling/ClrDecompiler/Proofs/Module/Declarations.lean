/-
This file takes from a module what does not belong to its declarations, and shows that types are
found and spelled as before.
-/

import ClrDecompiler.Module.Names

namespace ClrDecompiler

open Metadata Signature

/-- A method without its body. Of the address it keeps whether there is one. -/
def MethodDefinition.withoutCode (method : MethodDefinition) : MethodDefinition :=
  { method with address := if method.address = 0 then 0 else 1, body := none }

/-- A type whose methods have no bodies. -/
def TypeDefinition.withoutCode (definition : TypeDefinition) : TypeDefinition :=
  { definition with methods := definition.methods.map MethodDefinition.withoutCode }

namespace Module

/-- A module with its name, its types without code, and what these refer to. -/
def declarations (module : Module) : Module where
  image := ⟨#[], 0, 0, ⟨0, 0, []⟩, []⟩
  path := ""
  name := module.name
  mvid := none
  runtimeVersion := ""
  identity := module.identity
  references := module.references
  framework := module.framework
  debugEntries := []
  entryPoint := none
  tableRows := []
  types := module.types.map TypeDefinition.withoutCode
  typeRefs := module.typeRefs
  typeSpecs := module.typeSpecs
  memberRefs := #[]
  methodSpecs := #[]
  localSignatures := #[]
  fieldConstants := module.fieldConstants
  userStrings := #[]

variable (module : Module)

/-! Lookups. -/

@[simp] theorem type?_declarations (token : Token) :
    module.declarations.type? token = (module.type? token).map TypeDefinition.withoutCode := by
  rw [type?, type?, listed?, listed?]
  split
  · exact Array.getElem?_map
  · rfl

@[simp] theorem typeRef?_declarations (token : Token) :
    module.declarations.typeRef? token = module.typeRef? token := rfl

@[simp] theorem typeSpec?_declarations (token : Token) :
    module.declarations.typeSpec? token = module.typeSpec? token := rfl

@[simp] theorem fieldConstant?_declarations (token : Token) :
    module.declarations.fieldConstant? token = module.fieldConstant? token := rfl

/-- The nested types of a module without code are those of the module, without code. -/
theorem nestedTypes_declarations (definition : TypeDefinition) :
    module.declarations.nestedTypes definition.withoutCode =
      (module.nestedTypes definition).map TypeDefinition.withoutCode := by
  show definition.nested.filterMap module.declarations.type? = _
  rw [nestedTypes, List.map_filterMap]
  exact congrArg (definition.nested.filterMap ·) (funext module.type?_declarations)

theorem topLevelTypes_declarations : module.declarations.topLevelTypes =
    module.topLevelTypes.map TypeDefinition.withoutCode := by
  rw [topLevelTypes, topLevelTypes]
  show (module.types.map TypeDefinition.withoutCode).toList.filter _ = _
  rw [Array.toList_map, List.filter_map]
  rfl

theorem enclosing?_declarations (definition : TypeDefinition) :
    module.declarations.enclosing? definition.withoutCode =
      (module.enclosing? definition).map TypeDefinition.withoutCode := by
  show definition.enclosing.bind module.declarations.type? = _
  rw [enclosing?, Option.map_bind]
  exact congrArg definition.enclosing.bind (funext module.type?_declarations)

theorem enclosingChain_declarations (bound : Nat) (definition : TypeDefinition) :
    module.declarations.enclosingChain bound definition.withoutCode =
      (module.enclosingChain bound definition).map TypeDefinition.withoutCode := by
  induction bound generalizing definition with
  | zero => rfl
  | succ bound ih =>
    rw [enclosingChain, enclosingChain, enclosing?_declarations]
    cases module.enclosing? definition with
    | none => rfl
    | some outer => simp only [Option.map_some, ih, List.map_append, List.map_cons, List.map_nil]

/-! Spellings. -/

/-- Names are spelled without looking at code. -/
theorem declaredName_declarations (style : NameStyle) (definition : TypeDefinition) :
    module.declarations.declaredName style definition.withoutCode =
      module.declaredName style definition := by
  rw [declaredName, declaredName, enclosingChain_declarations]
  cases module.enclosingChain (maxEnclosing - 1) definition with
  | nil => rfl
  | cons outermost inner =>
    simp only [List.map_cons, List.map_map]
    rfl

theorem referenceNameWithin_declarations (style : NameStyle) (bound : Nat)
    (reference : TypeReference) :
    module.declarations.referenceNameWithin style bound reference =
      module.referenceNameWithin style bound reference := by
  induction bound generalizing reference with
  | zero => rfl
  | succ bound ih =>
    have outward : module.declarations.outerReference? reference =
        module.outerReference? reference := rfl
    simp only [referenceNameWithin, outward]
    cases module.outerReference? reference with
    | none => rfl
    | some outer => simp only [ih]

/-- Tokens are spelled without looking at code. -/
theorem tokenNameWithin_declarations (style : NameStyle) (names : GenericNames) (bound : Nat) :
    module.declarations.tokenNameWithin style names bound =
      module.tokenNameWithin style names bound := by
  induction bound with
  | zero => rfl
  | succ bound ih =>
    funext token
    rw [tokenNameWithin, tokenNameWithin, type?_declarations, typeRef?_declarations,
      typeSpec?_declarations, ih]
    cases module.type? token with
    | some definition => exact congrArg some (module.declaredName_declarations style definition)
    | none =>
      cases module.typeRef? token with
      | some reference =>
        exact congrArg some (module.referenceNameWithin_declarations style _ reference)
      | none => cases module.typeSpec? token <;> rfl

theorem tokenName?_declarations (style : NameStyle) (names : GenericNames) :
    module.declarations.tokenName? style names = module.tokenName? style names :=
  module.tokenNameWithin_declarations style names _

@[simp] theorem checkNames_declarations (tokens : List Token) :
    module.declarations.checkNames tokens = module.checkNames tokens := by
  have ends : module.declarations.nameEnds = module.nameEnds := by
    funext token
    rw [nameEnds, nameEnds, tokenName?_declarations]
  rw [checkNames, checkNames, ends]

@[simp] theorem speller_declarations (style : NameStyle) (names : GenericNames) :
    module.declarations.speller style names = module.speller style names := by
  have token : module.declarations.tokenName style names = module.tokenName style names := by
    funext token
    rw [tokenName, tokenName, tokenName?_declarations]
  rw [speller, speller, token]

/-- Signatures are spelled without looking at code. -/
@[simp] theorem typeName_declarations (style : NameStyle) (names : GenericNames) (type : TypeSig) :
    module.declarations.typeName style names type = module.typeName style names type := by
  rw [typeName, typeName, speller_declarations]

end Module

end ClrDecompiler
