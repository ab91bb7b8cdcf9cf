/-
This file shows that the source of a module is made of its declarations alone.
-/

import ClrDecompiler.Project.SourcePath
import ClrDecompiler.Proofs.Module.Declarations
import Mathlib.Data.List.Basic

namespace ClrDecompiler.Source

open Metadata Signature ClrDecompiler.Module

variable (module : Module) (language : Language) (definition : TypeDefinition)
  (method : MethodDefinition)

/-! Members. -/

@[simp] theorem spell_declarations (names : GenericNames) (type : TypeSig) :
    spell module.declarations names type = spell module names type :=
  module.typeName_declarations .csharp names type

@[simp] theorem returnWord_declarations (names : GenericNames) (signature : MethodSig) :
    returnWord module.declarations names signature = returnWord module names signature := by
  rw [returnWord, returnWord, speller_declarations]

theorem paramList_declarations :
    paramList module.declarations definition.withoutCode method.withoutCode =
      paramList module definition method := by
  have texts : paramText module.declarations (.ofMethod definition method) method =
      paramText module (.ofMethod definition method) method := by
    funext index param
    rw [paramText, paramText, spell_declarations]
  show ", ".intercalate (method.signature.params.mapIdx (paramText module.declarations
    (.ofMethod definition method) method) ++ _) = _
  rw [texts]
  rfl

theorem fieldLine_declarations (field : FieldDefinition) :
    fieldLine module.declarations definition.withoutCode field =
      fieldLine module definition field := by
  simp only [fieldLine, constantOf?, fieldConstant?_declarations, spell_declarations]
  rfl

/-- Of the address of a method only counts whether it is zero. -/
theorem address_withoutCode : (method.withoutCode.address == 0) = (method.address == 0) := by
  show ((if method.address = 0 then (0 : UInt32) else 1) == 0) = _
  split
  · rename_i zero
    rw [zero]
  · rename_i filled
    exact (beq_eq_false_iff_ne.mpr filled).symm

theorem isExtern_withoutCode :
    isExtern definition.withoutCode method.withoutCode = isExtern definition method := by
  rw [isExtern, isExtern, address_withoutCode]
  rfl

theorem hasBody_withoutCode :
    hasBody definition.withoutCode method.withoutCode = hasBody definition method := by
  rw [hasBody, hasBody, isExtern_withoutCode, address_withoutCode]
  rfl

theorem methodText_declarations :
    methodText module.declarations definition.withoutCode method.withoutCode =
      methodText module definition method := by
  have named : methodWords module.declarations definition.withoutCode method.withoutCode =
      methodWords module definition method := by
    rw [methodWords, methodWords, returnWord_declarations]
    rfl
  rw [methodText, methodText, named, isExtern_withoutCode, paramList_declarations]
  rfl

/-- A method is rendered without its code. -/
theorem methodLines_declarations :
    methodLines module.declarations definition.withoutCode method.withoutCode =
      methodLines module definition method := by
  rw [methodLines, methodLines, methodText_declarations, hasBody_withoutCode]
  rfl

/-! Types. -/

theorem bases_declarations :
    bases module.declarations definition.withoutCode = bases module definition := by
  have spelled : spell module.declarations (.ofType definition.withoutCode) =
      spell module (.ofType definition) := funext (spell_declarations module _)
  simp only [bases, spelled]
  rfl

theorem typeText_declarations :
    typeText module.declarations language definition.withoutCode =
      typeText module language definition := by
  rw [typeText, typeText, bases_declarations]
  rfl

theorem delegateLine_declarations :
    delegateLine module.declarations definition.withoutCode = delegateLine module definition := by
  have invoked : definition.withoutCode.methods.find? (·.name == "Invoke") =
      (definition.methods.find? (·.name == "Invoke")).map MethodDefinition.withoutCode := by
    show (definition.methods.map MethodDefinition.withoutCode).find? _ = _
    rw [List.find?_map]
    rfl
  rw [delegateLine, delegateLine, invoked]
  cases definition.methods.find? (·.name == "Invoke") with
  | none => rfl
  | some invoke =>
    simp only [Option.map_some, returnWord_declarations, paramList_declarations]
    rfl

theorem memberGroups_declarations :
    memberGroups module.declarations definition.withoutCode = memberGroups module definition := by
  have fields : fieldLine module.declarations definition.withoutCode =
      fieldLine module definition := funext (fieldLine_declarations module definition)
  have methods : definition.withoutCode.methods.map
      (methodLines module.declarations definition.withoutCode) =
      definition.methods.map (methodLines module definition) := by
    show (definition.methods.map MethodDefinition.withoutCode).map _ = _
    rw [List.map_map]
    exact List.map_congr_left fun method _ => methodLines_declarations module definition method
  rw [memberGroups, memberGroups, fields, methods]
  rfl

/-- A type is rendered from its declarations alone, at any depth. -/
theorem typeLines_declarations (bound : Nat) :
    typeLines module.declarations language bound definition.withoutCode =
      typeLines module language bound definition := by
  induction bound generalizing definition with
  | zero => rfl
  | succ bound ih =>
    have inner : (module.declarations.nestedTypes definition.withoutCode).map
        (typeLines module.declarations language bound) =
        (module.nestedTypes definition).map (typeLines module language bound) := by
      rw [nestedTypes_declarations, List.map_map]
      exact List.map_congr_left fun nested _ => ih nested
    rw [typeLines, typeLines, typeText_declarations, memberGroups_declarations, inner,
      delegateLine_declarations]
    rfl

/-! Documents. -/

theorem namespaceOf_declarations :
    namespaceOf module.declarations definition.withoutCode = namespaceOf module definition := by
  rw [namespaceOf, namespaceOf, enclosingChain_declarations]
  cases module.enclosingChain maxEnclosing definition <;> rfl

theorem namespaceLines_declarations (types : List TypeDefinition) (name : String) :
    namespaceLines module.declarations language (types.map TypeDefinition.withoutCode) name =
      namespaceLines module language types name := by
  have members : (types.map TypeDefinition.withoutCode).filter
      (fun definition => namespaceOf module.declarations definition == name) =
      (types.filter fun definition => namespaceOf module definition == name).map
        TypeDefinition.withoutCode := by
    rw [List.filter_map]
    congr 2
    funext definition
    rw [Function.comp_apply, namespaceOf_declarations]
  have lines : typeLines module.declarations language module.declarations.types.size ∘
      TypeDefinition.withoutCode = typeLines module language module.types.size := by
    funext definition
    rw [Function.comp_apply, typeLines_declarations]
    exact congrArg (typeLines module language · definition) Array.size_map
  rw [namespaceLines, namespaceLines, members, List.map_map, lines]

theorem namespaces_declarations (types : List TypeDefinition) :
    namespaces module.declarations (types.map TypeDefinition.withoutCode) =
      namespaces module types := by
  have named : namespaceOf module.declarations ∘ TypeDefinition.withoutCode =
      namespaceOf module := funext (namespaceOf_declarations module)
  rw [namespaces, namespaces, List.map_map, named]

/-- The document of types does not depend on their code. -/
theorem ofTypes_declarations (types : List TypeDefinition) :
    ofTypes module.declarations language (types.map TypeDefinition.withoutCode) =
      ofTypes module language types := by
  have lines : namespaceLines module.declarations language
      (types.map TypeDefinition.withoutCode) = namespaceLines module language types :=
    funext (namespaceLines_declarations module language types)
  rw [ofTypes, ofTypes, namespaces_declarations, lines]
  rfl

/-! Names in documents. -/

theorem ownTokens_declarations : ownTokens definition.withoutCode = ownTokens definition := by
  have invoked : definition.withoutCode.methods.find? (·.name == "Invoke") =
      (definition.methods.find? (·.name == "Invoke")).map MethodDefinition.withoutCode := by
    show (definition.methods.map MethodDefinition.withoutCode).find? _ = _
    rw [List.find?_map]
    rfl
  have methods : definition.withoutCode.methods.flatMap methodTokens =
      definition.methods.flatMap methodTokens := by
    show (definition.methods.map MethodDefinition.withoutCode).flatMap methodTokens = _
    rw [List.flatMap_map]
    rfl
  rw [ownTokens, ownTokens, invoked, methods]
  cases definition.methods.find? (·.name == "Invoke") <;> rfl

theorem typeTokens_declarations (bound : Nat) :
    typeTokens module.declarations bound definition.withoutCode =
      typeTokens module bound definition := by
  induction bound generalizing definition with
  | zero => rfl
  | succ bound ih =>
    have inner : (module.declarations.nestedTypes definition.withoutCode).flatMap
        (typeTokens module.declarations bound) =
        (module.nestedTypes definition).flatMap (typeTokens module bound) := by
      rw [nestedTypes_declarations, List.flatMap_map]
      exact List.flatMap_congr fun nested _ => ih nested
    rw [typeTokens, typeTokens, ownTokens_declarations, inner]
    rfl

/-- Neither does the question whether there is one. -/
theorem decompile_declarations (types : List TypeDefinition) :
    decompile module.declarations language (types.map TypeDefinition.withoutCode) =
      decompile module language types := by
  have tokens : (types.map TypeDefinition.withoutCode).flatMap
      (typeTokens module.declarations module.declarations.types.size) =
      types.flatMap (typeTokens module module.types.size) := by
    rw [List.flatMap_map, show module.declarations.types.size = module.types.size from
      Array.size_map]
    exact List.flatMap_congr fun definition _ => typeTokens_declarations module definition _
  rw [decompile, decompile, tokens, checkNames_declarations, ofTypes_declarations]

/-- The types that have documents are the same without code. -/
theorem renderedTypes_declarations : renderedTypes module.declarations =
    (renderedTypes module).map TypeDefinition.withoutCode := by
  have rendered : isRendered ∘ TypeDefinition.withoutCode = isRendered := by
    funext definition
    show (_ || !(definition.methods.map MethodDefinition.withoutCode).isEmpty) = _
    rw [List.isEmpty_map]
    rfl
  rw [renderedTypes, renderedTypes, topLevelTypes_declarations, List.filter_map, rendered]

/-- The paths of the documents are the same without code. -/
theorem assignPaths_withoutCode (used : List String) (types : List TypeDefinition) :
    Project.assignPaths used (types.map TypeDefinition.withoutCode) =
      (Project.assignPaths used types).map (Prod.map id TypeDefinition.withoutCode) := by
  induction types generalizing used with
  | nil => rfl
  | cons definition rest ih =>
    rw [List.map_cons, Project.assignPaths, Project.assignPaths, List.map_cons, ih]
    rfl

end ClrDecompiler.Source
