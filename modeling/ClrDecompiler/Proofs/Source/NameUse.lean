/-
This file shows that the names in a document are those that were checked to come to an end, so the
document does not depend on any other signature of the module.
-/

import ClrDecompiler.Proofs.Module.NameUse
import ClrDecompiler.Proofs.Source.Decompile

namespace ClrDecompiler.Source

open Metadata Signature ClrDecompiler.Module

variable {module : Module} {typeSpecs : Array TypeSig} (kept : module.KeepsEnding typeSpecs)
  {definition : TypeDefinition} {method : MethodDefinition}

include kept

/-! Members. -/

/-- A type is spelled from the signatures that its names lead to. -/
theorem spell_withTypeSpecs (names : GenericNames) {type : TypeSig}
    (ends : ∀ token ∈ type.tokens, module.NameEnds token) :
    spell (module.withTypeSpecs typeSpecs) names type = spell module names type :=
  typeName_withTypeSpecs kept ends

/-- The parameters of a method are spelled with the names in their types. -/
theorem paramList_withTypeSpecs
    (ends : ∀ token ∈ method.signature.paramTokens, module.NameEnds token) :
    paramList (module.withTypeSpecs typeSpecs) definition method =
      paramList module definition method := by
  rw [forall_mem_paramTokens] at ends
  have params : method.signature.params.mapIdx (paramText (module.withTypeSpecs typeSpecs)
        (GenericNames.ofMethod definition method) method) =
      method.signature.params.mapIdx
        (paramText module (GenericNames.ofMethod definition method) method) := by
    refine List.mapIdx_eq_mapIdx_iff.mpr fun index inside => ?_
    rw [paramText, paramText, spell_withTypeSpecs kept _ (ends _ (List.getElem_mem inside))]
  rw [paramList, paramList, params]

/-- The line of a field spells no type but that of the field. -/
theorem fieldLine_withTypeSpecs {field : FieldDefinition}
    (ends : ∀ token ∈ field.type.tokens, module.NameEnds token) :
    fieldLine (module.withTypeSpecs typeSpecs) definition field =
      fieldLine module definition field := by
  rw [fieldLine, fieldLine, spell_withTypeSpecs kept _ ends]
  rfl

/-- A constructor spells no type in the place of a result. -/
theorem methodText_withTypeSpecs (ends : ∀ token ∈ methodTokens method, module.NameEnds token) :
    methodText (module.withTypeSpecs typeSpecs) definition method =
      methodText module definition method := by
  have head : methodWords (module.withTypeSpecs typeSpecs) definition method =
      methodWords module definition method := by
    rw [methodTokens] at ends
    rw [methodWords, methodWords]
    split
    · rfl
    · rw [if_neg ‹_›] at ends
      rw [returnWord, returnWord, parameter_withTypeSpecs kept (List.forall_mem_append.mp ends).1]
  have params : ∀ token ∈ method.signature.paramTokens, module.NameEnds token := by
    rw [methodTokens] at ends
    split at ends
    · exact ends
    · exact (List.forall_mem_append.mp ends).2
  rw [methodText, methodText, head, paramList_withTypeSpecs kept params]

/-- The lines of a method spell types only in its declaration. -/
theorem methodLines_withTypeSpecs (ends : ∀ token ∈ methodTokens method, module.NameEnds token) :
    methodLines (module.withTypeSpecs typeSpecs) definition method =
      methodLines module definition method := by
  rw [methodLines, methodLines, methodText_withTypeSpecs kept ends]

/-! Types. -/

/-- A class names its base and its interfaces, an enumeration the type of its value. -/
theorem bases_withTypeSpecs
    (ends : ∀ type ∈ baseTypes definition, ∀ token ∈ type.tokens, module.NameEnds token) :
    bases (module.withTypeSpecs typeSpecs) definition = bases module definition := by
  have spelled (type : TypeSig) (member : type ∈ baseTypes definition) :
      spell (module.withTypeSpecs typeSpecs) (GenericNames.ofType definition) type =
        spell module (GenericNames.ofType definition) type :=
    spell_withTypeSpecs kept _ (ends type member)
  cases kind : definition.kind <;> simp only [baseTypes, bases, kind] at spelled ⊢
  case classType =>
    rw [List.forall_mem_append] at spelled
    rw [List.map_congr_left spelled.2, Option.map_congr fun type found =>
      spelled.1 type (Option.mem_toList.mpr found)]
  case enum => rw [Option.map_congr fun type found => spelled type (Option.mem_toList.mpr found)]
  case interface | struct | delegate => exact List.map_congr_left spelled

/-- The head of a type spells the types after the colon. -/
theorem typeText_withTypeSpecs (language : Language)
    (ends : ∀ type ∈ baseTypes definition, ∀ token ∈ type.tokens, module.NameEnds token) :
    typeText (module.withTypeSpecs typeSpecs) language definition =
      typeText module language definition := by
  rw [typeText, typeText, bases_withTypeSpecs kept ends]

/-- A delegate spells the types of the method that calls it. -/
theorem delegateLine_withTypeSpecs (ends : ∀ invoke ∈ definition.methods.find? (·.name == "Invoke"),
      ∀ token ∈ invoke.signature.tokens, module.NameEnds token) :
    delegateLine (module.withTypeSpecs typeSpecs) definition = delegateLine module definition := by
  rw [delegateLine, delegateLine]
  cases found : definition.methods.find? (·.name == "Invoke") with
  | none => rfl
  | some invoke =>
    obtain ⟨ofResult, ofParams⟩ := List.forall_mem_append.mp (ends invoke found)
    simp only [returnWord, parameter_withTypeSpecs kept ofResult,
      paramList_withTypeSpecs kept ofParams]

/-- The members of a type spell the names of its fields and methods. -/
theorem memberGroups_withTypeSpecs
    (fields : ∀ field ∈ definition.fields, ∀ token ∈ field.type.tokens, module.NameEnds token)
    (methods : ∀ method ∈ definition.methods, ∀ token ∈ methodTokens method,
      module.NameEnds token) :
    memberGroups (module.withTypeSpecs typeSpecs) definition = memberGroups module definition := by
  rw [memberGroups, memberGroups,
    List.map_congr_left fun field member => fieldLine_withTypeSpecs kept (fields field member),
    List.map_congr_left fun method member =>
      methodLines_withTypeSpecs kept (methods method member)]

/-- The lines of a type spell the names that are checked for it. -/
theorem typeLines_withTypeSpecs (language : Language) (bound : Nat)
    (ends : ∀ token ∈ typeTokens module bound definition, module.NameEnds token) :
    typeLines (module.withTypeSpecs typeSpecs) language bound definition =
      typeLines module language bound definition := by
  induction bound generalizing definition with
  | zero => rfl
  | succ bound ih =>
    rw [typeLines, typeLines]
    rw [typeTokens] at ends
    cases kind : definition.kind <;> simp only [ownTokens, kind] at ends ⊢
    case delegate =>
      rw [List.forall_mem_flatMap] at ends
      rw [delegateLine_withTypeSpecs kept fun invoke found =>
        ends invoke (Option.mem_toList.mpr found)]
    case enum =>
      rw [List.forall_mem_flatMap] at ends
      rw [typeText_withTypeSpecs kept language ends]
      rfl
    case classType | interface | struct =>
      simp only [List.forall_mem_append, List.forall_mem_flatMap] at ends
      obtain ⟨⟨⟨ofBases, ofFields⟩, ofMethods⟩, ofNested⟩ := ends
      have nested : ((module.withTypeSpecs typeSpecs).nestedTypes definition).map
            (typeLines (module.withTypeSpecs typeSpecs) language bound) =
          (module.nestedTypes definition).map (typeLines module language bound) :=
        List.map_congr_left fun inner member => ih (ofNested inner member)
      rw [typeText_withTypeSpecs kept language ofBases,
        memberGroups_withTypeSpecs kept ofFields ofMethods, nested]

/-! Documents. -/

omit kept in
/-- The names that are checked for a type are those of its own declarations. -/
theorem typeTokens_withTypeSpecs (bound : Nat) (definition : TypeDefinition) :
    typeTokens (module.withTypeSpecs typeSpecs) bound definition =
      typeTokens module bound definition := by
  induction bound generalizing definition with
  | zero => rfl
  | succ bound ih =>
    have nested : ((module.withTypeSpecs typeSpecs).nestedTypes definition).flatMap
          (typeTokens (module.withTypeSpecs typeSpecs) bound) =
        (module.nestedTypes definition).flatMap (typeTokens module bound) :=
      List.flatMap_congr fun inner _ => ih inner
    rw [typeTokens, typeTokens, nested]

omit kept in
/-- Types keep their namespaces. -/
theorem namespaceOf_withTypeSpecs :
    namespaceOf (module.withTypeSpecs typeSpecs) = namespaceOf module := by
  funext definition
  rw [namespaceOf, namespaceOf, enclosingChain_withTypeSpecs]

/-- A document is written from the signatures whose names come to an end. -/
theorem ofTypes_withTypeSpecs (language : Language) {types : List TypeDefinition}
    (ends : ∀ token ∈ types.flatMap (typeTokens module module.types.size),
      module.NameEnds token) :
    ofTypes (module.withTypeSpecs typeSpecs) language types = ofTypes module language types := by
  have lines (name : String) : namespaceLines (module.withTypeSpecs typeSpecs) language types name =
      namespaceLines module language types name := by
    rw [List.forall_mem_flatMap] at ends
    have members : (types.filter fun definition => namespaceOf module definition == name).map
          (typeLines (module.withTypeSpecs typeSpecs) language module.types.size) =
        (types.filter fun definition => namespaceOf module definition == name).map
          (typeLines module language module.types.size) :=
      List.map_congr_left fun definition member =>
        typeLines_withTypeSpecs kept language _ (ends definition (List.mem_filter.mp member).1)
    rw [namespaceLines, namespaceLines, namespaceOf_withTypeSpecs, ← members]
    rfl
  rw [ofTypes, ofTypes, namespaces, namespaces, namespaceOf_withTypeSpecs, funext lines]
  rfl

/-- Signatures whose names do not come to an end leave no trace in a document. -/
theorem decompile_withTypeSpecs (language : Language) {types : List TypeDefinition}
    {document : Document} (run : decompile module language types = .ok document) :
    decompile (module.withTypeSpecs typeSpecs) language types = .ok document := by
  obtain ⟨ends, written⟩ := decompile_eq_ok_iff.mp run
  refine decompile_eq_ok_iff.mpr ⟨?_, by rw [ofTypes_withTypeSpecs kept language ends, written]⟩
  rw [funext (typeTokens_withTypeSpecs _)]
  exact fun token member => (ends token member).withTypeSpecs kept

end ClrDecompiler.Source
