/-
This file shows that the names in a listing are those that were checked to come to an end, so the
listing does not depend on any other signature of the module.
-/

import ClrDecompiler.Proofs.Listing.LineStart
import ClrDecompiler.Proofs.Listing.Output
import ClrDecompiler.Proofs.Module.NameUse

namespace ClrDecompiler.Listing

open Metadata Signature Source ClrDecompiler.Module

/-! Outputs that agree unless a name does not come to an end. -/

/-- The second output is the first, unless the first stops at a name that does not come to an
end. -/
def Output.AgreesWith (first second : Output) : Prop :=
  first.fault ≠ some .endlessName → second = first

namespace Output

/-- The same output agrees with itself. -/
theorem AgreesWith.of_eq {first second : Output} (same : second = first) :
    first.AgreesWith second :=
  fun _ => same

/-- Outputs agree if their parts do. -/
theorem AgreesWith.append {first second firstRest secondRest : Output}
    (before : first.AgreesWith second) (after : firstRest.AgreesWith secondRest) :
    (first ++ firstRest).AgreesWith (second ++ secondRest) := by
  intro ends
  cases failed : first.fault with
  | some fault =>
    rw [append_of_fault failed] at ends ⊢
    rw [before ends, append_of_fault failed]
  | none =>
    rw [append_of_clean failed] at ends
    rw [before (by rw [failed]; exact nofun), after ends]

theorem AgreesWith.indent {first second : Output} (same : first.AgreesWith second) :
    first.indent.AgreesWith second.indent :=
  fun ends => congrArg Output.indent (same ends)

section Several

variable {α : Type} {first second : α → Output} {values : List α}
  (each : ∀ value ∈ values, (first value).AgreesWith (second value))

include each

/-- Outputs that follow one another agree if each of them does. -/
theorem agreesWith_concat :
    (concat (values.map first)).AgreesWith (concat (values.map second)) := by
  induction values with
  | nil => exact .of_eq rfl
  | cons value rest ih =>
    obtain ⟨own, others⟩ := List.forall_mem_cons.mp each
    exact own.append (ih others)

/-- So do outputs with blank lines between them. -/
theorem agreesWith_separated :
    (separated (values.map first)).AgreesWith (separated (values.map second)) := by
  induction values with
  | nil => exact .of_eq rfl
  | cons value rest ih =>
    obtain ⟨own, others⟩ := List.forall_mem_cons.mp each
    cases rest with
    | nil => exact own
    | cons next rest => exact (own.append (.of_eq rfl)).append (ih others)

end Several

end Output

variable {module : Module} {typeSpecs : Array TypeSig} (kept : module.KeepsEnding typeSpecs)
  {definition : TypeDefinition} {method : MethodDefinition}

include kept

/-- What is listed behind the check of some names may spell these names. -/
theorem agreesWith_names {tokens : List Token} {first second : List Line}
    (same : (∀ token ∈ tokens, module.NameEnds token) → second = first) :
    (namesOutput module tokens ++ Output.ofLines first).AgreesWith
      (namesOutput (module.withTypeSpecs typeSpecs) tokens ++ Output.ofLines second) := by
  intro ends
  have clean : (namesOutput module tokens).fault = none := by
    by_contra failed
    obtain ⟨fault, found⟩ := Option.ne_none_iff_exists'.mp failed
    rw [Output.append_of_fault found, found, faultIs_namesOutput fault found] at ends
    exact ends rfl
  have named := fault_namesOutput_eq_none_iff.mp clean
  rw [namesOutput_eq_nil named, namesOutput_eq_nil fun token member =>
    (named token member).withTypeSpecs kept, same named]

/-! Lines of types and of methods. -/

/-- A type is spelled from the signatures that its names lead to. -/
theorem spell_withTypeSpecs (names : GenericNames) {type : TypeSig}
    (ends : ∀ token ∈ type.tokens, module.NameEnds token) :
    spell (module.withTypeSpecs typeSpecs) names type = spell module names type :=
  typeName_withTypeSpecs kept ends

/-- The head of a type spells its base and its interfaces. -/
theorem baseLines_withTypeSpecs (ends : ∀ token ∈ headTokens definition, module.NameEnds token) :
    baseLines (module.withTypeSpecs typeSpecs) definition = baseLines module definition := by
  have spelled (type : TypeSig) (member : type ∈ definition.baseType.toList ++
        definition.interfaces) :
      bareType (spell (module.withTypeSpecs typeSpecs) (GenericNames.ofType definition) type) =
        bareType (spell module (GenericNames.ofType definition) type) :=
    congrArg bareType (spell_withTypeSpecs kept _ (List.forall_mem_flatMap.mp ends type member))
  obtain ⟨ofBase, ofInterfaces⟩ := List.forall_mem_append.mp spelled
  rw [baseLines, baseLines, List.map_congr_left ofInterfaces, List.map_congr_left fun type member =>
    congrArg (fun text => Line.plain ("\textends " ++ text)) (ofBase type member)]

/-- The line of a field spells no type but that of the field. -/
theorem fieldLine_withTypeSpecs {field : FieldDefinition}
    (ends : ∀ token ∈ field.type.tokens, module.NameEnds token) :
    fieldLine (module.withTypeSpecs typeSpecs) definition field =
      fieldLine module definition field := by
  rw [fieldLine, fieldLine, spell_withTypeSpecs kept _ ends]
  rfl

/-- The header of a method spells the types of its result and its parameters. -/
theorem methodHeader_withTypeSpecs
    (ends : ∀ token ∈ method.signature.tokens, module.NameEnds token) :
    methodHeader (module.withTypeSpecs typeSpecs) definition method =
      methodHeader module definition method := by
  obtain ⟨ofResult, ofParams⟩ := List.forall_mem_append.mp ends
  rw [forall_mem_paramTokens] at ofParams
  have params : method.signature.params.mapIdx (paramText ((module.withTypeSpecs typeSpecs).speller
        .listing (GenericNames.ofMethod definition method)) method) =
      method.signature.params.mapIdx (paramText (module.speller .listing
        (GenericNames.ofMethod definition method)) method) := by
    refine List.mapIdx_eq_mapIdx_iff.mpr fun index inside => ?_
    rw [paramText, paramText,
      parameter_withTypeSpecs kept (ofParams _ (List.getElem_mem inside))]
  rw [methodHeader, methodHeader, params, parameter_withTypeSpecs kept ofResult]

/-- Local variables are spelled with the names in their types. -/
theorem localLines_withTypeSpecs (names : GenericNames) {body : Cil.MethodBody}
    (ends : ∀ token ∈ localTokens module body, module.NameEnds token) :
    localLines (module.withTypeSpecs typeSpecs) names body = localLines module names body := by
  rw [localTokens] at ends
  rw [localLines, localLines, show (module.withTypeSpecs typeSpecs).locals? ⟨body.localsToken⟩ =
    module.locals? ⟨body.localsToken⟩ from rfl]
  cases found : module.locals? ⟨body.localsToken⟩ with
  | none => rfl
  | some locals =>
    rw [found, Option.getD_some, List.forall_mem_flatMap] at ends
    have texts : (locals.mapIdx fun index type => "\t[" ++ toString index ++ "] " ++
          spell (module.withTypeSpecs typeSpecs) names type) =
        locals.mapIdx fun index type => "\t[" ++ toString index ++ "] " ++
          spell module names type := by
      refine List.mapIdx_eq_mapIdx_iff.mpr fun index inside => ?_
      rw [spell_withTypeSpecs kept names (ends _ (List.getElem_mem inside))]
    simp only [texts]

/-! Lines of code. -/

/-- So does the operand of an instruction that calls a method. -/
theorem methodText_withTypeSpecs (names : GenericNames) {signature : MethodSig}
    (ends : ∀ token ∈ signature.tokens, module.NameEnds token) (owner name arguments : String) :
    methodText (module.withTypeSpecs typeSpecs) names signature owner name arguments =
      methodText module names signature owner name arguments := by
  obtain ⟨ofResult, ofParams⟩ := List.forall_mem_append.mp ends
  rw [forall_mem_paramTokens] at ofParams
  rw [methodText, methodText, parameter_withTypeSpecs kept ofResult,
    List.map_congr_left fun param member => parameter_withTypeSpecs kept (ofParams param member)]

/-- An owner that is no type has no name. -/
theorem ownerName_withTypeSpecs {owner : CodedIndex}
    (ends : ∀ token ∈ ownerTokens owner, module.NameEnds token) :
    ownerName (module.withTypeSpecs typeSpecs) owner = ownerName module owner := by
  rw [ownerTokens] at ends
  rw [ownerName, ownerName]
  split at ends <;>
    first
    | rw [tokenName_withTypeSpecs kept (ends owner.token (List.mem_singleton_self _))]
    | rfl

/-- A field that is declared is named with its own type. -/
theorem declaredField?_withTypeSpecs {token : Token}
    (ends : ∀ entry ∈ module.field? token, ∀ inner ∈ entry.2.type.tokens, module.NameEnds inner) :
    declaredField? (module.withTypeSpecs typeSpecs) token = declaredField? module token := by
  refine Option.map_congr fun ⟨owner, field⟩ found => ?_
  show fieldText (spell _ _ field.type) _ _ = fieldText (spell module _ field.type) _ _
  rw [spell_withTypeSpecs kept _ (ends _ found), declaredName_withTypeSpecs]

/-- A method that is declared is named with its own types. -/
theorem declaredMethod?_withTypeSpecs {token : Token} (arguments : String)
    (ends : ∀ entry ∈ module.method? token, ∀ inner ∈ entry.2.signature.tokens,
      module.NameEnds inner) :
    declaredMethod? (module.withTypeSpecs typeSpecs) arguments token =
      declaredMethod? module arguments token := by
  refine Option.map_congr fun ⟨owner, method⟩ found => ?_
  show methodText _ _ method.signature _ _ _ = methodText module _ method.signature _ _ _
  rw [methodText_withTypeSpecs kept _ (ends _ found), declaredName_withTypeSpecs]

/-- A member of another type is named with that type and its own signature. -/
theorem referencedMember?_withTypeSpecs {token : Token} (arguments : String)
    (ends : ∀ inner ∈ memberTokens module token, module.NameEnds inner) :
    referencedMember? (module.withTypeSpecs typeSpecs) arguments token =
      referencedMember? module arguments token := by
  refine Option.map_congr fun member found => ?_
  replace found : module.memberRef? token = some member := found
  simp only [memberTokens, found, List.forall_mem_append] at ends
  obtain ⟨ofOwner, ofMember⟩ := ends
  rw [ownerName_withTypeSpecs kept ofOwner]
  cases signature : member.signature with
  | field type =>
    rw [signature] at ofMember
    simp only [spell_withTypeSpecs kept _ ofMember]
  | method signed =>
    rw [signature] at ofMember
    simp only [methodText_withTypeSpecs kept _ ofMember]

/-- A method that is called is declared or referred to. -/
theorem methodNamed?_withTypeSpecs {token : Token} (arguments : String)
    (ends : ∀ inner ∈ calledTokens module token, module.NameEnds inner) :
    methodNamed? (module.withTypeSpecs typeSpecs) arguments token =
      methodNamed? module arguments token := by
  rw [calledTokens] at ends
  rw [methodNamed?, methodNamed?]
  split
  · rw [if_pos ‹_›, List.forall_mem_flatMap] at ends
    exact declaredMethod?_withTypeSpecs kept arguments fun entry found =>
      ends entry (Option.mem_toList.mpr found)
  · rw [if_neg ‹_›] at ends
    split
    · rw [if_pos ‹_›] at ends
      exact referencedMember?_withTypeSpecs kept arguments ends
    · rfl

/-- A method with type arguments spells these as well. -/
theorem specifiedMethod?_withTypeSpecs {token : Token}
    (ends : ∀ specification ∈ module.methodSpec? token,
      (∀ argument ∈ specification.arguments, ∀ inner ∈ argument.tokens, module.NameEnds inner) ∧
        ∀ inner ∈ calledTokens module specification.method, module.NameEnds inner) :
    specifiedMethod? (module.withTypeSpecs typeSpecs) token = specifiedMethod? module token := by
  rw [specifiedMethod?, specifiedMethod?,
    show (module.withTypeSpecs typeSpecs).methodSpec? token = module.methodSpec? token from rfl]
  refine Option.bind_congr fun specification found => ?_
  obtain ⟨ofArguments, ofMethod⟩ := ends specification found
  have arguments := List.map_congr_left fun argument member =>
    spell_withTypeSpecs kept {} (ofArguments argument member)
  simp only [arguments, methodNamed?_withTypeSpecs kept _ ofMethod]

/-- What a token stands for is spelled with the names that are checked for it. -/
theorem tokenName?_withTypeSpecs (names : GenericNames) {token : Token}
    (ends : ∀ inner ∈ spelledTokens module token, module.NameEnds inner) :
    tokenName? (module.withTypeSpecs typeSpecs) names token = tokenName? module names token := by
  rw [spelledTokens] at ends
  rw [tokenName?, tokenName?]
  generalize TableId.ofNumber? token.table.toNat = known at ends ⊢
  cases known with
  | none => rfl
  | some table =>
    cases table
    case field =>
      exact declaredField?_withTypeSpecs kept fun entry found =>
        List.forall_mem_flatMap.mp ends entry (Option.mem_toList.mpr found)
    case methodDef | memberRef => exact methodNamed?_withTypeSpecs kept "" ends
    case methodSpec =>
      refine specifiedMethod?_withTypeSpecs kept fun specification found => ?_
      have spelled := List.forall_mem_append.mp
        (List.forall_mem_flatMap.mp ends specification (Option.mem_toList.mpr found))
      exact ⟨List.forall_mem_flatMap.mp spelled.1, spelled.2⟩
    case typeRef | typeDef | typeSpec =>
      exact congrArg some (tokenName_withTypeSpecs kept (ends token (List.mem_singleton_self _)))
    all_goals rfl

/-- An instruction spells the names of its operand. -/
theorem instructionLines_withTypeSpecs (options : Options) {instruction : Cil.Instruction}
    (ends : ∀ token ∈ operandTokens module instruction, module.NameEnds token) :
    instructionLines (module.withTypeSpecs typeSpecs) options definition method instruction =
      instructionLines module options definition method instruction := by
  have operand : operandText? (module.withTypeSpecs typeSpecs) definition method instruction =
      operandText? module definition method instruction := by
    rw [operandTokens] at ends
    rw [operandText?, operandText?]
    cases found : instruction.operand with
    | token token =>
      rw [found] at ends
      simp only [tokenText, tokenName?_withTypeSpecs kept _ ends]
      rfl
    | none | signed | unsigned | float32 | float64 | target | jumpTable => rfl
  rw [instructionLines, instructionLines, instructionText, instructionText, operand]

/-- A clause spells the name of the type that it catches. -/
theorem clauseLine_withTypeSpecs (names : GenericNames) {clause : Cil.ExceptionClause}
    (ends : ∀ token ∈ clauseTokens clause, module.NameEnds token) :
    clauseLine (module.withTypeSpecs typeSpecs) names clause = clauseLine module names clause := by
  have text : clauseText (module.withTypeSpecs typeSpecs) names clause =
      clauseText module names clause := by
    rw [clauseTokens] at ends
    rw [clauseText, clauseText]
    cases kind : clause.kind with
    | catchHandler =>
      rw [kind] at ends
      simp only [tokenName_withTypeSpecs kept (ends _ (List.mem_singleton_self _))]
    | filter | finallyHandler | faultHandler => rfl
  rw [clauseLine, clauseLine, text]

/-! Outputs. -/

/-- A body spells the names of its local variables and those in its code. -/
theorem bodyOutput_agreesWith (options : Options) (body : Cil.MethodBody) :
    (bodyOutput module options definition method body).AgreesWith
      (bodyOutput (module.withTypeSpecs typeSpecs) options definition method body) := by
  rw [bodyOutput_eq, bodyOutput_eq]
  refine (agreesWith_names kept fun ends => ?_).append ?_
  · rw [bodyHead, bodyHead, localLines_withTypeSpecs kept _ ends]
  cases Cil.decode body.code with
  | error fault => exact .of_eq rfl
  | ok instructions =>
    refine agreesWith_names kept fun ends => ?_
    obtain ⟨ofInstructions, ofClauses⟩ := List.forall_mem_append.mp ends
    rw [List.forall_mem_flatMap] at ofInstructions ofClauses
    have lines : instructions.flatMap
          (instructionLines (module.withTypeSpecs typeSpecs) options definition method) =
        instructions.flatMap (instructionLines module options definition method) :=
      List.flatMap_congr fun instruction member =>
        instructionLines_withTypeSpecs kept options (ofInstructions instruction member)
    rw [lines, List.map_congr_left fun clause member =>
      clauseLine_withTypeSpecs kept _ (ofClauses clause member)]

/-- A method spells the names of its signature and those of its body. -/
theorem methodOutput_agreesWith (options : Options) :
    (methodOutput module options definition method).AgreesWith
      (methodOutput (module.withTypeSpecs typeSpecs) options definition method) := by
  rw [methodOutput, methodOutput]
  split
  · exact .of_eq rfl
  refine ((agreesWith_names kept fun ends => ?_).append (.indent ?_)).append (.of_eq rfl)
  · rw [methodHeader_withTypeSpecs kept ends]
  · refine .append (.of_eq rfl) ?_
    cases method.body with
    | none => exact .of_eq rfl
    | some body => exact bodyOutput_agreesWith kept options body

/-- Members spell the names of the fields and those of the methods. -/
theorem memberOutput_agreesWith (options : Options) (definition : TypeDefinition) :
    (memberOutput module options definition).AgreesWith
      (memberOutput (module.withTypeSpecs typeSpecs) options definition) := by
  refine (agreesWith_names kept fun ends => ?_).append
    (Output.agreesWith_separated fun method _ => methodOutput_agreesWith kept options)
  rw [List.forall_mem_flatMap] at ends
  rw [List.map_congr_left fun field member => fieldLine_withTypeSpecs kept (ends field member)]

/-- A type is listed with the names that are checked for it, and so are those nested in it. -/
theorem typeOutput_agreesWith (options : Options) (bound : Nat) (definition : TypeDefinition) :
    (typeOutput module options bound definition).AgreesWith
      (typeOutput (module.withTypeSpecs typeSpecs) options bound definition) := by
  induction bound generalizing definition with
  | zero => exact .of_eq rfl
  | succ bound ih =>
    rw [typeOutput, typeOutput]
    split
    · exact .of_eq rfl
    refine ((agreesWith_names kept fun ends => ?_).append (.indent ?_)).append (.of_eq rfl)
    · rw [baseLines_withTypeSpecs kept ends]
    · exact (Output.agreesWith_concat fun inner _ => (ih inner).append (.of_eq rfl)).append
        (memberOutput_agreesWith kept options definition)

/-- Signatures whose names do not come to an end leave no trace in a listing that does not stop at
one of them. -/
theorem ofModule_withTypeSpecs (options : Options)
    (ends : (ofModule module options).fault ≠ some .endlessName) :
    ofModule (module.withTypeSpecs typeSpecs) options = ofModule module options := by
  have same : (ofModule module options).AgreesWith
      (ofModule (module.withTypeSpecs typeSpecs) options) :=
    .append (.of_eq rfl) (Output.agreesWith_concat fun definition _ =>
      (typeOutput_agreesWith kept options _ definition).append (.of_eq rfl))
  exact same ends

end ClrDecompiler.Listing
