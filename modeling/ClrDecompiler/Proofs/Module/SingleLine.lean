/-
This file shows that the spellings of types have no line ends if the names of a module have none.
-/

import ClrDecompiler.Proofs.Module.NameEnd
import ClrDecompiler.Proofs.Module.Rows
import ClrDecompiler.Proofs.Module.Spelling
import ClrDecompiler.Proofs.Text.SingleLine

namespace ClrDecompiler

open Metadata Signature Text

/-! Names without line ends. -/

structure MethodDefinition.HasSingleLineNames (method : MethodDefinition) : Prop where
  name : IsSingleLine method.name
  generics : ∀ name ∈ method.genericParams, IsSingleLine name
  params : ∀ param ∈ method.params, IsSingleLine param.name

structure TypeDefinition.HasSingleLineNames (definition : TypeDefinition) : Prop where
  space : IsSingleLine definition.namespaceName
  name : IsSingleLine definition.name
  generics : ∀ name ∈ definition.genericParams, IsSingleLine name
  fields : ∀ field ∈ definition.fields, IsSingleLine field.name
  methods : ∀ method ∈ definition.methods, method.HasSingleLineNames

/-- The names of a module and of its assembly, of its types and their members and of the types that
it refers to have no line ends. -/
structure Module.HasSingleLineNames (module : Module) : Prop where
  name : IsSingleLine module.name
  identity : ∀ identity ∈ module.identity,
    IsSingleLine identity.name ∧ ∀ culture ∈ identity.culture, IsSingleLine culture
  types : ∀ definition ∈ module.types, definition.HasSingleLineNames
  typeRefs : ∀ reference ∈ module.typeRefs,
    IsSingleLine reference.namespaceName ∧ IsSingleLine reference.name

instance (method : MethodDefinition) : Decidable method.HasSingleLineNames :=
  decidable_of_iff (IsSingleLine method.name ∧ (∀ name ∈ method.genericParams, IsSingleLine name) ∧
      ∀ param ∈ method.params, IsSingleLine param.name)
    ⟨fun ⟨name, generics, params⟩ => ⟨name, generics, params⟩,
      fun ⟨name, generics, params⟩ => ⟨name, generics, params⟩⟩

instance (definition : TypeDefinition) : Decidable definition.HasSingleLineNames :=
  decidable_of_iff (IsSingleLine definition.namespaceName ∧ IsSingleLine definition.name ∧
      (∀ name ∈ definition.genericParams, IsSingleLine name) ∧
      (∀ field ∈ definition.fields, IsSingleLine field.name) ∧
      ∀ method ∈ definition.methods, method.HasSingleLineNames)
    ⟨fun ⟨space, name, generics, fields, methods⟩ => ⟨space, name, generics, fields, methods⟩,
      fun ⟨space, name, generics, fields, methods⟩ => ⟨space, name, generics, fields, methods⟩⟩

instance (module : Module) : Decidable module.HasSingleLineNames :=
  decidable_of_iff (IsSingleLine module.name ∧
      (∀ identity ∈ module.identity,
        IsSingleLine identity.name ∧ ∀ culture ∈ identity.culture, IsSingleLine culture) ∧
      (∀ definition ∈ module.types, definition.HasSingleLineNames) ∧
      ∀ reference ∈ module.typeRefs,
        IsSingleLine reference.namespaceName ∧ IsSingleLine reference.name)
    ⟨fun ⟨name, identity, types, typeRefs⟩ => ⟨name, identity, types, typeRefs⟩,
      fun ⟨name, identity, types, typeRefs⟩ => ⟨name, identity, types, typeRefs⟩⟩

namespace Metadata

theorem mem_of_mem_stripArityChars {name : List Char} {c : Char}
    (member : c ∈ stripArityChars name) : c ∈ name := by
  rcases Text.exists_last_or_plain (· == arityMark) name with
    plain | ⟨before, mark, arity, rfl, marks, plain⟩
  · rwa [stripArityChars_eq_self plain] at member
  · rw [eq_of_beq marks, stripArityChars_append_mark _ plain] at member
    split at member
    · exact List.mem_append_left _ member
    · rwa [eq_of_beq marks]

theorem isSingleLine_stripArity {name : String} (single : IsSingleLine name) :
    IsSingleLine (stripArity name) :=
  isSingleLine_ofList.mpr fun member => single (mem_of_mem_stripArityChars member)

theorem isSingleLine_qualifiedName {space name : String} (around : IsSingleLine space)
    (single : IsSingleLine name) : IsSingleLine (qualifiedName space name) := by
  rw [qualifiedName]
  split
  · exact single
  · simp only [isSingleLine_append]
    exact ⟨⟨around, by decide⟩, single⟩

theorem isSingleLine_token (token : Token) : IsSingleLine token.text := by
  rw [Token.text, isSingleLine_append]
  exact ⟨by decide, isSingleLine_lower _ _⟩

theorem isSingleLine_moniker (framework : TargetFramework) : IsSingleLine framework.moniker := by
  have versioned (family : String) (plain : IsSingleLine family) :
      IsSingleLine s!"{family}{framework.major}.{framework.minor}" := by
    simp only [isSingleLine_append]
    exact ⟨⟨⟨plain, isSingleLine_toString _⟩, by decide⟩, isSingleLine_toString _⟩
  have digits : '\n' ∉ dropEndWhile (· == '0')
      (framework.version.flatMap fun part => (toString part).toList) := by
    intro member
    rw [dropEndWhile, List.mem_reverse] at member
    have inside := (List.dropWhile_sublist _).subset member
    obtain ⟨part, -, within⟩ := List.mem_flatMap.mp (List.mem_reverse.mp inside)
    exact isSingleLine_toString part within
  rw [TargetFramework.moniker]
  split
  · split <;> exact versioned _ (by decide)
  · exact versioned _ (by decide)
  · dsimp only
    split
    · simp only [isSingleLine_append]
      exact ⟨⟨by decide, isSingleLine_toString _⟩, by decide⟩
    · rw [isSingleLine_append]
      exact ⟨by decide, isSingleLine_ofList.mpr digits⟩

/-- The identity of an assembly is one line if its names are. -/
theorem isSingleLine_identity {identity : AssemblyIdentity} (name : IsSingleLine identity.name)
    (culture : ∀ culture ∈ identity.culture, IsSingleLine culture) :
    IsSingleLine identity.text := by
  have number (value : UInt16) : IsSingleLine (toString value) := isSingleLine_toString value.toNat
  have version : IsSingleLine identity.version.text := by
    rw [Version.text]
    simp only [isSingleLine_append, number]
    decide
  have shown : IsSingleLine (identity.culture.getD "neutral") := by
    cases found : identity.culture with
    | none => decide
    | some text => exact culture text found
  have token : IsSingleLine identity.tokenText := by
    rw [AssemblyIdentity.tokenText]
    cases identity.keyToken with
    | none => decide
    | some key => exact isSingleLine_hex key
  rw [AssemblyIdentity.text]
  simp only [isSingleLine_append]
  exact ⟨⟨⟨⟨⟨⟨name, by decide⟩, version⟩, by decide⟩, shown⟩, by decide⟩, token⟩

end Metadata

namespace Module

/-- Keywords are single lines. -/
theorem isSingleLine_keyword {name keyword : String} (found : keyword? name = some keyword) :
    IsSingleLine keyword := by
  unfold keyword? at found
  split at found <;> cases found <;> decide

/-! Spellings of signatures. -/

namespace Speller

variable {speller : Speller}

/-- The names that a spelling puts together have no line ends. -/
structure IsSingleLine (speller : Speller) : Prop where
  typeParams : ∀ name ∈ speller.names.typeParams, Text.IsSingleLine name
  methodParams : ∀ name ∈ speller.names.methodParams, Text.IsSingleLine name
  token : ∀ token, Text.IsSingleLine (speller.token token)

theorem isSingleLine_choose {csharp listing : String} (first : Text.IsSingleLine csharp)
    (second : Text.IsSingleLine listing) : Text.IsSingleLine (speller.choose csharp listing) := by
  rw [choose]
  split
  · exact first
  · exact second

theorem isSingleLine_genericName {names : List String}
    (single : ∀ name ∈ names, Text.IsSingleLine name) (number : Nat) {letter : String}
    (plain : Text.IsSingleLine letter) : Text.IsSingleLine (genericName names number letter) := by
  have numbered : Text.IsSingleLine (letter ++ toString number) := by
    rw [isSingleLine_append]
    exact ⟨plain, isSingleLine_toString number⟩
  rw [genericName]
  split
  · next name found =>
    split
    · exact numbered
    · exact single name (List.mem_of_getElem? found)
  · exact numbered

theorem isSingleLine_reference (byRef : Bool) {name : String} (single : Text.IsSingleLine name) :
    Text.IsSingleLine (speller.reference byRef name) := by
  rw [reference]
  split
  · refine isSingleLine_choose ?_ ?_ <;> rw [isSingleLine_append]
    · exact ⟨by decide, single⟩
    · exact ⟨single, by decide⟩
  · exact single

theorem isSingleLine_instantiation {base : String} {arguments : List String}
    (single : Text.IsSingleLine base) (each : ∀ name ∈ arguments, Text.IsSingleLine name) :
    Text.IsSingleLine (speller.instantiation base arguments) := by
  unfold instantiation
  split
  · rw [isSingleLine_append]
    exact ⟨each _ List.mem_cons_self, by decide⟩
  · simp only [isSingleLine_append]
    exact ⟨⟨⟨single, by decide⟩, isSingleLine_intercalate (by decide) each⟩, by decide⟩

theorem isSingleLine_functionPointer {returns : String} {params : List String}
    (single : Text.IsSingleLine returns) (each : ∀ name ∈ params, Text.IsSingleLine name) :
    Text.IsSingleLine (speller.functionPointer returns params) := by
  rw [functionPointer]
  split
  · have all : ∀ name ∈ params ++ [returns], Text.IsSingleLine name := by
      rw [List.forall_mem_append, List.forall_mem_singleton]
      exact ⟨each, single⟩
    simp only [isSingleLine_append]
    exact ⟨⟨by decide, isSingleLine_intercalate (by decide) all⟩, by decide⟩
  · simp only [isSingleLine_append]
    exact ⟨⟨⟨⟨by decide, single⟩, by decide⟩, isSingleLine_intercalate (by decide) each⟩,
      by decide⟩

theorem IsSingleLine.namedType (single : speller.IsSingleLine) {kind : String}
    (plain : Text.IsSingleLine kind) (token : Token) :
    Text.IsSingleLine (speller.namedType kind token) := by
  rw [Speller.namedType]
  split
  · exact single.token token
  · split
    · exact single.token token
    · simp only [isSingleLine_append]
      exact ⟨⟨plain, by decide⟩, single.token token⟩

mutual

/-- A type is spelled in one line if all names are single lines. -/
theorem IsSingleLine.type (single : speller.IsSingleLine) :
    ∀ type : TypeSig, Text.IsSingleLine (speller.type type)
  | .unknown | .void | .boolean | .char | .string | .object => by
    rw [Speller.type]
    decide
  | .int8 | .uint8 | .int16 | .uint16 | .int32 | .uint32 | .int64 | .uint64 | .float32
  | .float64 | .typedByRef | .nativeInt | .nativeUint => isSingleLine_choose (by decide) (by decide)
  | .pointer element | .vector element => by
    rw [Speller.type, isSingleLine_append]
    exact ⟨single.type element, by decide⟩
  | .byRef element => isSingleLine_reference true (single.type element)
  | .pinned element => by
    refine isSingleLine_choose (single.type element) ?_
    rw [isSingleLine_append]
    exact ⟨single.type element, by decide⟩
  | .valueType token => single.namedType (by decide) token
  | .classType token => single.namedType (by decide) token
  | .typeParam number => by
    have name (letter : String) (plain : Text.IsSingleLine letter) :=
      isSingleLine_genericName single.typeParams number plain
    refine isSingleLine_choose (name _ (by decide)) ?_
    rw [isSingleLine_append]
    exact ⟨by decide, name _ (by decide)⟩
  | .methodParam number => by
    have name (letter : String) (plain : Text.IsSingleLine letter) :=
      isSingleLine_genericName single.methodParams number plain
    refine isSingleLine_choose (name _ (by decide)) ?_
    rw [isSingleLine_append]
    exact ⟨by decide, name _ (by decide)⟩
  | .array element rank => by
    have commas : Text.IsSingleLine (String.ofList (List.replicate (rank - 1) ',')) :=
      isSingleLine_ofList.mpr fun member =>
        absurd (List.eq_of_mem_replicate member) (by decide)
    rw [Speller.type]
    simp only [isSingleLine_append]
    exact ⟨⟨⟨single.type element, by decide⟩, commas⟩, by decide⟩
  | .generic base arguments =>
    isSingleLine_instantiation (single.type base) (single.types arguments)
  | .function ⟨_, _, _, _, ⟨byRef, returns⟩, params⟩ =>
    isSingleLine_functionPointer (isSingleLine_reference byRef (single.type returns))
      (single.parameters params)

theorem IsSingleLine.types (single : speller.IsSingleLine) :
    ∀ types : List TypeSig, ∀ name ∈ speller.types types, Text.IsSingleLine name
  | [] => List.forall_mem_nil _
  | first :: rest => List.forall_mem_cons.mpr ⟨single.type first, single.types rest⟩

theorem IsSingleLine.parameters (single : speller.IsSingleLine) :
    ∀ params : List (Parameter TypeSig), ∀ name ∈ speller.parameters params, Text.IsSingleLine name
  | [] => List.forall_mem_nil _
  | ⟨byRef, first⟩ :: rest => List.forall_mem_cons.mpr
    ⟨isSingleLine_reference byRef (single.type first), single.parameters rest⟩

end

theorem IsSingleLine.parameter (single : speller.IsSingleLine) (param : Parameter TypeSig) :
    Text.IsSingleLine (speller.parameter param) :=
  isSingleLine_reference param.byRef (single.type param.type)

end Speller

/-! Spellings of tokens. -/

theorem isSingleLine_displayName {definition : TypeDefinition}
    (single : definition.HasSingleLineNames) : IsSingleLine definition.displayName :=
  isSingleLine_stripArity single.name

/-- The names of type parameters that have no line ends. -/
def GenericNames.AreSingleLine (names : GenericNames) : Prop :=
  (∀ name ∈ names.typeParams, IsSingleLine name) ∧ ∀ name ∈ names.methodParams, IsSingleLine name

namespace HasSingleLineNames

variable {module : Module} (single : module.HasSingleLineNames)

include single

theorem enclosingChain {definition : TypeDefinition} (own : definition.HasSingleLineNames)
    (bound : Nat) :
    ∀ outer ∈ module.enclosingChain bound definition, outer.HasSingleLineNames := by
  induction bound generalizing definition with
  | zero => exact List.forall_mem_singleton.mpr own
  | succ bound ih =>
    rw [Module.enclosingChain]
    split
    · next outer found =>
      obtain ⟨token, -, listed⟩ := Option.bind_eq_some_iff.mp found
      rw [List.forall_mem_append, List.forall_mem_singleton]
      exact ⟨ih (single.types outer (mem_of_listed? listed)), own⟩
    · exact List.forall_mem_singleton.mpr own

/-- The name of a declared type is one line if all names of the module are. -/
theorem declaredName {definition : TypeDefinition} (own : definition.HasSingleLineNames) :
    IsSingleLine (module.declaredName .csharp definition) := by
  have chain := single.enclosingChain own (maxEnclosing - 1)
  rw [Module.declaredName]
  split
  · decide
  · next outermost inner same =>
    rw [same, List.forall_mem_cons] at chain
    dsimp only
    split
    · next keyword found => exact isSingleLine_keyword found
    · refine isSingleLine_qualifiedName chain.1.space (isSingleLine_intercalate (by decide) ?_)
      rw [List.forall_mem_map, List.forall_mem_cons]
      exact ⟨isSingleLine_displayName chain.1,
        fun definition member => isSingleLine_displayName (chain.2 definition member)⟩

omit single in
theorem outermostReferenceName {reference : TypeReference}
    (own : IsSingleLine reference.namespaceName ∧ IsSingleLine reference.name) :
    IsSingleLine (module.outermostReferenceName .csharp reference) := by
  rw [Module.outermostReferenceName]
  cases found : keyword? reference.qualifiedName with
  | none => exact isSingleLine_stripArity (isSingleLine_qualifiedName own.1 own.2)
  | some keyword => exact isSingleLine_keyword found

/-- So is the name of a type of another assembly. -/
theorem referenceNameWithin {reference : TypeReference}
    (own : IsSingleLine reference.namespaceName ∧ IsSingleLine reference.name) (bound : Nat) :
    IsSingleLine (module.referenceNameWithin .csharp bound reference) := by
  induction bound generalizing reference with
  | zero => exact outermostReferenceName own
  | succ bound ih =>
    rw [Module.referenceNameWithin]
    split
    · exact outermostReferenceName own
    · next outer found =>
      have listed : outer ∈ module.typeRefs := by
        rw [outerReference?] at found
        split at found
        · exact mem_of_listed? found
        · cases found
      simp only [isSingleLine_append]
      exact ⟨⟨ih (single.typeRefs outer listed), by decide⟩, isSingleLine_stripArity own.2⟩

theorem tokenNameWithin {names : GenericNames} (known : names.AreSingleLine) {bound : Nat}
    {token : Token} {text : String}
    (spelled : module.tokenNameWithin .csharp names bound token = some text) :
    IsSingleLine text := by
  induction bound generalizing token text with
  | zero => cases spelled
  | succ bound ih =>
    rw [Module.tokenNameWithin] at spelled
    split at spelled
    · next definition found =>
      cases spelled
      exact single.declaredName (single.types definition (mem_of_listed? found))
    · next reference _ found =>
      cases spelled
      exact single.referenceNameWithin (single.typeRefs reference (mem_of_listed? found)) _
    · obtain ⟨inner, run, rfl⟩ := Option.map_eq_some_iff.mp spelled
      refine Speller.IsSingleLine.type ⟨known.1, known.2, fun token => ?_⟩ _
      show IsSingleLine ((inner.lookup token).getD token.text)
      cases found : inner.lookup token with
      | none => exact isSingleLine_token token
      | some own => exact ih (spell_of_lookup run found)
    · cases spelled
      exact isSingleLine_token token

/-- So is the name of a token. -/
theorem tokenName {names : GenericNames} (known : names.AreSingleLine) (token : Token) :
    IsSingleLine (module.tokenName .csharp names token) := by
  rw [Module.tokenName]
  cases spelled : module.tokenName? .csharp names token with
  | none => exact isSingleLine_token token
  | some text => exact single.tokenNameWithin known spelled

theorem speller {names : GenericNames} (known : names.AreSingleLine) :
    (module.speller .csharp names).IsSingleLine :=
  ⟨known.1, known.2, single.tokenName known⟩

end HasSingleLineNames

end Module

end ClrDecompiler
