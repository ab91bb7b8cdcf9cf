/-
This file compares the spellings of a declared type and of a reference to a type of the same
names: both are the names of the types from the outermost one inwards.
-/

import ClrDecompiler.Module.Names
import ClrDecompiler.Proofs.Module.Resolution
import ClrDecompiler.Proofs.Text.Pieces

namespace ClrDecompiler

open Metadata

namespace Metadata

theorem stripArityChars_eq_self {text : List Char} (plain : ∀ c ∈ text, (c == arityMark) = false) :
    stripArityChars text = text := by
  rw [stripArityChars, Text.splitLast?_eq_none plain]

/-- The mark is stripped with the digits behind it, if there is nothing else. -/
theorem stripArityChars_append_mark (before : List Char) {after : List Char}
    (plain : ∀ c ∈ after, (c == arityMark) = false) :
    stripArityChars (before ++ arityMark :: after) =
      if !after.isEmpty && after.all Text.isAsciiDigit then before
      else before ++ arityMark :: after := by
  have marks : (arityMark == arityMark) = true := beq_self_eq_true _
  rw [stripArityChars, Text.splitLast?_append_cons (p := (· == arityMark)) marks before plain]

/-- The arity of a name is the same behind a namespace. A namespace has no arity: what follows
its last mark contains a point. -/
theorem stripArityChars_append_point (front name : List Char) :
    stripArityChars (front ++ '.' :: name) = front ++ '.' :: stripArityChars name := by
  rcases Text.exists_last_or_plain (· == arityMark) name with
    plain | ⟨before, mark, arity, rfl, marks, plain⟩
  · rw [stripArityChars_eq_self plain]
    rcases Text.exists_last_or_plain (· == arityMark) front with
      frontPlain | ⟨before, mark, after, rfl, marks, afterPlain⟩
    · apply stripArityChars_eq_self
      rw [List.forall_mem_append, List.forall_mem_cons]
      exact ⟨frontPlain, by decide, plain⟩
    · have whole : ∀ c ∈ after ++ '.' :: name, (c == arityMark) = false := by
        rw [List.forall_mem_append, List.forall_mem_cons]
        exact ⟨afterPlain, by decide, plain⟩
      have point : Text.isAsciiDigit '.' = false := by decide
      rw [List.append_assoc, List.cons_append, eq_of_beq marks, stripArityChars_append_mark _ whole]
      simp [point]
  · have moved : front ++ '.' :: (before ++ arityMark :: arity) =
        (front ++ '.' :: before) ++ arityMark :: arity := by
      rw [List.append_assoc, List.cons_append]
    rw [eq_of_beq marks, moved, stripArityChars_append_mark _ plain,
      stripArityChars_append_mark _ plain]
    split
    · rfl
    · rw [moved]

/-- The arity is stripped from the name and not from the namespace. -/
theorem stripArity_qualifiedName (namespaceName name : String) :
    stripArity (qualifiedName namespaceName name) =
      qualifiedName namespaceName (stripArity name) := by
  rw [qualifiedName, qualifiedName]
  split
  · rfl
  · apply String.toList_injective
    have front : (namespaceName ++ "." ++ name).toList =
        namespaceName.toList ++ '.' :: name.toList := by
      simp
    rw [stripArity, String.toList_ofList, front, stripArityChars_append_point]
    simp [stripArity]

theorem qualifiedName_intercalate (namespaceName separator first : String) (rest : List String) :
    qualifiedName namespaceName (separator.intercalate (first :: rest)) =
      separator.intercalate (qualifiedName namespaceName first :: rest) := by
  rw [qualifiedName, qualifiedName]
  split
  · rfl
  · rw [String.intercalate_cons_append]

end Metadata

theorem intercalate_eq_first_iff {separator : String} (apart : separator ≠ "") (first : String)
    (rest : List String) : separator.intercalate (first :: rest) = first ↔ rest = [] := by
  constructor
  · intro same
    by_contra more
    rw [String.intercalate_cons_of_ne_nil more] at same
    have lengths := congrArg String.length same
    rw [String.length_append, String.length_append] at lengths
    have empty : separator.length = 0 := by omega
    exact apart (String.length_eq_zero_iff.mp empty)
  · rintro rfl
    exact String.intercalate_singleton

namespace Module

/-- Entries from an outermost one inwards, each of which is around the next one. -/
inductive Nested {α : Type} (outer? : α → Option α) (outermost : α) : List α → α → Prop
  | outermost (alone : outer? outermost = none) : Nested outer? outermost [] outermost
  | inside {inner : List α} {entry next : α} (around : Nested outer? outermost inner entry)
      (found : outer? next = some entry) : Nested outer? outermost (inner ++ [next]) next

/-- What stands between the name of a type and those of the types in it. -/
def nestingMark : NameStyle → String
  | .csharp => "."
  | .listing => "/"

/-- C# leaves out how many type parameters a name has. -/
def shownName : NameStyle → String → String
  | .csharp, name => stripArity name
  | .listing, name => name

variable {module : Module} {style : NameStyle}

section Declared

variable {outermost definition : TypeDefinition} {inner : List TypeDefinition}

/-- The chain of a type leads to the outermost one. -/
theorem enclosingChain_of_nested (nested : Nested module.enclosing? outermost inner definition)
    (bound : Nat) (fits : inner.length ≤ bound) :
    module.enclosingChain bound definition = outermost :: inner := by
  induction nested generalizing bound with
  | outermost alone =>
    cases bound with
    | zero => rfl
    | succ bound => rw [enclosingChain, alone]
  | inside around found ih =>
    rw [List.length_append, List.length_singleton] at fits
    obtain ⟨bound, rfl⟩ := Nat.exists_eq_add_of_le' (Nat.le_trans (Nat.le_add_left ..) fits)
    rw [enclosingChain, found]
    dsimp only
    rw [ih bound (Nat.le_of_succ_le_succ fits), List.cons_append]

/-- A nested type is spelled with all types around it. -/
theorem declaredName_of_nested (nested : Nested module.enclosing? outermost inner definition)
    (fits : inner.length < maxEnclosing)
    (plain : style = .csharp → keyword? outermost.qualifiedName = none) :
    module.declaredName style definition = (nestingMark style).intercalate
      (shownName style outermost.qualifiedName :: inner.map (shownName style ·.name)) := by
  rw [declaredName, enclosingChain_of_nested nested _ (Nat.le_sub_one_of_lt fits)]
  cases style with
  | csharp =>
    dsimp only
    rw [plain rfl, List.map_cons]
    dsimp only
    rw [qualifiedName_intercalate, TypeDefinition.displayName, ← stripArity_qualifiedName]
    rfl
  | listing => rfl

/-- A type in one that is a keyword is spelled as the keyword. -/
theorem declaredName_keyword (nested : Nested module.enclosing? outermost inner definition)
    (fits : inner.length < maxEnclosing) {keyword : String}
    (known : keyword? outermost.qualifiedName = some keyword) :
    module.declaredName .csharp definition = keyword := by
  rw [declaredName, enclosingChain_of_nested nested _ (Nat.le_sub_one_of_lt fits)]
  dsimp only
  rw [known]

end Declared

section Referenced

variable {outermost reference : TypeReference} {inner : List TypeReference}

/-- A nested type of another assembly is spelled with all types around it. -/
theorem referenceNameWithin_of_nested
    (nested : Nested module.outerReference? outermost inner reference)
    {bound : Nat} (fits : inner.length ≤ bound) :
    module.referenceNameWithin style bound reference = (nestingMark style).intercalate
      (module.outermostReferenceName style outermost :: inner.map (shownName style ·.name)) := by
  induction nested generalizing bound with
  | outermost alone =>
    rw [List.map_nil, String.intercalate_singleton]
    cases bound with
    | zero => rfl
    | succ bound => rw [referenceNameWithin, alone]
  | inside around found ih =>
    rw [List.length_append, List.length_singleton] at fits
    obtain ⟨bound, rfl⟩ := Nat.exists_eq_add_of_le' (Nat.le_trans (Nat.le_add_left ..) fits)
    rw [referenceNameWithin, found]
    dsimp only
    rw [ih (Nat.le_of_succ_le_succ fits), List.map_append, List.map_singleton, ← List.cons_append,
      String.intercalate_append_of_ne_nil (List.cons_ne_nil _ _) (List.cons_ne_nil _ _)]
    cases style <;> rfl

/-- A reference is spelled from the names of the declared types that it stands for. -/
theorem referenceName_of_names {declared : List TypeDefinition}
    (nested : Nested module.outerReference? outermost inner reference)
    (fits : declared.length < maxEnclosing)
    (sameNames : inner.map (·.name) = declared.map (·.name)) :
    module.referenceName style reference = (nestingMark style).intercalate
      (module.outermostReferenceName style outermost ::
        declared.map (shownName style ·.name)) := by
  have counted : inner.length = declared.length := by
    simpa only [List.length_map] using congrArg List.length sameNames
  have shown : inner.map (shownName style ·.name) = declared.map (shownName style ·.name) := by
    have whole := congrArg (List.map (shownName style)) sameNames
    rwa [List.map_map, List.map_map] at whole
  rw [referenceName, referenceNameWithin_of_nested nested (counted ▸ Nat.le_of_lt fits), shown]

end Referenced

section

variable {names : GenericNames} {token : Token}

theorem pointsInto_of_listed? {α : Type} {table : TableId} {entries : Array α} {entry : α}
    (found : listed? table entries token = some entry) : token.pointsInto table = true := by
  by_contra elsewhere
  rw [listed?, Bool.eq_false_iff.mpr elsewhere] at found
  cases found

/-- The token of a declared type is spelled as the type. -/
theorem tokenName_of_type? {definition : TypeDefinition}
    (declared : module.type? token = some definition) :
    module.tokenName style names token = module.declaredName style definition := by
  rw [tokenName, tokenName?, tokenNameWithin, declared]
  rfl

/-- The token of a reference is spelled as the reference. -/
theorem tokenName_of_typeRef? {reference : TypeReference}
    (referenced : module.typeRef? token = some reference) :
    module.tokenName style names token = module.referenceName style reference := by
  have points : token.table.toNat = TableId.typeRef.number :=
    eq_of_beq (pointsInto_of_listed? referenced)
  have undeclared : module.type? token = none := by
    have elsewhere : token.pointsInto .typeDef = false := by
      rw [Token.pointsInto, points]
      decide
    rw [type?, listed?, elsewhere]
    rfl
  rw [tokenName, tokenName?, tokenNameWithin, undeclared, referenced]
  rfl

end

/-- A declared type and a reference to a type of the same names are spelled alike, apart from the
scope of the reference in listings, unless C# has a keyword for the outermost type and the type is
in another one. There the declared type is spelled like the outermost one. -/
theorem spelled_alike_iff (names : GenericNames) (token other : Token)
    {outermost definition : TypeDefinition} {inner : List TypeDefinition}
    {first reference : TypeReference} {others : List TypeReference}
    (declared : module.type? token = some definition)
    (enclosing : Nested module.enclosing? outermost inner definition)
    (referenced : module.typeRef? other = some reference)
    (scopes : Nested module.outerReference? first others reference)
    (bounded : (outermost :: inner).length ≤ maxEnclosing)
    (sameNamespace : first.namespaceName = outermost.namespaceName)
    (sameNames : (first :: others).map (·.name) = (outermost :: inner).map (·.name)) :
    (module.tokenName .csharp names token = module.tokenName .csharp names other ↔
      keyword? outermost.qualifiedName = none ∨ inner = []) ∧
    (∀ keyword, keyword? outermost.qualifiedName = some keyword →
      module.tokenName .csharp names token = keyword ∧
      module.tokenName .csharp names other =
        ".".intercalate (keyword :: inner.map (·.displayName))) ∧
    module.tokenName .listing names other =
      module.scopeText first.scope ++ module.tokenName .listing names token := by
  obtain ⟨sameFirst, sameOthers⟩ := List.cons_eq_cons.mp sameNames
  have qualified : first.qualifiedName = outermost.qualifiedName := by
    have sameName : first.name = outermost.name := sameFirst
    rw [TypeReference.qualifiedName, sameNamespace, sameName, TypeDefinition.qualifiedName]
  have fits : inner.length < maxEnclosing := bounded
  have spelled (style : NameStyle) : module.tokenName style names other =
      (nestingMark style).intercalate (module.outermostReferenceName style first ::
        inner.map (shownName style ·.name)) := by
    rw [tokenName_of_typeRef? referenced, referenceName_of_names scopes fits sameOthers]
  rw [tokenName_of_type? declared, tokenName_of_type? declared, spelled, spelled]
  have known : module.outermostReferenceName .csharp first =
      (keyword? outermost.qualifiedName).getD (stripArity outermost.qualifiedName) := by
    rw [outermostReferenceName, qualified]
  refine ⟨?_, ?_, ?_⟩
  · cases found : keyword? outermost.qualifiedName with
    | none =>
      rw [declaredName_of_nested enclosing fits fun _ => found, known, found]
      exact iff_of_true rfl (.inl rfl)
    | some keyword =>
      have apart : nestingMark .csharp ≠ "" := by decide
      rw [declaredName_keyword enclosing fits found, known, found, eq_comm, Option.getD_some,
        intercalate_eq_first_iff apart, List.map_eq_nil_iff]
      exact ⟨.inr, fun either => either.resolve_left (Option.some_ne_none keyword)⟩
  · intro keyword found
    rw [declaredName_keyword enclosing fits found, known, found]
    exact ⟨rfl, rfl⟩
  · rw [declaredName_of_nested enclosing fits fun listing => NameStyle.noConfusion listing,
      outermostReferenceName, qualified, String.intercalate_cons_append]
    rfl

/-- A type without members in the first type of a module. -/
def innerType : TypeDefinition :=
  { emptyType 1 "" "Inner" with enclosing := some (Token.ofRow .typeDef 1) }

def outerReference (namespaceName name : String) : TypeReference :=
  ⟨Token.ofRow .typeRef 1, ⟨.moduleRef, 3⟩, namespaceName, name⟩

def innerReference : TypeReference :=
  ⟨Token.ofRow .typeRef 2, ⟨.typeRef, 1⟩, "", "Inner"⟩

/-- A module with a type in another one, and with references to types of the same names. -/
def withInner (namespaceName name : String) : Module :=
  { ofNames [] with
    types := #[emptyType 0 namespaceName name, innerType]
    typeRefs := #[outerReference namespaceName name, innerReference] }

theorem withInner_nested (namespaceName name : String) :
    Nested (withInner namespaceName name).enclosing? (emptyType 0 namespaceName name) [innerType]
        innerType ∧
      Nested (withInner namespaceName name).outerReference? (outerReference namespaceName name)
        [innerReference] innerReference :=
  ⟨Nested.inside (.outermost rfl) rfl, Nested.inside (.outermost rfl) rfl⟩

/-- Arities are left out in C# and kept in listings. -/
theorem spelled_alike_iff_inner :
    let module := withInner "A" genericName
    module.tokenName .csharp {} (Token.ofRow .typeDef 2) =
        module.tokenName .csharp {} (Token.ofRow .typeRef 2) ∧
      module.tokenName .csharp {} (Token.ofRow .typeRef 2) = "A.F.Inner" ∧
      module.tokenName .listing {} (Token.ofRow .typeRef 2) =
        "[.module 3]" ++ module.tokenName .listing {} (Token.ofRow .typeDef 2) := by
  obtain ⟨enclosing, scopes⟩ := withInner_nested "A" genericName
  have spelled := spelled_alike_iff {} (Token.ofRow .typeDef 2) (Token.ofRow .typeRef 2) rfl
    enclosing rfl scopes (by decide) rfl rfl
  have ordinary : keyword? (emptyType 0 "A" genericName).qualifiedName = none := by
    decide +kernel
  exact ⟨spelled.1.mpr (.inl ordinary), by decide +kernel, spelled.2.2⟩

/-- A type in a type that is a keyword of C# is spelled like that type where it is declared, but
not where it is referred to. -/
theorem keyword_hides_inner :
    let module := withInner "System" "Int32"
    module.type? (Token.ofRow .typeDef 2) = some innerType ∧
      Nested module.enclosing? (emptyType 0 "System" "Int32") [innerType] innerType ∧
      module.typeRef? (Token.ofRow .typeRef 2) = some innerReference ∧
      Nested module.outerReference? (outerReference "System" "Int32") [innerReference]
        innerReference ∧
      module.tokenName .csharp {} (Token.ofRow .typeDef 2) = "int" ∧
      module.tokenName .csharp {} (Token.ofRow .typeRef 2) = "int.Inner" ∧
      module.tokenName .csharp {} (Token.ofRow .typeDef 2) ≠
        module.tokenName .csharp {} (Token.ofRow .typeRef 2) := by
  obtain ⟨enclosing, scopes⟩ := withInner_nested "System" "Int32"
  have declared : (withInner "System" "Int32").tokenName .csharp {} (Token.ofRow .typeDef 2) =
      "int" := by decide +kernel
  have referenced : (withInner "System" "Int32").tokenName .csharp {} (Token.ofRow .typeRef 2) =
      "int.Inner" := by decide +kernel
  refine ⟨rfl, enclosing, rfl, scopes, declared, referenced, ?_⟩
  rw [declared, referenced]
  decide

end Module

end ClrDecompiler
