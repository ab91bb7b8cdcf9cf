/-
This file says which type is found by the whole name of a declared type.
-/

import ClrDecompiler.Module.Lookup
import Mathlib.Data.Nat.Find

namespace ClrDecompiler

open Metadata

namespace Metadata

/-- A name that asks for types with another name too: the marks of nesting count as points,
and the arities of the other name can be left out. -/
def AsksFor (name other : String) : Prop :=
  TypeQuery.pointed name = TypeQuery.pointed other ∨
    TypeQuery.pointed name = TypeQuery.pointed (TypeQuery.stripArities other)

instance (name other : String) : Decidable (AsksFor name other) :=
  inferInstanceAs (Decidable (_ ∨ _))

theorem AsksFor.refl (name : String) : AsksFor name name :=
  .inl rfl

/-- A query without blanks around it accepts the names that it asks for. -/
theorem accepts_ofText_iff {name : String} (plain : Text.trim name = name) (other : String) :
    (TypeQuery.ofText name).accepts other = true ↔ AsksFor name other := by
  rw [TypeQuery.accepts, TypeQuery.ofText, plain, Bool.or_eq_true, beq_iff_eq, beq_iff_eq, AsksFor]

end Metadata

namespace Module

variable {module : Module} {index : Nat} {definition : TypeDefinition}

/-- Names of a module in the order of its types find the first type that they ask for. -/
theorem findType?_eq_some_iff {name : String} (plain : Text.trim name = name)
    (found : TypeDefinition) :
    module.findType? (TypeQuery.ofText name) = some found ↔
      ∃ first : Nat, module.types[first]? = some found ∧
        AsksFor name (module.reflectionName found) ∧
        ∀ earlier < first, ∀ other, module.types[earlier]? = some other →
          ¬ AsksFor name (module.reflectionName other) := by
  have accepted (other : TypeDefinition) := accepts_ofText_iff plain (module.reflectionName other)
  rw [findType?, List.find?_eq_some_iff_getElem, accepted]
  constructor
  · rintro ⟨asked, first, inside, same, missed⟩
    rw [Array.getElem_toList] at same
    refine ⟨first, Array.getElem?_eq_some_iff.mpr ⟨inside, same⟩, asked, ?_⟩
    intro earlier before other declared
    obtain ⟨_, rfl⟩ := Array.getElem?_eq_some_iff.mp declared
    have refused := missed earlier before
    rw [Array.getElem_toList, Bool.not_eq_true'] at refused
    rw [← accepted, refused]
    exact Bool.false_ne_true
  · rintro ⟨first, declared, asked, missed⟩
    obtain ⟨inside, same⟩ := Array.getElem?_eq_some_iff.mp declared
    refine ⟨asked, first, inside, same, ?_⟩
    intro earlier before
    have refused := missed earlier before _ (Array.getElem?_eq_getElem (Nat.lt_trans before inside))
    rw [← accepted] at refused
    rw [Array.getElem_toList, Bool.not_eq_true']
    exact Bool.eq_false_iff.mpr refused

/-- A type that is asked for is found, or one before it. -/
theorem exists_findType? {name : String} (plain : Text.trim name = name)
    (declared : module.types[index]? = some definition)
    (asked : AsksFor name (module.reflectionName definition)) :
    ∃ first ≤ index, ∃ found, module.types[first]? = some found ∧
      AsksFor name (module.reflectionName found) ∧
      module.findType? (TypeQuery.ofText name) = some found := by
  classical
  have listed : ∃ first : Nat, ∃ found, module.types[first]? = some found ∧
      AsksFor name (module.reflectionName found) := ⟨index, definition, declared, asked⟩
  obtain ⟨found, there, meant⟩ := Nat.find_spec listed
  have least := Nat.find_min' listed ⟨definition, declared, asked⟩
  refine ⟨Nat.find listed, least, found, there, meant, ?_⟩
  rw [findType?_eq_some_iff plain]
  refine ⟨Nat.find listed, there, meant, fun earlier before other there meant => ?_⟩
  exact Nat.find_min listed before ⟨other, there, meant⟩

/-- The whole name of a type that no other type has finds a type for which it asks, at the
place of the type itself or before it. It finds the type itself exactly if it asks for none of
those before it. -/
theorem findType?_reflectionName_iff (declared : module.types[index]? = some definition)
    (plain : Text.trim (module.reflectionName definition) = module.reflectionName definition)
    (unique : ∀ place other, module.types[place]? = some other → place ≠ index →
      module.reflectionName other ≠ module.reflectionName definition) :
    (∃ first ≤ index, ∃ found, module.types[first]? = some found ∧
      AsksFor (module.reflectionName definition) (module.reflectionName found) ∧
      module.findType? (TypeQuery.ofText (module.reflectionName definition)) = some found) ∧
    (module.findType? (TypeQuery.ofText (module.reflectionName definition)) = some definition ↔
      ∀ earlier < index, ∀ other, module.types[earlier]? = some other →
        ¬ AsksFor (module.reflectionName definition) (module.reflectionName other)) := by
  refine ⟨exists_findType? plain declared (AsksFor.refl _), ?_⟩
  rw [findType?_eq_some_iff plain]
  constructor
  · rintro ⟨first, listed, -, missed⟩
    have same : first = index := by
      by_contra apart
      exact unique first definition listed apart rfl
    exact same ▸ missed
  · intro missed
    exact ⟨index, declared, AsksFor.refl _, missed⟩

/-- A type without members at a place in the list of types. -/
def emptyType (place : Nat) (namespaceName name : String) : TypeDefinition :=
  ⟨⟨UInt32.ofNat (0x02000001 + place)⟩, 1, namespaceName, name, .classType, none, [], [], [], [],
    none, []⟩

/-- A module with types that have namespaces and names but no members. -/
def ofNames (names : List (String × String)) : Module where
  image := ⟨#[], 0, 0, ⟨0, 0, []⟩, []⟩
  path := "a"
  name := "a"
  mvid := none
  runtimeVersion := ""
  identity := none
  references := []
  framework := ⟨.netCore, [8, 0]⟩
  debugEntries := []
  entryPoint := none
  tableRows := []
  types := (names.mapIdx fun place (namespaceName, name) =>
    emptyType place namespaceName name).toArray
  typeRefs := #[]
  typeSpecs := #[]
  memberRefs := #[]
  methodSpecs := #[]
  localSignatures := #[]
  fieldConstants := []
  userStrings := #[]

/-- The name of a type whose parameters are counted in its name. -/
def genericName : String :=
  String.ofList ['F', arityMark, '2']

/-- A type is found by its name in front of a type of the same name with parameters. -/
theorem findType?_reflectionName_first :
    (ofNames [("A", "F"), ("A", genericName)]).findType? (TypeQuery.ofText "A.F") =
      some (emptyType 0 "A" "F") := by
  have named : (ofNames [("A", "F"), ("A", genericName)]).reflectionName (emptyType 0 "A" "F") =
      "A.F" := by decide +kernel
  have declared : (ofNames [("A", "F"), ("A", genericName)]).types[0]? =
      some (emptyType 0 "A" "F") := rfl
  rw [← named]
  refine (findType?_reflectionName_iff declared ?_ ?_).2.mpr ?_
  · rw [named]
    decide +kernel
  · intro place other listed apart
    rw [named]
    match place, listed with
    | 0, _ => exact absurd rfl apart
    | 1, listed =>
      cases listed
      decide +kernel
  · exact fun _ before => absurd before (Nat.not_lt_zero _)

/-- Behind a type of the same name with parameters it is not found, although no other type has
its name. -/
theorem generic_hides_plain :
    let module := ofNames [("A", genericName), ("A", "F")]
    module.types[1]? = some (emptyType 1 "A" "F") ∧
      (∀ definition ∈ module.types, definition.enclosing = none) ∧
      module.reflectionName (emptyType 1 "A" "F") = "A.F" ∧ Text.trim "A.F" = "A.F" ∧
      (∀ place other, module.types[place]? = some other → place ≠ 1 →
        module.reflectionName other ≠ "A.F") ∧
      module.findType? (TypeQuery.ofText "A.F") = some (emptyType 0 "A" genericName) ∧
      module.findType? (TypeQuery.ofText "A.F") ≠ some (emptyType 1 "A" "F") := by
  have found : (ofNames [("A", genericName), ("A", "F")]).findType? (TypeQuery.ofText "A.F") =
      some (emptyType 0 "A" genericName) := List.find?_cons_of_pos (by decide +kernel)
  refine ⟨rfl, ?_, by decide +kernel, by decide +kernel, ?_, found, ?_⟩
  · intro definition member
    obtain ⟨place, listed⟩ := Array.mem_iff_getElem?.mp member
    match place, listed with
    | 0, listed => exact Option.some_inj.mp listed ▸ rfl
    | 1, listed => exact Option.some_inj.mp listed ▸ rfl
  · intro place other listed apart
    match place, listed with
    | 0, listed =>
      cases listed
      decide +kernel
    | 1, _ => exact absurd rfl apart
  · rw [found]
    intro same
    cases congrArg (Option.map (·.token.value)) same

end Module

end ClrDecompiler
