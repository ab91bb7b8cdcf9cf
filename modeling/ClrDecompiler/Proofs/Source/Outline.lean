/-
This file renders types from the trees in which they stand, without a bound on the depth, and says
which methods the lines of a tree declare.
-/

import ClrDecompiler.Proofs.Module.Unfolding
import ClrDecompiler.Source.Type

namespace ClrDecompiler.Source

open Metadata ClrDecompiler.Module TypeTree

/-! Lines that declare methods. -/

namespace Line

/-- The method that a line declares and the text that declares it. -/
def declaration? (line : Line) : Option (Token × String) :=
  line.method.map (·, line.content)

def declarations (lines : List Line) : List (Token × String) :=
  lines.filterMap declaration?

@[simp] theorem declarations_nil : declarations [] = [] := rfl

@[simp] theorem declarations_append (first second : List Line) :
    declarations (first ++ second) = declarations first ++ declarations second :=
  List.filterMap_append

@[simp] theorem declarations_plain (content : String) (rest : List Line) :
    declarations (plain content :: rest) = declarations rest := rfl

@[simp] theorem declarations_declaring (method : Token) (content : String) (rest : List Line) :
    declarations (declaring method content :: rest) = (method, content) :: declarations rest := rfl

@[simp] theorem declarations_map_plain {α : Type} (content : α → String) (values : List α) :
    declarations (values.map fun value => plain (content value)) = [] := by
  induction values with
  | nil => rfl
  | cons value rest ih => rw [List.map_cons, declarations_plain, ih]

@[simp] theorem declarations_map_indent (lines : List Line) :
    declarations (lines.map indent) = declarations lines := by
  rw [declarations, List.filterMap_map]
  rfl

/-- Braces declare nothing. -/
@[simp] theorem declarations_block (head : Line) (body : List Line) :
    declarations (block head body) = declarations [head] ++ declarations body := by
  show declarations ([head] ++ plain "\x7b" :: (body.map indent ++ [plain "\x7d"])) = _
  rw [declarations_append]
  simp

theorem separated_cons_cons (first second : List Line) (rest : List (List Line)) :
    separated (first :: second :: rest) = first ++ blank :: separated (second :: rest) := by
  rw [separated, List.intercalate_cons_cons, List.append_assoc]
  rfl

/-- Blank lines declare nothing. -/
@[simp] theorem declarations_separated : ∀ groups : List (List Line),
    declarations (separated groups) = groups.flatMap declarations
  | [] => rfl
  | [group] => by simp [separated]
  | first :: second :: rest => by
    rw [separated_cons_cons, declarations_append, List.flatMap_cons,
      ← declarations_separated (second :: rest)]
    rfl

end Line

open Line

/-! Types with the types nested in them. -/

section Trees

variable (module : Module) (language : Language)

mutual

/-- The lines of a type and of all types that stand below it. -/
def treeLines : TypeTree → List Line
  | .node definition inner =>
    let head := Line.plain (typeText module language definition)
    match definition.kind with
    | .delegate => [delegateLine module definition]
    | .enum => Line.block head (enumLines module definition)
    | _ => Line.block head (Line.separated (memberGroups module definition ++ treesLines inner))

def treesLines : List TypeTree → List (List Line)
  | [] => []
  | first :: rest => treeLines first :: treesLines rest

end

/-- The lines of several trees are those of each of them. -/
theorem treesLines_eq (trees : List TypeTree) :
    treesLines module language trees = trees.map (treeLines module language) := by
  induction trees with
  | nil => rfl
  | cons first rest ih => rw [treesLines, ih, List.map_cons]

variable {module}

/-- The bound on the depth does not show as long as it is above the rank of the type. -/
theorem typeLines_root {rank : TypeDefinition → Nat}
    (grows : ∀ outer ∈ module.types, ∀ inner ∈ module.nestedTypes outer, rank inner < rank outer)
    {tree : TypeTree} (unfolds : Unfolds module tree) (declared : tree.root ∈ module.types)
    {bound : Nat} (below : rank tree.root < bound) :
    typeLines module language bound tree.root = treeLines module language tree := by
  induction unfolds generalizing bound with
  | @node definition inner roots _ ih =>
    obtain ⟨bound, rfl⟩ := Nat.exists_eq_succ_of_ne_zero (Nat.ne_zero_of_lt below)
    have nested : (module.nestedTypes definition).map (typeLines module language bound) =
        treesLines module language inner := by
      rw [treesLines_eq, ← roots, List.map_map]
      refine List.map_congr_left fun tree member => ?_
      have listed : tree.root ∈ module.nestedTypes definition :=
        roots ▸ List.mem_map_of_mem member
      have lower : rank tree.root < rank definition := grows definition declared _ listed
      exact ih tree member (mem_of_nestedTypes listed)
        (Nat.lt_of_lt_of_le lower (Nat.le_of_lt_succ below))
    rewrite [root, typeLines, treeLines, nested]
    rfl

end Trees

/-! The names in the lines of trees. -/

mutual

/-- The tokens that the lines of a tree spell. -/
def namedTokens : TypeTree → List Token
  | .node definition inner =>
    match definition.kind with
    | .delegate | .enum => ownTokens definition
    | _ => ownTokens definition ++ namedTokensIn inner

def namedTokensIn : List TypeTree → List Token
  | [] => []
  | first :: rest => namedTokens first ++ namedTokensIn rest

end

theorem namedTokensIn_eq (trees : List TypeTree) :
    namedTokensIn trees = trees.flatMap namedTokens := by
  induction trees with
  | nil => rfl
  | cons first rest ih => rw [namedTokensIn, ih, List.flatMap_cons]

/-- The names in the lines of a tree are those that are spelled for its root. -/
theorem typeTokens_root {module : Module} {rank : TypeDefinition → Nat}
    (grows : ∀ outer ∈ module.types, ∀ inner ∈ module.nestedTypes outer, rank inner < rank outer)
    {tree : TypeTree} (unfolds : Unfolds module tree) (declared : tree.root ∈ module.types)
    {bound : Nat} (below : rank tree.root < bound) :
    typeTokens module bound tree.root = namedTokens tree := by
  induction unfolds generalizing bound with
  | @node definition inner roots _ ih =>
    obtain ⟨bound, rfl⟩ := Nat.exists_eq_succ_of_ne_zero (Nat.ne_zero_of_lt below)
    have nested : (module.nestedTypes definition).flatMap (typeTokens module bound) =
        namedTokensIn inner := by
      rw [namedTokensIn_eq, ← roots, List.flatMap_map]
      refine List.flatMap_congr fun tree member => ?_
      have listed : tree.root ∈ module.nestedTypes definition :=
        roots ▸ List.mem_map_of_mem member
      have lower : rank tree.root < rank definition := grows definition declared _ listed
      exact ih tree member (mem_of_nestedTypes listed)
        (Nat.lt_of_lt_of_le lower (Nat.le_of_lt_succ below))
    rewrite [root, typeTokens, namedTokens, nested]
    rfl

/-! The methods that trees declare. -/

mutual

/-- The methods that the source of a tree declares, each with its type. A delegate declares the
method that calls it, an enumeration none, and all other types declare all their methods and then
those of the types below them. -/
def declaredMethods : TypeTree → List (TypeDefinition × MethodDefinition)
  | .node definition inner =>
    match definition.kind with
    | .delegate => (definition.methods.find? (·.name == "Invoke")).toList.map (definition, ·)
    | .enum => []
    | _ => definition.methods.map (definition, ·) ++ declaredMethodsIn inner

def declaredMethodsIn : List TypeTree → List (TypeDefinition × MethodDefinition)
  | [] => []
  | first :: rest => declaredMethods first ++ declaredMethodsIn rest

end

theorem declaredMethodsIn_eq (trees : List TypeTree) :
    declaredMethodsIn trees = trees.flatMap declaredMethods := by
  induction trees with
  | nil => rfl
  | cons first rest ih => rw [declaredMethodsIn, ih, List.flatMap_cons]

/-- A tree declares methods of its own types only. -/
theorem declared_of_mem {module : Module} {tree : TypeTree} (unfolds : Unfolds module tree)
    (known : tree.root ∈ module.types) :
    ∀ entry ∈ declaredMethods tree, entry.1 ∈ module.types ∧ entry.2 ∈ entry.1.methods := by
  induction unfolds with
  | @node definition inner roots _ ih =>
    have own {methods : List MethodDefinition} (within : methods ⊆ definition.methods) :
        ∀ entry ∈ methods.map (definition, ·),
          entry.1 ∈ module.types ∧ entry.2 ∈ entry.1.methods :=
      List.forall_mem_map.mpr fun method member => ⟨known, within member⟩
    rw [declaredMethods]
    split
    · refine own fun method member => ?_
      exact List.mem_of_find?_eq_some (Option.mem_toList.mp member)
    · exact List.forall_mem_nil _
    · rw [declaredMethodsIn_eq, List.forall_mem_append, List.forall_mem_flatMap]
      refine ⟨own (List.Subset.refl _), fun tree member => ih tree member ?_⟩
      exact mem_of_nestedTypes (roots ▸ List.mem_map_of_mem member)

variable (module : Module) (language : Language)

/-- The text that declares a method of a type. A delegate puts its own name in the place of that of
the method, and a method without a body ends with a semicolon. -/
def declarationText (definition : TypeDefinition) (method : MethodDefinition) : String :=
  match definition.kind with
  | .delegate =>
    visibilityWord (Visibility.ofFlags definition.flags) ++ " delegate " ++
      returnWord module (GenericNames.ofType definition) method.signature ++ " " ++
      typeName definition ++ "(" ++ paramList module definition method ++ ");"
  | _ =>
    if hasBody definition method then methodText module definition method
    else methodText module definition method ++ ";"

theorem declarationText_ne_empty (definition : TypeDefinition) (method : MethodDefinition) :
    declarationText module definition method ≠ "" := by
  rw [Ne, ← String.length_eq_zero_iff, declarationText, methodText]
  split
  · simp [String.length_append]
  · split <;> simp [String.length_append]

def declarationOf (entry : TypeDefinition × MethodDefinition) : Token × String :=
  (entry.2.token, declarationText module entry.1 entry.2)

variable {definition : TypeDefinition}

/-- The lines of a method declare it. -/
theorem declarations_methodLines (named : definition.kind ≠ .delegate)
    (method : MethodDefinition) :
    declarations (methodLines module definition method) =
      [declarationOf module (definition, method)] := by
  have text : declarationText module definition method =
      if hasBody definition method then methodText module definition method
      else methodText module definition method ++ ";" := by
    rw [declarationText]
    split
    · contradiction
    · rfl
  rw [methodLines, declarationOf, text]
  split
  · rw [declarations_block]
    split <;> rfl
  · rfl

/-- The lines of an enumeration declare no method. -/
theorem declarations_enumLines : declarations (enumLines module definition) = [] :=
  declarations_map_plain id _

/-- The line of a delegate declares the method that invokes it, if there is one. -/
theorem declarations_delegateLine (called : definition.kind = .delegate) :
    declarations [delegateLine module definition] =
      ((definition.methods.find? (·.name == "Invoke")).toList.map (definition, ·)).map
        (declarationOf module) := by
  rw [delegateLine]
  cases definition.methods.find? (·.name == "Invoke") with
  | none => rfl
  | some invoke =>
    show [(invoke.token, _)] = [(invoke.token, declarationText module definition invoke)]
    rw [declarationText, called]
    rfl

/-- The fields declare no methods, and every method declares itself. -/
theorem declarations_memberGroups (named : definition.kind ≠ .delegate) :
    (memberGroups module definition).flatMap declarations =
      (definition.methods.map (definition, ·)).map (declarationOf module) := by
  have fields : (if (definition.fields.map (fieldLine module definition)).isEmpty then []
      else [definition.fields.map (fieldLine module definition)]).flatMap declarations = [] := by
    split
    · rfl
    · rw [List.flatMap_singleton]
      exact declarations_map_plain _ definition.fields
  rw [memberGroups, List.flatMap_append, fields, List.nil_append, List.flatMap_map,
    List.map_map, List.map_eq_flatMap]
  congr 1
  funext method
  exact declarations_methodLines module named method

mutual

/-- The lines of a tree declare its methods in order. -/
theorem declarations_treeLines : ∀ tree : TypeTree,
    declarations (treeLines module language tree) =
      (declaredMethods tree).map (declarationOf module)
  | .node definition inner => by
    rw [treeLines, declaredMethods]
    split
    case h_1 called => exact declarations_delegateLine module called
    case h_2 => rw [declarations_block, declarations_enumLines]; rfl
    case h_3 named _ =>
      rw [declarations_block, declarations_separated, List.flatMap_append,
        declarations_memberGroups module named, declarations_treesLines inner, List.map_append]
      rfl

/-- The lines of trees declare their methods in order. -/
theorem declarations_treesLines : ∀ trees : List TypeTree,
    (treesLines module language trees).flatMap declarations =
      (declaredMethodsIn trees).map (declarationOf module)
  | [] => rfl
  | first :: rest => by
    rw [treesLines, declaredMethodsIn, List.flatMap_cons, List.map_append,
      declarations_treeLines first, declarations_treesLines rest]

end

end ClrDecompiler.Source
