/-
This file shows what links between types the rows of nested classes leave behind: each type has
the last enclosing type that a row gives it, and lists the types of all rows that name it as the
enclosing one.
-/

import ClrDecompiler.Module.Load
import ClrDecompiler.Proofs.Metadata.Token
import ClrDecompiler.Proofs.Outcome
import Mathlib.Data.List.Induction

namespace ClrDecompiler.Module

open Metadata Signature

/-- A row counts if it puts a type that is declared into another one, declared or not. -/
def Counts (size : Nat) (row : NestedClassRow) : Prop :=
  (0 < row.nested.toNat ∧ row.nested.toNat ≤ size) ∧ row.nested ≠ row.enclosing

instance (size : Nat) (row : NestedClassRow) : Decidable (Counts size row) :=
  inferInstanceAs (Decidable (_ ∧ _))

/-- The numbers of the nested type and of the type around it, for each row that counts. -/
def nestings (size : Nat) (rows : List NestedClassRow) : List (Nat × Nat) :=
  (rows.filter fun row => Counts size row).map fun row => (row.nested.toNat, row.enclosing.toNat)

/-- The types around a type, in the order of the rows. -/
def enclosingsOf (pairs : List (Nat × Nat)) (number : Nat) : List Nat :=
  (pairs.filter fun pair => pair.1 == number).map (·.2)

/-- The types in a type, in the order of the rows. -/
def nestedIn (pairs : List (Nat × Nat)) (number : Nat) : List Nat :=
  (pairs.filter fun pair => pair.2 == number).map (·.1)

def tokenOf (number : Nat) : Token :=
  Token.ofRow .typeDef number

theorem tokenOf_toNat (row : UInt32) : tokenOf row.toNat = Token.ofParts 2 row := by
  rw [tokenOf, Token.ofRow, UInt32.ofNat_toNat]
  rfl

/-- A row adds its pair to the nestings if it counts. -/
theorem nestings_append (size : Nat) (rows : List NestedClassRow) (row : NestedClassRow) :
    nestings size (rows ++ [row]) = nestings size rows ++
      if Counts size row then [(row.nested.toNat, row.enclosing.toNat)] else [] := by
  rw [nestings, List.filter_append, List.map_append, nestings]
  by_cases counts : Counts size row <;> simp [counts]

theorem enclosingsOf_append (pairs : List (Nat × Nat)) (nested enclosing number : Nat) :
    enclosingsOf (pairs ++ [(nested, enclosing)]) number =
      enclosingsOf pairs number ++ if number = nested then [enclosing] else [] := by
  rw [enclosingsOf, List.filter_append, List.map_append, enclosingsOf]
  by_cases same : number = nested
  · simp [same]
  · simp [same, Ne.symm same]

theorem nestedIn_append (pairs : List (Nat × Nat)) (nested enclosing number : Nat) :
    nestedIn (pairs ++ [(nested, enclosing)]) number =
      nestedIn pairs number ++ if number = enclosing then [nested] else [] := by
  rw [nestedIn, List.filter_append, List.map_append, nestedIn]
  by_cases same : number = enclosing
  · simp [same]
  · simp [same, Ne.symm same]

/-- The links of a type, apart from everything else in it. -/
def links (type : TypeDefinition) : Token × Option Token × List Token :=
  (type.token, type.enclosing, type.nested)

def sortTokens (tokens : List Token) : List Token :=
  tokens.mergeSort fun first second => first.value ≤ second.value

/-- Every type has the last of the types around it for its link, and lists the types in it in the
order of their tokens. -/
def HasLinks (types : Array TypeDefinition) (pairs : List (Nat × Nat)) : Prop :=
  ∀ (index : Nat) (type : TypeDefinition), types[index]? = some type →
    links type = (tokenOf (index + 1), (enclosingsOf pairs (index + 1)).getLast?.map tokenOf,
      sortTokens ((nestedIn pairs (index + 1)).map tokenOf))

/-- While rows are taken in, the lists are in the order of the rows and the tokens are those of the
declarations. -/
def Linked (declared types : Array TypeDefinition) (pairs : List (Nat × Nat)) : Prop :=
  ∀ index : Nat, types[index]?.map links = declared[index]?.map fun before =>
    (before.token, (enclosingsOf pairs (index + 1)).getLast?.map tokenOf,
      (nestedIn pairs (index + 1)).map tokenOf)

theorem size_eq_of_map {α β γ : Type} {first : Array α} {second : Array β} {f : α → γ}
    {g : Nat → β → γ}
    (same : ∀ index : Nat, first[index]?.map f = second[index]?.map (g index)) :
    first.size = second.size := by
  have bounds (index : Nat) : first.size ≤ index ↔ second.size ≤ index := by
    have absent := congrArg Option.isNone (same index)
    rw [Option.isNone_map, Option.isNone_map, Bool.eq_iff_iff, Option.isNone_iff_eq_none,
      Option.isNone_iff_eq_none] at absent
    rw [← Array.getElem?_eq_none_iff, ← Array.getElem?_eq_none_iff]
    exact absent
  have left := bounds first.size
  have right := bounds second.size
  omega

theorem Linked.size_eq {declared types : Array TypeDefinition} {pairs : List (Nat × Nat)}
    (linked : Linked declared types pairs) : types.size = declared.size :=
  size_eq_of_map fun index => linked index

namespace Source

/-- An entry keeps its place, and changes if it has the number. -/
theorem getElem?_modifyRow {α : Type} (entries : Array α) (number : Nat) (change : α → α)
    (index : Nat) :
    (modifyRow entries number change)[index]? =
      entries[index]?.map fun entry => if index + 1 = number then change entry else entry := by
  cases number with
  | zero => simp [modifyRow]
  | succ number =>
    rw [modifyRow, if_neg (Nat.succ_ne_zero number), Nat.add_sub_cancel, Array.getElem?_modify]
    by_cases same : number = index
    · simp [same]
    · simp [same, Ne.symm same]

theorem row?_isNone {α : Type} (entries : Array α) (number : Nat) :
    (TypeRows.row? entries number).isNone ↔ ¬ (0 < number ∧ number ≤ entries.size) := by
  cases number with
  | zero => simp [TypeRows.row?]
  | succ number =>
    simp only [TypeRows.row?, Nat.succ_ne_zero, if_false, Nat.add_sub_cancel,
      Option.isNone_iff_eq_none, Array.getElem?_eq_none_iff]
    omega

/-- The types that are left alone by a row. -/
theorem nest_eq {types : Array TypeDefinition} {row : NestedClassRow} :
    nest types row = if Counts types.size row then
      modifyRow
        (modifyRow types row.nested.toNat fun definition =>
          { definition with enclosing := some (tokenOf row.enclosing.toNat) })
        row.enclosing.toNat fun definition =>
          { definition with nested := definition.nested ++ [tokenOf row.nested.toNat] }
      else types := by
  rw [tokenOf_toNat, tokenOf_toNat, nest]
  by_cases counts : Counts types.size row
  · have accepted : ¬ ((TypeRows.row? types row.nested.toNat).isNone ∨
        row.nested = row.enclosing) := by
      rw [row?_isNone, not_or, not_not]
      exact counts
    rw [if_neg accepted, if_pos counts]
  · have refused : (TypeRows.row? types row.nested.toNat).isNone ∨ row.nested = row.enclosing := by
      rw [row?_isNone]
      by_contra neither
      rw [not_or, not_not] at neither
      exact counts neither
    rw [if_pos refused, if_neg counts]

/-- A row that counts sets the link of the nested type and adds to the list of the other. -/
theorem getElem?_nest {types : Array TypeDefinition} {row : NestedClassRow}
    (counts : Counts types.size row) (index : Nat) :
    (nest types row)[index]? = types[index]?.map fun type => { type with
      enclosing :=
        if index + 1 = row.nested.toNat then some (tokenOf row.enclosing.toNat) else type.enclosing
      nested :=
        if index + 1 = row.enclosing.toNat then type.nested ++ [tokenOf row.nested.toNat]
        else type.nested } := by
  rw [nest_eq, if_pos counts, getElem?_modifyRow, getElem?_modifyRow, Option.map_map]
  apply congrArg (Option.map · types[index]?)
  funext type
  dsimp only [Function.comp_apply]
  split_ifs <;> rfl

/-- A row of the table links the two types that it names. -/
theorem linked_nest {declared types : Array TypeDefinition} {rows : List NestedClassRow}
    (linked : Linked declared types (nestings declared.size rows)) (row : NestedClassRow) :
    Linked declared (Source.nest types row) (nestings declared.size (rows ++ [row])) := by
  rw [nestings_append]
  by_cases counts : Counts declared.size row
  · intro index
    have before := linked index
    rw [getElem?_nest (linked.size_eq ▸ counts), Option.map_map, if_pos counts]
    cases here : types[index]? <;> cases there : declared[index]? <;> rw [here, there] at before
    case none.none => rfl
    case none.some => cases before
    case some.none => cases before
    case some.some type origin =>
      have same := Option.some.inj before
      have token : type.token = origin.token := congrArg (·.1) same
      have enclosing : type.enclosing =
        (enclosingsOf (nestings declared.size rows) (index + 1)).getLast?.map tokenOf :=
          congrArg (·.2.1) same
      have nested : type.nested =
        (nestedIn (nestings declared.size rows) (index + 1)).map tokenOf := congrArg (·.2.2) same
      simp only [Option.map_some, Function.comp_apply, links, token, enclosing, nested,
        enclosingsOf_append, nestedIn_append]
      split_ifs <;> simp
  · rw [if_neg counts, List.append_nil, nest_eq, linked.size_eq, if_neg counts]
    exact linked

/-- Before the first row no type is linked. -/
theorem linked_declared {declared : Array TypeDefinition}
    (fresh : ∀ type ∈ declared, type.enclosing = none ∧ type.nested = []) :
    Linked declared declared [] := by
  intro index
  cases there : declared[index]? with
  | none => rfl
  | some type =>
    obtain ⟨enclosing, nested⟩ := fresh type (Array.mem_of_getElem? there)
    simp only [Option.map_some, links, enclosing, nested]
    rfl

/-- All rows together leave the links of the pairs behind. -/
theorem linked_foldl {declared : Array TypeDefinition}
    (fresh : ∀ type ∈ declared, type.enclosing = none ∧ type.nested = [])
    (rows : List NestedClassRow) :
    Linked declared (rows.foldl nest declared) (nestings declared.size rows) := by
  induction rows using List.reverseRecOn with
  | nil => exact linked_declared fresh
  | append_singleton rows row ih =>
    rw [List.foldl_append]
    exact linked_nest ih row

/-- The interfaces of a type have no bearing on its links. -/
theorem links_implement (typeSpecs : Array TypeSig) (rows : List (Nat × InterfaceImplRow))
    (types : Array TypeDefinition) (index : Nat) :
    (rows.foldl (fun types (_, row) => implement typeSpecs types row) types)[index]?.map links =
      types[index]?.map links := by
  induction rows generalizing types with
  | nil => rfl
  | cons entry rows ih =>
    obtain ⟨number, row⟩ := entry
    rw [List.foldl_cons, ih]
    simp only [implement, getElem?_modifyRow, Option.map_map]
    apply congrArg (Option.map · types[index]?)
    funext type
    dsimp only [Function.comp_apply]
    split_ifs <;> rfl

/-- The links that the rows leave behind in types that have none of their own. -/
theorem links_of_rows {declared : List TypeDefinition}
    (own : ∀ (index : Nat) (type : TypeDefinition), declared[index]? = some type →
      links type = (tokenOf (index + 1), none, []))
    (rows : List (Nat × NestedClassRow)) (implementations : List (Nat × InterfaceImplRow))
    (typeSpecs : Array TypeSig) :
    let nested := rows.foldl (fun types (_, row) => nest types row) declared.toArray
    let types := implementations.foldl (fun types (_, row) => implement typeSpecs types row)
      (nested.map sortNested)
    types.size = declared.length ∧
      HasLinks types (nestings types.size (rows.map (·.2))) := by
  intro nested types
  have fresh : ∀ type ∈ declared.toArray, type.enclosing = none ∧ type.nested = [] := by
    intro type member
    obtain ⟨index, inside, rfl⟩ := List.mem_iff_getElem.mp (List.mem_toArray.mp member)
    have same := own index _ (List.getElem?_eq_getElem inside)
    exact ⟨congrArg (·.2.1) same, congrArg (·.2.2) same⟩
  have linked : Linked declared.toArray nested (nestings declared.length (rows.map (·.2))) := by
    have folded := linked_foldl fresh (rows.map (·.2))
    rw [List.foldl_map] at folded
    exact folded
  have sorted (index : Nat) : types[index]?.map links = (nested.map sortNested)[index]?.map links :=
    links_implement typeSpecs implementations _ index
  have size : types.size = declared.length := by
    rw [size_eq_of_map sorted, Array.size_map, linked.size_eq, List.size_toArray]
  refine ⟨size, fun index type listed => ?_⟩
  have whole := sorted index
  rw [listed, Array.getElem?_map, Option.map_map] at whole
  have before := linked index
  cases here : nested[index]? <;> cases there : declared.toArray[index]? <;>
    rw [here, there] at before
  case none.none => rw [here] at whole; cases whole
  case none.some => cases before
  case some.none => cases before
  case some.some middle origin =>
    rw [here] at whole
    have same := Option.some.inj before
    have final : links type = links (sortNested middle) := Option.some.inj whole
    have token : origin.token = tokenOf (index + 1) :=
      congrArg (·.1) (own index origin (by rw [← there, List.getElem?_toArray]))
    have kept : links (sortNested middle) =
      (middle.token, middle.enclosing, sortTokens middle.nested) := rfl
    have tokens : middle.token = origin.token := congrArg (·.1) same
    have enclosing : middle.enclosing = _ := congrArg (·.2.1) same
    have inner : middle.nested = _ := congrArg (·.2.2) same
    rw [final, kept, tokens, token, enclosing, inner, size]

/-- A type that was just read is linked to nothing. -/
theorem typeDefinition_links {source : Source} {rows : TypeRows} {typeRefs : Array TypeReference}
    {typeSpecs : Array TypeSig} {index : Nat} {row : TypeDefRow} {type : TypeDefinition}
    (run : source.typeDefinition rows typeRefs typeSpecs index row = .ok type) :
    links type = (tokenOf (index + 1), none, []) := by
  obtain ⟨fields, -, run⟩ := Outcome.of_bind_eq_ok run
  obtain ⟨methods, -, run⟩ := Outcome.of_bind_eq_ok run
  cases run
  rfl

/-- The links of the types that are loaded, and the rows that they come from. -/
theorem types_links {source : Source} {typeRefs : Array TypeReference}
    {typeSpecs : Array TypeSig} {types : Array TypeDefinition}
    (run : source.types typeRefs typeSpecs = .ok types) :
    ∃ (declared : TypeRows) (rows : List (Nat × NestedClassRow)),
      source.typeRows = .ok declared ∧ types.size = declared.types.size ∧
      source.rows NestedClassRow = .ok rows ∧
      HasLinks types (nestings types.size (rows.map (·.2))) := by
  obtain ⟨rows, rowsRun, run⟩ := Outcome.of_bind_eq_ok run
  obtain ⟨declared, declaredRun, run⟩ := Outcome.of_bind_eq_ok run
  obtain ⟨nestingRows, nestingRun, run⟩ := Outcome.of_bind_eq_ok run
  obtain ⟨implementations, -, run⟩ := Outcome.of_bind_eq_ok run
  cases run
  have each := Outcome.forall₂_of_mapM_eq_ok declaredRun
  have count : declared.length = rows.types.size := by
    rw [← each.length_eq, List.length_zipIdx, Array.length_toList]
  have own (index : Nat) (type : TypeDefinition) (listed : declared[index]? = some type) :
      links type = (tokenOf (index + 1), none, []) := by
    obtain ⟨inside, rfl⟩ := List.getElem?_eq_some_iff.mp listed
    have entry := each.get (i := index) (by rw [each.length_eq]; exact inside) inside
    simp only [List.get_eq_getElem, List.getElem_zipIdx, Nat.zero_add] at entry
    exact typeDefinition_links entry
  obtain ⟨size, linked⟩ := links_of_rows own nestingRows implementations typeSpecs
  exact ⟨rows, nestingRows, rowsRun, size.trans count, nestingRun, linked⟩

end Source

end ClrDecompiler.Module
