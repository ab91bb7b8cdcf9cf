/-
This file arranges the types of a module in trees, as the links between them say, and finds out
which types the trees hold.
-/

import ClrDecompiler.Proofs.Module.Rows
import Mathlib.Data.List.Count
import Mathlib.Data.List.Nodup
import Mathlib.Data.List.Perm.Basic
import Mathlib.Logic.Relation

namespace ClrDecompiler.Module

open Metadata

/-- A type with the types nested in it. -/
inductive TypeTree where
  | node (definition : TypeDefinition) (inner : List TypeTree)

namespace TypeTree

def root : TypeTree → TypeDefinition
  | node definition _ => definition

mutual

/-- The types of a tree, each before those nested in it. -/
def definitions : TypeTree → List TypeDefinition
  | node definition inner => definition :: definitionsOf inner

def definitionsOf : List TypeTree → List TypeDefinition
  | [] => []
  | first :: rest => first.definitions ++ definitionsOf rest

end

theorem definitionsOf_eq (trees : List TypeTree) :
    definitionsOf trees = trees.flatMap definitions := by
  induction trees with
  | nil => rfl
  | cons first rest ih => rw [definitionsOf, ih, List.flatMap_cons]

end TypeTree

open TypeTree

theorem exists_map_eq {α β : Type} {f : α → β} {holds : α → Prop} :
    ∀ {values : List β}, (∀ value ∈ values, ∃ entry, f entry = value ∧ holds entry) →
      ∃ entries : List α, entries.map f = values ∧ ∀ entry ∈ entries, holds entry
  | [], _ => ⟨[], rfl, List.forall_mem_nil _⟩
  | value :: rest, each => by
    obtain ⟨⟨entry, rfl, held⟩, others⟩ := List.forall_mem_cons.mp each
    obtain ⟨entries, rfl, all⟩ := exists_map_eq others
    exact ⟨entry :: entries, rfl, List.forall_mem_cons.mpr ⟨held, all⟩⟩

/-- Nested types are types of the module. -/
theorem mem_of_nestedTypes {module : Module} {outer inner : TypeDefinition}
    (member : inner ∈ module.nestedTypes outer) : inner ∈ module.types := by
  obtain ⟨token, -, found⟩ := List.mem_filterMap.mp member
  exact mem_of_listed? found

theorem mem_of_topLevelTypes {module : Module} {definition : TypeDefinition}
    (member : definition ∈ module.topLevelTypes) : definition ∈ module.types :=
  Array.mem_toList_iff.mp (List.mem_filter.mp member).1

/-- Below every type of the tree stand the types nested in it, and their links lead to it. -/
inductive Nests (module : Module) : TypeTree → Prop
  | node {definition : TypeDefinition} {inner : List TypeTree} :
    inner.map root = module.nestedTypes definition →
    (∀ tree ∈ inner, tree.root.enclosing = some definition.token) →
    (∀ tree ∈ inner, Nests module tree) → Nests module (.node definition inner)

/-- A relation without cycles among the entries of a list goes up in rank: every step leaves fewer
entries before the one that it starts from than before the one that it leads to. -/
theorem exists_rank_of_acyclic {α : Type} {r : α → α → Prop} (entries : List α)
    (inside : ∀ first last, r first last → first ∈ entries)
    (acyclic : ∀ entry, ¬ Relation.TransGen r entry entry) :
    ∃ rank : α → Nat, (∀ first last, r first last → rank first < rank last) ∧
      ∀ entry ∈ entries, rank entry < entries.length := by
  classical
  let before (entry : α) : Nat := entries.countP fun other => Relation.TransGen r other entry
  have alone (entry : α) : ¬ decide (Relation.TransGen r entry entry) = true := by
    simpa using acyclic entry
  refine ⟨before, fun first last step => ?_, fun entry member => ?_⟩
  · let earlier := entries.filter fun other => Relation.TransGen r other last
    have kept : before first = earlier.countP fun other => Relation.TransGen r other first := by
      rw [List.countP_filter]
      refine List.countP_congr fun other _ => ?_
      simp only [decide_eq_true_eq, Bool.and_eq_true]
      exact ⟨fun path => ⟨path, path.tail step⟩, fun both => both.1⟩
    rw [kept]
    show _ < entries.countP _
    rw [List.countP_eq_length_filter (l := entries), List.countP_lt_length_iff]
    exact ⟨first, List.mem_filter.mpr ⟨inside first last step, decide_eq_true (.single step)⟩,
      decide_eq_false (acyclic first)⟩
  · exact List.countP_lt_length_iff.mpr ⟨entry, member, Bool.eq_false_iff.mpr (alone entry)⟩

/-- A relation without cycles leads on only finitely often among the entries of a list. -/
theorem wellFounded_of_acyclic {α : Type} {r : α → α → Prop} (entries : List α)
    (inside : ∀ first last, r first last → first ∈ entries)
    (acyclic : ∀ entry, ¬ Relation.TransGen r entry entry) : WellFounded r := by
  obtain ⟨rank, grows, -⟩ := exists_rank_of_acyclic entries inside acyclic
  exact Subrelation.wf (grows _ _) (measure rank).wf

/-- The link of the inner type leads to the outer one. -/
def Encloses (module : Module) (outer inner : TypeDefinition) : Prop :=
  outer ∈ module.types ∧ inner ∈ module.types ∧ inner.enclosing = some outer.token

/-- Types are found by their tokens, of which each has its own, the two links between types agree,
and no type is nested in itself. -/
structure LinksAgree (module : Module) : Prop where
  finds : FindsEntries TypeDefinition.token module.types module.type?
  unique : (module.types.toList.map (·.token)).Nodup
  linked : ∀ outer ∈ module.types, ∀ inner ∈ module.types,
    outer.nested.count inner.token = if inner.enclosing = some outer.token then 1 else 0
  acyclic : ∀ definition, ¬ Relation.TransGen module.Encloses definition definition

/-- Links that lead to smaller tokens make no cycles. -/
theorem acyclic_of_ordered {module : Module}
    (ordered : ∀ outer inner, module.Encloses outer inner → outer.token.value < inner.token.value)
    (definition : TypeDefinition) : ¬ Relation.TransGen module.Encloses definition definition := by
  intro cycle
  have less {first last : TypeDefinition} (path : Relation.TransGen module.Encloses first last) :
      first.token.value < last.token.value := by
    induction path with
    | single step => exact ordered _ _ step
    | tail _ step ih => exact UInt32.lt_trans ih (ordered _ _ step)
  exact UInt32.lt_irrefl _ (less cycle)

/-- The types have the tokens of their rows and come after those that enclose them, and the two
links between types agree. -/
def IsOrdered (module : Module) : Prop :=
  module.types.size < 0x1000000 ∧
  module.types.toList.map (·.token) =
    (List.range module.types.size).map (fun index => Token.ofRow .typeDef (index + 1)) ∧
  (∀ outer ∈ module.types.toList, ∀ inner ∈ module.types.toList,
    outer.nested.count inner.token = if inner.enclosing = some outer.token then 1 else 0) ∧
  ∀ outer ∈ module.types.toList, ∀ inner ∈ module.types.toList,
    inner.enclosing = some outer.token → outer.token.value < inner.token.value

instance (module : Module) : Decidable module.IsOrdered :=
  inferInstanceAs (Decidable (_ ∧ _ ∧ _ ∧ _))

/-- Links that lead to later types agree and are acyclic. -/
theorem IsOrdered.linksAgree {module : Module} (ordered : module.IsOrdered) :
    module.LinksAgree where
  finds := by
    refine findsEntries_listed? (fun index entry listed => ?_) ordered.1
    obtain ⟨inside, rfl⟩ := Array.getElem?_eq_some_iff.mp listed
    have same := congrArg (·[index]?) ordered.2.1
    simpa [inside] using same
  unique := by
    have few := ordered.1
    rw [ordered.2.1]
    refine List.Nodup.map_on (fun first inFirst second inSecond same => ?_) List.nodup_range
    have firstFits := List.mem_range.mp inFirst
    have secondFits := List.mem_range.mp inSecond
    have rows := (Token.ofRow_inj (by omega) (by omega)).mp same
    omega
  linked outer outerDeclared inner innerDeclared :=
    ordered.2.2.1 outer (Array.mem_toList_iff.mpr outerDeclared) inner
      (Array.mem_toList_iff.mpr innerDeclared)
  acyclic := acyclic_of_ordered fun outer inner step =>
    ordered.2.2.2 outer (Array.mem_toList_iff.mpr step.1) inner (Array.mem_toList_iff.mpr step.2.1)
      step.2.2

namespace LinksAgree

variable {module : Module} (links : module.LinksAgree)

include links

/-- Links lead upwards only finitely often. -/
theorem wellFounded_encloses : WellFounded module.Encloses :=
  wellFounded_of_acyclic module.types.toList
    (fun _ _ step => Array.mem_toList_iff.mpr step.1) links.acyclic

/-- Types are nested in one another only finitely often. -/
theorem wellFounded_nested : WellFounded (Function.swap module.Encloses) := by
  refine wellFounded_of_acyclic module.types.toList
    (fun _ _ step => Array.mem_toList_iff.mpr step.2.1) fun definition cycle => ?_
  exact links.acyclic definition (Relation.transGen_swap.mp cycle)

theorem nestedTypes_tokens (outer : TypeDefinition) : (module.nestedTypes outer).map (·.token) =
    outer.nested.filter fun token => (module.type? token).isSome := by
  rw [nestedTypes]
  induction outer.nested with
  | nil => rfl
  | cons token rest ih =>
    cases found : module.type? token with
    | none => simp [found, ih]
    | some definition => simp [found, ih, (links.finds.sound token definition found).1]

/-- A type is known by its token. -/
theorem eq_of_token {first second : TypeDefinition} (firstDeclared : first ∈ module.types)
    (secondDeclared : second ∈ module.types) (same : first.token = second.token) :
    first = second := by
  have found := links.finds.complete first firstDeclared
  rw [same, links.finds.complete second secondDeclared] at found
  exact (Option.some.inj found).symm

/-- A type stands once among the types nested in the one that its link leads to. -/
theorem count_nestedTypes {outer inner : TypeDefinition} (outerDeclared : outer ∈ module.types)
    (innerDeclared : inner ∈ module.types) :
    ((module.nestedTypes outer).map (·.token)).count inner.token =
      if inner.enclosing = some outer.token then 1 else 0 := by
  have found := links.finds.complete inner innerDeclared
  rw [links.nestedTypes_tokens, List.count_filter (by rw [found]; rfl),
    links.linked outer outerDeclared inner innerDeclared]

/-- A type is nested once in the one that encloses it, and in no other. -/
theorem count_flatMap_nestedTypes {inner : TypeDefinition} (innerDeclared : inner ∈ module.types) :
    ∀ {outers : List TypeDefinition}, (∀ outer ∈ outers, outer ∈ module.types) →
      ((outers.flatMap module.nestedTypes).map (·.token)).count inner.token =
        outers.countP fun outer => inner.enclosing = some outer.token
  | [], _ => rfl
  | outer :: rest, declared => by
    obtain ⟨first, others⟩ := List.forall_mem_cons.mp declared
    rw [List.flatMap_cons, List.map_append, List.count_append, List.countP_cons,
      count_flatMap_nestedTypes innerDeclared others, links.count_nestedTypes first innerDeclared,
      Nat.add_comm]
    simp only [decide_eq_true_eq]

/-- A type is at the top level exactly if it is not nested. -/
theorem count_topLevelTypes {definition : TypeDefinition} (declared : definition ∈ module.types) :
    (module.topLevelTypes.map (·.token)).count definition.token =
      if definition.isNested then 0 else 1 := by
  cases nested : definition.isNested with
  | true =>
    rw [if_pos rfl, List.count_eq_zero]
    intro member
    obtain ⟨top, found, same⟩ := List.mem_map.mp member
    obtain ⟨topDeclared, free⟩ := List.mem_filter.mp found
    rw [links.eq_of_token (Array.mem_toList_iff.mp topDeclared) declared same, nested] at free
    cases free
  | false =>
    have once : (module.topLevelTypes.map (·.token)).Nodup :=
      links.unique.sublist (List.filter_sublist.map _)
    refine List.count_eq_one_of_mem once (List.mem_map_of_mem (List.mem_filter.mpr ⟨?_, ?_⟩))
    · exact Array.mem_toList_iff.mpr declared
    · rw [nested, Bool.not_false]

/-- A type encloses the types that it lists. -/
theorem encloses_of_mem {outer inner : TypeDefinition} (declared : outer ∈ module.types)
    (member : inner ∈ module.nestedTypes outer) : module.Encloses outer inner := by
  obtain ⟨token, listed, found⟩ := List.mem_filterMap.mp member
  have innerDeclared := (links.finds.sound token inner found).2
  refine ⟨declared, innerDeclared, ?_⟩
  by_contra apart
  have counted := links.count_nestedTypes declared innerDeclared
  rw [if_neg apart, List.count_eq_zero] at counted
  exact counted (List.mem_map_of_mem member)

/-- Every type is at the root of a tree, as the nesting ends somewhere below it. -/
theorem exists_tree (definition : TypeDefinition) (declared : definition ∈ module.types) :
    ∃ tree : TypeTree, tree.root = definition ∧ Nests module tree := by
  induction definition using links.wellFounded_nested.induction with
  | _ definition ih =>
    have below : ∀ inner ∈ module.nestedTypes definition, ∃ tree : TypeTree,
        tree.root = inner ∧ (Nests module tree ∧ tree.root.enclosing = some definition.token) := by
      intro inner member
      have step := links.encloses_of_mem declared member
      obtain ⟨tree, rfl, nests⟩ := ih inner step step.2.1
      exact ⟨tree, rfl, nests, step.2.2⟩
    obtain ⟨trees, roots, each⟩ := exists_map_eq below
    exact ⟨.node definition trees, rfl, .node roots (fun tree member => (each tree member).2)
      fun tree member => (each tree member).1⟩

/-- The types at the top are at the roots of trees. -/
theorem exists_roots : ∃ forest : List TypeTree,
    forest.map root = module.topLevelTypes ∧ ∀ tree ∈ forest, Nests module tree :=
  exists_map_eq fun definition member => links.exists_tree definition (mem_of_topLevelTypes member)

end LinksAgree

/-- A type of a tree is at its root or nested in a type of the tree. -/
def IsClosed (module : Module) (tree : TypeTree) : Prop :=
  tree.definitions.Perm (tree.root :: tree.definitions.flatMap module.nestedTypes)

/-- The definitions of closed trees are their roots and all that these list. -/
theorem definitions_perm_of_closed {module : Module} {forest : List TypeTree}
    (closed : ∀ tree ∈ forest, IsClosed module tree) :
    (forest.flatMap definitions).Perm
      (forest.map root ++ (forest.flatMap definitions).flatMap module.nestedTypes) := by
  have parted := List.flatMap_append_perm forest (fun tree => [tree.root])
    fun tree => tree.definitions.flatMap module.nestedTypes
  rw [← List.map_eq_flatMap, ← List.flatMap_assoc] at parted
  exact (List.Perm.flatMap_left forest closed).trans parted.symm

theorem Nests.isClosed {module : Module} {tree : TypeTree} (nests : Nests module tree) :
    IsClosed module tree := by
  induction nests with
  | @node definition inner roots _ _ ih =>
    have below := definitions_perm_of_closed ih
    rw [roots] at below
    rw [IsClosed, definitions, definitionsOf_eq, List.flatMap_cons]
    exact below.cons definition

/-- How often trees hold a type. -/
def held (forest : List TypeTree) (definition : TypeDefinition) : Nat :=
  ((forest.flatMap definitions).map (·.token)).count definition.token

namespace LinksAgree

variable {module : Module} (links : module.LinksAgree) {forest : List TypeTree}
  (roots : forest.map root = module.topLevelTypes) (nests : ∀ tree ∈ forest, Nests module tree)

include links roots nests

/-- The trees hold declared types only. -/
theorem declared_of_mem {definition : TypeDefinition}
    (member : definition ∈ forest.flatMap definitions) : definition ∈ module.types := by
  have closed := definitions_perm_of_closed fun tree member => (nests tree member).isClosed
  rw [closed.mem_iff, List.mem_append, roots] at member
  rcases member with top | inner
  · exact mem_of_topLevelTypes top
  · obtain ⟨outer, -, nested⟩ := List.mem_flatMap.mp inner
    obtain ⟨token, -, found⟩ := List.mem_filterMap.mp nested
    exact (links.finds.sound token definition found).2

/-- A type is held once if no type encloses it, and otherwise as often as its link leads to types of
the trees. -/
theorem held_eq {definition : TypeDefinition} (declared : definition ∈ module.types) :
    held forest definition = (if definition.isNested then 0 else 1) +
        (forest.flatMap definitions).countP fun outer =>
          definition.enclosing = some outer.token := by
  have closed := definitions_perm_of_closed fun tree member => (nests tree member).isClosed
  rw [held, (closed.map _).count_eq, List.map_append, List.count_append, roots,
    links.count_topLevelTypes declared, links.count_flatMap_nestedTypes declared]
  exact fun outer member => links.declared_of_mem roots nests member

/-- A type without a link is held once, a type whose link leads to a declared type as often as that
type, and a type whose link leads to no type is not held. -/
theorem held_cases {definition : TypeDefinition} (declared : definition ∈ module.types) :
    (definition.isNested = false ∧ held forest definition = 1) ∨
      (∃ outer, module.Encloses outer definition ∧
        held forest definition = held forest outer) ∨
      (∃ token, definition.enclosing = some token ∧ (∀ outer ∈ module.types, outer.token ≠ token) ∧
        held forest definition = 0) := by
  have counted := links.held_eq roots nests declared
  cases link : definition.enclosing with
  | none =>
    have free : definition.isNested = false := by rw [TypeDefinition.isNested, link]; rfl
    refine .inl ⟨free, ?_⟩
    rw [counted, free, link, List.countP_eq_zero.mpr]
    · rfl
    · exact fun outer _ => by simp
  | some token =>
    have inner : definition.isNested = true := by rw [TypeDefinition.isNested, link]; rfl
    rw [inner, if_pos rfl, Nat.zero_add] at counted
    right
    by_cases known : ∃ outer ∈ module.types, outer.token = token
    · obtain ⟨outer, outerDeclared, rfl⟩ := known
      refine .inl ⟨outer, ⟨outerDeclared, declared, link⟩, ?_⟩
      rw [counted, link, held, List.count, List.countP_map]
      refine List.countP_congr fun other _ => ?_
      simp only [Option.some.injEq, decide_eq_true_eq, Function.comp_apply, beq_iff_eq]
      exact eq_comm
    · have unknown : ∀ outer ∈ module.types, outer.token ≠ token := fun outer member same =>
        known ⟨outer, member, same⟩
      refine .inr ⟨token, rfl, unknown, ?_⟩
      rw [counted, link, List.countP_eq_zero]
      intro outer member
      have apart := unknown outer (links.declared_of_mem roots nests member)
      simpa using apart.symm

/-- The trees hold no type twice. -/
theorem definitions_nodup : (forest.flatMap definitions).Nodup := by
  have atMostOnce : ∀ definition ∈ module.types, held forest definition ≤ 1 := by
    intro definition declared
    induction definition using links.wellFounded_encloses.induction with
    | _ definition ih =>
      rcases links.held_cases roots nests declared with
        ⟨-, once⟩ | ⟨outer, step, same⟩ | ⟨-, -, -, absent⟩
      · exact Nat.le_of_eq once
      · exact same ▸ ih outer step step.1
      · exact absent ▸ Nat.zero_le 1
  refine List.Nodup.of_map (·.token) (List.nodup_iff_count_le_one.mpr fun token => ?_)
  by_cases held : token ∈ (forest.flatMap definitions).map (·.token)
  · obtain ⟨definition, member, rfl⟩ := List.mem_map.mp held
    exact atMostOnce definition (links.declared_of_mem roots nests member)
  · rw [List.count_eq_zero.mpr held]
    exact Nat.zero_le 1

/-- A declared type is in a forest exactly if the forest holds it. -/
theorem mem_definitions_iff {definition : TypeDefinition} (declared : definition ∈ module.types) :
    definition ∈ forest.flatMap definitions ↔ 0 < held forest definition := by
  rw [held, List.count_pos_iff, List.mem_map]
  constructor
  · exact fun member => ⟨definition, member, rfl⟩
  · rintro ⟨other, member, same⟩
    rwa [← links.eq_of_token (links.declared_of_mem roots nests member) declared same]

/-- The trees hold all types exactly if every link leads to a declared type. -/
theorem definitions_perm_iff : (forest.flatMap definitions).Perm module.types.toList ↔
    ∀ inner ∈ module.types, ∀ token, inner.enclosing = some token →
      ∃ outer ∈ module.types, outer.token = token := by
  rw [List.perm_ext_iff_of_nodup (links.definitions_nodup roots nests) (.of_map _ links.unique)]
  constructor
  · intro whole inner declared token link
    have held := (links.mem_definitions_iff roots nests declared).mp
      ((whole inner).mpr (Array.mem_toList_iff.mpr declared))
    rcases links.held_cases roots nests declared with
      ⟨free, -⟩ | ⟨outer, ⟨outerDeclared, -, same⟩, -⟩ | ⟨-, -, -, absent⟩
    · rw [TypeDefinition.isNested, link] at free
      cases free
    · exact ⟨outer, outerDeclared, Option.some.inj (same.symm.trans link)⟩
    · omega
  · intro known definition
    refine ⟨fun member => Array.mem_toList_iff.mpr (links.declared_of_mem roots nests member),
      fun member => ?_⟩
    have declared := Array.mem_toList_iff.mp member
    clear member
    rw [links.mem_definitions_iff roots nests declared]
    induction definition using links.wellFounded_encloses.induction with
    | _ definition ih =>
      rcases links.held_cases roots nests declared with
        ⟨-, once⟩ | ⟨outer, step, same⟩ | ⟨token, link, unknown, -⟩
      · omega
      · exact same ▸ ih outer step step.1
      · obtain ⟨outer, outerDeclared, same⟩ := known definition declared token link
        exact absurd same (unknown outer outerDeclared)

end LinksAgree

end ClrDecompiler.Module
