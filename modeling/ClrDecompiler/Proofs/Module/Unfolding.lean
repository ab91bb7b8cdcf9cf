/-
This file unfolds the types of a module into trees along the lists of nested types. The trees are
finite if no type lists itself.
-/

import ClrDecompiler.Proofs.Module.TypeForest

namespace ClrDecompiler.Module

open Metadata TypeTree

variable {module : Module}

/-- The outer type lists the inner one. -/
def HasNested (module : Module) (outer inner : TypeDefinition) : Prop :=
  outer ∈ module.types ∧ inner ∈ module.nestedTypes outer

/-- No type lists itself, neither directly nor through other types. -/
def IsAcyclic (module : Module) : Prop :=
  ∀ definition, ¬ Relation.TransGen module.HasNested definition definition

/-- Nested types with larger tokens make no cycles. -/
theorem isAcyclic_of_increasing (increasing : ∀ outer ∈ module.types.toList,
    ∀ inner ∈ module.nestedTypes outer, outer.token.value < inner.token.value) :
    module.IsAcyclic := by
  intro definition cycle
  have less {first last : TypeDefinition} (path : Relation.TransGen module.HasNested first last) :
      first.token.value < last.token.value := by
    induction path with
    | single step => exact increasing _ (Array.mem_toList_iff.mpr step.1) _ step.2
    | tail _ step ih =>
      exact UInt32.lt_trans ih (increasing _ (Array.mem_toList_iff.mpr step.1) _ step.2)
  exact UInt32.lt_irrefl _ (less cycle)

/-- Below every type of the tree stand the types that it lists, in their order. -/
inductive Unfolds (module : Module) : TypeTree → Prop
  | node {definition : TypeDefinition} {inner : List TypeTree} :
    inner.map root = module.nestedTypes definition →
    (∀ tree ∈ inner, Unfolds module tree) → Unfolds module (.node definition inner)

namespace IsAcyclic

variable (acyclic : module.IsAcyclic)

include acyclic

/-- Listed types have a lower rank, and there are no more ranks than types. -/
theorem exists_rank : ∃ rank : TypeDefinition → Nat,
    (∀ outer ∈ module.types, ∀ inner ∈ module.nestedTypes outer, rank inner < rank outer) ∧
      ∀ definition ∈ module.types, rank definition < module.types.size := by
  have inside : ∀ inner outer, Function.swap module.HasNested inner outer →
      inner ∈ module.types.toList := by
    intro inner outer step
    exact Array.mem_toList_iff.mpr (mem_of_nestedTypes step.2)
  obtain ⟨rank, grows, few⟩ := exists_rank_of_acyclic module.types.toList inside
    fun definition cycle => acyclic definition (Relation.transGen_swap.mp cycle)
  refine ⟨rank, fun outer declared inner member => grows inner outer ⟨declared, member⟩, ?_⟩
  intro definition declared
  exact few definition (Array.mem_toList_iff.mpr declared)

/-- Every type is at the root of a tree. -/
theorem exists_unfolding (definition : TypeDefinition) (declared : definition ∈ module.types) :
    ∃ tree : TypeTree, tree.root = definition ∧ Unfolds module tree := by
  obtain ⟨rank, grows, -⟩ := acyclic.exists_rank
  induction definition using (measure rank).wf.induction with
  | _ definition ih =>
    have below : ∀ inner ∈ module.nestedTypes definition,
        ∃ tree : TypeTree, tree.root = inner ∧ Unfolds module tree := by
      intro inner member
      exact ih inner (grows definition declared inner member) (mem_of_nestedTypes member)
    obtain ⟨trees, roots, each⟩ := exists_map_eq below
    exact ⟨.node definition trees, rfl, .node roots each⟩

theorem exists_unfoldings {types : List TypeDefinition}
    (declared : ∀ definition ∈ types, definition ∈ module.types) :
    ∃ trees : List TypeTree, trees.map root = types ∧ ∀ tree ∈ trees, Unfolds module tree :=
  exists_map_eq fun definition member =>
    acyclic.exists_unfolding definition (declared definition member)

end IsAcyclic

end ClrDecompiler.Module
