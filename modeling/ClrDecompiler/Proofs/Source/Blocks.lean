/-
This file shows that the source of types has all of them, in blocks of equal namespaces, and that
its spans are those of their methods.
-/

import ClrDecompiler.Proofs.Module.NestingConsistency
import ClrDecompiler.Proofs.Module.Resolution
import ClrDecompiler.Proofs.Source.Decompile
import ClrDecompiler.Proofs.Source.Spans

namespace ClrDecompiler.Source

open Metadata ClrDecompiler.Module TypeTree

/-! Entries in groups of equal keys. -/

section Grouping

variable {α : Type} {key : α → String}

/-- The groups hold each entry once. Entries of equal keys stand in one group, in their order, and
the groups stand in the order in which their keys first appear among the entries. -/
structure IsGrouping (key : α → String) (entries : List α) (groups : List (String × List α)) :
    Prop where
  whole : (groups.flatMap (·.2)).Perm entries
  filled : ∀ group ∈ groups, group.2 ≠ []
  alike : ∀ group ∈ groups, ∀ entry ∈ group.2, key entry = group.1
  kept : ∀ group ∈ groups, group.2.Sublist entries
  ordered : (groups.map (·.1)).Pairwise fun first second =>
    (entries.map key).idxOf first < (entries.map key).idxOf second

/-- A new text comes last among those without repetitions. -/
theorem eraseDups_concat (texts : List String) (text : String) :
    (texts ++ [text]).eraseDups =
      if text ∈ texts then texts.eraseDups else texts.eraseDups ++ [text] := by
  rw [List.eraseDups_append]
  by_cases known : text ∈ texts <;> simp [List.removeAll, List.eraseDups_cons, known]

/-- The names stand in the order in which they first come up. -/
theorem eraseDups_ordered (texts : List String) :
    texts.eraseDups.Pairwise fun first second => texts.idxOf first < texts.idxOf second := by
  induction texts using List.reverseRecOn with
  | nil => exact .nil
  | append_singleton texts text ih =>
    have kept : texts.eraseDups.Pairwise fun first second =>
        (texts ++ [text]).idxOf first < (texts ++ [text]).idxOf second := by
      refine ih.imp_of_mem fun inFirst inSecond before => ?_
      rw [List.idxOf_append_of_mem (List.mem_eraseDups.mp inFirst),
        List.idxOf_append_of_mem (List.mem_eraseDups.mp inSecond)]
      exact before
    rw [eraseDups_concat]
    split
    case isTrue => exact kept
    case isFalse new =>
      refine List.pairwise_append.mpr ⟨kept, List.pairwise_singleton _ _, ?_⟩
      intro first member last final
      rw [List.mem_singleton.mp final, List.idxOf_append_of_mem (List.mem_eraseDups.mp member),
        List.idxOf_append_of_notMem new]
      exact Nat.lt_add_right _ (List.idxOf_lt_length_of_mem (List.mem_eraseDups.mp member))

/-- Different keys part the entries that have them. -/
theorem flatMap_filter_perm {keys : List String} (different : keys.Nodup) {entries : List α}
    (covered : ∀ entry ∈ entries, key entry ∈ keys) :
    (keys.flatMap fun name => entries.filter (key · == name)).Perm entries := by
  induction keys generalizing entries with
  | nil =>
    cases entries with
    | nil => exact .nil
    | cons entry rest => exact absurd (covered entry List.mem_cons_self) List.not_mem_nil
  | cons name names ih =>
    obtain ⟨new, different⟩ := List.nodup_cons.mp different
    have later : ∀ entry ∈ entries.filter (!key · == name), key entry ∈ names := by
      intro entry member
      obtain ⟨inside, other⟩ := List.mem_filter.mp member
      refine (List.mem_cons.mp (covered entry inside)).resolve_left fun same => ?_
      simp [same] at other
    have others := ih different later
    have same : names.flatMap (fun later => (entries.filter (!key · == name)).filter
        (key · == later)) = names.flatMap fun later => entries.filter (key · == later) := by
      refine List.flatMap_congr fun later member => ?_
      rw [List.filter_filter]
      refine List.filter_congr fun entry _ => ?_
      have apart : later ≠ name := fun equal => new (equal ▸ member)
      by_cases here : key entry = later
      · simp [here, apart]
      · simp [here]
    rw [List.flatMap_cons, ← same]
    exact (others.append_left _).trans (List.filter_append_perm _ entries)

/-- The entries of each key, key by key, are a grouping. -/
theorem isGrouping_filter (key : α → String) (entries : List α) :
    IsGrouping key entries ((entries.map key).eraseDups.map fun name =>
      (name, entries.filter (key · == name))) where
  whole := by
    rw [List.flatMap_map]
    refine flatMap_filter_perm ?_ fun entry member =>
      List.mem_eraseDups.mpr (List.mem_map_of_mem member)
    exact (eraseDups_ordered (entries.map key)).imp fun before =>
      ne_of_apply_ne (entries.map key).idxOf (Nat.ne_of_lt before)
  filled := by
    rw [List.forall_mem_map]
    intro name member empty
    obtain ⟨entry, inside, rfl⟩ := List.mem_map.mp (List.mem_eraseDups.mp member)
    exact List.filter_eq_nil_iff.mp empty entry inside (beq_self_eq_true _)
  alike := by
    rw [List.forall_mem_map]
    exact fun name _ entry member => eq_of_beq (List.mem_filter.mp member).2
  kept := by
    rw [List.forall_mem_map]
    exact fun name _ => List.filter_sublist
  ordered := by
    rw [List.map_map]
    exact (List.map_id _).symm ▸ eraseDups_ordered _

end Grouping

/-! Blocks of types. -/

/-- The lines of trees with a namespace around them, unless its name is empty. -/
def blockLines (module : Module) (language : Language) (block : String × List TypeTree) :
    List Line :=
  let lines := Line.separated (block.2.map (treeLines module language))
  if block.1.isEmpty then lines else Line.block (Line.plain ("namespace " ++ block.1)) lines

/-- The namespaces in their order, each with its types. -/
def blocks (module : Module) (types : List TypeDefinition) : List (String × List TypeDefinition) :=
  (namespaces module types).map fun name => (name, types.filter (namespaceOf module · == name))

/-- The lines of a document. -/
def sourceLines (module : Module) (language : Language) (types : List TypeDefinition) :
    List Line :=
  headerLines module ++
    Line.separated ((namespaces module types).map (namespaceLines module language types))

variable {module : Module} (language : Language) {types : List TypeDefinition}

/-- A namespace declares the methods of its trees in order. -/
theorem declarations_blockLines (block : String × List TypeTree) :
    Line.declarations (blockLines module language block) =
      (block.2.flatMap declaredMethods).map (declarationOf module) := by
  have lines : Line.declarations (Line.separated (block.2.map (treeLines module language))) =
      (block.2.flatMap declaredMethods).map (declarationOf module) := by
    rw [Line.declarations_separated, List.flatMap_map, List.map_flatMap]
    exact List.flatMap_congr fun tree _ => declarations_treeLines module language tree
  rw [blockLines]
  split
  · exact lines
  · rw [Line.declarations_block, lines]
    rfl

theorem declarations_headerLines : Line.declarations (headerLines module) = [] := by
  rw [headerLines, Line.declarations_append, Line.declarations_append,
    Line.declarations_map_plain]
  rfl

/-- The types of a list in trees, namespace by namespace. -/
structure IsForest (module : Module) (types : List TypeDefinition)
    (forest : List (String × List TypeTree)) : Prop where
  roots : forest.map (fun block => (block.1, block.2.map root)) = blocks module types
  unfolds : ∀ block ∈ forest, ∀ tree ∈ block.2, Unfolds module tree

/-- The roots of a forest are a grouping of its types. -/
theorem IsForest.isGrouping {forest : List (String × List TypeTree)}
    (isForest : IsForest module types forest) : IsGrouping (namespaceOf module) types
      (forest.map fun block => (block.1, block.2.map root)) := by
  rw [isForest.roots]
  exact isGrouping_filter (namespaceOf module) types

/-- Types that do not list themselves have trees, grouped by their namespaces. -/
theorem exists_isForest (acyclic : module.IsAcyclic)
    (declared : ∀ definition ∈ types, definition ∈ module.types) :
    ∃ forest, IsForest module types forest := by
  have each : ∀ group ∈ blocks module types, ∃ block : String × List TypeTree,
      (block.1, block.2.map root) = group ∧ ∀ tree ∈ block.2, Unfolds module tree := by
    intro group member
    have inside : ∀ definition ∈ group.2, definition ∈ module.types := fun definition listed =>
      declared definition (((isGrouping_filter (namespaceOf module) types).kept group
        member).subset listed)
    obtain ⟨trees, roots, unfolds⟩ := acyclic.exists_unfoldings inside
    exact ⟨(group.1, trees), by rw [roots], unfolds⟩
  obtain ⟨forest, roots, unfolds⟩ := exists_map_eq each
  exact ⟨forest, roots, unfolds⟩

/-- The lines of a document are those of its trees. -/
theorem sourceLines_eq (acyclic : module.IsAcyclic)
    (declared : ∀ definition ∈ types, definition ∈ module.types)
    {forest : List (String × List TypeTree)} (isForest : IsForest module types forest) :
    sourceLines module language types =
      headerLines module ++ Line.separated (forest.map (blockLines module language)) := by
  obtain ⟨rank, grows, few⟩ := acyclic.exists_rank
  have named : (namespaces module types).map (namespaceLines module language types) =
      (blocks module types).map fun group =>
        let lines := Line.separated (group.2.map (typeLines module language module.types.size))
        if group.1.isEmpty then lines
        else Line.block (Line.plain ("namespace " ++ group.1)) lines := by
    rw [blocks, List.map_map]
    rfl
  rw [sourceLines, named, ← isForest.roots, List.map_map]
  congr 2
  refine List.map_congr_left fun block member => ?_
  have trees : (block.2.map root).map (typeLines module language module.types.size) =
      block.2.map (treeLines module language) := by
    rw [List.map_map]
    refine List.map_congr_left fun tree inside => ?_
    have known : tree.root ∈ module.types := by
      refine declared _ ((isForest.isGrouping.kept _ (List.mem_map_of_mem member)).subset ?_)
      exact List.mem_map_of_mem inside
    exact typeLines_root language grows (isForest.unfolds block member tree inside) known
      (few _ known)
  simp only [Function.comp_apply, trees, blockLines]

/-- The lines declare the methods of the trees in order. -/
theorem declarations_sourceLines (acyclic : module.IsAcyclic)
    (declared : ∀ definition ∈ types, definition ∈ module.types)
    {forest : List (String × List TypeTree)} (isForest : IsForest module types forest) :
    Line.declarations (sourceLines module language types) =
      ((forest.flatMap (·.2)).flatMap declaredMethods).map (declarationOf module) := by
  rw [sourceLines_eq language acyclic declared isForest, Line.declarations_append,
    declarations_headerLines, List.nil_append, Line.declarations_separated, List.flatMap_map,
    List.flatMap_assoc, List.map_flatMap]
  exact List.flatMap_congr fun block _ => declarations_blockLines language block

/-- The names that are spelled for types are those in the lines of their trees. -/
theorem names_end_iff (acyclic : module.IsAcyclic)
    (declared : ∀ definition ∈ types, definition ∈ module.types)
    {forest : List (String × List TypeTree)} (isForest : IsForest module types forest) :
    (∀ token ∈ types.flatMap (typeTokens module module.types.size), module.NameEnds token) ↔
      ∀ block ∈ forest, ∀ tree ∈ block.2, ∀ token ∈ namedTokens tree, module.NameEnds token := by
  obtain ⟨rank, grows, few⟩ := acyclic.exists_rank
  have whole := isForest.isGrouping.whole
  have tokens {block : String × List TypeTree} (member : block ∈ forest) {tree : TypeTree}
      (inside : tree ∈ block.2) :
      typeTokens module module.types.size tree.root = namedTokens tree := by
    have known : tree.root ∈ module.types :=
      declared _ ((isForest.isGrouping.kept _ (List.mem_map_of_mem member)).subset
        (List.mem_map_of_mem inside))
    exact typeTokens_root grows (isForest.unfolds block member tree inside) known (few _ known)
  rw [List.forall_mem_flatMap]
  refine (forall_congr' fun definition => imp_congr_left whole.mem_iff.symm).trans ?_
  rw [List.forall_mem_flatMap, List.forall_mem_map]
  refine forall₂_congr fun block member => ?_
  rw [List.forall_mem_map]
  exact forall₂_congr fun tree inside => by rw [tokens member inside]

/-- A line as it stands in a text, behind its tabs and before its end. -/
theorem toList_text (lines : List Line) : (Line.text lines).toList =
    lines.flatMap fun line => (if line.content = "" then []
      else List.replicate line.depth '\t' ++ line.content.toList) ++ ['\n'] := by
  rw [Line.text, String.toList_ofList]
  refine List.flatMap_congr fun line _ => ?_
  simp only [Line.chars, String.isEmpty_iff]
  split <;> rfl

/-- For types that do not list themselves there is a tree for each of them, with all types below it.
The trees stand in blocks of equal namespaces, in the order in which the types first name these. The
types have a document exactly if all names in the trees come to an end, as they do without a
signature that names itself. Otherwise the program is stopped. The text of the document consists of
the lines of the trees. Its spans are those of the methods that the trees declare, in order and
further and further down. -/
theorem decompile_forest (acyclic : module.IsAcyclic)
    (declared : ∀ definition ∈ types, definition ∈ module.types) :
    ∃ forest : List (String × List TypeTree),
      (∀ block ∈ forest, ∀ tree ∈ block.2, Unfolds module tree) ∧
      IsGrouping (namespaceOf module) types
        (forest.map fun block => (block.1, block.2.map root)) ∧
      ((∃ document, decompile module language types = .ok document) ↔
        ∀ block ∈ forest, ∀ tree ∈ block.2, ∀ token ∈ namedTokens tree, module.NameEnds token) ∧
      (∀ fault, decompile module language types = .error fault → fault = .endlessName) ∧
      ∀ document, decompile module language types = .ok document →
        document.text.toList = (headerLines module ++
            Line.separated (forest.map (blockLines module language))).flatMap (fun line =>
          (if line.content = "" then []
            else List.replicate line.depth '\t' ++ line.content.toList) ++ ['\n']) ∧
        document.spans.map (·.method) =
          ((forest.flatMap (·.2)).flatMap declaredMethods).map (·.2.token) ∧
        document.spans.Pairwise fun first second => first.line < second.line := by
  obtain ⟨forest, isForest⟩ := exists_isForest acyclic declared
  refine ⟨forest, isForest.unfolds, isForest.isGrouping, ?_, fun fault => decompile_eq_error, ?_⟩
  · rw [← names_end_iff acyclic declared isForest]
    simp only [decompile_eq_ok_iff, exists_and_left, exists_eq', and_true]
  · intro document run
    obtain ⟨-, rfl⟩ := decompile_eq_ok_iff.mp run
    refine ⟨?_, ?_, ?_⟩
    · rw [← toList_text, ← sourceLines_eq language acyclic declared isForest]
      rfl
    · show (Document.spansFrom 1 _).map _ = _
      rw [spansFrom_methods]
      show (Line.declarations (sourceLines module language types)).map _ = _
      rw [declarations_sourceLines language acyclic declared isForest, List.map_map]
      rfl
    · exact (spansFrom_increasing 1 _).2

/-- A method without parameters that returns nothing and has no code. -/
def bareMethod (row : UInt32) (name : String) : MethodDefinition :=
  ⟨⟨0x06000000 + row⟩, name, 6, 0, 0, ⟨false, false, false, 0, ⟨false, .void⟩, []⟩, [], [], none⟩

/-- A class and an interface of one namespace with an enumeration of another one between them. A
delegate and a structure are nested in the class. -/
def shapesModule : Module := { Module.ofNames [] with
  types := #[
    ⟨⟨0x02000001⟩, 1, "N", "A", .classType, none, [], [], [], [bareMethod 1 "M", bareMethod 2 "K"],
      none, [⟨0x02000004⟩, ⟨0x02000005⟩]⟩,
    ⟨⟨0x02000002⟩, 1, "O", "E", .enum, none, [], [], [], [bareMethod 3 "X"], none, []⟩,
    ⟨⟨0x02000003⟩, 1, "N", "I", .interface, none, [], [], [], [bareMethod 4 "R"], none, []⟩,
    ⟨⟨0x02000004⟩, 2, "", "D", .delegate, none, [], [], [],
      [bareMethod 5 ".ctor", bareMethod 6 "Invoke"], some ⟨0x02000001⟩, []⟩,
    ⟨⟨0x02000005⟩, 2, "", "S", .struct, none, [], [], [], [bareMethod 7 "L"],
      some ⟨0x02000001⟩, []⟩] }

theorem isAcyclic_shapesModule : shapesModule.IsAcyclic :=
  isAcyclic_of_increasing (by decide +kernel)

/-- The interface comes before the enumeration, of which no method is declared. -/
theorem decompile_forest_shapes : ∃ document,
    decompile shapesModule .latest shapesModule.topLevelTypes = .ok document ∧
    document.spans.map (·.method.row) = [1, 2, 6, 7, 4] ∧
    ∃ forest : List (String × List TypeTree),
      IsGrouping (namespaceOf shapesModule) shapesModule.topLevelTypes
        (forest.map fun block => (block.1, block.2.map root)) ∧
      document.spans.map (·.method) =
        ((forest.flatMap (·.2)).flatMap declaredMethods).map (·.2.token) := by
  obtain ⟨forest, -, grouping, -, -, shown⟩ :=
    decompile_forest .latest isAcyclic_shapesModule fun _ => mem_of_topLevelTypes
  exact ⟨_, rfl, by decide +kernel, forest, grouping, (shown _ rfl).2.1⟩

section SelfNaming

open Bytes

/-- One class, which extends the type of the only signature. -/
def selfNamingTables : List UInt8 :=
  List.replicate 4 0 ++ [0x02, 0x00, 0x00, 0x01] ++
    littleEndian 8 (2 ^ TableId.module.number + 2 ^ TableId.typeDef.number +
      2 ^ TableId.typeSpec.number) ++ littleEndian 8 0 ++
    (littleEndian 4 1 ++ littleEndian 4 1 ++ littleEndian 4 1) ++ List.replicate 10 0 ++
    (List.replicate 8 0 ++ littleEndian 2 6 ++ littleEndian 2 1 ++ littleEndian 2 1) ++
    littleEndian 2 1

/-- The signature is an instance of the class, with the signature itself as the only argument. -/
def selfNamingBlobs : List UInt8 :=
  [0x00, 0x06, 0x15, 0x12, 0x04, 0x01, 0x12, 0x06]

def selfNamingImage : Bytes :=
  imageAround ([0x42, 0x53, 0x4A, 0x42] ++ littleEndian 2 1 ++ littleEndian 2 1 ++
    littleEndian 4 0 ++ littleEndian 4 4 ++ [0x76, 0x34, 0x00, 0x00] ++ littleEndian 2 0 ++
    littleEndian 2 2 ++
    (littleEndian 4 52 ++ littleEndian 4 selfNamingTables.length ++ [0x23, 0x7E, 0x00, 0x00]) ++
    (littleEndian 4 (52 + selfNamingTables.length) ++ littleEndian 4 selfNamingBlobs.length ++
      [0x23, 0x42, 0x6C, 0x6F, 0x62, 0x00, 0x00, 0x00]) ++
    selfNamingTables ++ selfNamingBlobs)

end SelfNaming

/-- A signature that names itself leaves its class without a document. -/
theorem selfNaming_not_decompiled : ∃ module, ofBytes "" selfNamingImage = .ok module ∧
    module.IsAcyclic ∧ module.topLevelTypes.length = 1 ∧
    ∀ language, decompile module language module.topLevelTypes = .error .endlessName := by
  have read : (ofBytes "" selfNamingImage).toOption.any (fun module =>
      decide ((∀ outer ∈ module.types.toList, ∀ inner ∈ module.nestedTypes outer,
        outer.token.value < inner.token.value) ∧ module.topLevelTypes.length = 1 ∧
        (module.checkNames (module.topLevelTypes.flatMap
          (typeTokens module module.types.size))).isOk = false)) = true := by decide +kernel
  obtain ⟨module, loaded, holds⟩ := Outcome.ok_of_any read
  obtain ⟨increasing, alone, refused⟩ := of_decide_eq_true holds
  refine ⟨module, loaded, isAcyclic_of_increasing increasing, alone, fun language => ?_⟩
  cases run : decompile module language module.topLevelTypes with
  | error fault => rw [decompile_eq_error run]
  | ok document =>
    rw [checkNames_eq_ok_iff.mpr (decompile_eq_ok_iff.mp run).1] at refused
    cases refused

end ClrDecompiler.Source
