/-
This file compares the two ways in which a module says that a type is nested in another: the link
of the inner type and the list of the outer one.
-/

import ClrDecompiler.Proofs.Metadata.Limits
import ClrDecompiler.Proofs.Module.Nesting
import Mathlib.Data.List.Nodup

namespace ClrDecompiler.Module

open Metadata Signature

/-- The number of a declared type. -/
def IsDeclared (count number : Nat) : Prop :=
  0 < number ∧ number ≤ count

instance (count number : Nat) : Decidable (IsDeclared count number) :=
  inferInstanceAs (Decidable (_ ∧ _))

/-- The types around a type that are declared, in the order of the rows. -/
def declaredAround (count : Nat) (pairs : List (Nat × Nat)) (number : Nat) : List Nat :=
  (enclosingsOf pairs number).filter fun outer => IsDeclared count outer

theorem mem_enclosingsOf {pairs : List (Nat × Nat)} {inner outer : Nat} :
    outer ∈ enclosingsOf pairs inner ↔ (inner, outer) ∈ pairs := by
  simp [enclosingsOf]

theorem mem_nestedIn {pairs : List (Nat × Nat)} {inner outer : Nat} :
    inner ∈ nestedIn pairs outer ↔ (inner, outer) ∈ pairs := by
  simp [nestedIn]

/-- Both lists hold a pair as often as the rows do. -/
theorem count_nestedIn (pairs : List (Nat × Nat)) (inner outer : Nat) :
    (nestedIn pairs outer).count inner = (enclosingsOf pairs inner).count outer := by
  have inList : (nestedIn pairs outer).count inner = pairs.count (inner, outer) := by
    rw [nestedIn, List.count, List.countP_map, List.countP_filter, List.count]
    apply List.countP_congr
    rintro ⟨first, second⟩ -
    simp
  have inLinks : (enclosingsOf pairs inner).count outer = pairs.count (inner, outer) := by
    rw [enclosingsOf, List.count, List.countP_map, List.countP_filter, List.count]
    apply List.countP_congr
    rintro ⟨first, second⟩ -
    simp [and_comm]
  rw [inList, inLinks]

/-- The bits of a row beyond the first 24 are cut off. -/
theorem tokenOf_mod (number : Nat) : tokenOf number = tokenOf (number % 0x1000000) := by
  have low (number : Nat) :
      (UInt32.ofNat number &&& 0x00FFFFFF).toNat = number % 2 ^ 32 % 2 ^ 24 := by
    rw [UInt32.toNat_and, UInt32.toNat_ofNat']
    exact Nat.and_two_pow_sub_one_eq_mod _ 24
  have same : UInt32.ofNat number &&& 0x00FFFFFF =
      UInt32.ofNat (number % 0x1000000) &&& 0x00FFFFFF := by
    rw [← UInt32.toNat_inj, low, low]
    omega
  rw [tokenOf, tokenOf, Token.ofRow, Token.ofRow, Token.ofParts, Token.ofParts, same]

theorem tokenOf_value (number : Nat) :
    (tokenOf number).value.toNat = 0x2000000 + number % 0x1000000 := by
  have fits : number % 0x1000000 < 0x1000000 := Nat.mod_lt _ (by decide)
  rw [tokenOf_mod]
  exact Token.ofRow_value fits

/-- Declared types have different tokens. -/
theorem tokenOf_inj {count first second : Nat} (fits : count ≤ 0x1000000)
    (left : IsDeclared count first) (right : IsDeclared count second) :
    tokenOf first = tokenOf second ↔ first = second := by
  refine ⟨fun same => ?_, congrArg tokenOf⟩
  have values := congrArg (fun token => token.value.toNat) same
  simp only [tokenOf_value] at values
  obtain ⟨leftPositive, leftInside⟩ := left
  obtain ⟨rightPositive, rightInside⟩ := right
  omega

/-- The rows give the links of the inner types and the lists of the outer types, and both agree. -/
structure Agree (count : Nat) (pairs : List (Nat × Nat)) : Prop where
  linked : ∀ ⦃inner outer⦄, IsDeclared count inner → IsDeclared count outer →
    ((inner, outer) ∈ pairs ↔
      (enclosingsOf pairs inner).getLast?.map tokenOf = some (tokenOf outer))
  declared : ∀ ⦃inner⦄, IsDeclared count inner → ∀ ⦃token⦄,
    (enclosingsOf pairs inner).getLast?.map tokenOf = some token →
      ∃ outer, IsDeclared count outer ∧ tokenOf outer = token
  ordered : ∀ ⦃outer⦄, IsDeclared count outer → (nestedIn pairs outer).Nodup

/-- At most one of the types that rows put around a type is declared, and the last row names it. -/
def Settled (count : Nat) (pairs : List (Nat × Nat)) (number : Nat) : Prop :=
  (declaredAround count pairs number).map tokenOf =
    ((enclosingsOf pairs number).getLast?.map tokenOf).toList

section

variable {count : Nat} {pairs : List (Nat × Nat)}

theorem mem_declaredAround {inner outer : Nat} :
    outer ∈ declaredAround count pairs inner ↔ (inner, outer) ∈ pairs ∧ IsDeclared count outer := by
  rw [declaredAround, List.mem_filter, mem_enclosingsOf, decide_eq_true_iff]

/-- An inner type is put into an outer one as often as that lists it. -/
theorem count_declaredAround {inner outer : Nat} (isDeclared : IsDeclared count outer) :
    (declaredAround count pairs inner).count outer = (nestedIn pairs outer).count inner := by
  rw [count_nestedIn]
  exact List.count_filter (decide_eq_true isDeclared)

theorem mem_tokensAround (fits : count ≤ 0x1000000) {inner outer : Nat}
    (isDeclared : IsDeclared count outer) :
    tokenOf outer ∈ (declaredAround count pairs inner).map tokenOf ↔ (inner, outer) ∈ pairs := by
  rw [List.mem_map]
  constructor
  · rintro ⟨other, member, same⟩
    obtain ⟨listed, otherDeclared⟩ := mem_declaredAround.mp member
    rw [← (tokenOf_inj fits otherDeclared isDeclared).mp same]
    exact listed
  · exact fun listed => ⟨outer, mem_declaredAround.mpr ⟨listed, isDeclared⟩, rfl⟩

/-- Links that agree are settled. -/
theorem Agree.settled (agree : Agree count pairs) (fits : count ≤ 0x1000000) {number : Nat}
    (isDeclared : IsDeclared count number) : Settled count pairs number := by
  cases last : (enclosingsOf pairs number).getLast? with
  | none =>
    rw [List.getLast?_eq_none_iff] at last
    simp [Settled, declaredAround, last]
  | some outer =>
    have link : (enclosingsOf pairs number).getLast?.map tokenOf = some (tokenOf outer) := by
      rw [last]
      rfl
    obtain ⟨named, namedDeclared, sameToken⟩ := agree.declared isDeclared link
    -- All declared types around the type have the token of its link, so they are one.
    have only : ∀ other ∈ declaredAround count pairs number, other = named := by
      intro other member
      obtain ⟨listed, otherDeclared⟩ := mem_declaredAround.mp member
      have otherLink := (agree.linked isDeclared otherDeclared).mp listed
      rw [link, ← sameToken] at otherLink
      exact ((tokenOf_inj fits namedDeclared otherDeclared).mp (Option.some.inj otherLink)).symm
    have listed : (number, named) ∈ pairs := by
      rw [agree.linked isDeclared namedDeclared, link, sameToken]
    have once : (declaredAround count pairs number).count named = 1 := by
      rw [count_declaredAround namedDeclared]
      exact List.count_eq_one_of_mem (agree.ordered namedDeclared) (mem_nestedIn.mpr listed)
    have whole := List.eq_replicate_of_mem only
    rw [whole, List.count_replicate_self] at once
    rw [Settled, link, whole, once, List.map_replicate, sameToken]
    rfl

/-- Links that are settled at every type agree. -/
theorem agree_of_settled (fits : count ≤ 0x1000000)
    (settled : ∀ number, IsDeclared count number → Settled count pairs number)
    (bounded : ∀ pair ∈ pairs, IsDeclared count pair.1) : Agree count pairs where
  linked inner outer innerDeclared outerDeclared := by
    rw [← mem_tokensAround fits outerDeclared, settled inner innerDeclared, Option.mem_toList]
  declared inner innerDeclared token link := by
    have member : token ∈ (declaredAround count pairs inner).map tokenOf := by
      rw [settled inner innerDeclared, link]
      exact List.mem_singleton_self token
    obtain ⟨outer, around, same⟩ := List.mem_map.mp member
    exact ⟨outer, (mem_declaredAround.mp around).2, same⟩
  ordered outer outerDeclared := by
    rw [List.nodup_iff_count_le_one]
    intro inner
    by_cases listed : (inner, outer) ∈ pairs
    · have length := congrArg List.length (settled inner (bounded _ listed))
      rw [List.length_map] at length
      rw [← count_declaredAround outerDeclared]
      refine Nat.le_trans List.count_le_length ?_
      rw [length]
      cases (enclosingsOf pairs inner).getLast? <;> simp
    · rw [List.count_eq_zero_of_not_mem fun member => listed (mem_nestedIn.mp member)]
      exact Nat.zero_le 1

end

/-! The types of a module, with the links that the pairs give them. -/

/-- The links and the lists of the types agree, every type around another one is declared, and no
list is out of order. -/
structure NestingIsConsistent (types : List TypeDefinition) : Prop where
  linked : ∀ inner ∈ types, ∀ outer ∈ types,
    inner.token ∈ outer.nested ↔ inner.enclosing = some outer.token
  declared : ∀ inner ∈ types, ∀ token, inner.enclosing = some token →
    ∃ outer ∈ types, outer.token = token
  ordered : ∀ outer ∈ types, outer.nested.Pairwise fun first second => first.value < second.value

/-- Of consistent types each is at the top or in the list of one other. -/
theorem NestingIsConsistent.placed {types : List TypeDefinition}
    (consistent : NestingIsConsistent types) {inner : TypeDefinition} (member : inner ∈ types) :
    (inner.isNested = false ∨ ∃ outer ∈ types, inner.token ∈ outer.nested) ∧
      ∀ outer ∈ types, ∀ other ∈ types, inner.token ∈ outer.nested → inner.token ∈ other.nested →
        outer.token = other.token := by
  constructor
  · cases link : inner.enclosing with
    | none =>
      left
      rw [TypeDefinition.isNested, link]
      rfl
    | some token =>
      right
      obtain ⟨outer, declared, rfl⟩ := consistent.declared inner member token link
      exact ⟨outer, declared, (consistent.linked inner member outer declared).mpr link⟩
  · intro outer declared other otherDeclared first second
    have firstLink := (consistent.linked inner member outer declared).mp first
    have secondLink := (consistent.linked inner member other otherDeclared).mp second
    exact Option.some.inj (firstLink.symm.trans secondLink)

theorem mem_sortTokens {tokens : List Token} {token : Token} :
    token ∈ sortTokens tokens ↔ token ∈ tokens :=
  (List.mergeSort_perm tokens _).mem_iff

/-- The order of a list of tokens is strict if there are no repetitions. -/
theorem sortTokens_strict {tokens : List Token} :
    ((sortTokens tokens).Pairwise fun first second => first.value < second.value) ↔
      tokens.Nodup := by
  rw [← (List.mergeSort_perm tokens fun first second => first.value ≤ second.value).nodup_iff]
  constructor
  · intro strict
    apply strict.imp
    intro first second less same
    rw [same] at less
    exact UInt32.lt_irrefl _ less
  · intro distinct
    have ordered : (sortTokens tokens).Pairwise fun first second =>
        decide (first.value ≤ second.value) = true := by
      apply List.pairwise_mergeSort
      · intro first second third
        rw [decide_eq_true_iff, decide_eq_true_iff, decide_eq_true_iff]
        exact UInt32.le_trans
      · intro first second
        rw [Bool.or_eq_true, decide_eq_true_iff, decide_eq_true_iff]
        exact UInt32.le_total _ _
    apply (ordered.and distinct).imp
    rintro first second ⟨le, ne⟩
    rw [decide_eq_true_iff] at le
    exact UInt32.lt_of_le_of_ne le fun same => ne (congrArg Token.mk same)

section

variable {count : Nat} {pairs : List (Nat × Nat)} (fits : count ≤ 0x1000000)
  (bounded : ∀ pair ∈ pairs, IsDeclared count pair.1)
include fits bounded

theorem mem_tokensIn {inner outer : Nat} (isDeclared : IsDeclared count inner) :
    tokenOf inner ∈ sortTokens ((nestedIn pairs outer).map tokenOf) ↔ (inner, outer) ∈ pairs := by
  rw [mem_sortTokens, List.mem_map, ← mem_nestedIn]
  constructor
  · rintro ⟨other, listed, same⟩
    have otherDeclared := bounded _ (mem_nestedIn.mp listed)
    rw [← (tokenOf_inj fits otherDeclared isDeclared).mp same]
    exact listed
  · exact fun listed => ⟨inner, listed, rfl⟩

/-- Sorted tokens rise strictly exactly if no pair is listed twice. -/
theorem tokensIn_strict (outer : Nat) :
    (sortTokens ((nestedIn pairs outer).map tokenOf)).Pairwise
      (fun first second => first.value < second.value) ↔ (nestedIn pairs outer).Nodup := by
  rw [sortTokens_strict]
  refine ⟨List.Nodup.of_map tokenOf, List.Nodup.map_on ?_⟩
  intro first firstListed second secondListed same
  exact (tokenOf_inj fits (bounded _ (mem_nestedIn.mp firstListed))
    (bounded _ (mem_nestedIn.mp secondListed))).mp same

end

section

variable {types : Array TypeDefinition} {pairs : List (Nat × Nat)} (has : HasLinks types pairs)
include has

theorem HasLinks.number_of_mem {type : TypeDefinition} (member : type ∈ types.toList) :
    ∃ number, IsDeclared types.size number ∧ type.token = tokenOf number ∧
      type.enclosing = (enclosingsOf pairs number).getLast?.map tokenOf ∧
      type.nested = sortTokens ((nestedIn pairs number).map tokenOf) := by
  obtain ⟨index, inside, rfl⟩ := List.mem_iff_getElem.mp member
  rw [Array.length_toList] at inside
  have same := has index types[index] (Array.getElem?_eq_getElem inside)
  exact ⟨index + 1, ⟨Nat.succ_pos _, inside⟩, congrArg (·.1) same, congrArg (·.2.1) same,
    congrArg (·.2.2) same⟩

/-- Every declared number is that of a type with its links. -/
theorem HasLinks.exists_mem {number : Nat} (isDeclared : IsDeclared types.size number) :
    ∃ type ∈ types.toList, type.token = tokenOf number ∧
      type.enclosing = (enclosingsOf pairs number).getLast?.map tokenOf ∧
      type.nested = sortTokens ((nestedIn pairs number).map tokenOf) := by
  obtain ⟨positive, inside⟩ := isDeclared
  obtain ⟨index, rfl⟩ := Nat.exists_eq_succ_of_ne_zero (Nat.ne_of_gt positive)
  have same := has index types[index] (Array.getElem?_eq_getElem inside)
  exact ⟨types[index], Array.getElem_mem_toList inside, congrArg (·.1) same,
    congrArg (·.2.1) same, congrArg (·.2.2) same⟩

/-- The types agree if the rows do. -/
theorem HasLinks.consistent_iff (fits : types.size ≤ 0x1000000)
    (bounded : ∀ pair ∈ pairs, IsDeclared types.size pair.1) :
    NestingIsConsistent types.toList ↔ Agree types.size pairs := by
  constructor
  · intro consistent
    constructor
    · intro inner outer innerDeclared outerDeclared
      obtain ⟨type, member, token, link, -⟩ := has.exists_mem innerDeclared
      obtain ⟨other, otherMember, otherToken, -, list⟩ := has.exists_mem outerDeclared
      have agreed := consistent.linked type member other otherMember
      rw [token, link, otherToken, list, mem_tokensIn fits bounded innerDeclared] at agreed
      exact agreed
    · intro inner innerDeclared token found
      obtain ⟨type, member, -, link, -⟩ := has.exists_mem innerDeclared
      obtain ⟨other, otherMember, same⟩ := consistent.declared type member token (link.trans found)
      obtain ⟨outer, outerDeclared, otherToken, -⟩ := has.number_of_mem otherMember
      exact ⟨outer, outerDeclared, otherToken.symm.trans same⟩
    · intro outer outerDeclared
      obtain ⟨other, otherMember, -, -, list⟩ := has.exists_mem outerDeclared
      have strict := consistent.ordered other otherMember
      rw [list, tokensIn_strict fits bounded] at strict
      exact strict
  · intro agree
    constructor
    · intro type member other otherMember
      obtain ⟨inner, innerDeclared, token, link, -⟩ := has.number_of_mem member
      obtain ⟨outer, outerDeclared, otherToken, -, list⟩ := has.number_of_mem otherMember
      rw [token, link, otherToken, list, mem_tokensIn fits bounded innerDeclared]
      exact agree.linked innerDeclared outerDeclared
    · intro type member token found
      obtain ⟨inner, innerDeclared, -, link, -⟩ := has.number_of_mem member
      obtain ⟨outer, outerDeclared, same⟩ := agree.declared innerDeclared (link.symm.trans found)
      obtain ⟨other, otherMember, otherToken, -⟩ := has.exists_mem outerDeclared
      exact ⟨other, otherMember, otherToken.trans same⟩
    · intro other otherMember
      obtain ⟨outer, outerDeclared, -, -, list⟩ := has.number_of_mem otherMember
      rw [list, tokensIn_strict fits bounded]
      exact agree.ordered outerDeclared

end

theorem nestings_declared {count : Nat} {rows : List NestedClassRow} {pair : Nat × Nat}
    (member : pair ∈ nestings count rows) : IsDeclared count pair.1 := by
  obtain ⟨row, listed, rfl⟩ := List.mem_map.mp member
  exact (of_decide_eq_true (List.mem_filter.mp listed).2).1

theorem Source.typeRows_size {source : Source} {declared : TypeRows}
    (run : source.typeRows = .ok declared) :
    ∃ rows, source.rows TypeDefRow = .ok rows ∧ declared.types.size = rows.length := by
  obtain ⟨rows, found, run⟩ := Outcome.of_bind_eq_ok run
  obtain ⟨fields, -, run⟩ := Outcome.of_bind_eq_ok run
  obtain ⟨methods, -, run⟩ := Outcome.of_bind_eq_ok run
  obtain ⟨params, -, run⟩ := Outcome.of_bind_eq_ok run
  obtain ⟨fieldPointers, -, run⟩ := Outcome.of_bind_eq_ok run
  obtain ⟨methodPointers, -, run⟩ := Outcome.of_bind_eq_ok run
  obtain ⟨genericParams, -, run⟩ := Outcome.of_bind_eq_ok run
  obtain ⟨names, -, run⟩ := Outcome.of_bind_eq_ok run
  cases run
  exact ⟨rows, found, by rw [List.size_toArray, List.length_map]⟩

/-- The types of a loaded module are those of its source. -/
theorem types_of_load {path : String} {image : Image.Assembly} {module : Module}
    (run : load path image = .ok module) :
    ∃ source typeRefs typeSpecs, Source.ofImage image = .ok source ∧
      Source.types source typeRefs typeSpecs = .ok module.types := by
  obtain ⟨source, opened, run⟩ := Outcome.of_bind_eq_ok run
  obtain ⟨moduleRows, -, run⟩ := Outcome.of_bind_eq_ok run
  split at run
  · cases run
  · obtain ⟨name, -, run⟩ := Outcome.of_bind_eq_ok run
    obtain ⟨names, -, run⟩ := Outcome.of_bind_eq_ok run
    obtain ⟨identity, -, run⟩ := Outcome.of_bind_eq_ok run
    obtain ⟨references, -, run⟩ := Outcome.of_bind_eq_ok run
    obtain ⟨typeRefs, -, run⟩ := Outcome.of_bind_eq_ok run
    obtain ⟨typeSpecs, -, run⟩ := Outcome.of_bind_eq_ok run
    obtain ⟨memberRefs, -, run⟩ := Outcome.of_bind_eq_ok run
    obtain ⟨methodSpecs, -, run⟩ := Outcome.of_bind_eq_ok run
    obtain ⟨localSignatures, -, run⟩ := Outcome.of_bind_eq_ok run
    obtain ⟨types, loaded, run⟩ := Outcome.of_bind_eq_ok run
    obtain ⟨fieldConstants, -, run⟩ := Outcome.of_bind_eq_ok run
    obtain ⟨attributes, -, run⟩ := Outcome.of_bind_eq_ok run
    obtain ⟨framework, -, run⟩ := Outcome.of_bind_eq_ok run
    cases run
    exact ⟨source, typeRefs.toArray, typeSpecs.toArray, opened, loaded⟩

/-- The links of a module come from the rows of its image. Both ways of saying that a type is nested
agree exactly if the last row of every nested type names a declared type and no other row of it
does; then every type is at the top or listed under exactly one other. -/
theorem ofBytes_nesting_consistent_iff {path : String} {data : Bytes} {module : Module}
    (run : ofBytes path data = .ok module) :
    ∃ image source rows, Image.Assembly.read data = .ok image ∧
      Source.ofImage image = .ok source ∧ source.rows NestedClassRow = .ok rows ∧
      let count := module.types.size
      let pairs := nestings count (rows.map (·.2))
      HasLinks module.types pairs ∧
      (NestingIsConsistent module.types.toList ↔
        ∀ number, IsDeclared count number → Settled count pairs number) ∧
      (NestingIsConsistent module.types.toList → ∀ inner ∈ module.types.toList,
        (inner ∈ module.topLevelTypes ∨
          ∃ outer ∈ module.types.toList, inner.token ∈ outer.nested) ∧
        ∀ outer ∈ module.types.toList, ∀ other ∈ module.types.toList,
          inner.token ∈ outer.nested → inner.token ∈ other.nested → outer.token = other.token) := by
  obtain ⟨image, opened, loaded⟩ := Outcome.of_bind_eq_ok run
  obtain ⟨source, typeRefs, typeSpecs, found, typesRun⟩ := types_of_load loaded
  obtain ⟨declared, rows, declaredRun, size, rowsRun, has⟩ := Source.types_links typesRun
  obtain ⟨typeRows, typeRowsRun, count⟩ := Source.typeRows_size declaredRun
  have fits : module.types.size ≤ 0x1000000 := by
    rw [size, count]
    exact Source.types_le found typeRowsRun
  refine ⟨image, source, rows, opened, found, rowsRun, has, ?_, fun consistent inner member => ?_⟩
  · rw [has.consistent_iff fits fun _ => nestings_declared]
    exact ⟨fun agree _ => agree.settled fits,
      fun settled => agree_of_settled fits settled fun _ => nestings_declared⟩
  · obtain ⟨placed, alone⟩ := consistent.placed member
    refine ⟨placed.imp_left fun top => ?_, alone⟩
    rw [topLevelTypes, List.mem_filter, top]
    exact ⟨member, rfl⟩

/-! A small image: types without names and members, and the rows that nest them. -/

section Sample

open Bytes

def sampleTables (types : Nat) (rows : List (Nat × Nat)) : List UInt8 :=
  List.replicate 4 0 ++ [0x02, 0x00, 0x00, 0x01] ++
    littleEndian 8 (2 ^ TableId.module.number + 2 ^ TableId.typeDef.number +
      2 ^ TableId.nestedClass.number) ++ littleEndian 8 0 ++
    (littleEndian 4 1 ++ littleEndian 4 types ++ littleEndian 4 rows.length) ++
    List.replicate 10 0 ++
    (List.replicate types (List.replicate 10 0 ++ littleEndian 2 1 ++ littleEndian 2 1)).flatten ++
    rows.flatMap fun (nested, enclosing) => littleEndian 2 nested ++ littleEndian 2 enclosing

def sampleMetadata (tables : List UInt8) : List UInt8 :=
  [0x42, 0x53, 0x4A, 0x42] ++ littleEndian 2 1 ++ littleEndian 2 1 ++ littleEndian 4 0 ++
    littleEndian 4 4 ++ [0x76, 0x34, 0x00, 0x00] ++ littleEndian 2 0 ++ littleEndian 2 1 ++
    (littleEndian 4 36 ++ littleEndian 4 tables.length ++ [0x23, 0x7E, 0x00, 0x00]) ++ tables

/-- The header of managed code and the metadata after it make up the only section, which has the
same place in memory as in the file. -/
def imageAround (metadata : List UInt8) : Bytes :=
  let cli := littleEndian 4 72 ++ littleEndian 4 0 ++
    (littleEndian 4 0x1A0 ++ littleEndian 4 metadata.length) ++ List.replicate 56 0
  let start := [0x4D, 0x5A] ++ List.replicate 58 0 ++ littleEndian 4 0x40
  let header := [0x50, 0x45, 0x00, 0x00] ++ littleEndian 2 0x14C ++ littleEndian 2 1 ++
    List.replicate 12 0 ++ littleEndian 2 216 ++ littleEndian 2 0
  let optional := littleEndian 2 0x10B ++ List.replicate 34 0 ++ littleEndian 4 1 ++
    List.replicate 52 0 ++ littleEndian 4 15 ++ List.replicate 112 0 ++
    (littleEndian 4 0x158 ++ littleEndian 4 72)
  let size := littleEndian 4 (cli ++ metadata).length
  let part := List.replicate 8 0 ++ (size ++ littleEndian 4 0x158) ++
    (size ++ littleEndian 4 0x158) ++ List.replicate 16 0
  (start ++ header ++ optional ++ part ++ cli ++ metadata).toArray

def sampleImage (types : Nat) (rows : List (Nat × Nat)) : Bytes :=
  imageAround (sampleMetadata (sampleTables types rows))

end Sample

theorem ofBytes_nesting_consistent_iff_sample :
    ∃ module, ofBytes "" (sampleImage 2 [(2, 1)]) = .ok module ∧
      ∃ pairs, HasLinks module.types pairs ∧
        (NestingIsConsistent module.types.toList ↔
          ∀ number, IsDeclared module.types.size number →
            Settled module.types.size pairs number) := by
  have accepted : (ofBytes "" (sampleImage 2 [(2, 1)])).isOk = true := by decide +kernel
  cases run : ofBytes "" (sampleImage 2 [(2, 1)]) with
  | error fault =>
    rw [run] at accepted
    cases accepted
  | ok module =>
    obtain ⟨_, _, rows, -, -, -, has, consistent, -⟩ := ofBytes_nesting_consistent_iff run
    exact ⟨module, rfl, _, has, consistent⟩

/-- A type whose link leads to no type. -/
def hasLooseLink (types : List TypeDefinition) : Bool :=
  types.any fun inner => inner.enclosing.any fun token =>
    types.all fun outer => outer.token != token

/-- A link that leads nowhere is not consistent. -/
theorem not_consistent_of_looseLink {types : List TypeDefinition}
    (loose : hasLooseLink types = true) : ¬ NestingIsConsistent types := by
  intro consistent
  obtain ⟨inner, member, found⟩ := List.any_eq_true.mp loose
  cases link : inner.enclosing with
  | none =>
    rw [link] at found
    cases found
  | some token =>
    rw [link] at found
    obtain ⟨outer, declared, same⟩ := consistent.declared inner member token link
    exact bne_iff_ne.mp (List.all_eq_true.mp found outer declared) same

/-- The only row puts the second of two types into a third. -/
theorem sampleImage_inconsistent :
    ∃ module, ofBytes "" (sampleImage 2 [(2, 3)]) = .ok module ∧
      ¬ NestingIsConsistent module.types.toList := by
  have loose : (ofBytes "" (sampleImage 2 [(2, 3)])).toOption.any
      (fun module => hasLooseLink module.types.toList) = true := by decide +kernel
  cases run : ofBytes "" (sampleImage 2 [(2, 3)]) with
  | error fault =>
    rw [run] at loose
    cases loose
  | ok module =>
    rw [run] at loose
    exact ⟨module, rfl, not_consistent_of_looseLink loose⟩

end ClrDecompiler.Module
