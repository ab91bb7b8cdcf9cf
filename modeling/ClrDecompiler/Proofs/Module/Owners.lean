/-
This file finds members by tables that note for every row the type that lists it last and the place
in the list, and shows that the search through the types of a module has the same results.
-/

import ClrDecompiler.Proofs.Module.Rows

namespace ClrDecompiler.Module

open Metadata Signature

/-- A place that no type has. -/
def unowned : Nat × Nat :=
  (2 ^ 64 - 1, 0)

/-- The rows in the list of a type are noted with the type and their places. Rows outside the table
are passed over. -/
def record (owners : Array (Nat × Nat)) (list : List Nat) (index : Nat) : Array (Nat × Nat) :=
  list.zipIdx.foldl (fun owners (number, place) =>
    Source.modifyRow owners number fun _ => (index, place)) owners

/-- The owners of so many rows, from the lists of all types in order. -/
def ownersOf (count : Nat) (lists : List (List Nat)) : Array (Nat × Nat) :=
  lists.zipIdx.foldl (fun owners (list, index) => record owners list index)
    (Array.replicate count unowned)

/-- The member of a token by the owner of its row. -/
def owned? {α : Type} (module : Module) (table : TableId) (members : TypeDefinition → List α)
    (owners : Array (Nat × Nat)) (token : Token) : Option (TypeDefinition × α) :=
  if token.pointsInto table && !token.isNull then do
    let (index, place) ← owners[token.row.toNat - 1]?
    let definition ← module.types[index]?
    return (definition, ← (members definition)[place]?)
  else none

/-! The last list with a row is the one that the table keeps. -/

theorem record_append (owners : Array (Nat × Nat)) (list : List Nat) (number index : Nat) :
    record owners (list ++ [number]) index =
      Source.modifyRow (record owners list index) number fun _ => (index, list.length) := by
  rw [record, List.zipIdx_append, List.foldl_append, Nat.zero_add]
  rfl

/-- A row is recorded with the list that has it, or keeps what was recorded before. -/
theorem record_spec {owners : Array (Nat × Nat)} {row : Nat} {old : Nat × Nat}
    (known : owners[row]? = some old) (list : List Nat) (index : Nat) :
    row + 1 ∉ list ∧ (record owners list index)[row]? = some old ∨
      ∃ before after, list = before ++ (row + 1) :: after ∧ row + 1 ∉ after ∧
        (record owners list index)[row]? = some (index, before.length) := by
  -- A later note replaces an earlier one, so the induction takes the list from its end.
  induction list using List.reverseRecOn with
  | nil => exact .inl ⟨List.not_mem_nil, known⟩
  | append_singleton list number ih =>
    rw [record_append, Source.getElem?_modifyRow]
    by_cases same : row + 1 = number
    · right
      refine ⟨list, [], by rw [same], List.not_mem_nil, ?_⟩
      obtain ⟨-, found⟩ | ⟨_, _, -, -, found⟩ := ih <;> simp [found, same]
    · obtain ⟨absent, found⟩ | ⟨before, after, rfl, last, found⟩ := ih
      · exact .inl ⟨by simp [absent, same], by simp [found, same]⟩
      · exact .inr ⟨before, after ++ [number], by simp, by simp [last, same], by simp [found, same]⟩

theorem ownersOf_append (count : Nat) (lists : List (List Nat)) (list : List Nat) :
    ownersOf count (lists ++ [list]) = record (ownersOf count lists) list lists.length := by
  rw [ownersOf, List.zipIdx_append, List.foldl_append, Nat.zero_add]
  rfl

theorem size_record (owners : Array (Nat × Nat)) (list : List Nat) (index : Nat) :
    (record owners list index).size = owners.size := by
  induction list using List.reverseRecOn with
  | nil => rfl
  | append_singleton list number ih =>
    rw [record_append, Source.modifyRow]
    split
    · exact ih
    · rw [Array.size_modify, ih]

theorem size_ownersOf (count : Nat) (lists : List (List Nat)) :
    (ownersOf count lists).size = count := by
  induction lists using List.reverseRecOn with
  | nil => simp [ownersOf]
  | append_singleton lists list ih => rw [ownersOf_append, size_record, ih]

/-- A row has no owner if no type lists it, and else the last type that does, with the last place
in its list. -/
theorem ownersOf_spec {count row : Nat} (inside : row < count) (lists : List (List Nat)) :
    (∀ list ∈ lists, row + 1 ∉ list) ∧ (ownersOf count lists)[row]? = some unowned ∨
      ∃ earlier before after later, lists = earlier ++ (before ++ (row + 1) :: after) :: later ∧
        row + 1 ∉ after ∧ (∀ list ∈ later, row + 1 ∉ list) ∧
        (ownersOf count lists)[row]? = some (earlier.length, before.length) := by
  induction lists using List.reverseRecOn with
  | nil => simp [ownersOf, inside]
  | append_singleton lists list ih =>
    rw [ownersOf_append]
    obtain ⟨absent, found⟩ | ⟨earlier, before, after, later, rfl, last, none, found⟩ := ih
    · obtain ⟨missing, kept⟩ | ⟨before, after, rfl, last, noted⟩ :=
        record_spec found list lists.length
      · left
        rw [List.forall_mem_append, List.forall_mem_singleton]
        exact ⟨⟨absent, missing⟩, kept⟩
      · exact .inr ⟨lists, before, after, [], rfl, last, by simp, noted⟩
    · right
      obtain ⟨missing, kept⟩ | ⟨newBefore, newAfter, rfl, newLast, noted⟩ := record_spec found list
        (earlier ++ (before ++ (row + 1) :: after) :: later).length
      · refine ⟨earlier, before, after, later ++ [list], by simp, last, ?_, kept⟩
        rw [List.forall_mem_append, List.forall_mem_singleton]
        exact ⟨none, missing⟩
      · exact ⟨_, newBefore, newAfter, [], rfl, newLast, by simp, noted⟩

/-- A lookup gives only members of types, each with its token and a type that lists it, and gives
every member that a type lists. If no other type lists the member, this type is its owner. -/
structure FindsMembers {α : Type} (module : Module) (members : TypeDefinition → List α)
    (tokenOf : α → Token) (lookup : Token → Option (TypeDefinition × α)) : Prop where
  sound : ∀ token definition member, lookup token = some (definition, member) →
    tokenOf member = token ∧ definition ∈ module.types ∧ member ∈ members definition
  complete : ∀ definition ∈ module.types, ∀ member ∈ members definition,
    ∃ owner, lookup (tokenOf member) = some (owner, member)
  sole : ∀ definition ∈ module.types, ∀ member ∈ members definition,
    (∀ other ∈ module.types, member ∈ members other → other = definition) →
      lookup (tokenOf member) = some (definition, member)

/-- The owner of a member lists it, so it is the only type that does. -/
theorem findsMembers_of_complete {α : Type} {module : Module} {members : TypeDefinition → List α}
    {tokenOf : α → Token} {lookup : Token → Option (TypeDefinition × α)}
    (sound : ∀ token definition member, lookup token = some (definition, member) →
      tokenOf member = token ∧ definition ∈ module.types ∧ member ∈ members definition)
    (complete : ∀ definition ∈ module.types, ∀ member ∈ members definition,
      ∃ owner, lookup (tokenOf member) = some (owner, member)) :
    FindsMembers module members tokenOf lookup := by
  refine ⟨sound, complete, ?_⟩
  intro definition declared member listed alone
  obtain ⟨owner, found⟩ := complete definition declared member listed
  obtain ⟨-, ownerDeclared, ownerLists⟩ := sound _ owner member found
  rw [found, alone owner ownerDeclared ownerLists]

/-! The search finds the members of the last list with a row. -/

/-- The types of a module with the rows in their lists. Each member is made from its row. -/
structure Lists {α : Type} (module : Module) (table : TableId) (members : TypeDefinition → List α)
    (tokenOf : α → Token) (count : Nat) (make : Nat → Except Fault α) (lists : List (List Nat)) :
    Prop where
  made : List.Forall₂ (fun definition list => list.mapM make = .ok (members definition))
    module.types.toList lists
  numbered : ∀ number member, make number = .ok member →
    tokenOf member = Token.ofRow table number ∧ 0 < number ∧ number ≤ count
  few : count < 0x1000000
  small : module.types.size < 0x1000000

theorem exists_of_forall₂ {α β : Type} {related : α → β → Prop} {entries : List α}
    {results : List β} (each : List.Forall₂ related entries results) :
    ∀ result ∈ results, ∃ entry ∈ entries, related entry result := by
  induction each with
  | nil => exact fun _ member => absurd member List.not_mem_nil
  | cons head _ ih =>
    rw [List.forall_mem_cons]
    refine ⟨⟨_, List.mem_cons_self, head⟩, fun result member => ?_⟩
    obtain ⟨entry, listed, relates⟩ := ih result member
    exact ⟨entry, List.mem_cons_of_mem _ listed, relates⟩

section

variable {α : Type} {make : Nat → Except Fault α} {found : List α}

/-- The member of a row in a list is at the place of the row. -/
theorem split_of_mapM {before after : List Nat} {number : Nat}
    (made : (before ++ number :: after).mapM make = .ok found) :
    ∃ first member rest, found = first ++ member :: rest ∧ first.length = before.length ∧
      make number = .ok member ∧ after.mapM make = .ok rest := by
  rw [List.mapM_append] at made
  obtain ⟨first, firstMade, made⟩ := Outcome.of_bind_eq_ok made
  obtain ⟨others, later, made⟩ := Outcome.of_bind_eq_ok made
  rw [List.mapM_cons] at later
  obtain ⟨member, memberMade, later⟩ := Outcome.of_bind_eq_ok later
  obtain ⟨rest, restMade, later⟩ := Outcome.of_bind_eq_ok later
  cases later
  cases made
  have length := (Outcome.forall₂_of_mapM_eq_ok firstMade).length_eq
  exact ⟨first, member, rest, rfl, length.symm, memberMade, restMade⟩

end

namespace Lists

variable {α : Type} {module : Module} {table : TableId} {members : TypeDefinition → List α}
  {tokenOf : α → Token} {count : Nat} {make : Nat → Except Fault α} {lists : List (List Nat)}
  (has : Lists module table members tokenOf count make lists)

include has

section

variable {list : List Nat} {found : List α} {number : Nat} (fits : number < 0x1000000)

include fits

theorem token_ne (made : list.mapM make = .ok found) (absent : number ∉ list) :
    ∀ member ∈ found, tokenOf member ≠ Token.ofRow table number := by
  intro member listed same
  obtain ⟨other, otherListed, otherMade⟩ :=
    exists_of_forall₂ (Outcome.forall₂_of_mapM_eq_ok made) member listed
  obtain ⟨token, -, inside⟩ := has.numbered other member otherMade
  rw [token, Token.ofRow_inj (Nat.lt_of_le_of_lt inside has.few) fits] at same
  exact absent (same ▸ otherListed)

/-- A member that was not made is not found. -/
theorem find?_of_not_mem (made : list.mapM make = .ok found) (absent : number ∉ list) :
    found.reverse.find? (fun member => tokenOf member == Token.ofRow table number) = none := by
  rw [List.find?_eq_none]
  intro member listed
  rw [beq_iff_eq]
  exact has.token_ne fits made absent member (List.mem_reverse.mp listed)

theorem findSome?_of_not_mem {types : List TypeDefinition} {rest : List (List Nat)}
    (made : List.Forall₂ (fun definition list => list.mapM make = .ok (members definition))
      types rest) (absent : ∀ list ∈ rest, number ∉ list) :
    types.reverse.findSome? (fun definition => ((members definition).reverse.find? fun member =>
      tokenOf member == Token.ofRow table number).map (definition, ·)) = none := by
  rw [List.findSome?_eq_none_iff]
  intro definition listed
  obtain ⟨list, listMember, built⟩ :=
    exists_of_forall₂ made.flip definition (List.mem_reverse.mp listed)
  rw [has.find?_of_not_mem fits built (absent list listMember)]
  rfl

end

theorem le_of_mem {list : List Nat} {number : Nat} (member : list ∈ lists)
    (listed : number ∈ list) : number ≤ count := by
  obtain ⟨definition, -, built⟩ := exists_of_forall₂ has.made list member
  obtain ⟨result, -, made⟩ :=
    exists_of_forall₂ (Outcome.forall₂_of_mapM_eq_ok built).flip number listed
  exact (has.numbered number result made).2.2

/-- A row that no type lists is not found. -/
theorem member?_of_not_mem {number : Nat} (fits : number < 0x1000000)
    (absent : ∀ list ∈ lists, number ∉ list) :
    module.member? members tokenOf (Token.ofRow table number) = none :=
  has.findSome?_of_not_mem fits has.made absent

/-- A row is found at its last place in the last list that has it. -/
theorem member?_of_last {number : Nat} (fits : number < 0x1000000) {earlier later : List (List Nat)}
    {before after : List Nat} (whole : lists = earlier ++ (before ++ number :: after) :: later)
    (last : number ∉ after) (none : ∀ list ∈ later, number ∉ list) :
    ∃ definition member, make number = .ok member ∧
      module.member? members tokenOf (Token.ofRow table number) = some (definition, member) ∧
      module.types[earlier.length]? = some definition ∧
      (members definition)[before.length]? = some member := by
  have made := has.made
  rw [whole] at made
  have front := List.forall₂_take_append _ _ _ made
  have back := List.forall₂_drop_append _ _ _ made
  obtain ⟨definition, rest, built, others, types⟩ := List.forall₂_cons_right_iff.mp back
  obtain ⟨first, member, following, listed, length, memberMade, followingMade⟩ :=
    split_of_mapM built
  -- The types before and after the one found have the lists before and after the one with the row.
  have split := List.take_append_drop earlier.length module.types.toList
  rw [types] at split
  generalize List.take earlier.length module.types.toList = start at front split
  have token := (has.numbered number member memberMade).1
  have own : (members definition).reverse.find?
      (fun member => tokenOf member == Token.ofRow table number) = some member := by
    rw [listed, List.reverse_append, List.reverse_cons, List.find?_append, List.find?_append,
      has.find?_of_not_mem fits followingMade last]
    simp [token]
  refine ⟨definition, member, memberMade, ?_, ?_, ?_⟩
  · rw [member?, ← split, List.reverse_append, List.reverse_cons, List.findSome?_append,
      List.findSome?_append, has.findSome?_of_not_mem fits others none]
    simp [own]
  · rw [← Array.getElem?_toList, ← split, ← front.length_eq]
    simp
  · rw [listed, ← length]
    simp

/-- The search and the table of owners lead to the same members. -/
theorem member?_eq_owned? (token : Token) :
    (if token.pointsInto table && !token.isNull then module.member? members tokenOf token
      else none) = module.owned? table members (ownersOf count lists) token := by
  rw [owned?]
  split
  · next points =>
    rw [Bool.and_eq_true, Bool.not_eq_true'] at points
    obtain ⟨same, fits⟩ := Token.eq_ofRow points.1
    obtain ⟨row, number⟩ := Nat.exists_eq_succ_of_ne_zero (Token.row_ne_zero points.2)
    rw [number] at same fits
    rw [same, Token.ofRow_row fits, Nat.succ_sub_one]
    by_cases inside : row < count
    · obtain ⟨absent, found⟩ | ⟨earlier, before, after, later, whole, last, none, found⟩ :=
        ownersOf_spec inside lists
      · -- A row without an owner leads to a place that no type has.
        have outside : module.types[unowned.1]? = none := by
          have small := has.small
          rw [Array.getElem?_eq_none_iff, unowned]
          omega
        rw [has.member?_of_not_mem fits absent]
        simp [found, outside]
      · obtain ⟨definition, member, -, searched, typeAt, memberAt⟩ :=
          has.member?_of_last fits whole last none
        simp [searched, found, typeAt, memberAt]
    · have absent : ∀ list ∈ lists, row + 1 ∉ list := by
        intro list member listed
        exact inside (has.le_of_mem member listed)
      have beyond : (ownersOf count lists)[row]? = none := by
        rw [Array.getElem?_eq_none_iff, size_ownersOf]
        exact Nat.le_of_not_lt inside
      rw [has.member?_of_not_mem fits absent, beyond]
      rfl
  · rfl

/-- The owner that is recorded for a member has it, at the recorded place. -/
theorem findsMembers : FindsMembers module members tokenOf fun token =>
    if token.pointsInto table && !token.isNull then module.member? members tokenOf token
    else none := by
  apply findsMembers_of_complete
  · intro token definition member found
    split at found
    · obtain ⟨owner, declared, found⟩ := List.exists_of_findSome?_eq_some found
      obtain ⟨_, searched, same⟩ := Option.map_eq_some_iff.mp found
      cases same
      have listed := List.mem_reverse.mp (List.mem_of_find?_eq_some searched)
      have token := List.find?_some searched
      exact ⟨eq_of_beq token, Array.mem_toList_iff.mp (List.mem_reverse.mp declared), listed⟩
    · cases found
  · intro definition declared member listed
    obtain ⟨list, listMember, built⟩ :=
      exists_of_forall₂ has.made.flip definition (Array.mem_toList_iff.mpr declared)
    obtain ⟨number, numberListed, made⟩ :=
      exists_of_forall₂ (Outcome.forall₂_of_mapM_eq_ok built) member listed
    obtain ⟨token, positive, inside⟩ := has.numbered number member made
    have fits : number < 0x1000000 := Nat.lt_of_le_of_lt inside has.few
    obtain ⟨row, rfl⟩ := Nat.exists_eq_succ_of_ne_zero (Nat.ne_of_gt positive)
    rw [token, Token.ofRow_pointsInto fits, Token.ofRow_isNull fits positive]
    obtain ⟨absent, -⟩ | ⟨earlier, before, after, later, whole, last, none, -⟩ :=
      ownersOf_spec inside lists
    · exact absurd numberListed (absent list listMember)
    · obtain ⟨owner, same, sameMade, found, -⟩ := has.member?_of_last fits whole last none
      rw [Nat.succ_eq_add_one, sameMade] at made
      cases made
      exact ⟨owner, found⟩

end Lists

end ClrDecompiler.Module
