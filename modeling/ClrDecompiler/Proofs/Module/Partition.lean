/-
This file shows that the types of a module share out the members: the runs of rows of all types,
one after the other, are all rows of the table, in its own order or in that of the pointers to it.
-/

import ClrDecompiler.Proofs.Module.TokenLookup

namespace ClrDecompiler.Module

open Metadata Signature

/-- The lists one after the other are the rows in the order, which has every row once. Each row is
in one list only, and there it is once. -/
structure SharesOut (count : Nat) (order : List Nat) (lists : List (List Nat)) : Prop where
  inOrder : lists.flatten = order
  permutes : order.Perm (List.range' 1 count)
  owned : ∀ number, 0 < number → number ≤ count → ∃ earlier list later,
    lists = earlier ++ list :: later ∧ list.count number = 1 ∧
      ∀ other ∈ earlier ++ later, number ∉ other

/-- Lists that follow an arrangement share its members out. -/
theorem sharesOut_of_perm {count : Nat} {order : List Nat} {lists : List (List Nat)}
    (inOrder : lists.flatten = order) (permutes : order.Perm (List.range' 1 count)) :
    SharesOut count order lists := by
  refine ⟨inOrder, permutes, fun number positive inside => ?_⟩
  have once : lists.flatten.count number = 1 := by
    have before : number < 1 + count := by omega
    have listed : number ∈ List.range' 1 count := List.mem_range'_1.mpr ⟨positive, before⟩
    rw [inOrder, permutes.count_eq]
    exact List.count_eq_one_of_mem List.nodup_range' listed
  have present : number ∈ lists.flatten :=
    List.count_pos_iff.mp (Nat.lt_of_lt_of_eq Nat.one_pos once.symm)
  obtain ⟨list, member, listed⟩ := List.mem_flatten.mp present
  obtain ⟨earlier, later, rfl⟩ := List.append_of_mem member
  have here := List.count_pos_iff.mpr listed
  rw [List.flatten_append, List.flatten_cons, List.count_append, List.count_append] at once
  have before : earlier.flatten.count number = 0 := by omega
  have after : later.flatten.count number = 0 := by omega
  refine ⟨earlier, list, later, rfl, by omega, fun other there found => ?_⟩
  rcases List.mem_append.mp there with there | there
  · exact List.count_eq_zero.mp before (List.mem_flatten_of_mem there found)
  · exact List.count_eq_zero.mp after (List.mem_flatten_of_mem there found)

namespace Source

/-! The runs that a list of starts cuts a table into. -/

/-- Each run goes up to the start of the next one, the last one to the end of the table. -/
def runs (count : Nat) : List Nat → List (List Nat)
  | [] => []
  | start :: rest => run start rest.head? count :: runs count rest

/-- The first run starts at the first row, no run starts before the one ahead of it, and none
further on than right behind the last row. -/
structure StartsInOrder (starts : List Nat) (count : Nat) : Prop where
  first : starts.head? = some 1
  ascending : starts.Pairwise (· ≤ ·)
  bounded : ∀ start ∈ starts, start ≤ count + 1

instance (starts : List Nat) (count : Nat) : Decidable (StartsInOrder starts count) :=
  decidable_of_iff (starts.head? = some 1 ∧ starts.Pairwise (· ≤ ·) ∧
      ∀ start ∈ starts, start ≤ count + 1)
    ⟨fun ⟨first, ascending, bounded⟩ => ⟨first, ascending, bounded⟩,
      fun ⟨first, ascending, bounded⟩ => ⟨first, ascending, bounded⟩⟩

theorem run_of_le {start next count : Nat} (positive : 0 < start) (le : start ≤ next)
    (inside : next ≤ count + 1) :
    run start (some next) count = List.range' start (next - start) := by
  have stop : min next (count + 1) = next := Nat.min_eq_left inside
  have begin : min (max start 1) next = start := by omega
  simp only [run, Option.getD_some, stop, begin]

/-- A run without a next one is the run up to a start right behind the table. -/
theorem run_none (start count : Nat) : run start none count = run start (some (count + 1)) count :=
  rfl

/-- Runs that start in order cover all rows from the first start on. -/
theorem flatten_runs {count first : Nat} {rest : List Nat} (positive : 0 < first)
    (ascending : (first :: rest).Pairwise (· ≤ ·))
    (bounded : ∀ start ∈ first :: rest, start ≤ count + 1) :
    (runs count (first :: rest)).flatten = List.range' first (count + 1 - first) := by
  induction rest generalizing first with
  | nil =>
    have inside := bounded first List.mem_cons_self
    rw [runs, runs, List.head?_nil, run_none, run_of_le positive inside (Nat.le_refl _),
      List.flatten_singleton]
  | cons second rest ih =>
    obtain ⟨before, others⟩ := List.pairwise_cons.mp ascending
    rw [List.forall_mem_cons] at bounded
    have le := before second List.mem_cons_self
    have inside := bounded.2 second List.mem_cons_self
    rw [runs, List.head?_cons, run_of_le positive le inside, List.flatten_cons,
      ih (Nat.lt_of_lt_of_le positive le) others bounded.2]
    -- The run of the first start ends where the other runs begin.
    have joint : second = first + 1 * (second - first) := by omega
    have whole : second - first + (count + 1 - second) = count + 1 - first := by omega
    rw [← whole, ← List.range'_append, ← joint]

/-- The runs of starts in order are the whole table. -/
theorem StartsInOrder.flatten {starts : List Nat} {count : Nat}
    (inOrder : StartsInOrder starts count) : (runs count starts).flatten = List.range' 1 count := by
  obtain ⟨first, ascending, bounded⟩ := inOrder
  cases starts with
  | nil => cases first
  | cons start rest =>
    cases first
    exact flatten_runs Nat.one_pos ascending bounded

/-- The run of every row ends at the start in the row that follows. -/
theorem map_zipIdx_run {ρ : Type} (startOf : ρ → Nat) (count : Nat) (rows : List ρ) :
    (rows.zipIdx.map fun (row, index) =>
      run (startOf row) (rows[index + 1]?.map startOf) count) = runs count (rows.map startOf) := by
  have general (before rest : List ρ) : ((rest.zipIdx before.length).map fun (row, index) =>
      run (startOf row) ((before ++ rest)[index + 1]?.map startOf) count) =
        runs count (rest.map startOf) := by
    induction rest generalizing before with
    | nil => rfl
    | cons row rest ih =>
      have later := ih (before ++ [row])
      rw [List.length_append, List.length_singleton, List.append_assoc, List.singleton_append]
        at later
      have next : (before ++ row :: rest)[before.length + 1]? = rest.head? := by
        rw [List.getElem?_append_right (Nat.le_add_right _ _), Nat.add_sub_cancel_left,
          List.getElem?_cons_succ, List.head?_eq_getElem?]
      simp only [List.zipIdx_cons, List.map_cons, runs, later, next, List.head?_map]
  exact general [] rows

/-! Pointers put the rows into another order. -/

/-- The order of the rows: that of the pointers, if there are any. -/
def order (pointers : Array UInt32) (count : Nat) : List Nat :=
  if pointers.isEmpty then List.range' 1 count else pointers.toList.map (·.toNat)

/-- There are no pointers, or they name every row once. -/
def Arranges (pointers : Array UInt32) (count : Nat) : Prop :=
  pointers = #[] ∨ (pointers.toList.map (·.toNat)).Perm (List.range' 1 count)

instance (pointers : Array UInt32) (count : Nat) : Decidable (Arranges pointers count) :=
  inferInstanceAs (Decidable (_ ∨ _))

/-- The number of rows or of pointers to them. -/
def listedCount (pointers : Array UInt32) (count : Nat) : Nat :=
  if pointers.isEmpty then count else pointers.size

theorem map_physical (pointers : Array UInt32) (count : Nat) :
    (List.range' 1 (listedCount pointers count)).map (physical pointers) =
      order pointers count := by
  by_cases absent : pointers.isEmpty = true
  · have same : physical pointers = id := by
      funext logical
      exact if_pos absent
    rw [listedCount, order, if_pos absent, if_pos absent, same, List.map_id]
  · rw [listedCount, order, if_neg absent, if_neg absent]
    apply List.ext_getElem
    · rw [List.length_map, List.length_range', List.length_map, Array.length_toList]
    · intro index inside _
      rw [List.length_map, List.length_range'] at inside
      simp [physical, absent, inside]

namespace Arranges

variable {pointers : Array UInt32} {count : Nat} (arranges : Arranges pointers count)
include arranges

theorem permutes : (order pointers count).Perm (List.range' 1 count) := by
  rcases arranges with rfl | permutes
  · exact .refl _
  · rw [order]
    split
    · exact .refl _
    · exact permutes

theorem listedCount_eq : listedCount pointers count = count := by
  rcases arranges with rfl | permutes
  · rfl
  · have same := permutes.length_eq
    rw [List.length_map, Array.length_toList, List.length_range'] at same
    rw [listedCount, same, ite_self]

/-- Runs in order of rows that are arranged share out the rows. -/
theorem sharesOut {ρ : Type} {rows : List ρ} {startOf : ρ → Nat}
    (inOrder : StartsInOrder (rows.map startOf) count) :
    SharesOut count (order pointers count) (rows.zipIdx.map fun (row, index) =>
      (run (startOf row) (rows[index + 1]?.map startOf) (listedCount pointers count)).map
        (physical pointers)) := by
  apply sharesOut_of_perm _ arranges.permutes
  have lists := congrArg (List.map (List.map (physical pointers)))
    (map_zipIdx_run startOf (listedCount pointers count) rows)
  rw [List.map_map] at lists
  rw [← map_physical]
  refine (congrArg List.flatten lists).trans ?_
  rw [← List.map_flatten, arranges.listedCount_eq, inOrder.flatten]

end Arranges

section

variable {rows : TypeRows}

/-- The fields are shared out among the types. -/
theorem fieldLists_sharesOut (arranges : Arranges rows.fieldPointers rows.fields.size)
    (inOrder : StartsInOrder (rows.types.toList.map (·.fields.toNat)) rows.fields.size) :
    SharesOut rows.fields.size (order rows.fieldPointers rows.fields.size) rows.fieldLists := by
  have shares := arranges.sharesOut inOrder
  simp only [Array.getElem?_toList] at shares
  exact shares

/-- The methods are shared out among the types. -/
theorem methodLists_sharesOut (arranges : Arranges rows.methodPointers rows.methods.size)
    (inOrder : StartsInOrder (rows.types.toList.map (·.methods.toNat)) rows.methods.size) :
    SharesOut rows.methods.size (order rows.methodPointers rows.methods.size) rows.methodLists := by
  have shares := arranges.sharesOut inOrder
  simp only [Array.getElem?_toList] at shares
  exact shares

end

end Source

/-- The members of all types, one after the other, are those of the rows in the order. Each type has
the members of the rows in its list, and the lists share out the rows. -/
structure MembersInOrder {α : Type} (types : List TypeDefinition) (table : TableId)
    (members : TypeDefinition → List α) (tokenOf : α → Token) (make : Nat → Except Fault α)
    (count : Nat) (order : List Nat) : Prop where
  made : order.mapM make = .ok (types.flatMap members)
  tokens : (types.flatMap members).map tokenOf = order.map (Token.ofRow table)
  shared : ∃ lists, SharesOut count order lists ∧
    List.Forall₂ (fun type list => list.mapM make = .ok (members type)) types lists

section

variable {α : Type} {types : List TypeDefinition} {table : TableId}
  {members : TypeDefinition → List α} {tokenOf : α → Token} {make : Nat → Except Fault α}

theorem mapM_flatten {lists : List (List Nat)}
    (each : List.Forall₂ (fun type list => list.mapM make = .ok (members type)) types lists) :
    lists.flatten.mapM make = .ok (types.flatMap members) := by
  induction each with
  | nil => rfl
  | cons head _ ih =>
    rw [List.flatten_cons, List.mapM_append, head, ih]
    rfl

theorem map_token_of_mapM (numbered : ∀ number member, make number = .ok member →
    tokenOf member = Token.ofRow table number) {order : List Nat} {found : List α}
    (made : order.mapM make = .ok found) : found.map tokenOf = order.map (Token.ofRow table) := by
  have each := (Outcome.forall₂_of_mapM_eq_ok made).imp numbered
  rw [← List.forall₂_eq_eq_eq, List.forall₂_map_left_iff, List.forall₂_map_right_iff]
  exact each.flip

/-- Members that are shared out are made once each, in order. -/
theorem SharesOut.membersInOrder {count : Nat} {order : List Nat} {lists : List (List Nat)}
    (shares : SharesOut count order lists) (numbered : ∀ number member, make number = .ok member →
      tokenOf member = Token.ofRow table number)
    (each : List.Forall₂ (fun type list => list.mapM make = .ok (members type)) types lists) :
    MembersInOrder types table members tokenOf make count order := by
  have made := mapM_flatten each
  rw [shares.inOrder] at made
  exact ⟨made, map_token_of_mapM numbered made, lists, shares, each⟩

end

/-- Runs that start in order give every member to one type: the fields and the methods of all types
are those of all rows, in the order of the rows or of the pointers to them. -/
theorem members_of_load {path : String} {image : Image.Assembly} {module : Module}
    {source : Source} {rows : Source.TypeRows} (run : load path image = .ok module)
    (opened : Source.ofImage image = .ok source) (read : source.typeRows = .ok rows)
    (fieldStarts : Source.StartsInOrder (rows.types.toList.map (·.fields.toNat)) rows.fields.size)
    (methodStarts : Source.StartsInOrder (rows.types.toList.map (·.methods.toNat))
      rows.methods.size)
    (fieldPointers : Source.Arranges rows.fieldPointers rows.fields.size)
    (methodPointers : Source.Arranges rows.methodPointers rows.methods.size) :
    MembersInOrder module.types.toList .field (·.fields) FieldDefinition.token
        (source.fieldAt rows) rows.fields.size
        (Source.order rows.fieldPointers rows.fields.size) ∧
      MembersInOrder module.types.toList .methodDef (·.methods) MethodDefinition.token
        (source.methodAt rows) rows.methods.size
        (Source.order rows.methodPointers rows.methods.size) := by
  obtain ⟨other, otherOpened, loaded⟩ := loadedFrom_of_load run
  obtain rfl : other = source := Except.ok.inj (otherOpened.symm.trans opened)
  obtain ⟨otherRows, otherRead, fields, methods⟩ := Source.types_members loaded.types
  obtain rfl : otherRows = rows := Except.ok.inj (otherRead.symm.trans read)
  constructor
  · exact (Source.fieldLists_sharesOut fieldPointers fieldStarts).membersInOrder
      (fun _ _ made => (Source.fieldAt_eq_ok made).1) fields
  · exact (Source.methodLists_sharesOut methodPointers methodStarts).membersInOrder
      (fun _ _ made => (Source.methodAt_eq_ok made).1) methods

/-! A small image: the first of three types has the only method, the second one both fields, which
the pointers put in the opposite order, and the third one nothing. -/

section Sample

def sharedRows : List (TableId × List UInt32) :=
  [(.module, [0, 0, 0, 0, 0]), (.typeDef, [0, 0, 0, 0, 1, 1]), (.typeDef, [0, 0, 0, 0, 1, 2]),
    (.typeDef, [0, 0, 0, 0, 3, 2]), (.fieldPtr, [2]), (.fieldPtr, [1]), (.field, [0, 0, 1]),
    (.field, [0, 0, 1]), (.methodDef, [0, 0, 0, 0, 4, 1])]

def sharedMetadata : Except Fault Bytes := do
  let tables ← TableBuilder.build ⟨sharedRows⟩ #[] #[] pointedSignatures [] 0
  Root.build "v4" [("#~", tables), ("#Blob", pointedSignatures)]

def sharedImage : Bytes :=
  imageOf (sharedMetadata.toOption.getD #[]).toList

/-- The rows of the types are in order, and the pointers arrange the fields. -/
def AreSharedRows (rows : Source.TypeRows) : Prop :=
  rows.fieldPointers = #[2, 1] ∧
    (Source.StartsInOrder (rows.types.toList.map (·.fields.toNat)) rows.fields.size ∧
      Source.StartsInOrder (rows.types.toList.map (·.methods.toNat)) rows.methods.size) ∧
    (Source.Arranges rows.fieldPointers rows.fields.size ∧
      Source.Arranges rows.methodPointers rows.methods.size)

instance (rows : Source.TypeRows) : Decidable (AreSharedRows rows) :=
  inferInstanceAs (Decidable (_ ∧ _))

/-- Loads the image and takes its rows. -/
def loadRows (data : Bytes) : Except Fault Source.TypeRows := do
  let image ← Image.Assembly.read data
  let _ ← load "" image
  (← Source.ofImage image).typeRows

end Sample

theorem members_of_load_shared :
    ∃ image module source rows, Image.Assembly.read sharedImage = .ok image ∧
      load "" image = .ok module ∧ Source.ofImage image = .ok source ∧
      source.typeRows = .ok rows ∧ AreSharedRows rows ∧
      MembersInOrder module.types.toList .field (·.fields) FieldDefinition.token
        (source.fieldAt rows) rows.fields.size
        (Source.order rows.fieldPointers rows.fields.size) ∧
      MembersInOrder module.types.toList .methodDef (·.methods) MethodDefinition.token
        (source.methodAt rows) rows.methods.size
        (Source.order rows.methodPointers rows.methods.size) := by
  have shared : (loadRows sharedImage).toOption.any (AreSharedRows ·) = true := by
    decide +kernel
  cases loaded : loadRows sharedImage with
  | error fault =>
    rw [loaded] at shared
    cases shared
  | ok rows =>
    rw [loaded] at shared
    have holds : AreSharedRows rows := of_decide_eq_true shared
    obtain ⟨image, opened, loaded⟩ := Outcome.of_bind_eq_ok loaded
    obtain ⟨module, run, loaded⟩ := Outcome.of_bind_eq_ok loaded
    obtain ⟨source, found, read⟩ := Outcome.of_bind_eq_ok loaded
    obtain ⟨-, ⟨fields, methods⟩, fieldPointers, methodPointers⟩ := id holds
    exact ⟨image, module, source, rows, opened, run, found, read, holds,
      members_of_load run found read fields methods fieldPointers methodPointers⟩

end ClrDecompiler.Module
