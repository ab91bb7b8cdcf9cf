/-
This file shows which of its candidates each source file of a project gets for its path, and that
the search for it ends.
-/

import ClrDecompiler.Proofs.Module.Resolution
import ClrDecompiler.Proofs.Project.FreshPath

namespace ClrDecompiler.Project

open Source Text

/-- A path is the first candidate whose lower-case form is not taken, after some that are. -/
structure IsLeastFree (taken : List String) (base path : String) (failed : Nat) : Prop where
  path_eq : path = candidatePath base failed
  passed : ∀ attempt < failed, lower (candidatePath base attempt) ∈ taken
  free : lower path ∉ taken

/-- A search with any bound that is not too small ends at the first free candidate. -/
theorem IsLeastFree.freePath_eq {taken : List String} {base path : String} {failed : Nat}
    (least : IsLeastFree taken base path failed) {bound : Nat} (enough : failed ≤ bound) :
    freePath taken base bound 0 = path := by
  obtain ⟨tries, few, found, passed, free⟩ := freePath_spec taken base bound 0
  simp only [Nat.zero_add] at found passed free
  have notLess : ¬ tries < failed := by
    intro less
    exact free (by omega) (least.passed tries less)
  have notMore : ¬ failed < tries := by
    intro more
    apply least.free
    rw [least.path_eq]
    exact passed failed more
  have same : tries = failed := by omega
  rw [found, least.path_eq, same]

/-- The path that is chosen is the first free one. -/
theorem isLeastFree_freePath (taken : List String) (base : String) :
    ∃ failed ≤ taken.length,
      IsLeastFree taken base (freePath taken base taken.length 0) failed := by
  obtain ⟨failed, few, path, passed, free⟩ := freePath_first taken base
  exact ⟨failed, few, path, passed, path ▸ free⟩

/-- The lower-case forms of the paths of files. -/
def lowerPaths (files : List (String × TypeDefinition)) : List String :=
  files.map fun file => lower file.1

/-- The path of a file is searched for when the paths of those before it are taken. -/
theorem path_eq_freePath {used : List String} {types : List TypeDefinition} {index : Nat}
    {path : String} {definition : TypeDefinition}
    (listed : (assignPaths used types)[index]? = some (path, definition)) :
    let taken := (lowerPaths ((assignPaths used types).take index)).reverse ++ used
    taken.length = index + used.length ∧
      path = freePath taken (basePath definition) taken.length 0 := by
  induction types generalizing used index with
  | nil => simp [assignPaths] at listed
  | cons first rest ih =>
    rw [assignPaths] at listed ⊢
    cases index with
    | zero =>
      rw [List.getElem?_cons_zero, Option.some_inj, Prod.mk.injEq] at listed
      obtain ⟨rfl, rfl⟩ := listed
      simp [lowerPaths]
    | succ index =>
      have later := ih listed
      simp only [lowerPaths, List.take_succ_cons, List.map_cons, List.reverse_cons,
        List.append_assoc, List.singleton_append, List.length_cons] at later ⊢
      exact ⟨by omega, later.2⟩

/-- The first files of types are those of the first types. -/
theorem take_assignPaths (used : List String) (types : List TypeDefinition) (count : Nat) :
    (assignPaths used types).take count = assignPaths used (types.take count) := by
  induction types generalizing used count with
  | nil => simp [assignPaths]
  | cons definition rest ih =>
    cases count with
    | zero => rfl
    | succ count => simp only [assignPaths, List.take_succ_cons, ih]

/-- Of the types only their namespaces and names matter to the paths. -/
theorem paths_of_basePaths {first second : List TypeDefinition}
    (same : first.map basePath = second.map basePath) (used : List String) :
    (assignPaths used first).map Prod.fst = (assignPaths used second).map Prod.fst := by
  induction first generalizing second used with
  | nil =>
    rw [List.map_nil, eq_comm, List.map_eq_nil_iff] at same
    rw [same]
  | cons definition rest ih =>
    cases second with
    | nil => simp at same
    | cons other others =>
      rw [List.map_cons, List.map_cons, List.cons.injEq] at same
      simp only [assignPaths, List.map_cons, same.1, ih same.2]

/-- Every rendered type has one source file, in the order of the types. Its path is the first of its
candidates that differs by more than case from the paths before it, and at most as many candidates
as there are paths before it fail, whatever bound the search has from there on. So the paths differ
by more than case, and each depends on the types up to its own alone. -/
theorem sourcePaths_least (module : Module) :
    (sourcePaths module).map Prod.snd = renderedTypes module ∧
      (∀ index path definition, (sourcePaths module)[index]? = some (path, definition) →
        let taken := lowerPaths ((sourcePaths module).take index)
        ∃ failed ≤ index, IsLeastFree taken (basePath definition) path failed ∧
          ∀ bound ≥ failed, freePath taken (basePath definition) bound 0 = path) ∧
      (lowerPaths (sourcePaths module)).Nodup ∧
      ∀ other count, ((renderedTypes module).take count).map basePath =
          ((renderedTypes other).take count).map basePath →
        ((sourcePaths module).take count).map Prod.fst =
          ((sourcePaths other).take count).map Prod.fst := by
  refine ⟨assignPaths_types [] _, ?_, (assignPaths_fresh [] _).1, ?_⟩
  · intro index path definition listed taken
    obtain ⟨length, found⟩ := path_eq_freePath listed
    rw [List.append_nil] at length found
    change path = freePath taken.reverse _ taken.reverse.length 0 at found
    obtain ⟨failed, few, least⟩ := isLeastFree_freePath taken.reverse (basePath definition)
    rw [← found] at least
    have ahead : IsLeastFree taken (basePath definition) path failed :=
      ⟨least.path_eq, fun attempt before => List.mem_reverse.mp (least.passed attempt before),
        mt List.mem_reverse.mpr least.free⟩
    exact ⟨failed, few.trans_eq length, ahead, fun bound enough => ahead.freePath_eq enough⟩
  · intro other count same
    rw [sourcePaths, sourcePaths, take_assignPaths, take_assignPaths]
    exact paths_of_basePaths same []

/-- The number of one type can make the first choice of another one, which gets a number too. -/
theorem sourcePaths_least_numbered :
    let boxes := Module.ofNames [("", "Box"), ("", "box"), ("", "Box2")]
    let pair := Module.ofNames [("", "Box"), ("", "box")]
    (∃ definition, (sourcePaths boxes)[2]? = some ("Box22.cs", definition) ∧
      lowerPaths ((sourcePaths boxes).take 2) = ["box.cs", "box2.cs"] ∧
      ∃ failed ≤ 2, IsLeastFree ["box.cs", "box2.cs"] (basePath definition) "Box22.cs" failed) ∧
    ((sourcePaths boxes).take 2).map Prod.fst = ((sourcePaths pair).take 2).map Prod.fst := by
  intro boxes pair
  obtain ⟨-, least, -, early⟩ := sourcePaths_least boxes
  have third : ((sourcePaths boxes)[2]?).map Prod.fst = some "Box22.cs" := by decide +kernel
  have taken : lowerPaths ((sourcePaths boxes).take 2) = ["box.cs", "box2.cs"] := by
    decide +kernel
  have bases : ((renderedTypes boxes).take 2).map basePath =
      ((renderedTypes pair).take 2).map basePath := by decide +kernel
  obtain ⟨⟨path, definition⟩, listed, same⟩ := Option.map_eq_some_iff.mp third
  cases same
  obtain ⟨failed, few, free, -⟩ := least 2 _ definition listed
  exact ⟨⟨definition, listed, taken, failed, few, taken ▸ free⟩, early pair 2 bases⟩

end ClrDecompiler.Project
