/-
This file says when the files of a project stay inside its directory.
-/

import ClrDecompiler.Proofs.Module.Resolution
import ClrDecompiler.Proofs.Path
import ClrDecompiler.Proofs.Symbols.Agreement

namespace ClrDecompiler.Project

open Source Symbols

/-- A name of a file or of a directory that stands for nothing else. -/
structure IsPlainName (name : String) : Prop where
  present : name ≠ ""
  notCurrent : name ≠ "."
  notParent : name ≠ ".."
  allowed : ∀ c ∈ name.toList, isForbidden c = false

/-- The way from a directory to a target only goes down. -/
def IsBelow (directory target : String) : Prop :=
  ∃ names, names ≠ [] ∧
    Path.location target = Path.location directory ++ names.map Path.Component.normal

theorem isPlainName_append {name ending : String} (last : Char)
    (closed : ending.toList.getLast? = some last) (notPoint : last ≠ '.')
    (allowed : ∀ c ∈ (name ++ ending).toList, isForbidden c = false) :
    IsPlainName (name ++ ending) where
  present := Path.append_ne_points closed notPoint (by decide)
  notCurrent := Path.append_ne_points closed notPoint (by decide)
  notParent := Path.append_ne_points closed notPoint (by decide)
  allowed := allowed

/-- The names of source files are plain. -/
theorem isPlainName_fileName (definition : TypeDefinition) (attempt : Nat) :
    IsPlainName (fileName definition attempt) :=
  isPlainName_append 's' rfl (by decide) fun _ => isForbidden_of_mem_fileName

theorem isPlainName_projectPath (module : Module) : IsPlainName (projectPath module) := by
  refine isPlainName_append 'j' rfl (by decide) fun c member => ?_
  rw [String.toList_append, List.mem_append] at member
  rcases member with name | ending
  · exact isForbidden_of_mem_cleanFileName name
  · have plain : ∀ c ∈ ".csproj".toList, isForbidden c = false :=
      List.all_iff_forall_prop.mp (by decide)
    exact plain c ending

/-- Points are allowed in names, so that names of points alone are kept. -/
theorem isPlainName_cleanFileName_iff (name : String) :
    IsPlainName (cleanFileName name) ↔ name ≠ "." ∧ name ≠ ".." := by
  have current : cleanFileName name = "." ↔ name = "." :=
    cleanFileName_eq_iff (by decide) (List.all_iff_forall_prop.mp (by decide)) (by decide)
  have parent : cleanFileName name = ".." ↔ name = ".." :=
    cleanFileName_eq_iff (by decide) (List.all_iff_forall_prop.mp (by decide)) (by decide)
  constructor
  · intro plain
    exact ⟨mt current.mpr plain.notCurrent, mt parent.mpr plain.notParent⟩
  · rintro ⟨notCurrent, notParent⟩
    exact ⟨cleanFileName_ne_empty name, mt current.mp notCurrent, mt parent.mp notParent,
      fun _ => isForbidden_of_mem_cleanFileName⟩

theorem steps_of_plain {names : List String} (plain : ∀ name ∈ names, IsPlainName name) :
    Path.steps names = names.map Path.Component.normal := by
  have kept : names.filter (!Path.isVoid ·) = names := by
    rw [List.filter_eq_self]
    intro name member
    have named := plain name member
    rw [Path.isVoid, Bool.not_eq_true', Bool.or_eq_false_iff, beq_eq_false_iff_ne]
    exact ⟨Bool.eq_false_iff.mpr (mt String.isEmpty_iff.mp named.present), named.notCurrent⟩
  rw [Path.steps, kept]
  apply List.map_congr_left
  intro name member
  rw [Path.ofSegment, if_neg (mt beq_iff_eq.mp (plain name member).notParent)]

/-- A file is below the directory exactly if its path has only names. -/
theorem isBelow_targetPath_iff (directory path : String) :
    IsBelow directory (targetPath directory path) ↔
      ∃ names, names ≠ [] ∧ Path.steps (Text.split '/' path) = names.map .normal := by
  have reached : Path.location (targetPath directory path) =
      Path.location directory ++ Path.steps (Text.split '/' path) :=
    Path.location_foldl_join directory fun _ => Text.not_mem_of_mem_split
  rw [IsBelow, reached]
  simp only [List.append_cancel_left_eq]

/-- A path of plain names stays below the directory. -/
theorem isBelow_of_plain {path : String} (plain : ∀ name ∈ Text.split '/' path, IsPlainName name)
    (directory : String) : IsBelow directory (targetPath directory path) := by
  rw [isBelow_targetPath_iff]
  refine ⟨Text.split '/' path, ?_, steps_of_plain plain⟩
  rw [Text.split, Ne, List.map_eq_nil_iff, Text.pieces_eq_splitOnP]
  exact List.splitOnP_ne_nil _ _

theorem plain_projectPath (module : Module) :
    ∀ name ∈ Text.split '/' (projectPath module), IsPlainName name := by
  have named := isPlainName_projectPath module
  rw [Text.split_eq_singleton (not_mem_slash named.allowed), List.forall_mem_singleton]
  exact named

theorem plain_descriptionPath : ∀ name ∈ Text.split '/' descriptionPath, IsPlainName name := by
  have parts : Text.split '/' descriptionPath = ["Properties", "AssemblyInfo.cs"] := by decide
  rw [parts, List.forall_mem_cons, List.forall_mem_singleton]
  constructor
  · exact ⟨by decide, by decide, by decide, List.all_iff_forall_prop.mp (by decide)⟩
  · exact ⟨by decide, by decide, by decide, List.all_iff_forall_prop.mp (by decide)⟩

/-- The file of a type always has a plain name, but its directory is named by the namespace. -/
theorem plain_candidatePath_iff (definition : TypeDefinition) (attempt : Nat) :
    (∀ name ∈ Text.split '/' (candidatePath (basePath definition) attempt), IsPlainName name) ↔
      definition.namespaceName ≠ "." ∧ definition.namespaceName ≠ ".." := by
  rw [split_candidatePath, List.forall_mem_append, List.forall_mem_singleton,
    and_iff_left (isPlainName_fileName definition attempt), directoryNames]
  split
  · next empty =>
    rw [String.isEmpty_iff.mp empty]
    exact iff_of_true (fun _ member => absurd member List.not_mem_nil) (by decide)
  · rw [List.forall_mem_singleton, isPlainName_cleanFileName_iff]

/-- A source file leaves the directory only for the namespace of two points. -/
theorem isBelow_candidatePath_iff (definition : TypeDefinition) (attempt : Nat)
    (directory : String) :
    IsBelow directory (targetPath directory (candidatePath (basePath definition) attempt)) ↔
      definition.namespaceName ≠ ".." := by
  by_cases plain : definition.namespaceName ≠ "." ∧ definition.namespaceName ≠ ".."
  · exact iff_of_true
      (isBelow_of_plain ((plain_candidatePath_iff definition attempt).mpr plain) directory) plain.2
  · have file := steps_of_plain (List.forall_mem_singleton.mpr
      (isPlainName_fileName definition attempt))
    rw [isBelow_targetPath_iff, split_candidatePath, Path.steps_append, file, directoryNames]
    rw [not_and_or, not_ne_iff, not_ne_iff] at plain
    rcases plain with current | parent
    · rw [current]
      exact iff_of_true ⟨[fileName definition attempt], List.cons_ne_nil _ _, rfl⟩ (by decide)
    · rw [parent]
      refine iff_of_false ?_ fun differs => differs rfl
      rintro ⟨names, -, same⟩
      have up : Path.Component.parent ∈ names.map Path.Component.normal := by
        rw [← same]
        exact List.mem_cons_self
      obtain ⟨name, -, same⟩ := List.mem_map.mp up
      cases same

/-- Of the files of a project, only those of types can have paths that depend on the types. -/
theorem forall_files_iff {module : Module} {options : Options} {found : List File}
    (filed : files module options = .ok found) (holds : String → Prop)
    (allows : TypeDefinition → Prop) (project : holds (projectPath module))
    (description : holds descriptionPath)
    (sources : ∀ definition attempt,
      holds (candidatePath (basePath definition) attempt) ↔ allows definition) :
    (∀ file ∈ found, holds file.path) ↔ ∀ definition ∈ renderedTypes module, allows definition := by
  rw [← List.forall_mem_map (f := File.path), paths_of_files filed, List.forall_mem_cons,
    List.forall_mem_cons, List.forall_mem_map]
  constructor
  · rintro ⟨-, -, held⟩ definition member
    obtain ⟨path, named⟩ := mem_sourcePaths_iff.mpr member
    obtain ⟨attempt, rfl⟩ := path_of_mem_assignPaths named
    exact (sources definition attempt).mp (held _ named)
  · refine fun allowed => ⟨project, description, fun ⟨path, definition⟩ named => ?_⟩
    obtain ⟨attempt, rfl⟩ := path_of_mem_assignPaths named
    exact (sources definition attempt).mpr (allowed definition (mem_sourcePaths_iff.mp ⟨_, named⟩))

/-- The paths of a project consist of plain names exactly if no type is in a namespace that is
named like the current or the parent directory. The files lie below every directory that the
project is written to exactly if no type is in a namespace that is named like the parent
directory. -/
theorem files_contained_iff {module : Module} {options : Options} {found : List File}
    (filed : files module options = .ok found) :
    ((∀ file ∈ found, ∀ name ∈ Text.split '/' file.path, IsPlainName name) ↔
      ∀ definition ∈ renderedTypes module,
        definition.namespaceName ≠ "." ∧ definition.namespaceName ≠ "..") ∧
    ∀ directory, (∀ file ∈ found, IsBelow directory (targetPath directory file.path)) ↔
      ∀ definition ∈ renderedTypes module, definition.namespaceName ≠ ".." := by
  constructor
  · exact forall_files_iff filed (fun path => ∀ name ∈ Text.split '/' path, IsPlainName name)
      (fun definition => definition.namespaceName ≠ "." ∧ definition.namespaceName ≠ "..")
      (plain_projectPath module) plain_descriptionPath plain_candidatePath_iff
  · intro directory
    exact forall_files_iff filed (fun path => IsBelow directory (targetPath directory path))
      (fun definition => definition.namespaceName ≠ "..")
      (isBelow_of_plain (plain_projectPath module) directory)
      (isBelow_of_plain plain_descriptionPath directory)
      fun definition attempt => isBelow_candidatePath_iff definition attempt directory

/-- A file in the directory of an ordinary namespace lies below the project. -/
theorem files_contained_ordinary : ∃ found,
    files (Module.ofNames [("A", "C")]) plainOptions = .ok found ∧
    (∀ file ∈ found, ∀ name ∈ Text.split '/' file.path, IsPlainName name) ∧
    ∀ file ∈ found, IsBelow "out" (targetPath "out" file.path) := by
  have ordinary : ∀ definition ∈ renderedTypes (Module.ofNames [("A", "C")]),
      definition.namespaceName ≠ "." ∧ definition.namespaceName ≠ ".." := by decide +kernel
  cases filed : files (Module.ofNames [("A", "C")]) plainOptions with
  | error fault => cases filed
  | ok found =>
    obtain ⟨plain, below⟩ := files_contained_iff filed
    refine ⟨found, rfl, plain.mpr ordinary, (below "out").mpr ?_⟩
    exact fun definition member => (ordinary definition member).2

/-- The file of a type in a namespace of two points is written next to the directory of the
project. -/
theorem parent_namespace_escapes : ∃ found,
    files (Module.ofNames [("..", "C")]) plainOptions = .ok found ∧
    ∃ file ∈ found, Text.split '/' file.path = ["..", "C.cs"] ∧
      targetPath "out" file.path = "out/../C.cs" ∧
      ¬ IsBelow "out" (targetPath "out" file.path) := by
  cases filed : files (Module.ofNames [("..", "C")]) plainOptions with
  | error fault => cases filed
  | ok found =>
    have paths := paths_of_files filed
    have sources : (sourcePaths (Module.ofNames [("..", "C")])).map Prod.fst = ["../C.cs"] := by
      decide +kernel
    have member : "../C.cs" ∈ found.map File.path := by
      rw [paths, sources]
      exact List.mem_cons_of_mem _ (List.mem_cons_of_mem _ List.mem_cons_self)
    obtain ⟨file, inside, path⟩ := List.mem_map.mp member
    refine ⟨found, rfl, file, inside, ?_, ?_, ?_⟩
    · rw [path]
      decide +kernel
    · rw [path]
      decide +kernel
    · rw [path]
      have apart := isBelow_candidatePath_iff (Module.emptyType 0 ".." "C") 0 "out"
      exact fun below => apart.mp below rfl

end ClrDecompiler.Project
