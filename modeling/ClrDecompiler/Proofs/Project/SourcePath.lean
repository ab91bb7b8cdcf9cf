/-
This file describes the paths of the files of a project: the names that they consist of and
where the names come from.
-/

import ClrDecompiler.Project.Files
import ClrDecompiler.Proofs.Outcome
import ClrDecompiler.Proofs.Source.Decompile
import ClrDecompiler.Proofs.Text.Pieces
import Mathlib.Data.Bool.AllAny

namespace ClrDecompiler.Project

open Source

theorem isForbidden_underscore : isForbidden '_' = false := by decide

theorem isForbidden_slash : isForbidden '/' = true := by decide

theorem toList_cleanFileName {name : String} (present : name ≠ "") :
    (cleanFileName name).toList = name.toList.map fun c => if isForbidden c then '_' else c := by
  rw [cleanFileName, if_neg (mt String.isEmpty_iff.mp present), Text.replace, String.toList_ofList]

theorem cleanFileName_ne_empty (name : String) : cleanFileName name ≠ "" := by
  by_cases present : name = ""
  · subst present
    decide
  · intro empty
    have kept := toList_cleanFileName present
    rw [empty] at kept
    exact present (String.toList_eq_nil_iff.mp (List.map_eq_nil_iff.mp kept.symm))

theorem isForbidden_of_mem_cleanFileName {name : String} {c : Char}
    (member : c ∈ (cleanFileName name).toList) : isForbidden c = false := by
  by_cases present : name = ""
  · subst present
    cases List.mem_singleton.mp member
    exact isForbidden_underscore
  · rw [toList_cleanFileName present] at member
    obtain ⟨d, -, rfl⟩ := List.mem_map.mp member
    split
    · exact isForbidden_underscore
    · next allowed => exact Bool.eq_false_iff.mpr allowed

/-- A name that is allowed is kept. -/
theorem cleanFileName_eq_self {name : String} (present : name ≠ "")
    (allowed : ∀ c ∈ name.toList, isForbidden c = false) : cleanFileName name = name := by
  apply String.toList_injective
  rw [toList_cleanFileName present, List.map_congr_left (g := id), List.map_id]
  intro c member
  rw [allowed c member]
  rfl

/-- A cleaned name without the replacement is the name itself. -/
theorem cleanFileName_eq_iff {name text : String} (present : text ≠ "")
    (allowed : ∀ c ∈ text.toList, isForbidden c = false) (unchanged : '_' ∉ text.toList) :
    cleanFileName name = text ↔ name = text := by
  constructor
  · rintro rfl
    have filled : name ≠ "" := by
      rintro rfl
      exact unchanged (List.mem_singleton_self _)
    refine (cleanFileName_eq_self filled fun c member => ?_).symm
    by_contra forbidden
    rw [toList_cleanFileName filled, List.mem_map] at unchanged
    exact unchanged ⟨c, member, if_pos (Bool.of_not_eq_false forbidden)⟩
  · rintro rfl
    exact cleanFileName_eq_self present allowed

/-- What tells the paths of an attempt from those of the others. -/
def numberText : Nat → String
  | 0 => ""
  | attempt + 1 => toString (attempt + 2)

theorem candidatePath_eq (base : String) (attempt : Nat) :
    candidatePath base attempt = base ++ numberText attempt ++ ".cs" := by
  cases attempt with
  | zero => rw [candidatePath, numberText, String.append_empty]
  | succ attempt => rfl

/-- The directory of a type below the project, if it is in a namespace. -/
def directoryNames (definition : TypeDefinition) : List String :=
  if definition.namespaceName.isEmpty then [] else [cleanFileName definition.namespaceName]

def fileName (definition : TypeDefinition) (attempt : Nat) : String :=
  cleanFileName definition.displayName ++ numberText attempt ++ ".cs"

/-- A property of the ten digits holds of the characters of every number. -/
theorem forall_mem_numberText (holds : Char → Prop)
    (digits : ∀ code < 10, holds (Char.ofNat (48 + code))) (attempt : Nat) :
    ∀ c ∈ (numberText attempt).toList, holds c := by
  cases attempt with
  | zero => exact fun _ member => absurd member List.not_mem_nil
  | succ attempt =>
    intro c member
    rw [numberText, Nat.toString_eq_repr, Nat.toList_repr] at member
    have digit := Nat.isDigit_of_mem_toDigits (by decide) (by decide) member
    obtain ⟨above, below⟩ : 48 ≤ c.toNat ∧ c.toNat ≤ 57 := by
      simpa [Char.isDigit, UInt32.le_iff_toNat_le] using digit
    have same := digits (c.toNat - 48) (by omega)
    rw [Nat.add_sub_cancel' above, Char.ofNat_toNat] at same
    exact same

/-- A file name has only allowed characters. -/
theorem isForbidden_of_mem_fileName {definition : TypeDefinition} {attempt : Nat} {c : Char}
    (member : c ∈ (fileName definition attempt).toList) : isForbidden c = false := by
  rw [fileName, String.toList_append, String.toList_append, List.mem_append,
    List.mem_append] at member
  rcases member with (stem | number) | ending
  · exact isForbidden_of_mem_cleanFileName stem
  · exact forall_mem_numberText (isForbidden · = false) (by decide) attempt c number
  · have plain : ∀ c ∈ ".cs".toList, isForbidden c = false :=
      List.all_iff_forall_prop.mp (by decide)
    exact plain c ending

theorem not_mem_slash {name : String} (allowed : ∀ c ∈ name.toList, isForbidden c = false) :
    '/' ∉ name.toList := fun member => by
  have refused := allowed '/' member
  rw [isForbidden_slash] at refused
  cases refused

/-- The path of a type leads through the directory of its namespace to its file. -/
theorem split_candidatePath (definition : TypeDefinition) (attempt : Nat) :
    Text.split '/' (candidatePath (basePath definition) attempt) =
      directoryNames definition ++ [fileName definition attempt] := by
  have file : Text.split '/' (fileName definition attempt) = [fileName definition attempt] :=
    Text.split_eq_singleton (not_mem_slash fun _ => isForbidden_of_mem_fileName)
  rw [candidatePath_eq, basePath, directoryNames]
  split
  · exact file
  · have directory : Text.split '/' (cleanFileName definition.namespaceName) =
        [cleanFileName definition.namespaceName] :=
      Text.split_eq_singleton (not_mem_slash fun _ => isForbidden_of_mem_cleanFileName)
    rw [← file, ← directory, ← Text.split_append, fileName]
    simp only [String.append_assoc]
    rfl

theorem freePath_eq (used : List String) (base : String) (bound attempt : Nat) :
    ∃ later, freePath used base bound attempt = candidatePath base later := by
  induction bound generalizing attempt with
  | zero => exact ⟨attempt, rfl⟩
  | succ bound ih =>
    rw [freePath]
    split
    · exact ih (attempt + 1)
    · exact ⟨attempt, rfl⟩

theorem assignPaths_types (used : List String) (types : List TypeDefinition) :
    (assignPaths used types).map Prod.snd = types := by
  induction types generalizing used with
  | nil => rfl
  | cons definition rest ih => rw [assignPaths, List.map_cons, ih]

/-- Every path is a candidate for its type. -/
theorem path_of_mem_assignPaths {used : List String} {types : List TypeDefinition} {path : String}
    {definition : TypeDefinition} (member : (path, definition) ∈ assignPaths used types) :
    ∃ attempt, path = candidatePath (basePath definition) attempt := by
  induction types generalizing used with
  | nil => cases member
  | cons first rest ih =>
    rcases List.mem_cons.mp member with same | later
    · cases same
      exact freePath_eq used (basePath definition) used.length 0
    · exact ih later

/-- Exactly the types that are rendered have paths. -/
theorem mem_sourcePaths_iff {module : Module} {definition : TypeDefinition} :
    (∃ path, (path, definition) ∈ sourcePaths module) ↔ definition ∈ renderedTypes module := by
  rw [← assignPaths_types [] (renderedTypes module), List.mem_map]
  exact ⟨fun ⟨path, member⟩ => ⟨(path, definition), member, rfl⟩,
    fun ⟨(path, _), member, same⟩ => ⟨path, same ▸ member⟩⟩

/-- The path of the project itself. -/
def projectPath (module : Module) : String :=
  cleanFileName module.assemblyName ++ ".csproj"

/-- The path of the description of the assembly. -/
def descriptionPath : String :=
  "Properties/AssemblyInfo.cs"

/-- The source files hold the documents of the types under their paths. -/
theorem sourceFiles_eq {module : Module} {language : Language} {sources : List File}
    (run : sourceFiles module language = .ok sources) :
    sources = (sourcePaths module).map fun (path, definition) =>
      ⟨path, (ofTypes module language [definition]).text⟩ := by
  have each := Outcome.forall₂_of_mapM_eq_ok run
  rw [← List.forall₂_eq_eq_eq, List.forall₂_map_right_iff]
  refine each.flip.imp ?_
  rintro source ⟨path, definition⟩ made
  obtain ⟨document, decompiled, made⟩ := Outcome.of_bind_eq_ok made
  cases made
  rw [← (decompile_eq_ok_iff.mp decompiled).2]

/-- The project and the description stand before the source files. -/
theorem files_eq_ok {module : Module} {options : Options} {found : List File}
    (filed : files module options = .ok found) :
    ∃ project, projectText module options = .ok project ∧
      found = ⟨projectPath module, project⟩ :: ⟨descriptionPath, assemblyInfo module⟩ ::
        (sourcePaths module).map fun (path, definition) =>
          ⟨path, (ofTypes module options.language [definition]).text⟩ := by
  obtain ⟨project, described, filed⟩ := Outcome.of_bind_eq_ok filed
  obtain ⟨sources, run, filed⟩ := Outcome.of_bind_eq_ok filed
  cases filed
  exact ⟨project, described, sourceFiles_eq run ▸ rfl⟩

/-- The files of a project are the project file, the description and the source files. -/
theorem paths_of_files {module : Module} {options : Options} {found : List File}
    (filed : files module options = .ok found) :
    found.map File.path =
      projectPath module :: descriptionPath :: (sourcePaths module).map Prod.fst := by
  obtain ⟨project, -, rfl⟩ := files_eq_ok filed
  rw [List.map_cons, List.map_cons, List.map_map]
  rfl

end ClrDecompiler.Project
