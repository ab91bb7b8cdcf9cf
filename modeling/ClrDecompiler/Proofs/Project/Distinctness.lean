/-
This file says when the files of a project lie at different places, on file systems that do
not tell upper and lower case apart.
-/

import ClrDecompiler.Proofs.Project.Containment
import ClrDecompiler.Proofs.Project.FreshPath

namespace ClrDecompiler.Project

open Source Symbols

theorem lower_eq_point_iff (name : String) : Text.lower name = "." ↔ name = "." :=
  Text.lower_eq_iff_of_marks (List.all_iff_forall_prop.mp (by decide)) (by decide +kernel) name

/-- Paths that differ in a lower-case name differ by more than case. -/
theorem lower_eq_iff (first second : String) : Text.lower first = Text.lower second ↔
    (Text.split '/' first).map Text.lower = (Text.split '/' second).map Text.lower := by
  rw [← Text.split_lower, ← Text.split_lower]
  constructor
  · exact congrArg (Text.split '/')
  · intro same
    rw [← Text.intercalate_split '/' (Text.lower first), same, Text.intercalate_split]

/-- The lower-case names on the way to a file. A point leads nowhere. -/
def place (path : String) : List String :=
  (Text.split '/' (Text.lower path)).filter (· ≠ ".")

theorem place_eq (path : String) :
    place path = ((Text.split '/' path).filter (· ≠ ".")).map Text.lower := by
  rw [place, Text.split_lower, List.filter_map]
  congr 1
  apply List.filter_congr
  intro name _
  exact decide_eq_decide.mpr (not_congr (lower_eq_point_iff name))

/-- The place of a path of plain names is the path without capitals. -/
theorem place_of_plain {path : String} (plain : ∀ name ∈ Text.split '/' path, IsPlainName name) :
    place path = (Text.split '/' path).map Text.lower := by
  rw [place_eq, List.filter_eq_self.mpr]
  exact fun name member => decide_eq_true (plain name member).notCurrent

/-- The directory of a type among the places of the project. -/
def placeDirectory (definition : TypeDefinition) : List String :=
  if definition.namespaceName = "" ∨ definition.namespaceName = "." then []
  else [Text.lower (cleanFileName definition.namespaceName)]

/-- A source file is placed in the directory of its namespace. -/
theorem place_candidatePath (definition : TypeDefinition) (attempt : Nat) :
    place (candidatePath (basePath definition) attempt) =
      placeDirectory definition ++ [Text.lower (fileName definition attempt)] := by
  have file : [fileName definition attempt].filter (· ≠ ".") = [fileName definition attempt] :=
    List.filter_eq_self.mpr (List.forall_mem_singleton.mpr
      (decide_eq_true (isPlainName_fileName definition attempt).notCurrent))
  have current : cleanFileName definition.namespaceName = "." ↔ definition.namespaceName = "." :=
    cleanFileName_eq_iff (by decide) (List.all_iff_forall_prop.mp (by decide)) (by decide)
  rw [place_eq, split_candidatePath, List.filter_append, file, List.map_append,
    List.map_singleton, directoryNames, placeDirectory]
  congr 1
  by_cases outside : definition.namespaceName = ""
  · rw [if_pos (String.isEmpty_iff.mpr outside), if_pos (.inl outside)]
    rfl
  · rw [if_neg (mt String.isEmpty_iff.mp outside)]
    by_cases here : definition.namespaceName = "."
    · rw [if_pos (.inr here), here]
      rfl
    · rw [if_neg (not_or.mpr ⟨outside, here⟩), List.filter_eq_self.mpr]
      · rfl
      · exact List.forall_mem_singleton.mpr (decide_eq_true (mt current.mp here))

/-- Two types share a place if one is outside all namespaces and the other is in the namespace
of a point, which is no directory of its own. -/
structure ShareDirectory (first second : TypeDefinition) : Prop where
  outside : first.namespaceName = ""
  here : second.namespaceName = "."

/-- The directory of a type by the kind of its namespace. -/
theorem directory_cases (definition : TypeDefinition) :
    definition.namespaceName = "" ∧ directoryNames definition = [] ∧
        placeDirectory definition = [] ∨
      definition.namespaceName = "." ∧ (directoryNames definition).map Text.lower = ["."] ∧
        placeDirectory definition = [] ∨
      ∃ name, (directoryNames definition).map Text.lower = [name] ∧
        placeDirectory definition = [name] := by
  rw [directoryNames, placeDirectory]
  by_cases outside : definition.namespaceName = ""
  · exact .inl ⟨outside, if_pos (String.isEmpty_iff.mpr outside), if_pos (.inl outside)⟩
  · rw [if_neg (mt String.isEmpty_iff.mp outside)]
    by_cases here : definition.namespaceName = "."
    · refine .inr (.inl ⟨here, ?_, if_pos (.inr here)⟩)
      rw [here]
      decide +kernel
    · exact .inr (.inr ⟨_, rfl, if_neg (not_or.mpr ⟨outside, here⟩)⟩)

/-- Source files at one place have the same path, unless one directory has two names. -/
theorem lower_eq_of_place_eq {first second : TypeDefinition} {attempt other : Nat}
    (same : place (candidatePath (basePath first) attempt) =
      place (candidatePath (basePath second) other))
    (apart : ¬ ShareDirectory first second) (apart' : ¬ ShareDirectory second first) :
    Text.lower (candidatePath (basePath first) attempt) =
      Text.lower (candidatePath (basePath second) other) := by
  rw [place_candidatePath, place_candidatePath] at same
  obtain ⟨directories, files⟩ := List.append_inj' same (by rw [List.length_singleton,
    List.length_singleton])
  rw [lower_eq_iff, split_candidatePath, split_candidatePath, List.map_append, List.map_append,
    List.map_singleton, List.map_singleton, files]
  congr 1
  obtain ⟨outside, named, placed⟩ | ⟨here, named, placed⟩ | ⟨name, named, placed⟩ :=
    directory_cases first <;>
  obtain ⟨outside', named', placed'⟩ | ⟨here', named', placed'⟩ | ⟨name', named', placed'⟩ :=
    directory_cases second <;>
  rw [placed, placed'] at directories
  · rw [named, named']
  · exact absurd ⟨outside, here'⟩ apart
  · cases directories
  · exact absurd ⟨outside', here⟩ apart'
  · rw [named, named']
  · cases directories
  · cases directories
  · cases directories
  · rw [named, named', directories]

/-- The end of a file name is kept where it has no capital letters. -/
theorem getLast?_lower_append (name : String) {ending : String} {last : Char}
    (kept : ∀ before, Text.lowerAfter before ending.toList = ending.toList)
    (closed : ending.toList.getLast? = some last) :
    (Text.lower (name ++ ending)).toList.getLast? = some last := by
  have suffix := Text.lowerAfter_suffix [] name.toList ending.toList
  rw [kept] at suffix
  obtain ⟨front, whole⟩ := suffix
  rw [Text.lower, String.toList_ofList, String.toList_append, ← whole, List.getLast?_append, closed]
  rfl

theorem lower_projectPath_ne (module : Module) (name : String) :
    Text.lower (projectPath module) ≠ Text.lower (name ++ ".cs") := by
  intro same
  have project : (Text.lower (projectPath module)).toList.getLast? = some 'j' :=
    getLast?_lower_append _ (fun _ => rfl) rfl
  have source : (Text.lower (name ++ ".cs")).toList.getLast? = some 's' :=
    getLast?_lower_append _ (fun _ => rfl) rfl
  rw [same, source] at project
  cases project

theorem place_projectPath (module : Module) :
    place (projectPath module) = [Text.lower (projectPath module)] := by
  rw [place_of_plain (plain_projectPath module),
    Text.split_eq_singleton (not_mem_slash (isPlainName_projectPath module).allowed),
    List.map_singleton]

theorem place_descriptionPath : place descriptionPath = ["properties", "assemblyinfo.cs"] := by
  decide +kernel

/-- The project file is at no place of a source file. -/
theorem place_projectPath_ne_candidate (module : Module) (definition : TypeDefinition)
    (attempt : Nat) :
    place (projectPath module) ≠ place (candidatePath (basePath definition) attempt) := by
  rw [place_projectPath, place_candidatePath]
  intro same
  have last := congrArg List.getLast? same
  rw [List.getLast?_concat] at last
  exact lower_projectPath_ne module _ (Option.some_inj.mp last)

/-- The project file is not at the place of the description. -/
theorem place_projectPath_ne_description (module : Module) :
    place (projectPath module) ≠ place descriptionPath := by
  rw [place_projectPath, place_descriptionPath]
  intro same
  cases (List.cons.inj same).2

/-- A source file can only be at the place of the description if its directory counts. -/
theorem place_eq_description_iff (definition : TypeDefinition) (attempt : Nat) :
    place (candidatePath (basePath definition) attempt) = place descriptionPath ↔
      Text.lower (candidatePath (basePath definition) attempt) = Text.lower descriptionPath := by
  constructor
  · intro same
    have parts : (Text.split '/' descriptionPath).map Text.lower = place descriptionPath :=
      (place_of_plain plain_descriptionPath).symm
    rw [lower_eq_iff, parts, ← same, place_candidatePath, split_candidatePath, List.map_append,
      List.map_singleton]
    have length : (placeDirectory definition).length = 1 := by
      rw [place_candidatePath, place_descriptionPath] at same
      have whole := congrArg List.length same
      rw [List.length_append] at whole
      exact Nat.succ_injective whole
    obtain ⟨-, -, placed⟩ | ⟨-, -, placed⟩ | ⟨name, named, placed⟩ := directory_cases definition
    · rw [placed] at length
      cases length
    · rw [placed] at length
      cases length
    · rw [named, placed]
  · exact fun same => congrArg (fun path => (Text.split '/' path).filter (· ≠ ".")) same

/-- The first choice of path of a type is that of the description, up to case. -/
def IsDescription (definition : TypeDefinition) : Prop :=
  Text.lower (candidatePath (basePath definition) 0) = Text.lower descriptionPath

instance (definition : TypeDefinition) : Decidable (IsDescription definition) :=
  inferInstanceAs (Decidable (_ = _))

/-- Numbered paths differ from the path of the description. -/
theorem attempt_eq_zero {base : String} {attempt : Nat}
    (same : Text.lower (candidatePath base attempt) = Text.lower descriptionPath) :
    attempt = 0 := by
  cases attempt with
  | zero => rfl
  | succ attempt =>
    exfalso
    have texts := congrArg String.toList same
    have lowered : (Text.lower descriptionPath).toList =
        "properties/assemblyinfo".toList ++ ".cs".toList := by decide +kernel
    rw [lower_candidatePath_succ, lowered] at texts
    have last := congrArg List.getLast? (List.append_cancel_right texts)
    have letter : "properties/assemblyinfo".toList.getLast? = some 'o' := rfl
    rw [letter] at last
    cases number : (numberText (attempt + 1)).toList.getLast? with
    | none =>
      rw [List.getLast?_eq_none_iff, numberText, Nat.toString_eq_repr, Nat.toList_repr] at number
      exact Nat.toDigits_ne_nil number
    | some digit =>
      rw [List.getLast?_append, number] at last
      cases last
      exact forall_mem_numberText (· ≠ 'o') (by decide) _ 'o' (List.mem_of_getLast? number) rfl

/-- A source file takes the path of the description up to case exactly if that path is the first
choice of a type. -/
theorem description_taken_iff (module : Module) :
    Text.lower descriptionPath ∈ ((sourcePaths module).map fun assigned =>
        Text.lower assigned.1) ↔
      ∃ definition ∈ renderedTypes module, IsDescription definition := by
  constructor
  · intro taken
    obtain ⟨⟨path, definition⟩, member, same⟩ := List.mem_map.mp taken
    obtain ⟨attempt, rfl⟩ := path_of_mem_assignPaths member
    refine ⟨definition, mem_sourcePaths_iff.mp ⟨_, member⟩, ?_⟩
    cases attempt_eq_zero same
    exact same
  · rintro ⟨definition, member, first⟩
    have assigned := first_candidate_assigned [] member
    rw [List.nil_append, first] at assigned
    exact assigned

/-- No two source files differ in capitals only. -/
theorem nodup_sources (module : Module) :
    ((sourcePaths module).map fun assigned => Text.lower assigned.1).Nodup :=
  (assignPaths_fresh [] (renderedTypes module)).1

/-- The source files lie at different places exactly if none is shared between the types outside
all namespaces and those in the namespace of a point. -/
theorem nodup_source_places_iff (module : Module) :
    ((sourcePaths module).map fun assigned => place assigned.1).Nodup ↔
      ∀ first ∈ sourcePaths module, ∀ second ∈ sourcePaths module,
        ShareDirectory first.2 second.2 → place first.1 ≠ place second.1 := by
  constructor
  · intro different first inFirst second inSecond shares same
    have equal := List.inj_on_of_nodup_map different inFirst inSecond same
    have clash := shares.here
    rw [← equal, shares.outside] at clash
    exact absurd clash (by decide)
  · intro apart
    have distinct := nodup_sources module
    refine List.Nodup.map_on (fun first inFirst second inSecond same => ?_)
      (List.Nodup.of_map _ distinct)
    apply List.inj_on_of_nodup_map distinct inFirst inSecond
    obtain ⟨path, definition⟩ := first
    obtain ⟨other, otherDefinition⟩ := second
    obtain ⟨attempt, rfl⟩ := path_of_mem_assignPaths inFirst
    obtain ⟨otherAttempt, rfl⟩ := path_of_mem_assignPaths inSecond
    apply lower_eq_of_place_eq same
    · exact fun shares => apart _ inFirst _ inSecond shares same
    · exact fun shares => apart _ inSecond _ inFirst shares same.symm

/-- The project and the description differ from each other, and the project from all source
files, in what the case and the points of paths leave of them. -/
theorem nodup_views_iff {β : Type} {module : Module} {options : Options} {found : List File}
    (filed : files module options = .ok found) (view : String → β)
    (description : view (projectPath module) ≠ view descriptionPath)
    (sources : ∀ definition attempt,
      view (projectPath module) ≠ view (candidatePath (basePath definition) attempt)) :
    (found.map fun file => view file.path).Nodup ↔
      view descriptionPath ∉ ((sourcePaths module).map fun assigned => view assigned.1) ∧
        ((sourcePaths module).map fun assigned => view assigned.1).Nodup := by
  have views : (found.map fun file => view file.path) = (found.map File.path).map view := by
    rw [List.map_map]
    rfl
  have assigned : ((sourcePaths module).map Prod.fst).map view =
      (sourcePaths module).map fun assigned => view assigned.1 := by
    rw [List.map_map]
    rfl
  rw [views, paths_of_files filed, List.map_cons, List.map_cons, assigned, List.nodup_cons,
    List.nodup_cons, and_iff_right]
  rw [List.mem_cons, not_or]
  refine ⟨description, fun member => ?_⟩
  obtain ⟨⟨path, definition⟩, inside, same⟩ := List.mem_map.mp member
  obtain ⟨attempt, rfl⟩ := path_of_mem_assignPaths inside
  exact sources definition attempt same.symm

theorem lower_projectPath_ne_description (module : Module) :
    Text.lower (projectPath module) ≠ Text.lower descriptionPath :=
  lower_projectPath_ne module "Properties/AssemblyInfo"

theorem not_mem_description_iff (module : Module) :
    Text.lower descriptionPath ∉ ((sourcePaths module).map fun assigned =>
        Text.lower assigned.1) ↔
      ∀ definition ∈ renderedTypes module, ¬ IsDescription definition := by
  rw [description_taken_iff]
  simp only [not_exists, not_and]

/-- The place of the description is taken exactly if its path is, up to case. -/
theorem place_description_iff (module : Module) :
    place descriptionPath ∈ ((sourcePaths module).map fun assigned => place assigned.1) ↔
      Text.lower descriptionPath ∈ ((sourcePaths module).map fun assigned =>
        Text.lower assigned.1) := by
  rw [List.mem_map, List.mem_map]
  apply exists_congr
  rintro ⟨path, definition⟩
  apply and_congr_right
  intro member
  obtain ⟨attempt, rfl⟩ := path_of_mem_assignPaths member
  exact place_eq_description_iff definition attempt

/-- The paths of a project differ by more than case exactly if the first choice of no type is
the path of the description. They also lead to different places exactly if, in addition, no
type in the namespace of a point has the place of a type outside all namespaces. -/
theorem files_apart_iff {module : Module} {options : Options} {found : List File}
    (filed : files module options = .ok found) :
    ((found.map fun file => Text.lower file.path).Nodup ↔
      ∀ definition ∈ renderedTypes module, ¬ IsDescription definition) ∧
    ((found.map fun file => place file.path).Nodup ↔
      (∀ definition ∈ renderedTypes module, ¬ IsDescription definition) ∧
        ∀ first ∈ sourcePaths module, ∀ second ∈ sourcePaths module,
          ShareDirectory first.2 second.2 → place first.1 ≠ place second.1) := by
  constructor
  · rw [nodup_views_iff filed Text.lower (lower_projectPath_ne_description module)
      fun definition attempt => candidatePath_eq _ attempt ▸ lower_projectPath_ne module _,
      not_mem_description_iff, and_iff_left (nodup_sources module)]
  · rw [nodup_views_iff filed place (place_projectPath_ne_description module)
      (place_projectPath_ne_candidate module), place_description_iff, not_mem_description_iff,
      nodup_source_places_iff]

/-- A numbered file and one in a directory of its own lie at places of their own. -/
theorem files_apart_numbered : ∃ found,
    files (Module.ofNames [("", "C"), ("", "c"), ("A", "C")]) plainOptions = .ok found ∧
    found.map File.path = ["a.csproj", "Properties/AssemblyInfo.cs", "C.cs", "c2.cs", "A/C.cs"] ∧
    (found.map fun file => place file.path).Nodup := by
  have sources : (sourcePaths (Module.ofNames [("", "C"), ("", "c"), ("A", "C")])).map Prod.fst =
      ["C.cs", "c2.cs", "A/C.cs"] := by decide +kernel
  have project : projectPath (Module.ofNames [("", "C"), ("", "c"), ("A", "C")]) = "a.csproj" := by
    decide +kernel
  cases filed : files (Module.ofNames [("", "C"), ("", "c"), ("A", "C")]) plainOptions with
  | error fault => cases filed
  | ok found =>
    refine ⟨found, rfl, ?_, (files_apart_iff filed).2.mpr ⟨?_, ?_⟩⟩
    · rw [paths_of_files filed, sources, project]
      rfl
    · decide +kernel
    · have ordinary : ∀ assigned ∈ sourcePaths (Module.ofNames [("", "C"), ("", "c"), ("A", "C")]),
          assigned.2.namespaceName ≠ "." := by decide +kernel
      exact fun _ _ second inside shares => absurd shares.here (ordinary second inside)

/-- A type in the namespace of the description takes its path, and one in the namespace of a
point takes the place of a type outside all namespaces. -/
theorem files_overwrite : ∃ found,
    files (Module.ofNames [("Properties", "AssemblyInfo"), ("", "C"), (".", "C")]) plainOptions =
      .ok found ∧
    found.map File.path = ["a.csproj", "Properties/AssemblyInfo.cs", "Properties/AssemblyInfo.cs",
      "C.cs", "./C.cs"] ∧
    place "C.cs" = place "./C.cs" ∧
    ¬ (found.map File.path).Nodup ∧
    ¬ (found.map fun file => Text.lower file.path).Nodup := by
  have sources : (sourcePaths (Module.ofNames
        [("Properties", "AssemblyInfo"), ("", "C"), (".", "C")])).map Prod.fst =
      ["Properties/AssemblyInfo.cs", "C.cs", "./C.cs"] := by decide +kernel
  have project : projectPath (Module.ofNames
        [("Properties", "AssemblyInfo"), ("", "C"), (".", "C")]) = "a.csproj" := by decide +kernel
  cases filed : files (Module.ofNames [("Properties", "AssemblyInfo"), ("", "C"), (".", "C")])
      plainOptions with
  | error fault => cases filed
  | ok found =>
    have paths := paths_of_files filed
    rw [sources, project] at paths
    have lowered : (found.map fun file => Text.lower file.path) =
        (found.map File.path).map Text.lower := by
      rw [List.map_map]
      rfl
    refine ⟨found, rfl, paths, by decide +kernel, ?_, ?_⟩
    · rw [paths]
      decide +kernel
    · rw [lowered, paths]
      decide +kernel

end ClrDecompiler.Project
