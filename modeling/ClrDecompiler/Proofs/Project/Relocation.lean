/-
This file shows that the files of a project depend on the declarations of the module, and on where
the assemblies that it refers to lie from the project, but not on where all of them lie.
-/

import ClrDecompiler.Command.Run
import ClrDecompiler.Proofs.Path
import ClrDecompiler.Proofs.Source.Declarations
import ClrDecompiler.Proofs.Symbols.Agreement

namespace ClrDecompiler

open Metadata Source Symbols

/-! Modules with the same declarations. -/

/-- The modules differ in nothing that a project shows. Their types can differ in the bodies of
methods and in the addresses of those that have one. -/
structure Module.AgreesWith (first second : Module) : Prop where
  name : first.name = second.name
  fileName : first.fileName = second.fileName
  identity : first.identity = second.identity
  references : first.references = second.references
  framework : first.framework = second.framework
  starts : first.entryPoint.isSome = second.entryPoint.isSome
  types : first.types.map TypeDefinition.withoutCode = second.types.map TypeDefinition.withoutCode
  typeRefs : first.typeRefs = second.typeRefs
  typeSpecs : first.typeSpecs = second.typeSpecs
  fieldConstants : first.fieldConstants = second.fieldConstants

namespace Module.AgreesWith

variable {first second : Module} (agree : first.AgreesWith second)

include agree

theorem declarations : first.declarations = second.declarations := by
  rw [Module.declarations, Module.declarations, agree.name, agree.identity, agree.references,
    agree.framework, agree.types, agree.typeRefs, agree.typeSpecs, agree.fieldConstants]

theorem assemblyName : first.assemblyName = second.assemblyName := by
  rw [Module.assemblyName, Module.assemblyName, agree.identity, agree.name]

end Module.AgreesWith

namespace Project

/-- Source files do not depend on code. -/
theorem sourceFiles_declarations (module : Module) (language : Language) :
    sourceFiles module.declarations language = sourceFiles module language := by
  rw [sourceFiles, sourceFiles, sourcePaths, sourcePaths, renderedTypes_declarations,
    assignPaths_withoutCode, List.mapM_map]
  congr 1
  funext ⟨path, definition⟩
  have same : decompile module.declarations language [definition.withoutCode] =
      decompile module language [definition] :=
    decompile_declarations module language [definition]
  show (decompile module.declarations language [definition.withoutCode] >>= _) = _
  rw [same]
  rfl

/-- The project file is the same for modules that agree. -/
theorem projectText_of_agrees {first second : Module} (agree : first.AgreesWith second)
    (options : Options) : projectText first options = projectText second options := by
  have properties : propertyGroup first options.language =
      propertyGroup second options.language := by
    rw [propertyGroup, propertyGroup, agree.assemblyName, agree.starts, agree.framework]
  rw [projectText, projectText, agree.references, properties]

theorem assemblyInfo_of_agrees {first second : Module} (agree : first.AgreesWith second) :
    assemblyInfo first = assemblyInfo second := by
  unfold assemblyInfo
  rw [agree.identity, agree.fileName]

/-- All files are the same for modules that agree. -/
theorem files_of_agrees {first second : Module} (agree : first.AgreesWith second)
    (options : Options) : files first options = files second options := by
  have sources : sourceFiles first options.language = sourceFiles second options.language := by
    rw [← sourceFiles_declarations first, agree.declarations, sourceFiles_declarations]
  rw [files, files, projectText_of_agrees agree, agree.assemblyName,
    assemblyInfo_of_agrees agree, sources]

/-! Projects in different places. -/

/-- The same options with every path below a directory. -/
def Options.below (options : Options) (root currentDirectory : String) : Options :=
  { options with
    directory := Path.join root options.directory
    currentDirectory
    resolve := fun reference => (options.resolve reference).map (Path.join root) }

/-- No path of the options starts at the root. -/
structure Options.IsRelative (options : Options) : Prop where
  directory : Path.isRooted options.directory = false
  resolve : ∀ reference path, options.resolve reference = some path → Path.isRooted path = false

/-- A reference with the way to its file, if both paths start in the same directory. -/
def nearElement (options : Options) (reference : AssemblyIdentity) (path : String) : Element :=
  let hint := Path.way (Path.steps (Path.segments options.directory))
    (Path.steps (Path.segments path))
  .group "Reference" [("Include", reference.name)] [.leaf "HintPath" hint]

def projectElement (module : Module) (language : Language) (items : List Element) : Element :=
  let groups := if items.isEmpty then [] else [Element.group "ItemGroup" [] items]
  .group "Project" [("Sdk", "Microsoft.NET.Sdk")] (propertyGroup module language :: groups)

section Below

variable {options : Options} (root currentDirectory : String)

/-- The same references are found below a directory, in the same places from there. -/
theorem resolveAll_below (references : List AssemblyIdentity) :
    resolveAll (options.below root currentDirectory) references =
      (resolveAll options references).map (·.map (Prod.map id (Path.join root))) := by
  induction references with
  | nil => rfl
  | cons reference rest ih =>
    rw [resolveAll, resolveAll, ih]
    have below : (options.below root currentDirectory).resolve reference =
        (options.resolve reference).map (Path.join root) := rfl
    cases found : options.resolve reference with
    | some path =>
      simp only [below, found, Option.map_some]
      cases resolveAll options rest <;> rfl
    | none =>
      simp only [below, found, Option.map_none]
      show (if options.requireReferences then _ else _) = _
      split <;> rfl

/-- A file that is found is one that the options give for some reference. -/
theorem resolve_of_mem_resolveAll {references : List AssemblyIdentity}
    {found : List (AssemblyIdentity × String)}
    (resolved : resolveAll options references = .ok found) :
    ∀ item ∈ found, options.resolve item.1 = some item.2 := by
  induction references generalizing found with
  | nil =>
    cases resolved
    exact List.forall_mem_nil _
  | cons reference rest ih =>
    rw [resolveAll] at resolved
    split at resolved
    case h_1 path given =>
      obtain ⟨others, later, resolved⟩ := Outcome.of_bind_eq_ok resolved
      cases resolved
      exact List.forall_mem_cons.mpr ⟨given, ih later⟩
    case h_2 =>
      split at resolved
      · cases resolved
      · exact ih resolved

variable (relative : options.IsRelative) {root}

include relative

/-- The hint is the way from the project to the file, which both lie below the directory. -/
theorem referenceElement_below (present : root ≠ "") (reference : AssemblyIdentity) {path : String}
    (pathRelative : Path.isRooted path = false) :
    referenceElement (options.below root currentDirectory) reference (Path.join root path) =
      nearElement options reference path :=
  congrArg (fun hint => Element.group "Reference" [("Include", reference.name)]
    [.leaf "HintPath" hint])
    (Path.relative_join currentDirectory present relative.directory pathRelative)

theorem referenceElements_below (present : root ≠ "") {references : List AssemblyIdentity}
    {found : List (AssemblyIdentity × String)}
    (resolved : resolveAll options references = .ok found) :
    (found.map (Prod.map id (Path.join root))).map (fun (reference, path) =>
        referenceElement (options.below root currentDirectory) reference path) =
      found.map fun (reference, path) => nearElement options reference path := by
  rw [List.map_map]
  refine List.map_congr_left ?_
  rintro ⟨reference, path⟩ member
  have pathRelative := relative.resolve reference path
    (resolve_of_mem_resolveAll resolved _ member)
  exact referenceElement_below currentDirectory relative present reference pathRelative

/-- The references of a project show only where their files lie from it. -/
theorem projectText_below (module : Module) (present : root ≠ "") :
    projectText module (options.below root currentDirectory) =
      (resolveAll options (module.references.filter (!isFrameworkReference ·))).map fun found =>
        (projectElement module options.language
          (found.map fun (reference, path) => nearElement options reference path)).text := by
  rw [projectText, resolveAll_below]
  cases resolved : resolveAll options (module.references.filter (!isFrameworkReference ·)) with
  | error fault => rfl
  | ok found =>
    show Except.ok _ = Except.ok _
    rw [referenceElements_below currentDirectory relative present resolved]
    rfl

/-- The files do not depend on the directory that the project is below. -/
theorem files_below (module : Module) {other : String} (present : root ≠ "")
    (otherPresent : other ≠ "") (otherCurrent : String) :
    files module (options.below root currentDirectory) =
      files module (options.below other otherCurrent) := by
  rw [files, files, projectText_below currentDirectory relative module present,
    projectText_below otherCurrent relative module otherPresent]
  rfl

end Below

/-! The checksum. -/

def Checksum.addFile (sum : Checksum) (file : File) : Checksum :=
  sum.add file.path (Utf8.encode file.content)

/-- The checksum over the files of a project. -/
def checksum (algorithm : Algorithm) (module : Module) (options : Options) :
    Except Fault Checksum :=
  (files module options).map (·.foldl Checksum.addFile { algorithm })

/-- A command that only asks for the checksum goes through the files without writing any. -/
theorem writeProjectFiles_checksum {m : Type → Type} [Monad m] [LawfulMonad m] [Command.Host m]
    {job : Command.Job} (alone : job.isWholeProject = false) (directory : String)
    (found : List File) (sum : Checksum) :
    (Command.writeProjectFiles job directory none found (some sum) : m _) =
      pure (.ok (some (found.foldl Checksum.addFile sum))) := by
  induction found generalizing sum with
  | nil => rfl
  | cons file rest ih =>
    rw [Command.writeProjectFiles, alone]
    simp only [Command.writeLog, Option.map_some, pure_bind, Bool.false_eq_true, if_false]
    exact ih (sum.addFile file)

/-- Modules that agree have the same project wherever it lies together with the assemblies that they
refer to: the same files or the same fault, and so the same checksum. -/
theorem files_relocated {first second : Module} (agree : first.AgreesWith second)
    {options : Options} (relative : options.IsRelative) {here there : String}
    (present : here ≠ "") (otherPresent : there ≠ "") (current otherCurrent : String) :
    files first (options.below here current) = files second (options.below there otherCurrent) ∧
      ∀ algorithm, checksum algorithm first (options.below here current) =
        checksum algorithm second (options.below there otherCurrent) := by
  have same : files first (options.below here current) =
      files second (options.below there otherCurrent) := by
    rw [files_of_agrees agree, files_below current relative second present otherPresent]
  refine ⟨same, fun algorithm => ?_⟩
  rw [checksum, checksum, same]

/-- A module that refers to another assembly and has a method with a body. -/
def dependentModule : Module :=
  { soleModule with
    references := [⟨"Dep", ⟨1, 0, 0, 0⟩, none, none⟩]
    types := #[⟨⟨0x02000001⟩, 1, "", "C", .classType, none, [], [], [],
      [{ soleMethod with address := 0x2050, body := some ⟨1, #[0x2A], 0, 8, false, false, []⟩ }],
      none, []⟩] }

/-- The same module after it was built again and moved. -/
def rebuiltModule : Module :=
  { dependentModule with
    image := ⟨#[0x4D, 0x5A], 0, 0, ⟨0, 0, []⟩, []⟩
    path := "/b/nested/a"
    mvid := some (Array.replicate 16 1)
    runtimeVersion := "v4.0.30319"
    debugEntries := []
    tableRows := []
    types := #[⟨⟨0x02000001⟩, 1, "", "C", .classType, none, [], [], [],
      [{ soleMethod with address := 0x3000 }], none, []⟩]
    localSignatures := #[none]
    userStrings := #[0] }

/-- A project in a directory next to the assembly that it refers to. -/
def nearbyOptions : Options :=
  { plainOptions with
    directory := "a"
    requireReferences := true
    resolve := fun _ => some "Dep.dll" }

/-- Another address and another body of a method leave the project as it is, and so does another
place. In both places the assembly lies next to the directory of the project. -/
theorem files_relocated_rebuilt : ∃ found,
    files dependentModule (nearbyOptions.below "/a" "/") = .ok found ∧
    files rebuiltModule (nearbyOptions.below "/b/nested" "/home") = .ok found ∧
    projectText dependentModule (nearbyOptions.below "/a" "/") =
      .ok (projectElement dependentModule .latest
        [.group "Reference" [("Include", "Dep")] [.leaf "HintPath" "../Dep.dll"]]).text ∧
    ∀ algorithm, checksum algorithm dependentModule (nearbyOptions.below "/a" "/") =
      checksum algorithm rebuiltModule (nearbyOptions.below "/b/nested" "/home") := by
  have agree : dependentModule.AgreesWith rebuiltModule :=
    ⟨rfl, by decide +kernel, rfl, rfl, rfl, rfl, by
      simp [dependentModule, rebuiltModule, TypeDefinition.withoutCode,
        MethodDefinition.withoutCode], rfl, rfl, rfl⟩
  have relative : nearbyOptions.IsRelative := by
    refine ⟨by decide, ?_⟩
    rintro reference path ⟨⟩
    decide
  obtain ⟨same, sums⟩ := files_relocated agree relative (by decide : "/a" ≠ "")
    (by decide : "/b/nested" ≠ "") "/" "/home"
  have hint : Path.way (Path.steps (Path.segments "a")) (Path.steps (Path.segments "Dep.dll")) =
      "../Dep.dll" := by decide +kernel
  have project := projectText_below "/" relative dependentModule (by decide : "/a" ≠ "")
  refine ⟨_, rfl, same.symm, project.trans ?_, sums⟩
  rw [← hint]
  rfl

end Project

end ClrDecompiler
