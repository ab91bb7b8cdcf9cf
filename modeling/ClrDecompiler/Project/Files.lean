/-
This file decompiles a module into the files of a project that can be built.
-/

import ClrDecompiler.Project.SourcePath
import ClrDecompiler.Project.Xml

namespace ClrDecompiler.Project

open Metadata Source

structure File where
  path : String
  content : String
  deriving DecidableEq, Repr

/-- The directory that a project is written to, the current directory, and how references
are found. A missing reference can be a fault or left out. -/
structure Options where
  directory : String
  currentDirectory : String
  language : Language
  requireReferences : Bool
  resolve : AssemblyIdentity → Option String

/-- References that every project of the target framework has. -/
def isFrameworkReference (reference : AssemblyIdentity) : Bool :=
  ["mscorlib", "netstandard", "System"].contains reference.name ||
    ["System.", "Microsoft."].any fun start => start.toList.isPrefixOf reference.name.toList

/-- The files of the references, as far as they are found. -/
def resolveAll (options : Options) :
    List AssemblyIdentity → Except Fault (List (AssemblyIdentity × String))
  | [] => .ok []
  | reference :: rest =>
    match options.resolve reference with
    | some path => do return (reference, path) :: (← resolveAll options rest)
    | none =>
      if options.requireReferences then .error (.unresolvedReference reference.text)
      else resolveAll options rest

/-- A reference with the path to its file from the project. -/
def referenceElement (options : Options) (reference : AssemblyIdentity) (path : String) :
    Element :=
  let hint := Path.relative options.currentDirectory options.directory path
  .group "Reference" [("Include", reference.name)] [.leaf "HintPath" hint]

def propertyGroup (module : Module) (language : Language) : Element :=
  .group "PropertyGroup" [] [
    .leaf "AssemblyName" module.assemblyName,
    .leaf "GenerateAssemblyInfo" "False",
    .leaf "OutputType" (if module.entryPoint.isSome then "Exe" else "Library"),
    .leaf "TargetFramework" module.framework.moniker,
    .leaf "LangVersion" language.projectName,
    .leaf "AllowUnsafeBlocks" "True"]

def projectText (module : Module) (options : Options) : Except Fault String := do
  let named := module.references.filter (!isFrameworkReference ·)
  let found ← resolveAll options named
  let items := found.map fun (reference, path) => referenceElement options reference path
  let groups := if items.isEmpty then [] else [Element.group "ItemGroup" [] items]
  return (Element.group "Project" [("Sdk", "Microsoft.NET.Sdk")]
    (propertyGroup module options.language :: groups)).text

def assemblyInfo (module : Module) : String :=
  "using System.Reflection;\n\n" ++ match module.identity with
  | some identity =>
    "[assembly: AssemblyTitle(\"" ++ identity.name ++ "\")]\n" ++
      "[assembly: AssemblyVersion(\"" ++ identity.version.text ++ "\")]\n"
  | none => "// " ++ module.fileName ++ " has no assembly manifest\n"

def sourceFiles (module : Module) (language : Language) : Except Fault (List File) :=
  (sourcePaths module).mapM fun (path, definition) => do
    return ⟨path, (← decompile module language [definition]).text⟩

/-- The project, the description of the assembly and a source file for every type. -/
def files (module : Module) (options : Options) : Except Fault (List File) := do
  let project ← projectText module options
  let sources ← sourceFiles module options.language
  return ⟨cleanFileName module.assemblyName ++ ".csproj", project⟩ ::
    ⟨"Properties/AssemblyInfo.cs", assemblyInfo module⟩ :: sources

/-- The path of a project file below a directory. -/
def targetPath (directory path : String) : String :=
  (Text.split '/' path).foldl Path.join directory

end ClrDecompiler.Project
