/-
This file finds the files of referenced assemblies.
-/

import ClrDecompiler.Command.Host
import ClrDecompiler.Module.Basic

namespace ClrDecompiler.Command

open Metadata

variable {m : Type → Type} [Monad m] [Host m]

/-- The parts of a version number, without a word after a dash. -/
def versionParts? (name : String) : Option (List Nat) :=
  let release := (Text.split '-' name).headD ""
  (Text.split '.' release).mapM (Text.number? UInt32.size)

/-- Installed versions in order, the names of equal ones as well. -/
def comesBefore (first second : List Nat × String) : Bool :=
  decide (first.1 < second.1) || (first.1 == second.1 && decide (first.2 ≤ second.2))

/-- The newest version that begins as wanted, or else the newest of all. -/
def bestVersion? (wanted : List Nat) (names : List String) : Option String :=
  let versions := (names.filterMap fun name => (versionParts? name).map (·, name)).mergeSort
    comesBefore
  let fits := versions.reverse.find? fun version => wanted.isPrefixOf version.1
  (fits <|> versions.getLast?).map (·.2)

/-- The places where runtimes are installed. -/
def runtimeRoots : m (List String) := do
  let chosen ← Host.environment? "DOTNET_ROOT"
  return chosen.toList ++ ["/usr/share/dotnet", "/usr/lib/dotnet", "/usr/local/share/dotnet",
    "C:\\Program Files\\dotnet"]

/-- The libraries of an installed runtime, if there is one at any of the roots. -/
def runtimeIn (wanted : List Nat) : List String → m (Option String)
  | [] => return none
  | root :: rest => do
    let shared := Path.join (Path.join root "shared") "Microsoft.NETCore.App"
    match ((← Host.entries? shared).bind (bestVersion? wanted)) with
    | some name => return some (Path.join shared name)
    | none => runtimeIn wanted rest

/-- Only the portable runtime has its libraries in a directory of its own. -/
def runtimeDirectory (framework : TargetFramework) : m (Option String) := do
  if framework.family != .netCore then return none
  runtimeIn (framework.version.take 2) (← runtimeRoots)

/-- The directory of the module, those that the user names, and that of the runtime. -/
def searchDirectories (module : Module) (referencePaths : List String) : m (List String) := do
  let own := (Path.parent? module.path).toList.map fun parent =>
    if parent.isEmpty then "." else parent
  return own ++ referencePaths ++ (← runtimeDirectory module.framework).toList

def firstFile : List String → m (Option String)
  | [] => return none
  | path :: rest => do
    if ← isFile path then return some path else firstFile rest

/-- An assembly is a library or a program with its name. -/
def locate (directories : List String) (name : String) : m (Option String) :=
  firstFile (directories.flatMap fun directory =>
    [".dll", ".exe"].map fun suffix => Path.join directory (name ++ suffix))

/-- The files of the references of a module by their names. -/
def locateReferences (module : Module) (referencePaths : List String) :
    m (List (String × Option String)) := do
  let directories ← searchDirectories module referencePaths
  module.references.mapM fun reference => do
    return (reference.name, ← locate directories reference.name)

end ClrDecompiler.Command
