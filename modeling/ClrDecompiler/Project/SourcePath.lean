/-
This file chooses the paths of the source files of a project.
-/

import ClrDecompiler.Source.Type
import ClrDecompiler.Text.Lowercase

namespace ClrDecompiler.Project

open Source

/-- The characters that some file systems do not allow in file names. -/
def isForbidden (c : Char) : Bool :=
  "<>:\"/\\|?*".toList.contains c || isControl c

/-- A name without forbidden characters that is not empty. -/
def cleanFileName (name : String) : String :=
  if name.isEmpty then "_" else Text.replace isForbidden '_' name

/-- Types lie in a directory for their namespace. -/
def basePath (definition : TypeDefinition) : String :=
  let stem := cleanFileName definition.displayName
  if definition.namespaceName.isEmpty then stem
  else cleanFileName definition.namespaceName ++ "/" ++ stem

/-- The paths that a type can get, best first. All but the first are numbered from two. -/
def candidatePath (base : String) : Nat → String
  | 0 => base ++ ".cs"
  | attempt + 1 => base ++ toString (attempt + 2) ++ ".cs"

/-- The first path from an attempt on whose lower-case form is not used yet. The second
argument bounds the number of attempts. -/
def freePath (used : List String) (base : String) : Nat → Nat → String
  | 0, attempt => candidatePath base attempt
  | bound + 1, attempt =>
    let path := candidatePath base attempt
    if used.contains (Text.lower path) then freePath used base bound (attempt + 1) else path

/-- The paths of types in their order. As many attempts as there are used paths fail at
most, since numbered paths differ from each other. -/
def assignPaths (used : List String) : List TypeDefinition → List (String × TypeDefinition)
  | [] => []
  | definition :: rest =>
    let path := freePath used (basePath definition) used.length 0
    (path, definition) :: assignPaths (Text.lower path :: used) rest

def sourcePaths (module : Module) : List (String × TypeDefinition) :=
  assignPaths [] (renderedTypes module)

end ClrDecompiler.Project
