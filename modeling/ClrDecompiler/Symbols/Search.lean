/-
This file looks for the symbols of a module and checks that they belong to it.
-/

import ClrDecompiler.Module.Basic
import ClrDecompiler.Symbols.DebugInfo

namespace ClrDecompiler.Symbols

/-- The name of a file whose directories may be separated in either way. -/
def recordedFileName (path : String) : String :=
  ((Text.pieces (fun c => c == '\\' || c == '/') path.toList).getLast?.map String.ofList).getD path

/-- Paths are the same if their components are. -/
def isSamePath (first second : String) : Bool :=
  Path.components first == Path.components second

/-- Removes paths that are the same as the path before them. -/
def withoutRepeats : List String → List String
  | [] => []
  | first :: rest =>
    match withoutRepeats rest with
    | [] => [first]
    | second :: others =>
      if isSamePath first second then first :: others else first :: second :: others

/-- The path that the module records, a file of its name beside the module, and a file
named like the module. -/
def candidates (module : Module) : List String :=
  let directory := (Path.parent? module.path).getD ""
  let recorded := ((module.codeView?.bind (·.codeView)).map (·.path)).toList.filter (!·.isEmpty)
  withoutRepeats (
    recorded.flatMap (fun path => [path, Path.join directory (recordedFileName path)]) ++
    (Path.fileStem? module.path).toList.map fun stem => Path.join directory (stem ++ ".pdb"))

/-- Portable symbols begin with the identifier that the module records. -/
def attach (module : Module) (path : String) (data : Bytes) : Except Fault DebugInfo := do
  let symbols ← DebugInfo.ofBytes path data
  match module.codeView?.bind (·.codeView), symbols.id with
  | some codeView, some id =>
    if id.extract 0 16 = codeView.guid then return symbols
    else throw (.invalidSymbols path
      ("PDB id does not match the CodeView entry of " ++ module.name))
  | _, _ => return symbols

end ClrDecompiler.Symbols
