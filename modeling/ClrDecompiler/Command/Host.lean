/-
This file names what the commands need of the machine that they run on: files, variables,
a console and a clock.
-/

import ClrDecompiler.Bytes.Basic
import ClrDecompiler.Fault
import ClrDecompiler.Path

namespace ClrDecompiler.Command

inductive FileKind where
  | file
  | directory
  deriving DecidableEq, Repr

/-- Times are in hundredths of a second since the start of the command. -/
class Host (m : Type → Type) where
  kind? : String → m (Option FileKind)
  read : String → m (Except FileFailure Bytes)
  write : String → Bytes → m (Except FileFailure Unit)
  makeDirectory : String → m (Except FileFailure Unit)
  entries? : String → m (Option (List String))
  currentDirectory : m String
  environment? : String → m (Option String)
  print : String → m Unit
  elapsed : m Nat

variable {m : Type → Type} [Monad m] [Host m]

/-- Actions that can fail run on the same machine. -/
instance {ε : Type} : Host (ExceptT ε m) where
  kind? path := ExceptT.lift (Host.kind? path)
  read path := ExceptT.lift (Host.read path)
  write path data := ExceptT.lift (Host.write path data)
  makeDirectory path := ExceptT.lift (Host.makeDirectory path)
  entries? path := ExceptT.lift (Host.entries? path)
  currentDirectory := ExceptT.lift Host.currentDirectory
  environment? name := ExceptT.lift (Host.environment? name)
  print text := ExceptT.lift (Host.print text)
  elapsed := ExceptT.lift Host.elapsed

def isFile (path : String) : m Bool :=
  return (← Host.kind? path) == some .file

def isDirectory (path : String) : m Bool :=
  return (← Host.kind? path) == some .directory

/-- A directory that is there already need not be made. -/
def toleratePresent (path : String) : Except FileFailure Unit → m (Except FileFailure Unit)
  | .ok () => return .ok ()
  | .error failure => return if ← isDirectory path then .ok () else .error failure

/-- Makes a directory and those around it as far as they are missing. The first argument
bounds their number. -/
def makeDirectoriesWithin : Nat → String → m (Except FileFailure Unit)
  | 0, path => Host.makeDirectory path
  | bound + 1, path => do
    if path.isEmpty then return .ok ()
    match ← Host.makeDirectory path, Path.parent? path with
    | .error .notFound, some parent =>
      match ← makeDirectoriesWithin bound parent with
      | .ok () => toleratePresent path (← Host.makeDirectory path)
      | .error failure => return .error failure
    | outcome, _ => toleratePresent path outcome

def makeDirectories (path : String) : m (Except FileFailure Unit) :=
  makeDirectoriesWithin (Path.components path).length path

end ClrDecompiler.Command
