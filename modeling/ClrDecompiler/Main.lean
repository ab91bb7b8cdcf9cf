/-
This file connects the commands to the files, the variables, the console and the clock of
the real machine.
-/

import ClrDecompiler.Command.Run

namespace ClrDecompiler.Command

/-- The failures that have a name of their own are told apart by their codes. -/
def failureOf : IO.Error → FileFailure
  | .noFileOrDirectory _ _ _ => .notFound
  | .noSuchThing _ _ _ => .notFound
  | .alreadyExists _ _ _ => .exists
  | .inappropriateType _ code details =>
    if code = 20 then .notDirectory else if code = 21 then .isDirectory else .other details
  | failure => .other (toString failure)

def attempt {α : Type} (action : IO α) : IO (Except FileFailure α) := do
  match ← action.toBaseIO with
  | .ok value => return .ok value
  | .error failure => return .error (failureOf failure)

/-- A command in this program knows when it started, in milliseconds. -/
abbrev Session := ReaderT Nat IO

def kindOnDisk (path : String) : IO FileKind := do
  match (← (← IO.FS.realPath path).metadata).type with
  | .dir => return .directory
  | _ => return .file

def namesOnDisk (path : String) : IO (List String) := do
  return ((← (← IO.FS.realPath path).readDir).map (·.fileName)).toList

instance : Host Session where
  kind? path := fun _ => do return (← attempt (kindOnDisk path)).toOption
  read path := fun _ => attempt do return (← IO.FS.readBinFile path).data
  write path data := fun _ => attempt (IO.FS.writeBinFile path ⟨data⟩)
  makeDirectory path := fun _ => attempt (IO.FS.createDir path)
  entries? path := fun _ => do return (← attempt (namesOnDisk path)).toOption
  currentDirectory := fun _ => do return (← IO.currentDir).toString
  environment? name := fun _ => IO.getEnv name
  print text := fun _ => IO.print text
  elapsed := fun start => do return ((← IO.monoMsNow) - start) / 10

/-- Help goes to the console, complaints about the command line do not. -/
def reportUsage (error : UsageError) : IO UInt32 := do
  match error with
  | .help => IO.print helpText
  | complaint => IO.eprintln ("error: " ++ complaint.message)
  return error.exitCode.toUInt32

def perform (words : List String) : Session UInt32 := do
  match ← (parse words).run with
  | .error error => reportUsage error
  | .ok invocation =>
    let report ← run invocation
    if let some error := report.error then IO.eprintln error
    return report.exitCode.toUInt32

end ClrDecompiler.Command

def main (words : List String) : IO UInt32 := do
  (ClrDecompiler.Command.perform words).run (← IO.monoMsNow)
