/-
This file runs commands: it reads the input, does what the mode asks for and writes the
results.
-/

import ClrDecompiler.Command.Help
import ClrDecompiler.Command.Mode
import ClrDecompiler.Command.References
import ClrDecompiler.Listing.Module
import ClrDecompiler.Module.Load
import ClrDecompiler.Project.Files
import ClrDecompiler.Symbols.Builder
import ClrDecompiler.Symbols.Search

namespace ClrDecompiler.Command

open Metadata

/-- Why a command ends early: its data does not allow what is asked for, something failed, or the
program was stopped. The messages of a failure lead from the command to the cause. -/
inductive Failure where
  | unsuitable (message : String)
  | failed (messages : List String)
  | stopped
  deriving DecidableEq, Repr

/-- The result for the caller of the program. -/
structure Report where
  exitCode : Nat
  error : Option String
  deriving DecidableEq, Repr

/-- The lines of a cause. All but the first are indented like the text of the first. -/
def causeText (head : String) (cause : String) : String :=
  ("\n" ++ spaces head.length).intercalate
    (match Text.split '\n' cause with
    | [] => [head]
    | first :: rest => (head ++ first) :: rest)

/-- Several causes are numbered. -/
def causesText (causes : List String) : String :=
  let texts := match causes with
    | [cause] => [causeText (spaces 4) cause]
    | _ => causes.mapIdx fun index cause =>
      let number := toString index
      causeText (spaces (5 - number.length) ++ number ++ ": ") cause
  String.join (texts.map ("\n" ++ ·))

def failureText : List String → String
  | [] => ""
  | [message] => message
  | message :: causes => message ++ "\n\nCaused by:" ++ causesText causes

/-- The exit code of a program that was stopped is that of its signal. -/
def Failure.report : Failure → Report
  | .unsuitable message => ⟨65, some message⟩
  | .failed messages => ⟨70, some (failureText messages)⟩
  | .stopped => ⟨134, none⟩

variable {m : Type → Type} [Monad m] [Host m]

abbrev Action (m : Type → Type) := ExceptT Failure m

/-- Says what a fault prevented. -/
def during {α : Type} (context : String) : Except Fault α → Action m α
  | .ok value => return value
  | .error .endlessName => throw .stopped
  | .error fault => throw (.failed (context :: fault.chain))

def duringAccess {α : Type} (context : String) : Except FileFailure α → Action m α
  | .ok value => return value
  | .error failure => throw (.failed [context, failure.message])

def printLine (text : String) : Action m Unit :=
  Host.print (text ++ "\n")

/-- An invocation with the input that it needs. -/
structure Job where
  invocation : Invocation
  input : String
  mode : Mode
  isWholeProject : Bool

def Job.ofInvocation (invocation : Invocation) (input : String) : Job :=
  let flags := ModeFlags.ofInvocation invocation
  { invocation, input, mode := (Rule.select flags).mode, isWholeProject := flags.isWholeProject }

def Job.route (job : Job) : Route :=
  Route.resolve job.input job.invocation.outputDirectory job.mode job.invocation.typeName

def loadModule (job : Job) : Action m Module := do
  let content := (← Host.read job.input).mapError Fault.file
  during ("failed to load assembly: " ++ job.input) (content.bind (Module.ofBytes job.input))

/-- The symbols in a file, which has to belong to the module. -/
def readSymbols (module : Module) (path : String) : m (Except Fault Symbols.DebugInfo) := do
  match ← Host.read path with
  | .ok data => return Symbols.attach module path data
  | .error failure => return .error (.invalidSymbols path failure.message)

def discoverSymbols (module : Module) : m (Except Fault (Option Symbols.DebugInfo)) := do
  match ← firstFile (Symbols.candidates module) with
  | some path => return (← readSymbols module path).map some
  | none => return .ok none

def loadSymbols (job : Job) (module : Module) : Action m (Option Symbols.DebugInfo) := do
  let found : Except Fault (Option Symbols.DebugInfo) ← match job.invocation.symbols with
    | .absent => pure (.ok none)
    | .discover => discoverSymbols module
    | .explicit path => Except.map some <$> readSymbols module path
  during ("failed to load symbols for " ++ job.input) found

def writeData (route : Route) (context : String) (data : Bytes) : Action m Unit := do
  match route with
  | .file path => duringAccess context (← Host.write path data)
  | _ => throw (.failed [context, "the output is no file"])

/-- Writes a text to the console or to a file as a whole. -/
def writeText (route : Route) (context text : String) : Action m Unit :=
  match route with
  | .console => Host.print text
  | _ => writeData route context (Utf8.encode text)

def decompile (job : Job) : Action m Unit := do
  let module ← loadModule job
  let _ ← loadSymbols job module
  let language := job.invocation.language
  let source : Source.Document ← match job.invocation.typeName with
    | some name =>
      during ("failed to decompile type " ++ name)
        (Source.ofType module language (TypeQuery.ofText name))
    | none => during ("failed to decompile " ++ job.input) (Source.ofModule module language)
  writeText job.route "failed to open the output" source.text

/-- What was listed before a fault is written all the same, unless the program is stopped. -/
def list (job : Job) : Action m Unit := do
  let module ← loadModule job
  let symbols ← loadSymbols job module
  let shown := if job.invocation.sequencePoints then symbols else none
  let output := Listing.ofModule module { symbols := shown }
  if output.fault == some .endlessName then throw .stopped
  writeText job.route "failed to open the IL output"
    ("// IL code: " ++ module.name ++ "\n" ++ output.text)
  match output.fault with
  | some fault => during ("failed to disassemble " ++ job.input) (.error fault)
  | none => return ()

def listEntities (job : Job) : Action m Unit := do
  let module ← loadModule job
  let chosen := module.topLevelTypes.filter fun definition =>
    job.invocation.kinds.contains definition.kind
  let lines := chosen.map fun definition =>
    definition.kind.name ++ " " ++ stripArity definition.qualifiedName ++ "\n"
  writeText job.route "failed to open the list output" (String.join lines)

/-- Symbols need a place in the module that names them. -/
def checkCodeView (job : Job) (module : Module) : Action m Unit := do
  let refuse (reason : String) : Action m Unit :=
    throw (.unsuitable ("Cannot create PDB file for " ++ job.input ++ ", because " ++ reason))
  match module.codeView? with
  | none => refuse "it does not contain a PE Debug Directory Entry of type 'CodeView'."
  | some codeView =>
    if codeView.symbolsId?.isNone then refuse "its CodeView debug entry is not an RSDS record."

/-- The file is there even if its content cannot be made. -/
def generateSymbols (job : Job) : Action m Unit := do
  let module ← loadModule job
  checkCodeView job module
  let _ ← loadSymbols job module
  let built := Symbols.build module (Source.ofType module job.invocation.language)
  writeData job.route "failed to create the PDB file" (built.toOption.getD #[])
  let _ ← during ("failed to generate a PDB for " ++ job.input) built

def version : String := "0.1.0"

def printVersion : Action m Unit := do
  printLine ("ildecomp: " ++ version)
  printLine ("ildecomp engine: " ++ version)

/-- The name of the input in messages. -/
def displayName (job : Job) : String :=
  (Path.fileName? job.input).getD job.input

def accessFault {α : Type} : Except FileFailure α → Except Fault α :=
  Except.mapError Fault.file

/-- The log of a checksum grows with its entries. -/
def writeLog (log : Option String) (text : String) : m (Except FileFailure Unit) :=
  match log with
  | some path => Host.write path (Utf8.encode text)
  | none => return .ok ()

def writeProjectFile (directory : String) (file : Project.File) : m (Except FileFailure Unit) := do
  let path := Project.targetPath directory file.path
  match ← makeDirectories ((Path.parent? path).getD "") with
  | .ok () => Host.write path (Utf8.encode file.content)
  | .error failure => return .error failure

/-- Adds the files of a project to a checksum and writes them if they are wanted. -/
def writeProjectFiles (job : Job) (directory : String) (log : Option String) :
    List Project.File → Option Project.Checksum →
    m (Except FileFailure (Option Project.Checksum))
  | [], checksum => return .ok checksum
  | file :: rest, checksum => do
    let checksum := checksum.map fun sum => sum.add file.path (Utf8.encode file.content)
    let logged ← writeLog log ((checksum.map (·.openLog)).getD "")
    let written ← if job.isWholeProject then writeProjectFile directory file
      else pure (.ok ())
    match logged, written with
    | .ok (), .ok () => writeProjectFiles job directory log rest checksum
    | .error failure, _ => return .error failure
    | _, .error failure => return .error failure

def startChecksum (mode : ChecksumMode) : Action m (Option Project.Checksum × Option String) := do
  match mode with
  | .disabled => return (none, none)
  | .enabled algorithm log =>
    let checksum : Project.Checksum := { algorithm }
    during "failed to create the checksum log" (accessFault (← writeLog log checksum.openLog))
    return (some checksum, log)

def finishChecksum (job : Job) (log : Option String) (checksum : Project.Checksum) :
    Action m Unit := do
  during "failed to finish the checksum log" (accessFault (← writeLog log checksum.log))
  printLine ("'" ++ displayName job ++ "' checksum:")
  printLine ("    '" ++ checksum.total ++ "'")

/-- Seconds with two decimal places. -/
def secondsText (hundredths : Nat) : String :=
  let fraction := toString (hundredths % 100)
  toString (hundredths / 100) ++ "." ++ (if fraction.length < 2 then "0" ++ fraction else fraction)

def projectOptions (job : Job) (module : Module) (directory : String) :
    Action m Project.Options := do
  let located ← locateReferences module job.invocation.referencePaths
  return {
    directory, currentDirectory := ← Host.currentDirectory
    language := job.invocation.language, requireReferences := false
    resolve := fun reference => (located.lookup reference.name).join }

def decompileProject (job : Job) (directory : String) : Action m Unit := do
  let name := displayName job
  if job.isWholeProject then
    duringAccess ("failed to create output directory: " ++ directory)
      (← makeDirectories directory)
    Host.print ("Decompiling " ++ name ++ "... ")
  let module ← loadModule job
  let options ← projectOptions job module directory
  let _ ← loadSymbols job module
  let (checksum, log) ← startChecksum (ChecksumMode.ofInvocation job.invocation job.input)
  let context := "failed to decompile " ++ name ++ " into " ++ directory
  let files ← during context (Project.files module options)
  let written ← writeProjectFiles job directory log files checksum
  let checksum ← during context (accessFault written)
  if job.isWholeProject then
    printLine "ok."
    printLine ("Used time: " ++ secondsText (← Host.elapsed) ++ " sec")
  match checksum with
  | some checksum => finishChecksum job log checksum
  | none => return ()

def act (job : Job) : Action m Unit :=
  match job.mode, job.route with
  | .project, .directory directory => decompileProject job directory
  | .project, _ => throw (.failed ["project output needs a directory"])
  | .entityList, _ => listEntities job
  | .listing, _ => list job
  | .symbols, _ => generateSymbols job
  | .version, _ => printVersion
  | .decompile, _ => decompile job

/-- Without an input the help text is printed. -/
def run (invocation : Invocation) : m Report := do
  match invocation.input with
  | none =>
    Host.print (helpText ++ "\n")
    return ⟨2, none⟩
  | some input =>
    match ← (act (Job.ofInvocation invocation input)).run with
    | .ok () => return ⟨0, none⟩
    | .error failure => return failure.report

end ClrDecompiler.Command
