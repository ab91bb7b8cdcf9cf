/-
This file selects what a command does and where its results go.
-/

import ClrDecompiler.Command.Invocation
import ClrDecompiler.Path

namespace ClrDecompiler.Command

inductive Mode where
  | project
  | entityList
  | listing
  | symbols
  | version
  | decompile
  deriving DecidableEq, Repr

/-- The arguments that choose a mode. -/
structure ModeFlags where
  project : Bool := false
  checksum : Bool := false
  file : Bool := false
  listing : Bool := false
  sequencePoints : Bool := false
  generateSymbols : Bool := false
  version : Bool := false
  list : Bool := false
  deriving DecidableEq, Repr

namespace ModeFlags

def ofInvocation (invocation : Invocation) : ModeFlags where
  project := invocation.project
  checksum := invocation.checksum
  file := invocation.file
  listing := invocation.listing
  sequencePoints := invocation.sequencePoints
  generateSymbols := invocation.generateSymbols
  version := invocation.version
  list := !invocation.kinds.isEmpty

def isAny (flags : ModeFlags) : Bool :=
  flags.project || flags.checksum || flags.file || flags.listing || flags.sequencePoints ||
    flags.generateSymbols || flags.version || flags.list

/-- A project is written out on demand, or if nothing else is asked for. -/
def isWholeProject (flags : ModeFlags) : Bool :=
  flags.project || !flags.isAny

end ModeFlags

structure Rule where
  name : String
  applies : ModeFlags → Bool
  mode : Mode

/-- The rule for all that no other rule applies to. -/
def Rule.otherwise : Rule :=
  ⟨"decompile", fun _ => true, .decompile⟩

/-- The rules in the order in which they are tried. -/
def Rule.all : List Rule := [
  ⟨"default", fun flags => !flags.isAny, .project⟩,
  ⟨"project", fun flags => flags.project || flags.checksum, .project⟩,
  ⟨"list", fun flags => flags.list, .entityList⟩,
  ⟨"il", fun flags => flags.listing || flags.sequencePoints, .listing⟩,
  ⟨"genpdb", fun flags => flags.generateSymbols, .symbols⟩,
  ⟨"version", fun flags => flags.version, .version⟩,
  Rule.otherwise]

def Rule.select (flags : ModeFlags) : Rule :=
  (Rule.all.find? fun rule => rule.applies flags).getD Rule.otherwise

/-- Where the results of a mode go. -/
inductive Route where
  | console
  | file (path : String)
  | directory (path : String)
  deriving DecidableEq, Repr

/-- The end of the names of the files of a mode. -/
def Mode.suffix : Mode → String
  | .entityList => ".list.txt"
  | .listing => ".il"
  | .symbols => ".pdb"
  | .decompile => ".decompiled.cs"
  | .project => ""
  | .version => ""

namespace Route

def stem (input : String) : String :=
  (Path.fileStem? input).getD ""

/-- A single type gives its file its name. -/
def fileName (input : String) (mode : Mode) (typeName : Option String) : String :=
  match mode, typeName with
  | .decompile, some name => (if name.isEmpty then stem input else name) ++ mode.suffix
  | _, _ => stem input ++ mode.suffix

def resolve (input : String) (directory : Option String) (mode : Mode)
    (typeName : Option String) : Route :=
  match mode, directory with
  | .project, some directory => .directory directory
  | .project, none => .directory (Path.join ((Path.parent? input).getD "") (stem input))
  | .symbols, none => .file (Path.withExtension input "pdb")
  | .version, _ => .console
  | _, none => .console
  | _, some directory => .file (Path.join directory (fileName input mode typeName))

end Route

/-- Whether a checksum is computed, by which algorithm, and where its log goes. -/
inductive ChecksumMode where
  | disabled
  | enabled (algorithm : Project.Algorithm) (log : Option String)
  deriving DecidableEq, Repr

def checksumLogPath (input : String) : String :=
  input ++ ".crclog"

/-- A log without a checksum has no effect. -/
def ChecksumMode.ofInvocation (invocation : Invocation) (input : String) : ChecksumMode :=
  if invocation.checksum then
    .enabled invocation.algorithm
      (if invocation.checksumLog then some (checksumLogPath input) else none)
  else .disabled

end ClrDecompiler.Command
