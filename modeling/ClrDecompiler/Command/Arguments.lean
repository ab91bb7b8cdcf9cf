/-
This file reads command lines. Values are checked when the argument after them is read.
-/

import ClrDecompiler.Command.Host
import ClrDecompiler.Command.Invocation

namespace ClrDecompiler.Command

open Metadata

inductive Argument where
  | input
  | outputDirectory
  | project
  | checksum
  | checksumLog
  | algorithm
  | file
  | typeName
  | listing
  | sequencePoints
  | generateSymbols
  | symbols
  | kinds
  | version
  | language
  | referencePath
  | removeDeadCode
  | removeDeadStores
  | verbose
  | help
  deriving DecidableEq, Repr

/-- How values follow an argument. An optional value is attached by an equals sign. -/
inductive Arity where
  | flag
  | optional
  | single
  | repeatable
  deriving DecidableEq, Repr

namespace Argument

def all : List Argument :=
  [.input, .outputDirectory, .project, .checksum, .checksumLog, .algorithm, .file, .typeName,
    .listing, .sequencePoints, .generateSymbols, .symbols, .kinds, .version, .language,
    .referencePath, .removeDeadCode, .removeDeadStores, .verbose, .help]

/-- The input is known by its position alone. -/
def long : Argument → String
  | .input => ""
  | .outputDirectory => "outputdir"
  | .project => "project"
  | .checksum => "crc"
  | .checksumLog => "crclog"
  | .algorithm => "crc-algorithm"
  | .file => "file"
  | .typeName => "type"
  | .listing => "ilcode"
  | .sequencePoints => "il-sequence-points"
  | .generateSymbols => "genpdb"
  | .symbols => "usepdb"
  | .kinds => "list"
  | .version => "version"
  | .language => "languageversion"
  | .referencePath => "referencepath"
  | .removeDeadCode => "no-dead-code"
  | .removeDeadStores => "no-dead-stores"
  | .verbose => "verbose"
  | .help => "help"

def short? : Argument → Option Char
  | .outputDirectory => some 'o'
  | .project => some 'p'
  | .checksum => some 'c'
  | .file => some 'f'
  | .typeName => some 't'
  | .kinds => some 'l'
  | .version => some 'v'
  | .referencePath => some 'r'
  | .help => some 'h'
  | _ => none

def arity : Argument → Arity
  | .input | .outputDirectory | .algorithm | .typeName | .language => .single
  | .kinds | .referencePath => .repeatable
  | .symbols => .optional
  | _ => .flag

def ofLong? (name : String) : Option Argument :=
  all.find? fun argument => argument != .input && argument.long == name

def ofShort? (letter : Char) : Option Argument :=
  all.find? fun argument => argument.short? == some letter

end Argument

/-- The words that older command lines use for options with two dashes. -/
def classicWord? : String → Option String
  | "-crc" => some "--crc"
  | "-crclog" => some "--crclog"
  | "-il" => some "--ilcode"
  | "-genpdb" => some "--genpdb"
  | "-usepdb" => some "--usepdb"
  | "-lv" => some "--languageversion"
  | _ => none

def normalizeWord (word : String) : String :=
  match classicWord? word, Text.after? "-usepdb:".toList word.toList with
  | some modern, _ => modern
  | none, some path => "--usepdb=" ++ String.ofList path
  | none, none => word

/-- Words after two dashes alone are left as they are. -/
def normalize : List String → List String
  | [] => []
  | word :: rest => if word == "--" then word :: rest else normalizeWord word :: normalize rest

/-- The invocation so far, the arguments that it has been given, and an argument that is not
checked yet with its value, if that has been read. -/
structure Reading where
  invocation : Invocation := {}
  given : List Argument := []
  pending : Option (Argument × Option String) := none
  hasInput : Bool := false
  onlyInputs : Bool := false

variable {m : Type → Type} [Monad m] [Host m]

/-- Reading of a command line on a machine. -/
abbrev Usage (m : Type → Type) := ExceptT UsageError m

def reject {α : Type} (message : String) : Usage m α :=
  throw (.rejected message)

def existingFile (path : String) : Usage m String := do
  if ← isFile path then return path
  else reject ("The file '" ++ path ++ "' does not exist.")

def existingDirectory (path : String) : Usage m String := do
  if ← isDirectory path then return path
  else reject ("The directory '" ++ path ++ "' does not exist.")

def matching {α : Type} : Option α → Usage m α
  | some found => return found
  | none => reject "Matching variant not found"

/-- Kinds that are selected twice count once. -/
def addKinds (kinds added : List TypeKind) : List TypeKind :=
  added.foldl (fun kinds kind => if kinds.contains kind then kinds else kinds ++ [kind]) kinds

def withValue (invocation : Invocation) (argument : Argument) (value : String) :
    Usage m Invocation := do
  match argument with
  | .input => return { invocation with input := some (← existingFile value) }
  | .outputDirectory =>
    return { invocation with outputDirectory := some (← existingDirectory value) }
  | .algorithm =>
    return { invocation with algorithm := ← matching (Project.Algorithm.ofText? value) }
  | .typeName => return { invocation with typeName := some value }
  | .symbols => return { invocation with symbols := .explicit (← existingFile value) }
  | .kinds =>
    match parseKinds value with
    | .ok kinds => return { invocation with kinds := addKinds invocation.kinds kinds }
    | .error message => reject message
  | .language =>
    return { invocation with language := ← matching (Source.Language.ofText? value) }
  | .referencePath =>
    let path ← existingDirectory value
    return { invocation with referencePaths := invocation.referencePaths ++ [path] }
  | _ => return invocation

def withFlag (invocation : Invocation) : Argument → Invocation
  | .project => { invocation with project := true }
  | .checksum => { invocation with checksum := true }
  | .checksumLog => { invocation with checksumLog := true }
  | .file => { invocation with file := true }
  | .listing => { invocation with listing := true }
  | .sequencePoints => { invocation with sequencePoints := true }
  | .generateSymbols => { invocation with generateSymbols := true }
  | .symbols => { invocation with symbols := .discover }
  | .version => { invocation with version := true }
  | .removeDeadCode => { invocation with removeDeadCode := true }
  | .removeDeadStores => { invocation with removeDeadStores := true }
  | .verbose => { invocation with verbose := true }
  | _ => invocation

/-- Takes an argument with its value. Only some arguments can be given twice. -/
def accept (reading : Reading) (argument : Argument) (value : Option String) :
    Usage m Reading := do
  if argument = .help then throw .help
  if reading.given.contains argument && argument.arity != .repeatable then throw .repeated
  let invocation ← match value with
    | some value => withValue reading.invocation argument value
    | none => pure (withFlag reading.invocation argument)
  return { reading with invocation, given := argument :: reading.given, pending := none }

/-- Checks the argument that was read last. -/
def settle (reading : Reading) : Usage m Reading :=
  match reading.pending with
  | none => return reading
  | some (_, none) => throw .missingValue
  | some (argument, some value) => accept reading argument (some value)

def take (reading : Reading) (argument : Argument) (value : Option String) :
    Usage m Reading := do
  accept (← settle reading) argument value

/-- An option with the value that is attached to it, if there is one. -/
def takeOption (reading : Reading) (argument : Argument) (attached : Option String) :
    Usage m Reading := do
  match argument.arity, attached with
  | .optional, none => take reading argument none
  | _, some value => take reading argument (some value)
  | _, none => return { (← settle reading) with pending := some (argument, none) }

/-- The text before and after the first equals sign. -/
def splitEquals (text : List Char) : String × Option String :=
  match text.dropWhile (· != '=') with
  | [] => (String.ofList text, none)
  | _ :: value => (String.ofList (text.takeWhile (· != '=')), some (String.ofList value))

def readLong (reading : Reading) (text : List Char) : Usage m Reading := do
  let (name, attached) := splitEquals text
  match Argument.ofLong? name, attached with
  | none, _ => throw .unknown
  | some argument, some value =>
    if argument.arity = .flag then throw .unexpectedValue
    else takeOption reading argument (some value)
  | some argument, none =>
    if argument.arity = .flag then take reading argument none
    else takeOption reading argument none

/-- The value that follows a letter in the same word. An equals sign before it is dropped. -/
def attachedValue : List Char → Option String
  | [] => none
  | '=' :: value => some (String.ofList value)
  | value => some (String.ofList value)

/-- Flags can share a word, the last of which can be an option with its value. -/
def readShort (reading : Reading) : List Char → Usage m Reading
  | [] => return reading
  | letter :: rest => do
    match Argument.ofShort? letter with
    | none => throw .unknown
    | some argument =>
      if argument.arity = .flag then readShort (← take reading argument none) rest
      else takeOption reading argument (attachedValue rest)

/-- A word that is no option is the value of the option before it or the input. -/
def readPlain (reading : Reading) (word : String) : Usage m Reading := do
  match reading.pending, reading.onlyInputs with
  | some (argument, none), false =>
    return { reading with pending := some (argument, some word) }
  | _, _ =>
    if reading.hasInput then throw .unknown
    return { (← settle reading) with pending := some (.input, some word), hasInput := true }

def readWord (reading : Reading) (word : String) : Usage m Reading :=
  if reading.onlyInputs then readPlain reading word
  else match word.toList with
    | ['-', '-'] => return { reading with onlyInputs := true }
    | '-' :: '-' :: text => readLong reading text
    | ['-'] => readPlain reading word
    | '-' :: text => readShort reading text
    | _ => readPlain reading word

/-- The invocation that the words after the name of the program ask for. -/
def parse (words : List String) : Usage m Invocation := do
  let reading ← (normalize words).foldlM readWord {}
  return (← settle reading).invocation

end ClrDecompiler.Command
