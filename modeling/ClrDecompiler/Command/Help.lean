/-
This file describes the arguments of the command line.
-/

import ClrDecompiler.Command.Arguments

namespace ClrDecompiler.Command

def programName : String := "ildecomp"

def Argument.valueName : Argument → String
  | .input => "ASSEMBLY"
  | .outputDirectory => "DIRECTORY"
  | .algorithm => "ALGORITHM"
  | .typeName => "TYPE-NAME"
  | .symbols => "PDB"
  | .kinds => "ENTITY-TYPE(S)"
  | .language => "VERSION"
  | .referencePath => "PATH"
  | _ => ""

def Argument.description : Argument → String
  | .input => "Assembly to decompile"
  | .outputDirectory =>
    "The output directory, if omitted decompiler output is written to standard out"
  | .project => "Decompile assembly as compilable project. If outputdir is omitted - saved " ++
    "to assembly folder"
  | .checksum => "Calculate assembly internal checksum"
  | .checksumLog => "Write log on checksum calculation"
  | .algorithm => "Hash algorithm of the checksum [default: sha256]"
  | .file => "Decompile assembly into single file"
  | .typeName => "The fully qualified name of the type to decompile"
  | .listing => "Show IL code"
  | .sequencePoints => "Show IL with sequence points. Implies --ilcode"
  | .generateSymbols => "Generate PDB"
  | .symbols => "Use PDB. Without a value the symbols are searched next to the assembly"
  | .kinds => "Lists all entities of the specified type(s). Valid types: c(lass), " ++
    "i(nterface), s(truct), d(elegate), e(num)"
  | .version => "Show version of the decompiler engine used"
  | .language => "C# language version: CSharp1 .. CSharp12_0, Preview or Latest [default: Latest]"
  | .referencePath => "Path to a directory containing dependencies of the assembly that is " ++
    "being decompiled"
  | .removeDeadCode => "Remove dead code"
  | .removeDeadStores => "Remove dead stores"
  | .verbose => "Enable verbose (debug-level) logging output"
  | .help => "Print help"

/-- An option with its value. -/
def Argument.usage (argument : Argument) : String :=
  let name := "--" ++ argument.long
  match argument.arity with
  | .flag => name
  | .optional => name ++ "[=<" ++ argument.valueName ++ ">]"
  | _ => name ++ " <" ++ argument.valueName ++ ">"

def spaces (count : Nat) : String :=
  String.ofList (List.replicate count ' ')

def helpOptions : List Argument :=
  Argument.all.filter (· != .input)

/-- The descriptions start in one column. -/
def optionHelp (argument : Argument) : String :=
  let widths := helpOptions.map (·.usage.length)
  let head := match argument.short? with
    | some letter => "  -" ++ String.singleton letter ++ ", "
    | none => spaces 6
  let gap := widths.foldl max 0 + 2 - argument.usage.length
  head ++ argument.usage ++ spaces gap ++ argument.description

def helpText : String :=
  let input := "[" ++ Argument.input.valueName ++ "]"
  let lines := [
    "Command-line front end for decompiling, listing, disassembling and generating PDBs for " ++
      ".NET assemblies",
    "", "Usage: " ++ programName ++ " [OPTIONS] " ++ input, "", "Arguments:",
    "  " ++ input ++ "  " ++ Argument.input.description, "", "Options:"] ++
    helpOptions.map optionHelp
  String.join (lines.map (· ++ "\n"))

end ClrDecompiler.Command
