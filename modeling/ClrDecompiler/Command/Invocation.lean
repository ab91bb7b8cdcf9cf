/-
This file holds what a command line asks for.
-/

import ClrDecompiler.Metadata.TypeName
import ClrDecompiler.Project.Checksum
import ClrDecompiler.Source.Language

namespace ClrDecompiler.Command

open Metadata

/-- Where the symbols of the input come from. -/
inductive SymbolSource where
  | absent
  | discover
  | explicit (path : String)
  deriving DecidableEq, Repr

structure Invocation where
  input : Option String := none
  outputDirectory : Option String := none
  project : Bool := false
  checksum : Bool := false
  checksumLog : Bool := false
  algorithm : Project.Algorithm := .sha256
  file : Bool := false
  typeName : Option String := none
  listing : Bool := false
  sequencePoints : Bool := false
  generateSymbols : Bool := false
  symbols : SymbolSource := .absent
  kinds : List TypeKind := []
  version : Bool := false
  language : Source.Language := .latest
  referencePaths : List String := []
  removeDeadCode : Bool := false
  removeDeadStores : Bool := false
  verbose : Bool := false
  deriving Repr

/-- What is wrong with a command line, or that it asks for help instead. -/
inductive UsageError where
  | rejected (message : String)
  | unknown
  | repeated
  | missingValue
  | unexpectedValue
  | help
  deriving DecidableEq, Repr

namespace UsageError

def exitCode : UsageError → Nat
  | .help => 0
  | _ => 2

def message : UsageError → String
  | .rejected message => message
  | .unknown => "unexpected argument"
  | .repeated => "an argument cannot be used multiple times"
  | .missingValue => "a value is required but none was supplied"
  | .unexpectedValue => "a value was given to an argument that takes none"
  | .help => "help is requested"

end UsageError

/-- The kind that a user names by a word or its first letter. -/
def kindOfWord? (word : String) : Option TypeKind :=
  match Text.asciiLower word with
  | "c" | "class" => some .classType
  | "i" | "interface" => some .interface
  | "s" | "struct" => some .struct
  | "d" | "delegate" => some .delegate
  | "e" | "enum" => some .enum
  | _ => none

def kindOfPart (part : String) : Except String TypeKind :=
  match kindOfWord? part with
  | some kind => .ok kind
  | none => .error ("unknown entity type '" ++ part ++
      "', valid types: c(lass), i(nterface), s(truct), d(elegate), e(num)")

/-- The kinds between commas or semicolons. Empty parts do not count. -/
def parseKinds (value : String) : Except String (List TypeKind) := do
  let parts := (Text.pieces (fun c => c == ',' || c == ';') value.toList).map fun part =>
    Text.trim (String.ofList part)
  match ← (parts.filter (!·.isEmpty)).mapM kindOfPart with
  | [] => throw "no entity type given"
  | kinds => return kinds

end ClrDecompiler.Command
