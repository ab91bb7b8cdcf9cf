/-
This file holds lines of text at a depth of indentation.
-/

import ClrDecompiler.Metadata.Token

namespace ClrDecompiler.Source

open Metadata

/-- A line of source text at a depth of indentation. A line can declare a method. -/
structure Line where
  depth : Nat
  content : String
  method : Option Token
  deriving DecidableEq, Repr

namespace Line

def plain (content : String) : Line :=
  ⟨0, content, none⟩

def declaring (method : Token) (content : String) : Line :=
  ⟨0, content, some method⟩

def blank : Line :=
  plain ""

def indent (line : Line) : Line :=
  { line with depth := line.depth + 1 }

/-- Blank lines are not indented. -/
def chars (line : Line) : List Char :=
  if line.content.isEmpty then ['\n']
  else List.replicate line.depth '\t' ++ line.content.toList ++ ['\n']

/-- A line with lines in braces after it. -/
def block (head : Line) (body : List Line) : List Line :=
  head :: plain "\x7b" :: body.map indent ++ [plain "\x7d"]

/-- Groups of lines with a blank line between two of them. -/
def separated (groups : List (List Line)) : List Line :=
  [blank].intercalate groups

def text (lines : List Line) : String :=
  String.ofList (lines.flatMap chars)

end Line

end ClrDecompiler.Source
