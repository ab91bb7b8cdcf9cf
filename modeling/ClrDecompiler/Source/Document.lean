/-
This file holds rendered source text together with the places of the method declarations
in it.
-/

import ClrDecompiler.Source.Line

namespace ClrDecompiler.Source

open Metadata

/-- The place of a method declaration. Lines and columns are counted from one. The end is
the column after the declaration. They have no bound here. The program counts them with 32 bits,
which hold those of every text with fewer than 2^32 characters. -/
structure Span where
  method : Token
  line : Nat
  startColumn : Nat
  endColumn : Nat
  deriving DecidableEq, Repr

structure Document where
  text : String
  spans : List Span
  deriving DecidableEq, Repr

namespace Document

/-- The spans of the lines that declare methods, the first of which has the given number. -/
def spansFrom : Nat → List Line → List Span
  | _, [] => []
  | number, line :: rest =>
    match line.method with
    | some method =>
      ⟨method, number, line.depth + 1, line.depth + 1 + line.content.length⟩ ::
        spansFrom (number + 1) rest
    | none => spansFrom (number + 1) rest

def ofLines (lines : List Line) : Document where
  text := Line.text lines
  spans := spansFrom 1 lines

end Document

end ClrDecompiler.Source
