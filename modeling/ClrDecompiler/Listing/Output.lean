/-
This file holds lines that are written one after the other until a fault occurs.
-/

import ClrDecompiler.Fault
import ClrDecompiler.Source.Line

namespace ClrDecompiler.Listing

open Source

/-- The lines before a fault, or all lines. -/
structure Output where
  lines : List Line
  fault : Option Fault

namespace Output

def ofLines (lines : List Line) : Output :=
  ⟨lines, none⟩

def failed (fault : Fault) : Output :=
  ⟨[], some fault⟩

/-- No lines, and a fault if there is one. -/
def ofCheck : Except Fault Unit → Output
  | .ok () => ofLines []
  | .error fault => failed fault

/-- Nothing is written after a fault. -/
def append (first second : Output) : Output :=
  match first.fault with
  | some _ => first
  | none => ⟨first.lines ++ second.lines, second.fault⟩

instance : Append Output := ⟨append⟩

def concat (outputs : List Output) : Output :=
  outputs.foldr append (ofLines [])

def indent (output : Output) : Output :=
  { output with lines := output.lines.map Line.indent }

def text (output : Output) : String :=
  Line.text output.lines

end Output

end ClrDecompiler.Listing
