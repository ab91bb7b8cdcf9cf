/-
This file puts text into lower case, by the rules of Unicode that hold in all languages.
-/

import ClrDecompiler.Text.CaseTables

namespace ClrDecompiler.Text

def LowerRun.lower? (run : LowerRun) (code : Nat) : Option Char :=
  if run.first ≤ code ∧ code ≤ run.last ∧ (code - run.first) % run.step = 0 then
    some (Char.ofNat (code + run.shift).toNat)
  else none

def inRanges (ranges : List (Nat × Nat)) (c : Char) : Bool :=
  ranges.any fun (first, last) => first ≤ c.toNat && c.toNat ≤ last

def isCased (c : Char) : Bool :=
  inRanges casedRanges c

def isCaseIgnorable (c : Char) : Bool :=
  inRanges ignorableRanges c

/-- The only character with a lower-case form of two characters is the capital I with a dot. -/
def lowerChar (c : Char) : List Char :=
  if c.toNat < 0x80 then [c.toLower]
  else if c.toNat = 0x130 then ['i', Char.ofNat 0x307]
  else [(lowerRuns.findSome? fun run => run.lower? c.toNat).getD c]

/-- Whether a letter with a case comes next, apart from characters that do not count. -/
def letterNext (text : List Char) : Bool :=
  match text.dropWhile isCaseIgnorable with
  | c :: _ => isCased c
  | [] => false

/-- A capital sigma has another form at the end of a word than elsewhere. -/
def lowerSigma (before after : List Char) : Char :=
  if letterNext before && !letterNext after then 'ς' else 'σ'

/-- Text after other text, which is given in reverse order. -/
def lowerAfter (before : List Char) : List Char → List Char
  | [] => []
  | c :: rest =>
    (if c == 'Σ' then [lowerSigma before rest] else lowerChar c) ++ lowerAfter (c :: before) rest

def lower (text : String) : String :=
  String.ofList (lowerAfter [] text.toList)

end ClrDecompiler.Text
