/-
This file cuts texts at separators and reads bounded decimal numbers.
-/

namespace ClrDecompiler.Text

/-- The runs of characters between separators, empty ones included. -/
def pieces (isSeparator : Char → Bool) : List Char → List (List Char)
  | [] => [[]]
  | c :: rest =>
    if isSeparator c then [] :: pieces isSeparator rest
    else match pieces isSeparator rest with
      | [] => [[c]]
      | piece :: others => (c :: piece) :: others

def split (separator : Char) (text : String) : List String :=
  (pieces (· == separator) text.toList).map String.ofList

/-- The parts before and after the last separator. -/
def splitLast? (isSeparator : Char → Bool) (text : List Char) : Option (List Char × List Char) :=
  let tail := text.reverse.takeWhile (!isSeparator ·)
  match text.reverse.dropWhile (!isSeparator ·) with
  | [] => none
  | _ :: head => some (head.reverse, tail.reverse)

/-- What follows a text at the start of another. -/
def after? : List Char → List Char → Option (List Char)
  | [], text => some text
  | _ :: _, [] => none
  | c :: start, d :: text => if c = d then after? start text else none

def replace (changes : Char → Bool) (replacement : Char) (text : String) : String :=
  String.ofList (text.toList.map fun c => if changes c then replacement else c)

def isAsciiDigit (c : Char) : Bool :=
  '0' ≤ c && c ≤ '9'

def digitsValue (digits : List Char) : Nat :=
  digits.foldl (fun value c => value * 10 + (c.toNat - 48)) 0

/-- A number below `bound`: digits, with a plus sign in front or not. -/
def number? (bound : Nat) (text : String) : Option Nat :=
  let digits := match text.toList with
    | '+' :: rest => rest
    | all => all
  if digits.isEmpty || !digits.all isAsciiDigit then none
  else if digitsValue digits < bound then some (digitsValue digits)
  else none

def isAsciiUpper (c : Char) : Bool :=
  'A' ≤ c && c ≤ 'Z'

def asciiLower (text : String) : String :=
  String.ofList (text.toList.map fun c => if isAsciiUpper c then Char.ofNat (c.toNat + 32) else c)

end ClrDecompiler.Text
