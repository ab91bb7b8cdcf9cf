/-
This file writes constants as C# literals.
-/

import ClrDecompiler.Decimal.Shortest
import ClrDecompiler.Module.Basic

namespace ClrDecompiler.Source

/-- The characters that Unicode classes as controls. -/
def isControl (c : Char) : Bool :=
  c.toNat < 0x20 || (0x7F ≤ c.toNat && c.toNat < 0xA0)

/-- The escape sequence of a code unit. -/
def unitEscape (unit : Nat) : List Char :=
  '\\' :: 'u' :: (Hex.upper 4 unit).toList

/-- A character as it stands between quotes. -/
def escape (quote c : Char) : List Char :=
  match c with
  | '\\' => ['\\', '\\']
  | '\n' => ['\\', 'n']
  | '\r' => ['\\', 'r']
  | '\t' => ['\\', 't']
  | '\x00' => ['\\', '0']
  | _ => if c == quote then ['\\', c] else if isControl c then unitEscape c.toNat else [c]

def quoted (quote : Char) (text : List Char) : String :=
  String.ofList (quote :: text.flatMap (escape quote) ++ [quote])

def stringLiteral (text : String) : String :=
  quoted '"' text.toList

/-- Half of a surrogate pair is no character and is always escaped. -/
def charLiteral (unit : UInt16) : String :=
  if 0xD800 ≤ unit ∧ unit < 0xE000 then
    String.ofList ('\'' :: unitEscape unit.toNat ++ ['\''])
  else
    quoted '\'' [Char.ofNat unit.toNat]

/-- The types that C# infers for a number are not those of all unsigned numbers. -/
def unsignedSuffix (elementType : UInt8) : String :=
  match elementType.toNat with
  | 0x09 => "u"
  | 0x0B => "uL"
  | _ => ""

/-- The values that have no digits are constants of their type. -/
def specialValue (type : String) : Decimal.Binary → Option String
  | .nan => some (type ++ ".NaN")
  | .infinite false => some (type ++ ".PositiveInfinity")
  | .infinite true => some (type ++ ".NegativeInfinity")
  | .finite _ _ _ => none

def singleLiteral (bits : UInt32) : String :=
  match specialValue "float" (Decimal.single.decode bits.toNat) with
  | some constant => constant
  | none => Decimal.text Decimal.single bits.toNat ++ "f"

/-- Whole numbers are written in full and with a digit after the point. -/
def doubleLiteral (bits : UInt64) : String :=
  let value := Decimal.double.decode bits.toNat
  match specialValue "double" value, value, value.whole? with
  | some constant, _, _ => constant
  | none, .finite negative _ _, some whole => Decimal.signed negative (toString whole ++ ".0")
  | none, _, _ => Decimal.text Decimal.double bits.toNat

def literal : ConstantValue → String
  | .boolean value => toString value
  | .char unit => charLiteral unit
  | .signed value _ => toString value
  | .unsigned value elementType => toString value ++ unsignedSuffix elementType
  | .float32 bits => singleLiteral bits
  | .float64 bits => doubleLiteral bits
  | .string text => stringLiteral text
  | .null => "null"

end ClrDecompiler.Source
