/-
This file reads byte strings in sequence: fixed-width numbers, compressed integers and
tokens, and length-prefixed text. A failed read reports its fault and the position at
which it stopped.
-/

import ClrDecompiler.Bytes.Compressed
import ClrDecompiler.Metadata.Token

namespace ClrDecompiler

open Metadata

/-- A step that reads from a byte string at a position. The position survives a failure. -/
abbrev Read := ReaderT Bytes (ExceptT Fault (StateM Nat))

namespace Read

/-- The outcome of a step and the position after it. -/
def runAt {α : Type} (step : Read α) (data : Bytes) (position : Nat) : Except Fault α × Nat :=
  (step.run data).run.run position

def runOn {α : Type} (step : Read α) (data : Bytes) : Except Fault α :=
  (step.runAt data 0).1

def size : Read Nat :=
  return (← read).size

def position : Read Nat :=
  get

def hasMore : Read Bool := do
  return (← get) < (← read).size

def seek (target : Nat) : Read Unit := do
  if target ≤ (← read).size then set target else throw .outOfBounds

def peek : Read UInt8 := do
  match (← read)[(← get)]? with
  | some byte => return byte
  | none => throw .outOfBounds

def bytes (count : Nat) : Read Bytes := do
  let start ← get
  match Bytes.slice? (← read) start count with
  | some found =>
    set (start + count)
    return found
  | none => throw .outOfBounds

def number (width : Nat) : Read Nat := do
  return Bytes.ofLittleEndian (← bytes width).toList

/-- A number in two's complement. -/
def signed (width : Nat) : Read Int := do
  return Int.bmod (← number width) (1 <<< (8 * width))

def word8 : Read UInt8 :=
  UInt8.ofNat <$> number 1

def word16 : Read UInt16 :=
  UInt16.ofNat <$> number 2

def word32 : Read UInt32 :=
  UInt32.ofNat <$> number 4

def word64 : Read UInt64 :=
  UInt64.ofNat <$> number 8

/-- An index into a heap or a table takes four bytes if it is wide and two otherwise. -/
def index (wide : Bool) : Read UInt32 :=
  if wide then word32 else UInt16.toUInt32 <$> word16

/-- The bytes of a number of which the first `lead` is known, most significant first. -/
def bigEndianFrom (lead : Nat) : Nat → Read Nat
  | 0 => return lead
  | count + 1 => do bigEndianFrom (lead * 0x100 + (← word8).toNat) count

def compressedUnsigned : Read Nat := do
  let lead ← word8
  if lead < 0x80 then return lead.toNat
  else if lead < 0xC0 then bigEndianFrom (lead.toNat - 0x80) 1
  else if lead < 0xE0 then bigEndianFrom (lead.toNat - 0xC0) 3
  else throw (.malformed (.compressedLead lead))

/-- The width of the encoding decides where the sign extension starts. -/
def compressedSigned : Read Int := do
  let start ← get
  let rotated ← compressedUnsigned
  let half := match (← get) - start with
    | 1 => 0x40
    | 2 => 0x2000
    | _ => 0x10000000
  return Compressed.unrotate half rotated

/-- The two low bits choose the table. The row is added to the table's first token, so that
a row of more than 24 bits changes the table. -/
def compressedToken : Read Token := do
  let value ← compressedUnsigned
  let table : UInt32 ←
    match value % 4 with
    | 0 => pure 0x02000000
    | 1 => pure 0x01000000
    | 2 => pure 0x1B000000
    | _ => throw (.malformed (.compressedToken value))
  return ⟨table + UInt32.ofNat (value / 4)⟩

/-- Text with a compressed length before it. The byte 0xFF stands for no text at all. -/
def serializedText : Read (Option String) := do
  if (← peek) == 0xFF then
    modify (· + 1)
    return none
  let length ← compressedUnsigned
  let start ← get
  match Utf8.decode (← bytes length).toList with
  | .ok text => return some text
  | .error flaw => throw (.malformed (.serializedText start (start + length) flaw))

end Read

namespace Bytes

/-- A random-access read that refuses to cross the end. -/
def orOutOfBounds {α : Type} : Option α → Except Fault α
  | some value => .ok value
  | none => .error .outOfBounds

end Bytes

end ClrDecompiler
