/-
This file decodes the instructions of a method. Branch operands become the offsets of
their targets.
-/

import ClrDecompiler.Bytes.Cursor
import ClrDecompiler.Cil.Opcode

namespace ClrDecompiler.Cil

open Metadata

/-- The floating-point operands are kept as bit patterns. -/
inductive Operand where
  | none
  | signed (value : Int)
  | unsigned (value : Nat)
  | float32 (bits : UInt32)
  | float64 (bits : UInt64)
  | token (token : Token)
  | target (offset : Nat)
  | jumpTable (targets : List Nat)
  deriving DecidableEq, Repr

structure Instruction where
  offset : Nat
  size : Nat
  opcode : Opcode
  operand : Operand
  deriving DecidableEq, Repr

def Instruction.nextOffset (instruction : Instruction) : Nat :=
  instruction.offset + instruction.size

/-- The label of an offset. -/
def label (offset : Nat) : String :=
  "IL_" ++ Hex.lower 4 offset

/-- A displacement counts from the end of its instruction and stays in the offsets of 32
bits. -/
def branchTarget (next : Nat) (displacement : Int) : Except Fault Nat :=
  let target := next + displacement
  if 0 ≤ target ∧ target < UInt32.size then .ok target.toNat
  else .error (.malformed (.branchTarget displacement))

/-- The displacements of a jump table, all of which are read before any is resolved. -/
def displacements : Nat → Read (List Int)
  | 0 => return []
  | count + 1 => do
    let first ← Read.signed 4
    return first :: (← displacements count)

def jumpTable : Read (List Nat) := do
  let count ← Read.number 4
  if (← Read.size) < (← get) + count * 4 then throw .outOfBounds
  let found ← displacements count
  let next ← get
  found.mapM fun displacement => liftM (branchTarget next displacement)

def readOperand : OperandKind → Read Operand
  | .none => return .none
  | .int8 => .signed <$> Read.signed 1
  | .uint8 => .unsigned <$> Read.number 1
  | .uint16 => .unsigned <$> Read.number 2
  | .int32 => .signed <$> Read.signed 4
  | .int64 => .signed <$> Read.signed 8
  | .float32 => .float32 <$> Read.word32
  | .float64 => .float64 <$> Read.word64
  | .token => (.token ⟨·⟩) <$> Read.word32
  | .shortBranch => do
    let displacement ← Read.signed 1
    .target <$> liftM (branchTarget (← get) displacement)
  | .branch => do
    let displacement ← Read.signed 4
    .target <$> liftM (branchTarget (← get) displacement)
  | .jumpTable => .jumpTable <$> jumpTable

def readOpcode : Read Opcode := do
  let start ← get
  let first ← Read.word8
  if first == Opcode.extension then
    let second ← Read.word8
    match Opcode.ofExtendedByte? second with
    | some opcode => return opcode
    | none => throw (.malformed (.extendedOpcode second start))
  else
    match Opcode.ofByte? first with
    | some opcode => return opcode
    | none => throw (.malformed (.opcode first start))

def readInstruction : Read Instruction := do
  let start ← get
  let opcode ← readOpcode
  let operand ← readOperand opcode.operand
  return { offset := start, size := (← get) - start, opcode, operand }

/-- The instructions from a position on, up to the first that cannot be decoded, and the
fault of that one. The first argument bounds the number of instructions. -/
def decodeFrom : Nat → Bytes → Nat → List Instruction × Option Fault
  | 0, _, _ => ([], none)
  | bound + 1, code, position =>
    if position < code.size then
      match readInstruction.runAt code position with
      | (.ok instruction, next) =>
        let (rest, fault) := decodeFrom bound code next
        (instruction :: rest, fault)
      | (.error fault, _) => ([], some fault)
    else ([], none)

/-- Every instruction takes a byte at least, so that the size of the code bounds their
number. -/
def decodePrefix (code : Bytes) : List Instruction × Option Fault :=
  decodeFrom code.size code 0

def decode (code : Bytes) : Except Fault (List Instruction) :=
  match decodePrefix code with
  | (instructions, none) => .ok instructions
  | (_, some fault) => .error fault

end ClrDecompiler.Cil
