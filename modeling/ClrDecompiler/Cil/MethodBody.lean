/-
This file reads method bodies: the tiny or fat header, the code and the exception clauses
of the sections after the code.
-/

import ClrDecompiler.Bytes.Cursor

namespace ClrDecompiler.Cil

inductive ClauseKind where
  | catchHandler
  | filter
  | finallyHandler
  | faultHandler
  deriving DecidableEq, Repr

/-- The place of a clause is given by offsets and lengths in the code. The last field is the
token of the caught type or the offset of the filter. -/
structure ExceptionClause where
  flags : UInt16
  tryOffset : UInt32
  tryLength : UInt32
  handlerOffset : UInt32
  handlerLength : UInt32
  classOrFilter : UInt32
  deriving DecidableEq, Repr

namespace ExceptionClause

/-- Only the three flags that tell the kinds apart are kept. -/
def knownFlags (flags : UInt16) : UInt16 :=
  flags &&& 7

def kind (clause : ExceptionClause) : ClauseKind :=
  if clause.flags &&& 2 != 0 then .finallyHandler
  else if clause.flags &&& 4 != 0 then .faultHandler
  else if clause.flags &&& 1 != 0 then .filter
  else .catchHandler

def readFat : Read ExceptionClause := do
  return {
    flags := knownFlags (← Read.word32).toUInt16
    tryOffset := ← Read.word32
    tryLength := ← Read.word32
    handlerOffset := ← Read.word32
    handlerLength := ← Read.word32
    classOrFilter := ← Read.word32 }

def readSmall : Read ExceptionClause := do
  return {
    flags := knownFlags (← Read.word16)
    tryOffset := (← Read.word16).toUInt32
    tryLength := (← Read.word8).toUInt32
    handlerOffset := (← Read.word16).toUInt32
    handlerLength := (← Read.word8).toUInt32
    classOrFilter := ← Read.word32 }

def readMany (step : Read ExceptionClause) : Nat → Read (List ExceptionClause)
  | 0 => return []
  | count + 1 => do
    let first ← step
    return first :: (← readMany step count)

end ExceptionClause

def ClauseKind.name : ClauseKind → String
  | .catchHandler => "catch"
  | .filter => "filter"
  | .finallyHandler => "finally"
  | .faultHandler => "fault"

structure MethodBody where
  headerSize : Nat
  code : Bytes
  localsToken : UInt32
  maxStack : Nat
  isFat : Bool
  initLocals : Bool
  clauses : List ExceptionClause
  deriving DecidableEq, Repr

namespace MethodBody

/-- The clauses of a chain of sections. A section that holds no clauses or does not fit ends
the chain. Every section is four bytes long at least, so that `bound` limits their number. -/
def readSections : Nat → Bytes → Nat → Except Fault (List ExceptionClause)
  | 0, _, _ => .ok []
  | bound + 1, data, cursor => do
    if data.size ≤ cursor + 4 then return []
    let flags ← Bytes.orOutOfBounds (data.byteAt? cursor)
    if flags &&& 0x01 == 0 then return []
    let isFat := flags &&& 0x40 != 0
    let size ←
      if isFat then do
        pure ((← Bytes.orOutOfBounds (data.numberAt? cursor 4)) / 0x100)
      else Bytes.orOutOfBounds (data.numberAt? (cursor + 1) 1)
    if size < 4 ∨ data.size < cursor + size then return []
    let step := if isFat then ExceptionClause.readFat else ExceptionClause.readSmall
    let count := (size - 4) / (if isFat then 24 else 12)
    let clauses ← ((ExceptionClause.readMany step count).runAt data (cursor + 4)).1
    if flags &&& 0x80 == 0 then return clauses
    return clauses ++ (← readSections bound data (Bytes.alignUp 4 (cursor + size)))

def readTiny (data : Bytes) (lead : UInt8) : Except Fault MethodBody := do
  let code ← Bytes.orOutOfBounds (data.slice? 1 (lead.toNat / 4))
  return { headerSize := 1, code, localsToken := 0, maxStack := 8, isFat := false,
           initLocals := false, clauses := [] }

def readFat (data : Bytes) : Except Fault MethodBody := do
  if data.size < 12 then throw .outOfBounds
  let flags ← Bytes.orOutOfBounds (data.word16At? 0)
  let maxStack ← Bytes.orOutOfBounds (data.numberAt? 2 2)
  let codeSize ← Bytes.orOutOfBounds (data.numberAt? 4 4)
  let localsToken ← Bytes.orOutOfBounds (data.word32At? 8)
  let headerSize := flags.toNat / 0x1000 * 4
  if headerSize < 12 then throw .outOfBounds
  let code ← Bytes.orOutOfBounds (data.slice? headerSize codeSize)
  let clauses ←
    if flags &&& 0x08 == 0 then pure []
    else readSections data.size data (Bytes.alignUp 4 (headerSize + codeSize))
  return { headerSize, code, localsToken, maxStack, isFat := true,
           initLocals := flags &&& 0x10 != 0, clauses }

/-- The body at the start of the data. The low two bits choose the header. -/
def read (data : Bytes) : Except Fault MethodBody :=
  match data[0]? with
  | none => .error (.malformed .bodyEmpty)
  | some lead =>
    if lead &&& 3 == 2 then readTiny data lead
    else if lead &&& 3 == 3 then readFat data
    else .error (.malformed (.bodyHeader lead))

end MethodBody

end ClrDecompiler.Cil
