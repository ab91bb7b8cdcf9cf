/-
This file reads signatures from the blobs of the metadata.
-/

import ClrDecompiler.Bytes.Cursor
import ClrDecompiler.Signature.Basic

namespace ClrDecompiler.Signature

/-- A type may not be nested this deeply in another. -/
def nestingLimit : Nat := 50

def isModifier (byte : UInt8) : Bool :=
  byte == 0x1F || byte == 0x20

/-- Custom modifiers, which have no bearing on a type, are passed over. The first argument
bounds their number. -/
def skipModifiers : Nat → Read Unit
  | 0 => return ()
  | bound + 1 => do
    if !(← Read.hasMore) then return ()
    if !isModifier (← Read.peek) then return ()
    let _ ← Read.word8
    let _ ← Read.compressedToken
    skipModifiers bound

def skipAllModifiers : Read Unit := do
  skipModifiers (← Read.size)

def skipMany {α : Type} (step : Read α) : Nat → Read Unit
  | 0 => return ()
  | count + 1 => do
    let _ ← step
    skipMany step count

def readMany {α : Type} (step : Read α) : Nat → Read (List α)
  | 0 => return []
  | count + 1 => do
    let first ← step
    return first :: (← readMany step count)

def readParameter (element : Read TypeSig) : Read (Parameter TypeSig) := do
  skipAllModifiers
  let byRef := (← Read.peek) == 0x10
  if byRef then
    let _ ← Read.word8
  return { byRef, type := ← element }

/-- The parameters end before the mark after which a call adds arguments of its own. -/
def readParameters (element : Read TypeSig) : Nat → Read (List (Parameter TypeSig))
  | 0 => return []
  | count + 1 => do
    if (← Read.peek) == 0x41 then return []
    let first ← readParameter element
    return first :: (← readParameters element count)

def readMethodWith (element : Read TypeSig) : Read MethodSig := do
  let convention ← Read.word8
  let genericCount ← if convention &&& 0x10 ≠ 0 then Read.compressedUnsigned else pure 0
  let count ← Read.compressedUnsigned
  let returns ← readParameter element
  let params ← readParameters element count
  return {
    hasThis := convention &&& 0x20 ≠ 0
    explicitThis := convention &&& 0x40 ≠ 0
    vararg := convention &&& 0x0F = 0x05
    genericCount, returns, params }

/-- An array is given by its element type, its rank, and sizes and lower bounds, of which
only the rank is kept. -/
def readArray (element : Read TypeSig) : Read TypeSig := do
  let type ← element
  let rank ← Read.compressedUnsigned
  skipMany Read.compressedUnsigned (← Read.compressedUnsigned)
  skipMany Read.compressedSigned (← Read.compressedUnsigned)
  return .array type rank

def readGeneric (element : Read TypeSig) : Read TypeSig := do
  let lead ← Read.peek
  if lead ≠ 0x11 ∧ lead ≠ 0x12 then throw (.malformed (.genericBase lead))
  let base ← element
  return .generic base (← readMany element (← Read.compressedUnsigned))

def simpleType? : UInt8 → Option TypeSig
  | 0x01 => some .void
  | 0x02 => some .boolean
  | 0x03 => some .char
  | 0x04 => some .int8
  | 0x05 => some .uint8
  | 0x06 => some .int16
  | 0x07 => some .uint16
  | 0x08 => some .int32
  | 0x09 => some .uint32
  | 0x0A => some .int64
  | 0x0B => some .uint64
  | 0x0C => some .float32
  | 0x0D => some .float64
  | 0x0E => some .string
  | 0x16 => some .typedByRef
  | 0x18 => some .nativeInt
  | 0x19 => some .nativeUint
  | 0x1C => some .object
  | _ => none

/-- The type that an element byte introduces, with the types inside it read by `element`. -/
def readElement (element : Read TypeSig) (lead : UInt8) : Read TypeSig :=
  match lead with
  | 0x0F => do
    skipAllModifiers
    .pointer <$> element
  | 0x10 => .byRef <$> element
  | 0x11 => .valueType <$> Read.compressedToken
  | 0x12 => .classType <$> Read.compressedToken
  | 0x13 => .typeParam <$> Read.compressedUnsigned
  | 0x14 => readArray element
  | 0x15 => readGeneric element
  | 0x1B => .function <$> readMethodWith element
  | 0x1D => do
    skipAllModifiers
    .vector <$> element
  | 0x1E => .methodParam <$> Read.compressedUnsigned
  | 0x1F | 0x20 => do
    let _ ← Read.compressedToken
    element
  | 0x45 => .pinned <$> element
  | lead =>
    match simpleType? lead with
    | some type => return type
    | none => throw (.malformed (.elementType lead))

/-- A type whose levels of nesting are bounded. -/
def readType : Nat → Read TypeSig
  | 0 => throw (.recursionLimit nestingLimit)
  | levels + 1 => do readElement (readType levels) (← Read.word8)

def readTypeSpec (levels : Nat) : Read TypeSig := do
  skipAllModifiers
  readType levels

def readMethod (levels : Nat) : Read MethodSig :=
  readMethodWith (readType levels)

def readField (levels : Nat) : Read TypeSig := do
  let lead ← Read.word8
  if lead ≠ 0x06 then throw (.malformed (.fieldSignature lead))
  skipAllModifiers
  readType levels

def readLocals (levels : Nat) : Read (List TypeSig) := do
  let lead ← Read.word8
  if lead ≠ 0x07 then throw (.malformed (.localsSignature lead))
  let variableType : Read TypeSig := do
    skipAllModifiers
    readType levels
  readMany variableType (← Read.compressedUnsigned)

def readMethodSpec (levels : Nat) : Read (List TypeSig) := do
  let lead ← Read.word8
  if lead ≠ 0x0A then throw (.malformed (.methodSpecSignature lead))
  readMany (readType levels) (← Read.compressedUnsigned)

/-- A place in a blob from which several signatures are read. Every signature that was
refused for its nesting takes one level away from those after it. -/
structure Place where
  position : Nat
  lostLevels : Nat
  deriving DecidableEq, Repr

def Place.start : Place := ⟨0, 0⟩

def Place.levels (place : Place) : Nat :=
  nestingLimit - 1 - place.lostLevels

def Place.read {α : Type} (place : Place) (step : Nat → Read α) (data : Bytes) :
    Except Fault α × Place :=
  let (outcome, position) := (step place.levels).runAt data place.position
  let lost := match outcome with
    | .error (.recursionLimit _) => 1
    | _ => 0
  (outcome, { position, lostLevels := place.lostLevels + lost })

/-- The signature at the start of a blob. -/
def ofBlob {α : Type} (step : Nat → Read α) (data : Bytes) : Except Fault α :=
  (Place.start.read step data).1

end ClrDecompiler.Signature
