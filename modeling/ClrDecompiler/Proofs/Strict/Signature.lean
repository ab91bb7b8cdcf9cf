/-
This file reads signatures with accesses that are made without asking and shows that it stays in
range and comes to an end: the loops over modifiers take bytes, and the types inside a type are
counted against the limit of nesting.
-/

import ClrDecompiler.Proofs.Strict.Scan

namespace ClrDecompiler

theorem Read.le_of_compressedToken {data : Bytes} {position after : Nat}
    {token : Metadata.Token} (inside : position ≤ data.size)
    (run : Read.compressedToken.runAt data position = (.ok token, after)) : position ≤ after :=
  Read.Local.le_of_runAt Read.local_compressedToken inside run

namespace Strict

open Signature

variable {α : Type}

/-- The bound stands for no test of the loop. It has to be large enough. -/
def skipModifiers : Nat → Scan Unit
  | 0 => throw .endless
  | bound + 1 => do
    if !(← Scan.hasMore) then return ()
    if !isModifier (← Scan.peek) then return ()
    let _ ← Scan.word8
    let _ ← Scan.compressedToken
    skipModifiers bound

def skipAllModifiers : Scan Unit := do
  skipModifiers ((← read).size + 1)

def parseParameter (element : Scan TypeSig) : Scan (Parameter TypeSig) := do
  skipAllModifiers
  let byRef := (← Scan.peek) == 0x10
  if byRef then
    let _ ← Scan.word8
  return { byRef, type := ← element }

def parseParameters (element : Scan TypeSig) : Nat → Scan (List (Parameter TypeSig))
  | 0 => return []
  | count + 1 => do
    if (← Scan.peek) == 0x41 then return []
    let first ← parseParameter element
    return first :: (← parseParameters element count)

def parseMethodWith (element : Scan TypeSig) : Scan MethodSig := do
  let convention ← Scan.word8
  let genericCount ← if convention &&& 0x10 ≠ 0 then Scan.compressedUnsigned else pure 0
  let count ← Scan.compressedUnsigned
  let returns ← parseParameter element
  let params ← parseParameters element count
  return {
    hasThis := convention &&& 0x20 ≠ 0
    explicitThis := convention &&& 0x40 ≠ 0
    vararg := convention &&& 0x0F = 0x05
    genericCount, returns, params }

def parseArray (element : Scan TypeSig) : Scan TypeSig := do
  let type ← element
  let rank ← Scan.compressedUnsigned
  Scan.skipMany Scan.compressedUnsigned (← Scan.compressedUnsigned)
  Scan.skipMany Scan.compressedSigned (← Scan.compressedUnsigned)
  return .array type rank

def parseGeneric (element : Scan TypeSig) : Scan TypeSig := do
  let lead ← Scan.peek
  if lead ≠ 0x11 ∧ lead ≠ 0x12 then throw (.refused (.malformed (.genericBase lead)))
  let base ← element
  return .generic base (← Scan.readMany element (← Scan.compressedUnsigned))

def parseElement (element : Scan TypeSig) (lead : UInt8) : Scan TypeSig :=
  match lead with
  | 0x0F => do
    skipAllModifiers
    .pointer <$> element
  | 0x10 => .byRef <$> element
  | 0x11 => .valueType <$> Scan.compressedToken
  | 0x12 => .classType <$> Scan.compressedToken
  | 0x13 => .typeParam <$> Scan.compressedUnsigned
  | 0x14 => parseArray element
  | 0x15 => parseGeneric element
  | 0x1B => .function <$> parseMethodWith element
  | 0x1D => do
    skipAllModifiers
    .vector <$> element
  | 0x1E => .methodParam <$> Scan.compressedUnsigned
  | 0x1F | 0x20 => do
    let _ ← Scan.compressedToken
    element
  | 0x45 => .pinned <$> element
  | lead =>
    match simpleType? lead with
    | some type => return type
    | none => throw (.refused (.malformed (.elementType lead)))

/-- The outcome of a step as a value, so that more can be done after a refusal. -/
def observe (step : Scan α) : Scan (Run α) :=
  fun data => ExceptT.mk (Except.ok <$> (step.run data).run)

def setDepth (depth : Nat) : Scan Unit :=
  modify fun cursor => { cursor with depth }

theorem runAt_observe (step : Scan α) (data : Bytes) (cursor : Cursor) :
    (observe step).runAt data cursor =
      (.ok (step.runAt data cursor).1, (step.runAt data cursor).2) :=
  rfl

theorem runAt_setDepth (depth : Nat) (data : Bytes) (cursor : Cursor) :
    (setDepth depth).runAt data cursor = (.ok (), { cursor with depth }) :=
  rfl

/-- A step inside one more type. The count goes back also after a refusal, except for the one
that the count itself gives rise to. -/
def within (step : Scan α) : Scan α := do
  let depth ← sum (← get).depth 1
  setDepth depth
  if nestingLimit ≤ depth then throw (.refused (.recursionLimit nestingLimit))
  let outcome ← observe step
  setDepth (← difference (← get).depth 1)
  liftM outcome

/-- The first argument bounds the recursion. It has to be large enough. -/
def parseType : Nat → Scan TypeSig
  | 0 => throw .endless
  | bound + 1 => within do parseElement (parseType bound) (← Scan.word8)

/-- A type that stands inside no other. -/
def parseOuterType : Scan TypeSig :=
  parseType nestingLimit

def parseTypeSpec : Scan TypeSig := do
  skipAllModifiers
  parseOuterType

def parseMethod : Scan MethodSig :=
  parseMethodWith parseOuterType

def parseField : Scan TypeSig := do
  let lead ← Scan.word8
  if lead ≠ 0x06 then throw (.refused (.malformed (.fieldSignature lead)))
  skipAllModifiers
  parseOuterType

def parseLocals : Scan (List TypeSig) := do
  let lead ← Scan.word8
  if lead ≠ 0x07 then throw (.refused (.malformed (.localsSignature lead)))
  let variableType : Scan TypeSig := do
    skipAllModifiers
    parseOuterType
  Scan.readMany variableType (← Scan.compressedUnsigned)

def parseMethodSpec : Scan (List TypeSig) := do
  let lead ← Scan.word8
  if lead ≠ 0x0A then throw (.refused (.malformed (.methodSpecSignature lead)))
  Scan.readMany parseOuterType (← Scan.compressedUnsigned)

variable {depth : Nat}

/-- Every round of the loop but the last takes a byte. -/
theorem sameEnd_skipModifiers {data : Bytes} (addressable : IsAddressable data)
    (bound position : Nat) (enough : data.size ≤ position + bound) :
    SameEnd depth ((skipModifiers (bound + 1)).runAt data ⟨position, depth⟩)
      ((Signature.skipModifiers bound).runAt data position) := by
  induction bound generalizing position with
  | zero =>
    have done : decide (position < data.size) = false := decide_eq_false (Nat.not_lt_of_le enough)
    simp only [skipModifiers, Scan.hasMore, Scan.runAt_bind, Scan.runAt_get, Scan.runAt_read,
      Scan.runAt_pure, done]
    exact .ok () position
  | succ bound ih =>
    refine (Follows.hasMore data position addressable).bind fun more here run => ?_
    cases run
    split
    · exact .ok () position
    refine (Follows.peek data position addressable).bind fun byte here ahead => ?_
    obtain ⟨-, rfl⟩ := Read.peek_eq_ok ahead
    split
    · exact .ok () here
    refine (Follows.word8 data here addressable).bind fun _ next taken => ?_
    obtain ⟨inside, rfl⟩ := Read.word8_eq_ok taken
    refine (Follows.compressedToken data _ addressable).bind fun _ after token => ?_
    have further := Read.le_of_compressedToken inside token
    exact ih after (by omega)

namespace Follows

/-- Modifiers are passed over as long as one follows. -/
theorem skipAllModifiers : Follows depth skipAllModifiers Signature.skipAllModifiers :=
  fun data position addressable =>
    sameEnd_skipModifiers addressable data.size position (Nat.le_add_left _ _)

/-- One level below the limit the scan goes down as the reader does. -/
theorem within {strict : Scan α} {step : Read α} (shallow : depth + 1 < nestingLimit)
    (inner : Follows (depth + 1) strict step) : Follows depth (within strict) step := by
  intro data position addressable
  have ends := inner data position addressable
  have entered : sum depth 1 = .ok (depth + 1) :=
    sum_eq_ok (Nat.lt_trans shallow (by decide))
  simp only [Strict.within, Scan.runAt_bind, Scan.runAt_get, Scan.runAt_liftM, entered,
    runAt_setDepth, if_neg (Nat.not_le_of_lt shallow), runAt_observe]
  revert ends
  generalize strict.runAt data ⟨position, depth + 1⟩ = strictEnd
  generalize step.runAt data position = otherEnd
  intro ends
  cases ends with
  | ok value after =>
    rw [difference_eq_ok (Nat.le_add_left 1 depth)]
    exact .ok value after
  | refused fault le =>
    rw [difference_eq_ok (Nat.le_trans (Nat.le_add_left 1 depth) le)]
    exact .refused fault (Nat.le_sub_one_of_lt le)

/-- At the limit the step is not taken, and the count stays where it is. -/
theorem within_limit (strict : Scan α) (limit : depth + 1 = nestingLimit) :
    Follows depth (Strict.within strict) (throw (.recursionLimit nestingLimit)) := by
  intro data position _
  have entered : sum depth 1 = .ok (depth + 1) :=
    sum_eq_ok (by rw [limit]; decide)
  simp only [Strict.within, Scan.runAt_bind, Scan.runAt_get, Scan.runAt_liftM, entered,
    runAt_setDepth, if_pos (Nat.le_of_eq limit.symm)]
  exact .refused _ (Nat.le_succ depth)

/-- A parameter or a return type, given the reader of the types in it. -/
theorem parseParameter {element : Scan TypeSig} {other : Read TypeSig}
    (inner : Follows depth element other) :
    Follows depth (parseParameter element) (readParameter other) := by
  refine skipAllModifiers.bind fun _ => peek.bind fun lead => ?_
  dsimp only
  split
  · exact word8.bind fun _ => inner.bind fun _ => value _
  · exact inner.bind fun _ => value _

/-- Parameters are parsed one by one. -/
theorem parseParameters {element : Scan TypeSig} {other : Read TypeSig}
    (inner : Follows depth element other) (count : Nat) :
    Follows depth (parseParameters element count) (readParameters other count) := by
  induction count with
  | zero => exact value []
  | succ count ih =>
    exact peek.bind fun _ => ite (fun _ => value []) fun _ =>
      (parseParameter inner).bind fun _ => ih.bind fun _ => value _

/-- A method signature, given the reader of the types in it. -/
theorem parseMethodWith {element : Scan TypeSig} {other : Read TypeSig}
    (inner : Follows depth element other) :
    Follows depth (parseMethodWith element) (readMethodWith other) := by
  refine word8.bind fun convention => ?_
  have afterGenerics (genericCount : Nat) :=
    compressedUnsigned.bind fun count => (parseParameter inner).bind fun returns =>
      (parseParameters inner count).bind fun params =>
        (value ({
          hasThis := convention &&& 0x20 ≠ 0
          explicitThis := convention &&& 0x40 ≠ 0
          vararg := convention &&& 0x0F = 0x05
          genericCount, returns, params } : MethodSig) : Follows depth (pure _) (pure _))
  exact ite (fun _ => compressedUnsigned.bind afterGenerics)
    fun _ => (value 0).bind afterGenerics

/-- The shape of an array is passed over in both. -/
theorem parseArray {element : Scan TypeSig} {other : Read TypeSig}
    (inner : Follows depth element other) :
    Follows depth (parseArray element) (readArray other) :=
  inner.bind fun _ => compressedUnsigned.bind fun _ =>
    compressedUnsigned.bind fun sizes => (skipMany compressedUnsigned sizes).bind fun _ =>
      compressedUnsigned.bind fun bounds => (skipMany compressedSigned bounds).bind fun _ =>
        value _

/-- The arguments of a generic type are counted in both. -/
theorem parseGeneric {element : Scan TypeSig} {other : Read TypeSig}
    (inner : Follows depth element other) :
    Follows depth (parseGeneric element) (readGeneric other) := by
  refine peek.bind fun lead => guard (inner.bind fun base => ?_)
  exact compressedUnsigned.bind fun count => (readMany inner count).bind fun _ => value _

/-- One case for each element type. The others are simple types or refused. -/
theorem parseElement {element : Scan TypeSig} {other : Read TypeSig}
    (inner : Follows depth element other) (lead : UInt8) :
    Follows depth (parseElement element lead) (readElement other lead) := by
  unfold Strict.parseElement
  split
  · exact skipAllModifiers.bind fun _ => inner.map _
  · exact inner.map _
  · exact compressedToken.map _
  · exact compressedToken.map _
  · exact compressedUnsigned.map _
  · exact parseArray inner
  · exact parseGeneric inner
  · exact (parseMethodWith inner).map _
  · exact skipAllModifiers.bind fun _ => inner.map _
  · exact compressedUnsigned.map _
  · exact compressedToken.bind fun _ => inner
  · exact compressedToken.bind fun _ => inner
  · exact inner.map _
  · simp only [Signature.readElement]
    cases simpleType? lead with
    | none => exact refusal _
    | some type => exact value type

/-- The depth and the levels that are left add up, so that the recursion ends at the limit. -/
theorem parseType {levels bound : Nat} (limit : depth + levels + 1 = nestingLimit)
    (enough : levels < bound) : Follows depth (parseType bound) (readType levels) := by
  induction levels generalizing depth bound with
  | zero =>
    cases bound with
    | zero => cases enough
    | succ bound => exact within_limit _ limit
  | succ levels ih =>
    cases bound with
    | zero => cases enough
    | succ bound =>
      have deeper : Follows (depth + 1) (Strict.parseType bound) (readType levels) :=
        ih (by omega) (by omega)
      exact within (by omega) (word8.bind fun lead => parseElement deeper lead)

/-- A type that stands alone is parsed from the outermost level. -/
theorem parseOuterType : Follows 0 parseOuterType (readType Place.start.levels) :=
  parseType rfl (by decide)

/-- The signatures of all kinds are parsed from the outermost level. -/
theorem parseTypeSpec : Follows 0 parseTypeSpec (readTypeSpec Place.start.levels) :=
  skipAllModifiers.bind fun _ => parseOuterType

/-- So is a method. -/
theorem parseMethod : Follows 0 parseMethod (readMethod Place.start.levels) :=
  parseMethodWith parseOuterType

/-- So is a field. -/
theorem parseField : Follows 0 parseField (readField Place.start.levels) :=
  word8.bind fun _ => guard (skipAllModifiers.bind fun _ => parseOuterType)

/-- So are local variables. -/
theorem parseLocals : Follows 0 parseLocals (readLocals Place.start.levels) :=
  word8.bind fun _ => guard (compressedUnsigned.bind fun count =>
    readMany (skipAllModifiers.bind fun _ => parseOuterType) count)

/-- So are the type arguments of a method. -/
theorem parseMethodSpec : Follows 0 parseMethodSpec (readMethodSpec Place.start.levels) :=
  word8.bind fun _ => guard (compressedUnsigned.bind fun count => readMany parseOuterType count)

end Follows

/-- A signature at the start of a blob is read in range and to its end. -/
theorem Follows.ofBlob {strict : Scan α} {step : Nat → Read α}
    (follows : Follows 0 strict (step Place.start.levels)) {blob : Bytes}
    (addressable : IsAddressable blob) :
    Settles (strict.runFrom blob 0) (Signature.ofBlob step blob) :=
  follows.settles addressable 0

end Strict

end ClrDecompiler
