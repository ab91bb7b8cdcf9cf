/-
This file reads byte strings in sequence with accesses that are made without asking, and shows
that such a reader does what the one that asks does. A reader keeps count of the types that it
is inside of.
-/

import ClrDecompiler.Proofs.Bytes.Locality
import ClrDecompiler.Proofs.Strict.Access
import ClrDecompiler.Signature.Reader

namespace ClrDecompiler

open Metadata

namespace Read

variable {α : Type} {data : Bytes} {position after : Nat}

/-- A reader does not go back. -/
theorem Local.le_of_runAt {step : Read α} (follows : step.Local) (inside : position ≤ data.size)
    {value : α} (run : step.runAt data position = (.ok value, after)) : position ≤ after := by
  obtain ⟨_, used, -, here, -⟩ := follows.runAt_drop inside
  rw [run] at here
  cases here
  exact Nat.le_add_right position used

/-- A compressed number takes a byte at least. -/
theorem lt_of_compressedUnsigned {value : Nat}
    (run : Read.compressedUnsigned.runAt data position = (.ok value, after)) :
    position < after := by
  obtain ⟨lead, middle, first, rest⟩ := of_runAt_bind run
  obtain ⟨inside, rfl⟩ := word8_eq_ok first
  refine Local.le_of_runAt ?_ inside rest
  split
  · exact local_pure _
  split
  · exact local_bigEndianFrom _ 1
  split
  · exact local_bigEndianFrom _ 3
  · exact local_throw _

end Read

namespace Strict

variable {α β : Type}

structure Cursor where
  position : Nat
  depth : Nat
  deriving DecidableEq, Repr

abbrev Scan := ReaderT Bytes (ExceptT Stop (StateM Cursor))

namespace Scan

def runAt (step : Scan α) (data : Bytes) (cursor : Cursor) : Run α × Cursor :=
  (step.run data).run.run cursor

/-- The outcome of a step that starts at a position. -/
def runFrom (step : Scan α) (data : Bytes) (position : Nat) : Run α :=
  (step.runAt data ⟨position, 0⟩).1

def moveTo (target : Nat) : Scan Unit :=
  modify fun cursor => { cursor with position := target }

def hasMore : Scan Bool := do
  return (← get).position < (← read).size

def peek : Scan UInt8 := do
  let position := (← get).position
  let data ← read
  if data.size ≤ position then throw (.refused .outOfBounds)
  item data position

def bytes (count : Nat) : Scan Bytes := do
  let position := (← get).position
  let stop ← checked (position + count) .outOfBounds
  let data ← read
  if data.size < stop then throw (.refused .outOfBounds)
  let found ← slice data position stop
  moveTo stop
  return found

def number (width : Nat) : Scan Nat := do
  return Bytes.ofLittleEndian (← bytes width).toList

def signed (width : Nat) : Scan Int := do
  return Int.bmod (← number width) (1 <<< (8 * width))

def word8 : Scan UInt8 :=
  UInt8.ofNat <$> number 1

def word16 : Scan UInt16 :=
  UInt16.ofNat <$> number 2

def word32 : Scan UInt32 :=
  UInt32.ofNat <$> number 4

def word64 : Scan UInt64 :=
  UInt64.ofNat <$> number 8

def index (wide : Bool) : Scan UInt32 :=
  if wide then word32 else UInt16.toUInt32 <$> word16

def bigEndianFrom (lead : Nat) : Nat → Scan Nat
  | 0 => return lead
  | count + 1 => do bigEndianFrom (lead * 0x100 + (← word8).toNat) count

def compressedUnsigned : Scan Nat := do
  let lead ← word8
  if lead < 0x80 then return lead.toNat
  else if lead < 0xC0 then bigEndianFrom (lead.toNat &&& 0x3F) 1
  else if lead < 0xE0 then bigEndianFrom (lead.toNat &&& 0x1F) 3
  else throw (.refused (.malformed (.compressedLead lead)))

def compressedSigned : Scan Int := do
  let start := (← get).position
  let rotated ← compressedUnsigned
  let width ← difference (← get).position start
  let half := match width with
    | 1 => 0x40
    | 2 => 0x2000
    | _ => 0x10000000
  return Compressed.unrotate half rotated

def compressedToken : Scan Token := do
  let value ← compressedUnsigned
  let table : UInt32 ←
    match value % 4 with
    | 0 => pure 0x02000000
    | 1 => pure 0x01000000
    | 2 => pure 0x1B000000
    | _ => throw (.refused (.malformed (.compressedToken value)))
  return ⟨table + UInt32.ofNat (value / 4)⟩

def serializedText : Scan (Option String) := do
  if (← peek) == 0xFF then
    moveTo (← sum (← get).position 1)
    return none
  let length ← compressedUnsigned
  let start := (← get).position
  match Utf8.decode (← bytes length).toList with
  | .ok text => return some text
  | .error flaw =>
    let stop ← sum start length
    throw (.refused (.malformed (.serializedText start stop flaw)))

def readMany (step : Scan α) : Nat → Scan (List α)
  | 0 => return []
  | count + 1 => do
    let first ← step
    return first :: (← readMany step count)

def skipMany (step : Scan α) : Nat → Scan Unit
  | 0 => return ()
  | count + 1 => do
    let _ ← step
    skipMany step count

section Runs

variable (data : Bytes) (cursor : Cursor)

theorem runAt_pure (value : α) : (pure value : Scan α).runAt data cursor = (.ok value, cursor) :=
  rfl

/-- A step that stops leaves the rest undone, and the cursor where it stopped. -/
theorem runAt_bind (step : Scan α) (next : α → Scan β) :
    (step >>= next).runAt data cursor =
      match step.runAt data cursor with
      | (.ok value, after) => (next value).runAt data after
      | (.error stop, after) => (.error stop, after) := by
  simp only [runAt, ReaderT.run_bind, ExceptT.run_bind, StateT.run_bind]
  change (match ((step.run data).run.run cursor) with | (value, after) => _) = _
  rcases (step.run data).run.run cursor with ⟨outcome | value, after⟩ <;> rfl

theorem runAt_read : (read : Scan Bytes).runAt data cursor = (.ok data, cursor) :=
  rfl

theorem runAt_get : (get : Scan Cursor).runAt data cursor = (.ok cursor, cursor) :=
  rfl

theorem runAt_moveTo (target : Nat) :
    (moveTo target).runAt data cursor = (.ok (), { cursor with position := target }) :=
  rfl

/-- A run that reads nothing leaves the cursor where it is. -/
theorem runAt_liftM (run : Run α) : (liftM run : Scan α).runAt data cursor = (run, cursor) := by
  cases run <;> rfl

end Runs

end Scan

/-- Two steps that started at the depth have ended in the same way: with the same value at the
same place and back at the depth, or with the same refusal and not above the depth. -/
inductive SameEnd (depth : Nat) : Run α × Cursor → Except Fault α × Nat → Prop where
  | ok (value : α) (position : Nat) :
    SameEnd depth (.ok value, ⟨position, depth⟩) (.ok value, position)
  | refused (fault : Fault) {cursor : Cursor} {position : Nat} (le : depth ≤ cursor.depth) :
    SameEnd depth (.error (.refused fault), cursor) (.error fault, position)

/-- Started at the depth, the strict step does what the other step does. -/
def Follows (depth : Nat) (strict : Scan α) (step : Read α) : Prop :=
  ∀ data position, IsAddressable data →
    SameEnd depth (strict.runAt data ⟨position, depth⟩) (step.runAt data position)

variable {depth : Nat}

namespace Follows

/-- A value that is given follows itself. -/
theorem value (value : α) : Follows depth (pure value) (pure value) :=
  fun _ position _ => .ok value position

/-- So does a refusal. -/
theorem refusal (fault : Fault) : Follows depth (throw (.refused fault) : Scan α) (throw fault) :=
  fun _ _ _ => .refused fault (Nat.le_refl depth)

end Follows

/-- The second steps start where the first ones ended. -/
theorem SameEnd.bind {depth : Nat} {strict : Scan α} {step : Read α} {strictNext : α → Scan β}
    {next : α → Read β} {data : Bytes} {position : Nat}
    (first : SameEnd depth (strict.runAt data ⟨position, depth⟩) (step.runAt data position))
    (second : ∀ value middle, step.runAt data position = (.ok value, middle) →
      SameEnd depth ((strictNext value).runAt data ⟨middle, depth⟩)
        ((next value).runAt data middle)) :
    SameEnd depth ((strict >>= strictNext).runAt data ⟨position, depth⟩)
      ((step >>= next).runAt data position) := by
  rw [Scan.runAt_bind, Read.runAt_bind]
  revert first second
  generalize strict.runAt data ⟨position, depth⟩ = strictEnd
  generalize step.runAt data position = otherEnd
  intro first second
  cases first with
  | ok value middle => exact second value middle rfl
  | refused fault le => exact .refused fault le

namespace Follows

/-- Scans that follow readers one after the other do so together. -/
theorem bind {strict : Scan α} {step : Read α} {strictNext : α → Scan β} {next : α → Read β}
    (first : Follows depth strict step)
    (second : ∀ value, Follows depth (strictNext value) (next value)) :
    Follows depth (strict >>= strictNext) (step >>= next) :=
  fun data position addressable => (first data position addressable).bind
    fun value middle _ => second value data middle addressable

/-- A value that both give may be changed alike. -/
theorem map {strict : Scan α} {step : Read α} (f : α → β) (inner : Follows depth strict step) :
    Follows depth (f <$> strict) (f <$> step) := by
  rw [map_eq_pure_bind, map_eq_pure_bind]
  exact inner.bind fun _ => value _

/-- Both sides branch on the same condition. -/
theorem ite {condition : Prop} [Decidable condition] {strict strictElse : Scan α}
    {step stepElse : Read α} (holds : condition → Follows depth strict step)
    (fails : ¬ condition → Follows depth strictElse stepElse) :
    Follows depth (if condition then strict else strictElse)
      (if condition then step else stepElse) := by
  split
  · next condition => exact holds condition
  · next condition => exact fails condition

/-- Both sides refuse on the same condition, with the same fault. -/
theorem guard {refuses : Prop} [Decidable refuses] {fault : Fault}
    {strict : Scan α} {step : Read α} {rest : PUnit → Scan α} {restStep : PUnit → Read α}
    (accepted : Follows depth strict step) :
    Follows depth (if refuses then throw (.refused fault) >>= rest else strict)
      (if refuses then throw fault >>= restStep else step) := by
  refine .ite (fun _ => ?_) fun _ => accepted
  exact fun _ _ _ => .refused fault (Nat.le_refl depth)

/-- An access that stays in range has no counterpart. -/
theorem access {run : Run α} {value : α} {strictNext : α → Scan β} {step : Read β}
    (inside : run = .ok value) (rest : Follows depth (strictNext value) step) :
    Follows depth (liftM run >>= strictNext) step := by
  subst inside
  exact rest

/-- A run that settles can be a step of a scan. -/
theorem liftM {run : Run α} {outcome : Except Fault α} (same : Settles run outcome) :
    Follows depth (liftM run) (liftM outcome) := by
  cases same with
  | ok results =>
    rw [results]
    exact value _
  | refused fault => exact refusal fault

/-- A scan that follows a reader from the start settles at every place. -/
theorem settles {strict : Scan α} {step : Read α} (follows : Follows 0 strict step) {data : Bytes}
    (addressable : IsAddressable data) (position : Nat) :
    Settles (strict.runFrom data position) (step.runAt data position).1 := by
  have ends := follows data position addressable
  rw [Scan.runFrom]
  revert ends
  generalize strict.runAt data ⟨position, 0⟩ = strictEnd
  generalize step.runAt data position = otherEnd
  intro ends
  cases ends with
  | ok value middle => exact .value value
  | refused fault le => exact .refused fault

/-- Both see the end of the data. -/
theorem hasMore : Follows depth Scan.hasMore Read.hasMore :=
  fun _ position _ => .ok _ position

/-- Both look at the next byte alike. -/
theorem peek : Follows depth Scan.peek Read.peek := by
  intro data position addressable
  simp only [Scan.peek, Read.peek, Scan.runAt_bind, Read.runAt_bind, Scan.runAt_get,
    Read.runAt_get, Scan.runAt_read, Read.runAt_read]
  by_cases inside : position < data.size
  · have found : data[position]? = some data[position] := Array.getElem?_eq_getElem inside
    rw [if_neg (Nat.not_le_of_lt inside), Scan.runAt_liftM, item_eq_ok found, found]
    exact .ok _ position
  · have missing : data[position]? = none := Array.getElem?_eq_none (Nat.le_of_not_lt inside)
    rw [if_pos (Nat.le_of_not_lt inside), missing]
    exact .refused _ (Nat.le_refl depth)

/-- The end of the bytes is computed without an overflow. -/
theorem bytes (count : Nat) : Follows depth (Scan.bytes count) (Read.bytes count) := by
  intro data position addressable
  have limit : data.size < 2 ^ 63 := addressable
  simp only [Scan.bytes, Read.bytes, Scan.runAt_bind, Read.runAt_bind, Scan.runAt_get,
    Read.runAt_get, Scan.runAt_read, Read.runAt_read, Scan.runAt_liftM]
  by_cases inside : position + count ≤ data.size
  · rw [checked, if_pos (by rw [wordLimit]; omega), Bytes.slice?, if_pos inside]
    simp only [if_neg (Nat.not_lt_of_le inside), Scan.runAt_bind, Scan.runAt_liftM,
      slice_eq_ok (Nat.le_add_right position count) inside]
    exact .ok _ _
  · rw [Bytes.slice?, if_neg inside]
    by_cases large : position + count < wordLimit
    · simp only [checked, if_pos large, if_pos (Nat.lt_of_not_le inside)]
      exact .refused .outOfBounds (Nat.le_refl depth)
    · simp only [checked, if_neg large]
      exact .refused .outOfBounds (Nat.le_refl depth)

/-- A number is read alike, whatever its width. -/
theorem number (width : Nat) : Follows depth (Scan.number width) (Read.number width) :=
  (bytes width).bind fun _ => value _

theorem signed (width : Nat) : Follows depth (Scan.signed width) (Read.signed width) :=
  (number width).bind fun _ => value _

theorem word8 : Follows depth Scan.word8 Read.word8 :=
  (number 1).map _

theorem word16 : Follows depth Scan.word16 Read.word16 :=
  (number 2).map _

theorem word32 : Follows depth Scan.word32 Read.word32 :=
  (number 4).map _

theorem word64 : Follows depth Scan.word64 Read.word64 :=
  (number 8).map _

/-- So is an index, narrow or wide. -/
theorem index (wide : Bool) : Follows depth (Scan.index wide) (Read.index wide) :=
  ite (fun _ => word32) fun _ => word16.map _

/-- The bytes of a compressed number are taken one by one. -/
theorem bigEndianFrom (lead count : Nat) :
    Follows depth (Scan.bigEndianFrom lead count) (Read.bigEndianFrom lead count) := by
  induction count generalizing lead with
  | zero => exact value lead
  | succ count ih => exact word8.bind fun _ => ih _

/-- The strict reader of compressed numbers never leaves the data. -/
theorem compressedUnsigned : Follows depth Scan.compressedUnsigned Read.compressedUnsigned := by
  refine word8.bind fun lead => ite (fun _ => value _) fun one => ite (fun two => ?_) fun more =>
    ite (fun four => ?_) fun _ => refusal _
  · have same : lead.toNat &&& 0x3F = lead.toNat - 0x80 := by
      have above : 0x80 ≤ lead.toNat := Nat.le_of_not_lt one
      have below : lead.toNat < 0xC0 := two
      have low : lead.toNat &&& 0x3F = lead.toNat % 64 := Nat.and_two_pow_sub_one_eq_mod _ 6
      omega
    rw [same]
    exact bigEndianFrom _ 1
  · have same : lead.toNat &&& 0x1F = lead.toNat - 0xC0 := by
      have above : 0xC0 ≤ lead.toNat := Nat.le_of_not_lt more
      have below : lead.toNat < 0xE0 := four
      have low : lead.toNat &&& 0x1F = lead.toNat % 32 := Nat.and_two_pow_sub_one_eq_mod _ 5
      omega
    rw [same]
    exact bigEndianFrom _ 3

/-- The bytes of a signed number are counted without going below zero. -/
theorem compressedSigned : Follows depth Scan.compressedSigned Read.compressedSigned := by
  intro data position addressable
  refine (compressedUnsigned data position addressable).bind fun rotated middle run => ?_
  have width : difference middle position = .ok (middle - position) :=
    difference_eq_ok (Nat.le_of_lt (Read.lt_of_compressedUnsigned run))
  simp only [Scan.runAt_bind, Read.runAt_bind, Scan.runAt_get, Read.runAt_get, Scan.runAt_liftM,
    width]
  exact .ok _ middle

/-- The strict reader of tokens never leaves the data. -/
theorem compressedToken : Follows depth Scan.compressedToken Read.compressedToken := by
  refine compressedUnsigned.bind fun raw => ?_
  have tag : raw % 4 = 0 ∨ raw % 4 = 1 ∨ raw % 4 = 2 ∨ raw % 4 = 3 := by omega
  rcases tag with tag | tag | tag | tag <;> simp only [tag]
  · exact (value _).bind fun _ => value _
  · exact (value _).bind fun _ => value _
  · exact (value _).bind fun _ => value _
  · exact (refusal _).bind fun _ => value _

/-- The strict reader of the texts of attributes never leaves the data. -/
theorem serializedText : Follows depth Scan.serializedText Read.serializedText := by
  intro data position addressable
  refine (peek data position addressable).bind fun lead middle ahead => ?_
  obtain ⟨inside, rfl⟩ := Read.peek_eq_ok ahead
  have limit : data.size < 2 ^ 63 := addressable
  split
  · have moved : sum middle 1 = .ok (middle + 1) := sum_eq_ok (by rw [wordLimit]; omega)
    simp only [Scan.runAt_bind, Scan.runAt_get, Scan.runAt_liftM, moved, Scan.runAt_moveTo]
    exact .ok none (middle + 1)
  · refine (compressedUnsigned data middle addressable).bind fun length start _ => ?_
    refine (bytes length data start addressable).bind fun found stop run => ?_
    have fits := (Read.bytes_eq_ok run).1
    cases Utf8.decode found.toList with
    | ok text => exact .ok (some text) stop
    | error flaw =>
      have summed : sum start length = .ok (start + length) :=
        sum_eq_ok (by rw [wordLimit]; omega)
      simp only [Scan.runAt_bind, Scan.runAt_liftM, summed]
      exact .refused _ (Nat.le_refl depth)

/-- Entries that are read one after the other. -/
theorem readMany {strict : Scan α} {step : Read α} (inner : Follows depth strict step)
    (count : Nat) : Follows depth (Scan.readMany strict count) (Signature.readMany step count) := by
  induction count with
  | zero => exact value []
  | succ count ih => exact inner.bind fun _ => ih.bind fun _ => value _

/-- Entries that are passed over one after the other. -/
theorem skipMany {strict : Scan α} {step : Read α} (inner : Follows depth strict step)
    (count : Nat) : Follows depth (Scan.skipMany strict count) (Signature.skipMany step count) := by
  induction count with
  | zero => exact value ()
  | succ count ih => exact inner.bind fun _ => ih

end Follows

end Strict

end ClrDecompiler
