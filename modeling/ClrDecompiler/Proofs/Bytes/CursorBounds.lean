/-
This file follows the position of a reader through any sequence of calls, those that fail included.
The position stays inside the data, only a jump moves it back, and an access that fails does not
move it.
-/

import ClrDecompiler.Proofs.Bytes.FixedWidth
import ClrDecompiler.Proofs.Bytes.Locality

namespace ClrDecompiler.Read

open Metadata

/-- What can be asked of a reader. A width, a target or a count may be any number, also one that is
so large that its sum with a position does not fit into a machine word. -/
inductive Operation where
  | word8
  | word16
  | word32
  | word64
  | signed (width : Nat)
  | compressedUnsigned
  | compressedSigned
  | compressedToken
  | peek
  | seek (target : Nat)
  | bytes (count : Nat)
  | serializedText
  deriving DecidableEq, Repr

inductive Reading where
  | word8 (value : UInt8)
  | word16 (value : UInt16)
  | word32 (value : UInt32)
  | word64 (value : UInt64)
  | number (value : Nat)
  | integer (value : Int)
  | token (token : Token)
  | bytes (found : Bytes)
  | text (text : Option String)
  | moved
  deriving DecidableEq, Repr

def Operation.read : Operation → Read Reading
  | .word8 => .word8 <$> Read.word8
  | .word16 => .word16 <$> Read.word16
  | .word32 => .word32 <$> Read.word32
  | .word64 => .word64 <$> Read.word64
  | .signed width => .integer <$> Read.signed width
  | .compressedUnsigned => .number <$> Read.compressedUnsigned
  | .compressedSigned => .integer <$> Read.compressedSigned
  | .compressedToken => .token <$> Read.compressedToken
  | .peek => .word8 <$> Read.peek
  | .seek target => (fun _ => .moved) <$> Read.seek target
  | .bytes count => .bytes <$> Read.bytes count
  | .serializedText => .text <$> Read.serializedText

structure Call where
  operation : Operation
  before : Nat
  outcome : Except Fault Reading
  after : Nat

/-- The calls are made one after the other, also after one that failed. -/
def calls (data : Bytes) : Nat → List Operation → List Call
  | _, [] => []
  | position, operation :: operations =>
    let (outcome, after) := operation.read.runAt data position
    ⟨operation, position, outcome, after⟩ :: calls data after operations

/-- An operation that asks once whether the data go far enough, and the position after it if they
do. -/
structure Access where
  reach : Nat
  next : Nat
  deriving DecidableEq, Repr

/-- The access of an operation at a position, if it makes only one. -/
def Operation.access? (position : Nat) : Operation → Option Access
  | .word8 => some ⟨position + 1, position + 1⟩
  | .word16 => some ⟨position + 2, position + 2⟩
  | .word32 => some ⟨position + 4, position + 4⟩
  | .word64 => some ⟨position + 8, position + 8⟩
  | .signed width => some ⟨position + width, position + width⟩
  | .peek => some ⟨position + 1, position⟩
  | .seek target => some ⟨target, target⟩
  | .bytes count => some ⟨position + count, position + count⟩
  | .compressedUnsigned | .compressedSigned | .compressedToken | .serializedText => none

/-- The access succeeds exactly if the data go far enough. If they do not, the position stays. -/
def Access.IsMade (access : Access) (data : Bytes) (position : Nat)
    (run : Except Fault Reading × Nat) : Prop :=
  if access.reach ≤ data.size then ∃ value, run = (.ok value, access.next)
  else run = (.error .outOfBounds, position)

/-- What a call does with the position. -/
structure Call.Stays (data : Bytes) (call : Call) : Prop where
  before_le : call.before ≤ data.size
  after_le : call.after ≤ data.size
  forward : (∀ target, call.operation ≠ .seek target) → call.before ≤ call.after
  access : ∀ access, call.operation.access? call.before = some access →
    access.IsMade data call.before (call.outcome, call.after)
  kept : (call.operation.access? call.before).isSome → ∀ fault, call.outcome = .error fault →
    call.after = call.before
  taken : ∀ count, call.operation = .bytes count → ∀ value, call.outcome = .ok value →
    call.after = call.before + count ∧ value = .bytes (data.extract call.before call.after)

section Within

variable {α β : Type} {data : Bytes} {position : Nat}

/-- A run that does not end before its start nor behind the data. -/
def Within (data : Bytes) (position : Nat) (run : Except Fault α × Nat) : Prop :=
  position ≤ run.2 ∧ run.2 ≤ data.size

/-- A sequence may end in each of its steps, and what follows a step starts where that one ends. -/
theorem Within.bind {step : Read α} {next : α → Read β}
    (first : Within data position (step.runAt data position))
    (second : ∀ value middle, step.runAt data position = (.ok value, middle) →
      middle ≤ data.size → Within data middle ((next value).runAt data middle)) :
    Within data position ((step >>= next).runAt data position) := by
  obtain ⟨forward, inside⟩ := first
  rw [runAt_bind]
  rcases run : step.runAt data position with ⟨fault | value, middle⟩ <;> rw [run] at forward inside
  · exact ⟨forward, inside⟩
  · obtain ⟨later, within⟩ := second value middle run inside
    exact ⟨Nat.le_trans forward later, within⟩

theorem Within.map {step : Read α} (f : α → β)
    (within : Within data position (step.runAt data position)) :
    Within data position ((f <$> step).runAt data position) := by
  rw [map_eq_pure_bind]
  exact within.bind fun _ middle _ inside => ⟨Nat.le_refl middle, inside⟩

/-- A local reader stays within the data. -/
theorem Local.within {step : Read α} (follows : step.Local) (inside : position ≤ data.size) :
    Within data position (step.runAt data position) := by
  obtain ⟨outcome, used, within, run, -⟩ := follows.runAt_drop inside
  rw [run]
  exact ⟨Nat.le_add_right _ _, within⟩

/-- The byte that stands for no text is passed without a read, but it has been seen before. -/
theorem within_serializedText (inside : position ≤ data.size) :
    Within data position (Read.serializedText.runAt data position) := by
  refine (local_peek.within inside).bind fun lead here ahead _ => ?_
  obtain ⟨more, rfl⟩ := peek_eq_ok ahead
  split
  · exact ⟨Nat.le_add_right here 1, more⟩
  refine (local_compressedUnsigned.within inside).bind fun length start _ inside => ?_
  refine Within.bind ⟨Nat.le_refl start, inside⟩ fun _ middle _ inside => ?_
  refine ((local_bytes length).within inside).bind fun found stop _ inside => ?_
  cases Utf8.decode found.toList with
  | ok text => exact ⟨Nat.le_refl stop, inside⟩
  | error flaw => exact ⟨Nat.le_refl stop, inside⟩

end Within

section Step

variable {data : Bytes} {position : Nat} {operation : Operation}

/-- Every operation but a jump goes forward, also where it fails half way. -/
theorem Operation.within (stays : ∀ target, operation ≠ .seek target)
    (inside : position ≤ data.size) :
    Within data position (operation.read.runAt data position) := by
  cases operation with
  | word8 => exact (local_word8.within inside).map _
  | word16 => exact (((local_number 2).map _).within inside).map _
  | word32 => exact (((local_number 4).map _).within inside).map _
  | word64 => exact (((local_number 8).map _).within inside).map _
  | signed width =>
    exact (((local_number width).bind fun _ => local_pure _).within inside).map _
  | compressedUnsigned => exact (local_compressedUnsigned.within inside).map _
  | compressedSigned => exact (local_compressedSigned.within inside).map _
  | compressedToken => exact (local_compressedToken.within inside).map _
  | peek => exact (local_peek.within inside).map _
  | seek target => exact absurd rfl (stays target)
  | bytes count => exact ((local_bytes count).within inside).map _
  | serializedText => exact (within_serializedText inside).map _

/-- A read of a fixed width makes one access. -/
theorem isMade_of_width {α : Type} {step : Read α} {width : Nat} (takes : step.Takes width)
    (refuses : step.Refuses width) (f : α → Reading) (data : Bytes) (position : Nat) :
    Access.IsMade ⟨position + width, position + width⟩ data position
      ((f <$> step).runAt data position) := by
  rw [Access.IsMade]
  split
  case isTrue fits => exact takes.map f data position fits
  case isFalse short => exact refuses.map f data position (Nat.lt_of_not_le short)

theorem isMade_peek (f : UInt8 → Reading) (data : Bytes) (position : Nat) :
    Access.IsMade ⟨position + 1, position⟩ data position
      ((f <$> Read.peek).runAt data position) := by
  simp only [Access.IsMade, Read.peek, map_eq_pure_bind, runAt_bind, runAt_get, runAt_read]
  split
  case isTrue fits =>
    rw [Array.getElem?_eq_getElem fits]
    exact ⟨_, rfl⟩
  case isFalse short =>
    rw [Array.getElem?_eq_none (Nat.le_of_not_lt short)]
    rfl

theorem isMade_seek (target : Nat) (f : Unit → Reading) (data : Bytes) (position : Nat) :
    Access.IsMade ⟨target, target⟩ data position
      ((f <$> Read.seek target).runAt data position) := by
  simp only [Access.IsMade, Read.seek, map_eq_pure_bind, runAt_bind, runAt_read]
  split
  case isTrue fits => exact ⟨_, rfl⟩
  case isFalse short => rfl

/-- A single operation makes the access that it announces, or refuses it. -/
theorem Operation.isMade {access : Access} (single : operation.access? position = some access)
    (data : Bytes) : access.IsMade data position (operation.read.runAt data position) := by
  cases operation with
  | word8 =>
    cases single
    exact isMade_of_width takes_word8 ((refuses_number 1).map _) _ data position
  | word16 =>
    cases single
    exact isMade_of_width takes_word16 ((refuses_number 2).map _) _ data position
  | word32 =>
    cases single
    exact isMade_of_width takes_word32 ((refuses_number 4).map _) _ data position
  | word64 =>
    cases single
    exact isMade_of_width takes_word64 ((refuses_number 8).map _) _ data position
  | signed width =>
    cases single
    exact isMade_of_width (takes_signed width) (refuses_number width).bind _ data position
  | peek =>
    cases single
    exact isMade_peek _ data position
  | seek target =>
    cases single
    exact isMade_seek target _ data position
  | bytes count =>
    cases single
    exact isMade_of_width (takes_bytes count) (refuses_bytes count) _ data position
  | compressedUnsigned | compressedSigned | compressedToken | serializedText => cases single

/-- A refused access leaves the position as it was. -/
theorem Access.IsMade.kept {access : Access} {run : Except Fault Reading × Nat}
    (made : access.IsMade data position run) {fault : Fault} (failed : run.1 = .error fault) :
    run.2 = position := by
  rw [Access.IsMade] at made
  split at made
  case isTrue fits =>
    obtain ⟨value, rfl⟩ := made
    cases failed
  case isFalse short => rw [made]

/-- An access leads to a position within the data. -/
theorem Access.IsMade.le {access : Access} {run : Except Fault Reading × Nat}
    (made : access.IsMade data position run) (forward : access.next ≤ access.reach)
    (inside : position ≤ data.size) : run.2 ≤ data.size := by
  rw [Access.IsMade] at made
  split at made
  case isTrue fits =>
    obtain ⟨value, rfl⟩ := made
    exact Nat.le_trans forward fits
  case isFalse short =>
    rw [made]
    exact inside

/-- One call at a position inside the data. -/
theorem Operation.stays (operation : Operation) (inside : position ≤ data.size) :
    Call.Stays data ⟨operation, position, (operation.read.runAt data position).1,
      (operation.read.runAt data position).2⟩ where
  before_le := inside
  after_le := by
    by_cases jump : ∃ target, operation = .seek target
    · obtain ⟨target, rfl⟩ := jump
      exact (Operation.isMade rfl data).le (Nat.le_refl target) inside
    · exact (Operation.within (fun target same => jump ⟨target, same⟩) inside).2
  forward stays := (Operation.within stays inside).1
  access _ single := Operation.isMade single data
  kept single fault failed := by
    obtain ⟨access, single⟩ := Option.isSome_iff_exists.mp single
    exact (Operation.isMade single data).kept failed
  taken count same value read := by
    subst same
    by_cases fits : position + count ≤ data.size
    · have run : (Operation.bytes count).read.runAt data position =
          (.ok (.bytes (data.extract position (position + count))), position + count) := by
        rw [Operation.read, map_eq_pure_bind, runAt_bind, runAt_bytes_of_le fits]
        rfl
      rw [run] at read ⊢
      cases read
      exact ⟨rfl, rfl⟩
    · have refused :=
        (refuses_bytes count).map Reading.bytes data position (Nat.lt_of_not_le fits)
      rw [Operation.read, refused] at read
      cases read

end Step

/-- However a reader is called, its position stays inside the data. Only a jump moves it back. A
single access succeeds exactly if the data reach far enough and leaves the position where it was
otherwise, and bytes that are taken are those between the old and the new position. -/
theorem calls_stay (data : Bytes) (operations : List Operation) :
    (calls data 0 operations).map Call.operation = operations ∧
      ∀ call ∈ calls data 0 operations, call.Stays data := by
  have inside : 0 ≤ data.size := Nat.zero_le _
  -- That a call starts inside the data carries the induction, not that the first one starts at 0.
  generalize 0 = position at inside
  induction operations generalizing position with
  | nil => exact ⟨rfl, fun _ member => absurd member List.not_mem_nil⟩
  | cons operation operations ih =>
    have first := operation.stays inside
    obtain ⟨same, others⟩ := ih _ first.after_le
    exact ⟨congrArg _ same, List.forall_mem_cons.mpr ⟨first, others⟩⟩

end ClrDecompiler.Read
