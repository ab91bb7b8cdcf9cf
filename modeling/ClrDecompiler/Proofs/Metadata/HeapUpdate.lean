/-
This file adds entries to the heaps under construction in place, one write after the other, and
shows that this has the outcome of the builders: an addition that is refused has written nothing.
-/

import ClrDecompiler.Metadata.HeapBuilder
import ClrDecompiler.Proofs.Bytes.Compressed

namespace ClrDecompiler.Metadata

open Compressed

/-- A step that changes a heap under construction. What it has written survives a failure. -/
abbrev Update (σ : Type) := ExceptT Fault (StateM σ)

namespace Update

variable {σ α β : Type}

/-- The outcome of a step and the heap after it. -/
def runAt (step : Update σ α) (state : σ) : Except Fault α × σ :=
  step.run.run state

@[simp] theorem runAt_pure (value : α) (state : σ) :
    (pure value : Update σ α).runAt state = (.ok value, state) := rfl

@[simp] theorem runAt_get (state : σ) : (get : Update σ σ).runAt state = (.ok state, state) := rfl

@[simp] theorem runAt_modify (change : σ → σ) (state : σ) :
    (modify change : Update σ PUnit).runAt state = (.ok (), change state) := rfl

@[simp] theorem runAt_throw (fault : Fault) (state : σ) :
    (throw fault : Update σ α).runAt state = (.error fault, state) := rfl

@[simp] theorem runAt_bind (step : Update σ α) (next : α → Update σ β) (state : σ) :
    (step >>= next).runAt state =
      match step.runAt state with
      | (.ok value, after) => (next value).runAt after
      | (.error fault, after) => (.error fault, after) := by
  simp only [runAt, ExceptT.run_bind, StateT.run_bind]
  change (match step.run.run state with | (value, after) => _) = _
  rcases step.run.run state with ⟨fault | value, after⟩ <;> rfl

@[simp] theorem runAt_map (change : α → β) (step : Update σ α) (state : σ) :
    (change <$> step).runAt state =
      match step.runAt state with
      | (.ok value, after) => (.ok (change value), after)
      | (.error fault, after) => (.error fault, after) := by
  rw [map_eq_pure_bind, runAt_bind]
  rfl

/-- The step has the outcome of the function, and leaves the heap alone where the function fails. -/
def Performs (step : Update σ α) (outcome : σ → Except Fault (α × σ)) : Prop :=
  ∀ state, step.runAt state = match outcome state with
    | .ok (value, after) => (.ok value, after)
    | .error fault => (.error fault, state)

section

variable {step : Update σ α} {outcome : σ → Except Fault (α × σ)} {state after : σ}

/-- An update that succeeds gives the outcome and the state that it stands for. -/
theorem Performs.eq_ok (performs : step.Performs outcome) {value : α}
    (run : step.runAt state = (.ok value, after)) : outcome state = .ok (value, after) := by
  rw [performs state] at run
  split at run
  · next found =>
    cases run
    exact found
  · cases run

/-- An update that fails leaves the state as it was. -/
theorem Performs.kept (performs : step.Performs outcome) {fault : Fault}
    (run : step.runAt state = (.error fault, after)) : after = state := by
  rw [performs state] at run
  split at run
  · cases run
  · cases run
    rfl

end

/-- The bytes of a number in its shortest compressed form. -/
def writeUnsigned (write : List UInt8 → Update σ Unit) (value : Nat) : Update σ Unit :=
  if value < 0x80 then write (oneByte value)
  else if value < 0x4000 then write (twoBytes value)
  else if value < 0x20000000 then write (fourBytes value)
  else throw (.malformed (.compressedUnsigned value))

/-- A compressed number is written whole or not at all. -/
theorem runAt_writeUnsigned {write : List UInt8 → Update σ Unit} {written : σ → List UInt8 → σ}
    (writes : ∀ bytes state, (write bytes).runAt state = (.ok (), written state bytes))
    (value : Nat) (state : σ) :
    (writeUnsigned write value).runAt state = match encodeUnsigned value with
      | .ok bytes => (.ok (), written state bytes)
      | .error fault => (.error fault, state) := by
  unfold writeUnsigned encodeUnsigned
  split_ifs
  · exact writes _ _
  · exact writes _ _
  · exact writes _ _
  · rfl

end Update

namespace StringHeapBuilder

def insert (text : String) : Update StringHeapBuilder Nat := do
  if text.isEmpty then return 0
  match (← get).entries.lookup text with
  | some index => return index
  | none =>
    let index := (← get).data.size
    modify fun builder => { builder with data := builder.data ++ Utf8.encode text }
    modify fun builder => { builder with data := builder.data.push 0 }
    modify fun builder => { builder with entries := (text, index) :: builder.entries }
    return index

theorem insert_performs (text : String) :
    (insert text).Performs fun builder => .ok (builder.add text) := by
  intro builder
  unfold insert add
  split
  · rfl
  · cases known : builder.entries.lookup text <;> simp [known]

end StringHeapBuilder

namespace BlobHeapBuilder

def write (bytes : List UInt8) : Update BlobHeapBuilder Unit :=
  modify fun builder => { builder with data := builder.data.appendList bytes }

theorem runAt_write (bytes : List UInt8) (builder : BlobHeapBuilder) :
    (write bytes).runAt builder =
      (.ok (), { builder with data := builder.data.appendList bytes }) := rfl

/-- The length is written before the bytes, and the entry is noted last. -/
def insert (blob : Bytes) : Update BlobHeapBuilder Nat := do
  if blob.isEmpty then return 0
  match (← get).entries.lookup blob with
  | some index => return index
  | none =>
    let index := (← get).data.size
    if UInt32.size ≤ blob.size then throw (.malformed (.blobSize blob.size))
    Update.writeUnsigned write blob.size
    modify fun builder => { builder with data := builder.data ++ blob }
    modify fun builder => { builder with entries := (blob, index) :: builder.entries }
    return index

theorem insert_performs (blob : Bytes) :
    (insert blob).Performs fun builder => builder.add blob := by
  intro builder
  unfold insert add
  split
  · rfl
  · cases known : builder.entries.lookup blob with
    | some index => simp [known]
    | none =>
      have length := Update.runAt_writeUnsigned runAt_write blob.size builder
      by_cases large : UInt32.size ≤ blob.size
      · simp [known, large]
        rfl
      · cases encoded : encodeUnsigned blob.size with
        | error fault =>
          simp [known, large, length, encoded, appendUnsigned]
          rfl
        | ok bytes =>
          simp [known, large, length, encoded, appendUnsigned]
          rfl

end BlobHeapBuilder

namespace GuidHeapBuilder

def insert (guid : Bytes) : Update GuidHeapBuilder Nat := do
  match (← get).entries.findIdx? (· == guid) with
  | some position => return position + 1
  | none =>
    modify fun builder => { entries := builder.entries ++ [guid] }
    return (← get).entries.length

theorem insert_performs (guid : Bytes) :
    (insert guid).Performs fun builder => .ok (builder.add guid) := by
  intro builder
  unfold insert add
  cases known : builder.entries.findIdx? (· == guid) <;> simp [known]

end GuidHeapBuilder

namespace UserStringHeapBuilder

def write (bytes : List UInt8) : Update UserStringHeapBuilder Unit :=
  modify fun builder => { data := builder.data.appendList bytes }

def insert (text : String) : Update UserStringHeapBuilder Nat := do
  let index := (← get).data.size
  let units := Utf16.encode text
  let length := units.length * 2 + 1
  if UInt32.size ≤ length then throw (.malformed (.userStringLength units.length))
  Update.writeUnsigned write length
  units.forM fun unit => write (Bytes.littleEndian 2 unit.toNat)
  modify fun builder => { data := builder.data.push (if units.any isSpecial then 1 else 0) }
  return index

@[simp] theorem runAt_write (bytes : List UInt8) (builder : UserStringHeapBuilder) :
    (write bytes).runAt builder = (.ok (), { data := builder.data.appendList bytes }) := rfl

theorem runAt_writeUnits (units : List UInt16) (builder : UserStringHeapBuilder) :
    (forM units fun unit => write (Bytes.littleEndian 2 unit.toNat)).runAt builder =
      (.ok (), { data := builder.data.appendList (encodeUnits units) }) := by
  induction units generalizing builder with
  | nil => simp [encodeUnits]
  | cons unit rest ih =>
    simp [ih, encodeUnits, ← Array.toList_inj]

theorem insert_performs (text : String) :
    (insert text).Performs fun builder => builder.add text := by
  intro builder
  unfold insert add
  have length := Update.runAt_writeUnsigned runAt_write ((Utf16.encode text).length * 2 + 1) builder
  by_cases large : UInt32.size ≤ (Utf16.encode text).length * 2 + 1
  · simp [large]
    rfl
  · cases encoded : encodeUnsigned ((Utf16.encode text).length * 2 + 1) with
    | error fault =>
      simp [large, length, encoded, appendUnsigned]
      rfl
    | ok bytes =>
      simp [large, length, encoded, appendUnsigned, runAt_writeUnits]
      rfl

end UserStringHeapBuilder

end ClrDecompiler.Metadata
