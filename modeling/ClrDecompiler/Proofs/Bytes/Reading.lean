/-
This file describes what a reading step does by the input in front of it: the value that it
gives and the part of the input that it leaves.
-/

import ClrDecompiler.Bytes.Cursor
import ClrDecompiler.Proofs.Bytes.LittleEndian

namespace ClrDecompiler

/-- The encodings of the entries of a list follow one another. -/
inductive Sequence {α : Type} (form : α → List UInt8 → Prop) : List α → List UInt8 → Prop where
  | nil : Sequence form [] []
  | cons {first : α} {rest : List α} {encoding others : List UInt8}
      (head : form first encoding) (tail : Sequence form rest others) :
      Sequence form (first :: rest) (encoding ++ others)

theorem Sequence.of_cons {α : Type} {form : α → List UInt8 → Prop} {first : α} {rest : List α}
    {encoding : List UInt8} (sequence : Sequence form (first :: rest) encoding) :
    ∃ head others, encoding = head ++ others ∧ form first head ∧ Sequence form rest others := by
  cases sequence with
  | cons head tail => exact ⟨_, _, rfl, head, tail⟩

/-- The entries of a sequence may be encoded in a weaker form. -/
theorem Sequence.imp {α : Type} {form other : α → List UInt8 → Prop} {values : List α}
    {encoding : List UInt8}
    (weaken : ∀ value ∈ values, ∀ encoding, form value encoding → other value encoding)
    (sequence : Sequence form values encoding) : Sequence other values encoding := by
  induction sequence with
  | nil => exact .nil
  | cons head tail ih =>
    exact .cons (weaken _ List.mem_cons_self _ head)
      (ih fun value member => weaken value (List.mem_cons_of_mem _ member))

end ClrDecompiler

namespace ClrDecompiler.Read

variable {α β : Type}

/-! The outcome of a composed step is computed from its parts. -/

theorem runAt_pure (value : α) (data : Bytes) (position : Nat) :
    (pure value : Read α).runAt data position = (.ok value, position) := rfl

/-- The next step goes on where the first one stopped, unless that one failed. -/
theorem runAt_bind (step : Read α) (next : α → Read β) (data : Bytes) (position : Nat) :
    (step >>= next).runAt data position =
      match step.runAt data position with
      | (.ok value, after) => (next value).runAt data after
      | (.error fault, after) => (.error fault, after) := by
  simp only [runAt, ReaderT.run_bind, ExceptT.run_bind, StateT.run_bind]
  change (match ((step.run data).run.run position) with | (value, after) => _) = _
  rcases (step.run data).run.run position with ⟨outcome | value, after⟩ <;> rfl

theorem runAt_read (data : Bytes) (position : Nat) :
    (read : Read Bytes).runAt data position = (.ok data, position) := rfl

theorem runAt_get (data : Bytes) (position : Nat) :
    (get : Read Nat).runAt data position = (.ok position, position) := rfl

theorem runAt_set (target : Nat) (data : Bytes) (position : Nat) :
    (set target : Read PUnit).runAt data position = (.ok (), target) := rfl

theorem runAt_liftM (outcome : Except Fault α) (data : Bytes) (position : Nat) :
    (liftM outcome : Read α).runAt data position = (outcome, position) := by
  cases outcome <;> rfl

/-- A sequence that succeeds has succeeded step by step. -/
theorem of_runAt_bind {step : Read α} {next : α → Read β} {data : Bytes}
    {position after : Nat} {result : β}
    (run : (step >>= next).runAt data position = (.ok result, after)) :
    ∃ value middle, step.runAt data position = (.ok value, middle) ∧
      (next value).runAt data middle = (.ok result, after) := by
  rw [runAt_bind] at run
  rcases first : step.runAt data position with ⟨fault | value, middle⟩ <;> rw [first] at run
  · cases run
  · exact ⟨value, middle, rfl, run⟩

theorem of_runAt_guard {refuses : Prop} [Decidable refuses] {fault : Fault}
    {rest : PUnit → Read α} {next : Read α} {data : Bytes} {position after : Nat} {result : α}
    (run : (if refuses then throw fault >>= rest else next).runAt data position =
      (.ok result, after)) : ¬ refuses ∧ next.runAt data position = (.ok result, after) := by
  split at run
  · cases run
  · next accepts => exact ⟨accepts, run⟩

section

variable {data : Bytes} {position after : Nat}

/-! The bytes that a step has taken are inside the data. -/

/-- Bytes that are read lie within the data. -/
theorem bytes_eq_ok {count : Nat} {found : Bytes}
    (run : (Read.bytes count).runAt data position = (.ok found, after)) :
    position + count ≤ data.size ∧ after = position + count := by
  simp only [Read.bytes, runAt_bind, runAt_get, runAt_read] at run
  split at run
  · next cut =>
    cases run
    exact ⟨(Bytes.slice?_eq_some cut).1, rfl⟩
  · cases run

theorem word8_eq_ok {byte : UInt8} (run : Read.word8.runAt data position = (.ok byte, after)) :
    position < data.size ∧ after = position + 1 := by
  rw [Read.word8, Read.number, map_eq_pure_bind] at run
  obtain ⟨value, middle, first, run⟩ := of_runAt_bind run
  obtain ⟨found, _, first, rest⟩ := of_runAt_bind first
  cases rest
  cases run
  exact bytes_eq_ok first

theorem peek_eq_ok {byte : UInt8} (run : Read.peek.runAt data position = (.ok byte, after)) :
    position < data.size ∧ after = position := by
  simp only [Read.peek, runAt_bind, runAt_get, runAt_read] at run
  split at run
  · next found =>
    cases run
    exact ⟨(Array.getElem?_eq_some_iff.mp found).1, rfl⟩
  · cases run

end

/-- The step reads the start of the input, gives the value and leaves the rest. What stands
before the input has no bearing on it. -/
def Yields (step : Read α) (input : List UInt8) (value : α) (rest : List UInt8) : Prop :=
  ∃ used, input = used ++ rest ∧ ∀ (data : Bytes) (before : List UInt8),
    data.toList = before ++ input →
      step.runAt data before.length = (.ok value, before.length + used.length)

/-- The step reads every form of a value as that value and stops after it. -/
def Inverts (step : Read α) (form : α → List UInt8 → Prop) : Prop :=
  ∀ ⦃value : α⦄ ⦃encoding : List UInt8⦄, form value encoding →
    ∀ rest, step.Yields (encoding ++ rest) value rest

/-- A step that reads a whole encoding stops right after it. -/
theorem Yields.runAt_append {step : Read α} {encoding rest : List UInt8} {value : α}
    (reads : step.Yields (encoding ++ rest) value rest) {data : Bytes} {before : List UInt8}
    (whole : data.toList = before ++ (encoding ++ rest)) :
    step.runAt data before.length = (.ok value, before.length + encoding.length) := by
  obtain ⟨used, split, runs⟩ := reads
  rw [runs data before whole, List.append_cancel_right split]

/-- A reading of the whole data succeeds. -/
theorem Yields.runOn {step : Read α} {input rest : List UInt8} {value : α}
    (reads : step.Yields input value rest) {data : Bytes} (whole : data.toList = input) :
    step.runOn data = .ok value := by
  obtain ⟨used, -, runs⟩ := reads
  exact congrArg Prod.fst (runs data [] whole)

theorem yields_pure (value : α) (input : List UInt8) :
    (pure value : Read α).Yields input value input :=
  ⟨[], rfl, fun _ _ _ => rfl⟩

/-- The second step goes on where the first one stopped. -/
theorem Yields.bind {step : Read α} {next : α → Read β} {input middle rest : List UInt8}
    {value : α} {result : β} (first : step.Yields input value middle)
    (second : (next value).Yields middle result rest) :
    (step >>= next).Yields input result rest := by
  obtain ⟨used, rfl, firstRuns⟩ := first
  obtain ⟨more, rfl, secondRuns⟩ := second
  refine ⟨used ++ more, by simp, fun data before whole => ?_⟩
  have later := secondRuns data (before ++ used) (by rw [whole, List.append_assoc])
  rw [List.length_append] at later
  rw [runAt_bind, firstRuns data before whole]
  simp only [later, List.length_append, Nat.add_assoc]

theorem Yields.map {step : Read α} {input rest : List UInt8} {value : α} (f : α → β)
    (reads : step.Yields input value rest) : (f <$> step).Yields input (f value) rest := by
  rw [map_eq_pure_bind]
  exact reads.bind (yields_pure _ _)

theorem yields_liftM {outcome : Except Fault α} {value : α} (success : outcome = .ok value)
    (input : List UInt8) : (liftM outcome : Read α).Yields input value input :=
  ⟨[], rfl, fun _ _ _ => by rw [runAt_liftM, success]; rfl⟩

/-- A step that takes the size of the data as a bound works with every bound that is not
below the size of its input. -/
theorem yields_size {next : Nat → Read β} {input rest : List UInt8} {result : β}
    (reads : ∀ bound, input.length ≤ bound → (next bound).Yields input result rest) :
    (Read.size >>= next).Yields input result rest := by
  obtain ⟨used, split, -⟩ := reads input.length (Nat.le_refl _)
  refine ⟨used, split, fun data before whole => ?_⟩
  have large : input.length ≤ data.size := by
    rw [← Array.length_toList, whole, List.length_append]
    exact Nat.le_add_left _ _
  obtain ⟨other, otherSplit, runs⟩ := reads data.size large
  rw [List.append_cancel_right (split.symm.trans otherSplit)]
  exact runs data before whole

theorem yields_bytes (chunk rest : List UInt8) :
    (Read.bytes chunk.length).Yields (chunk ++ rest) chunk.toArray rest := by
  refine ⟨chunk, rfl, fun data before whole => ?_⟩
  simp only [Read.bytes, runAt_bind, runAt_get, runAt_read, Bytes.slice?_middle whole,
    runAt_set, runAt_pure]

theorem yields_number (width : Nat) {value : Nat} (fits : value < 256 ^ width) (rest : List UInt8) :
    (Read.number width).Yields (Bytes.littleEndian width value ++ rest) value rest := by
  have chunk := yields_bytes (Bytes.littleEndian width value) rest
  rw [Bytes.littleEndian_length] at chunk
  apply chunk.bind
  rw [Bytes.ofLittleEndian_littleEndian_of_lt fits]
  exact yields_pure value rest

theorem yields_word8 (byte : UInt8) (rest : List UInt8) :
    Read.word8.Yields (byte :: rest) byte rest := by
  have reads := (yields_number 1 byte.toNat_lt rest).map UInt8.ofNat
  have same : Bytes.littleEndian 1 byte.toNat = [byte] := by
    simp [Bytes.littleEndian, Nat.mod_eq_of_lt byte.toNat_lt]
  rw [same, UInt8.ofNat_toNat] at reads
  exact reads

theorem yields_word16 (value : UInt16) (rest : List UInt8) :
    Read.word16.Yields (Bytes.littleEndian 2 value.toNat ++ rest) value rest := by
  have reads := (yields_number 2 value.toNat_lt rest).map UInt16.ofNat
  rw [UInt16.ofNat_toNat] at reads
  exact reads

theorem yields_word32 (value : UInt32) (rest : List UInt8) :
    Read.word32.Yields (Bytes.littleEndian 4 value.toNat ++ rest) value rest := by
  have reads := (yields_number 4 value.toNat_lt rest).map UInt32.ofNat
  rw [UInt32.ofNat_toNat] at reads
  exact reads

theorem yields_peek (byte : UInt8) (rest : List UInt8) :
    Read.peek.Yields (byte :: rest) byte (byte :: rest) := by
  refine ⟨[], rfl, fun data before whole => ?_⟩
  simp only [Read.peek, runAt_bind, runAt_get, runAt_read, Bytes.byteAt?_middle before whole,
    runAt_pure, List.length_nil, Nat.add_zero]

theorem yields_hasMore (input : List UInt8) :
    Read.hasMore.Yields input (!input.isEmpty) input := by
  refine ⟨[], rfl, fun data before whole => ?_⟩
  have size : data.size = before.length + input.length := by
    rw [← Array.length_toList, whole, List.length_append]
  simp only [Read.hasMore, runAt_bind, runAt_get, runAt_read, runAt_pure, size,
    List.length_nil, Nat.add_zero]
  cases input <;> simp

end ClrDecompiler.Read
