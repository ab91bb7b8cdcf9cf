/-
This file describes what a reading step does in front of an input, also where it fails: its
outcome and the number of bytes that it takes. A step is local if both follow from the input
alone, whatever stands before it.
-/

import ClrDecompiler.Proofs.Bytes.Compressed

namespace ClrDecompiler.Read

variable {α β : Type}

/-- In front of the input the step has this outcome and takes so many bytes. -/
def Behaves (step : Read α) (input : List UInt8) (outcome : Except Fault α) (used : Nat) : Prop :=
  used ≤ input.length ∧ ∀ (data : Bytes) (before : List UInt8), data.toList = before ++ input →
    step.runAt data before.length = (outcome, before.length + used)

/-- What the step does, also where it fails, follows from the input in front of it. -/
def Local (step : Read α) : Prop :=
  ∀ input, ∃ outcome used, step.Behaves input outcome used

/-- What follows a step goes on at the place where the step stops. -/
theorem Yields.runAt_next {step : Read α} {next : α → Read β} {encoding rest : List UInt8}
    {value : α} (reads : step.Yields (encoding ++ rest) value rest) {data : Bytes}
    {before : List UInt8} (whole : data.toList = before ++ (encoding ++ rest)) :
    (step >>= next).runAt data before.length =
      (next value).runAt data (before ++ encoding).length := by
  rw [runAt_bind, reads.runAt_append whole, List.length_append]

/-- A reading that succeeds consumes what it has read. -/
theorem Yields.behaves {step : Read α} {encoding rest : List UInt8} {value : α}
    (reads : step.Yields (encoding ++ rest) value rest) :
    step.Behaves (encoding ++ rest) (.ok value) encoding.length := by
  refine ⟨?_, fun data before whole => reads.runAt_append whole⟩
  rw [List.length_append]
  exact Nat.le_add_right _ _

theorem behaves_pure (value : α) (input : List UInt8) :
    (pure value : Read α).Behaves input (.ok value) 0 :=
  ⟨Nat.zero_le _, fun _ _ _ => rfl⟩

theorem behaves_throw (fault : Fault) (input : List UInt8) :
    (throw fault : Read α).Behaves input (.error fault) 0 :=
  ⟨Nat.zero_le _, fun _ _ _ => rfl⟩

/-- The second step has the input that the first one leaves. -/
theorem Behaves.bind {step : Read α} {next : α → Read β} {input : List UInt8} {value : α}
    {outcome : Except Fault β} {used more : Nat} (first : step.Behaves input (.ok value) used)
    (second : (next value).Behaves (input.drop used) outcome more) :
    (step >>= next).Behaves input outcome (used + more) := by
  obtain ⟨inside, firstRuns⟩ := first
  obtain ⟨further, secondRuns⟩ := second
  rw [List.length_drop] at further
  refine ⟨by omega, fun data before whole => ?_⟩
  have split : data.toList = (before ++ input.take used) ++ input.drop used := by
    rw [List.append_assoc, List.take_append_drop, whole]
  have later := secondRuns data _ split
  rw [List.length_append, List.length_take_of_le inside] at later
  rw [runAt_bind, firstRuns data before whole]
  simp only [later, Nat.add_assoc]

/-- After a reading the next step goes on behind what was read. -/
theorem Yields.bind_behaves {step : Read α} {next : α → Read β} {encoding rest : List UInt8}
    {value : α} {outcome : Except Fault β} {used : Nat}
    (first : step.Yields (encoding ++ rest) value rest)
    (second : (next value).Behaves rest outcome used) :
    (step >>= next).Behaves (encoding ++ rest) outcome (encoding.length + used) := by
  apply first.behaves.bind
  rw [List.drop_left]
  exact second

/-- A step that only looks ahead takes nothing. -/
theorem Yields.ahead_behaves {step : Read α} {next : α → Read β} {input : List UInt8} {value : α}
    {outcome : Except Fault β} {used : Nat} (first : step.Yields input value input)
    (second : (next value).Behaves input outcome used) :
    (step >>= next).Behaves input outcome used := by
  have reads : step.Yields ([] ++ input) value input := first
  have whole := reads.bind_behaves second
  rw [List.length_nil, Nat.zero_add] at whole
  exact whole

theorem word8_behaves {next : UInt8 → Read β} {byte : UInt8} {rest : List UInt8}
    {outcome : Except Fault β} {used : Nat} (second : (next byte).Behaves rest outcome used) :
    (Read.word8 >>= next).Behaves (byte :: rest) outcome (1 + used) := by
  have reads : Read.word8.Yields ([byte] ++ rest) byte rest := yields_word8 byte rest
  exact reads.bind_behaves second

/-- A failure ends the whole. -/
theorem Behaves.bind_error {step : Read α} {next : α → Read β} {input : List UInt8} {fault : Fault}
    {used : Nat} (first : step.Behaves input (.error fault) used) :
    (step >>= next).Behaves input (.error fault) used := by
  refine ⟨first.1, fun data before whole => ?_⟩
  rw [runAt_bind, first.2 data before whole]

/-- A local step does the same on the rest of the data alone. -/
theorem Local.runAt_drop {step : Read α} (follows : step.Local) {data : Bytes} {position : Nat}
    (inside : position ≤ data.size) :
    ∃ outcome used, position + used ≤ data.size ∧
      step.runAt data position = (outcome, position + used) ∧
      step.runAt (data.toList.drop position).toArray 0 = (outcome, used) := by
  obtain ⟨outcome, used, within, runs⟩ := follows (data.toList.drop position)
  have here := runs data (data.toList.take position) (List.take_append_drop _ _).symm
  have alone := runs (data.toList.drop position).toArray [] rfl
  rw [List.length_take_of_le inside] at here
  rw [List.length_nil, Nat.zero_add] at alone
  rw [List.length_drop, Array.length_toList] at within
  exact ⟨outcome, used, by omega, here, alone⟩

theorem local_pure (value : α) : (pure value : Read α).Local :=
  fun input => ⟨_, _, behaves_pure value input⟩

theorem local_throw (fault : Fault) : (throw fault : Read α).Local :=
  fun input => ⟨_, _, behaves_throw fault input⟩

/-- The step fails in front of the input, wherever that stands. -/
def Fails (step : Read α) (input : List UInt8) (fault : Fault) : Prop :=
  ∃ used, step.Behaves input (.error fault) used

theorem fails_throw (fault : Fault) (input : List UInt8) :
    (throw fault : Read α).Fails input fault :=
  ⟨_, behaves_throw fault input⟩

/-- A failure is that of all that would follow. -/
theorem Fails.bind {step : Read α} {next : α → Read β} {input : List UInt8} {fault : Fault}
    (first : step.Fails input fault) : (step >>= next).Fails input fault :=
  first.imp fun _ behaves => behaves.bind_error

/-- A failure of the next step is that of both. -/
theorem Yields.bind_fails {step : Read α} {next : α → Read β} {input rest : List UInt8}
    {value : α} {fault : Fault} (first : step.Yields input value rest)
    (second : (next value).Fails rest fault) :
    (step >>= next).Fails input fault := by
  obtain ⟨used, rfl, -⟩ := id first
  exact second.imp' _ fun _ behaves => first.bind_behaves behaves

/-- The step gives the value if no more is wanted than stands in front of the rest, and fails
otherwise. -/
structure CutOff (more : Nat) (step : Read α) (input : List UInt8) (value : α)
    (rest : List UInt8) (fault : Fault) : Prop where
  whole : more = 0 → step.Yields input value rest
  short : more ≠ 0 → step.Fails input fault

/-- What is cut off stays so if a step follows. -/
theorem CutOff.bind {more : Nat} {step : Read α} {next : α → Read β}
    {input middle rest : List UInt8} {value : α} {result : β} {fault : Fault}
    (first : CutOff more step input value middle fault)
    (second : (next value).Yields middle result rest) :
    CutOff more (step >>= next) input result rest fault where
  whole none := (first.whole none).bind second
  short some := (first.short some).bind

theorem Yields.bind_cutOff {more : Nat} {step : Read α} {next : α → Read β}
    {input middle rest : List UInt8} {value : α} {result : β} {fault : Fault}
    (first : step.Yields input value middle)
    (second : CutOff more (next value) middle result rest fault) :
    CutOff more (step >>= next) input result rest fault where
  whole none := first.bind (second.whole none)
  short some := first.bind_fails (second.short some)

/-- Local steps make up a local reader. -/
theorem Local.bind {step : Read α} {next : α → Read β} (first : step.Local)
    (second : ∀ value, (next value).Local) : (step >>= next).Local := by
  intro input
  obtain ⟨fault | value, used, behaves⟩ := first input
  · exact ⟨_, _, behaves.bind_error⟩
  · obtain ⟨outcome, more, later⟩ := second value (input.drop used)
    exact ⟨_, _, behaves.bind later⟩

theorem Local.map {step : Read α} (f : α → β) (first : step.Local) : (f <$> step).Local := by
  rw [map_eq_pure_bind]
  exact first.bind fun _ => local_pure _

/-- A step that takes the size of the data as a bound is local if it does the same with every
bound that is not below the size of its input. -/
theorem local_size {next : Nat → Read β}
    (later : ∀ input, ∃ outcome used, ∀ bound, input.length ≤ bound →
      (next bound).Behaves input outcome used) : (Read.size >>= next).Local := by
  intro input
  obtain ⟨outcome, used, behaves⟩ := later input
  refine ⟨outcome, used, (behaves _ (Nat.le_refl _)).1, fun data before whole => ?_⟩
  have large : input.length ≤ data.size := by
    rw [← Array.length_toList, whole, List.length_append]
    exact Nat.le_add_left _ _
  exact (behaves data.size large).2 data before whole

/-- A count of bytes is taken from behind the position only. -/
theorem local_bytes (count : Nat) : (Read.bytes count).Local := by
  intro input
  by_cases inside : count ≤ input.length
  · have reads := yields_bytes (input.take count) (input.drop count)
    rw [List.length_take_of_le inside] at reads
    have behaves := reads.behaves
    rw [List.take_append_drop] at behaves
    exact ⟨_, _, behaves⟩
  · refine ⟨.error .outOfBounds, 0, Nat.zero_le _, fun data before whole => ?_⟩
    have outside : data.slice? before.length count = none := by
      rw [Bytes.slice?, if_neg]
      rw [← Array.length_toList, whole, List.length_append]
      omega
    simp only [Read.bytes, runAt_bind, runAt_get, runAt_read, outside]
    rfl

theorem local_number (width : Nat) : (Read.number width).Local :=
  (local_bytes width).bind fun _ => local_pure _

theorem local_word8 : Read.word8.Local :=
  (local_number 1).map UInt8.ofNat

theorem behaves_peek_nil : Read.peek.Behaves [] (.error .outOfBounds) 0 := by
  refine ⟨Nat.le_refl _, fun data before whole => ?_⟩
  have missing : data[before.length]? = none := by
    rw [← Array.getElem?_toList, whole, List.append_nil]
    exact List.getElem?_eq_none (Nat.le_refl _)
  simp only [Read.peek, runAt_bind, runAt_get, runAt_read, missing]
  rfl

theorem local_peek : Read.peek.Local := by
  intro input
  cases input with
  | nil => exact ⟨_, _, behaves_peek_nil⟩
  | cons byte rest =>
    have reads : Read.peek.Yields ([] ++ byte :: rest) byte (byte :: rest) := yields_peek byte rest
    exact ⟨_, _, reads.behaves⟩

theorem local_bigEndianFrom (lead count : Nat) : (Read.bigEndianFrom lead count).Local := by
  induction count generalizing lead with
  | zero => exact local_pure lead
  | succ count ih => exact local_word8.bind fun _ => ih _

/-- Compressed numbers are read from behind the position only. -/
theorem local_compressedUnsigned : Read.compressedUnsigned.Local := by
  refine local_word8.bind fun lead => ?_
  split
  · exact local_pure _
  split
  · exact local_bigEndianFrom _ 1
  split
  · exact local_bigEndianFrom _ 3
  · exact local_throw _

/-- The width of the number decides its sign, not the place where it stands. -/
theorem local_compressedSigned : Read.compressedSigned.Local := by
  intro input
  obtain ⟨outcome, used, inside, runs⟩ := local_compressedUnsigned input
  refine ⟨outcome.map (Compressed.unrotate (halfOf used)), used, inside, ?_⟩
  intro data before whole
  have run := runs data before whole
  cases outcome <;>
    simp only [Read.compressedSigned, runAt_bind, runAt_get, run, runAt_pure,
      Nat.add_sub_cancel_left] <;> rfl

theorem local_compressedToken : Read.compressedToken.Local := by
  refine local_compressedUnsigned.bind fun value => ?_
  split
  · exact (local_pure _).bind fun _ => local_pure _
  · exact (local_pure _).bind fun _ => local_pure _
  · exact (local_pure _).bind fun _ => local_pure _
  · exact (local_throw _).bind fun _ => local_pure _

end ClrDecompiler.Read
