/-
This file describes steps that take a fixed number of bytes: they succeed wherever these bytes are
in the data. A single read takes all of its bytes or, if one is missing, none.
-/

import ClrDecompiler.Proofs.Bytes.Reading

namespace ClrDecompiler.Read

variable {α β : Type} {data : Bytes} {position : Nat}

/-- Where so many bytes are left, the step succeeds and takes them. -/
def Takes (step : Read α) (width : Nat) : Prop :=
  ∀ (data : Bytes) (position : Nat), position + width ≤ data.size →
    ∃ value, step.runAt data position = (.ok value, position + width)

/-- Where fewer bytes are left, the step fails and takes none. -/
def Refuses (step : Read α) (width : Nat) : Prop :=
  ∀ (data : Bytes) (position : Nat), data.size < position + width →
    step.runAt data position = (.error .outOfBounds, position)

theorem runAt_bytes_of_le {count : Nat} (inside : position + count ≤ data.size) :
    (Read.bytes count).runAt data position =
      (.ok (data.extract position (position + count)), position + count) := by
  simp only [Read.bytes, runAt_bind, runAt_get, runAt_read, Bytes.slice?, if_pos inside,
    runAt_set, runAt_pure]

theorem takes_pure (value : α) : (pure value : Read α).Takes 0 :=
  fun _ _ _ => ⟨value, rfl⟩

/-- The second step takes the bytes behind those of the first one. -/
theorem Takes.bind {step : Read α} {next : α → Read β} {width more : Nat}
    (first : step.Takes width) (second : ∀ value, (next value).Takes more) :
    (step >>= next).Takes (width + more) := by
  intro data position inside
  obtain ⟨value, run⟩ := first data position (by omega)
  obtain ⟨result, later⟩ := second value data (position + width) (by omega)
  refine ⟨result, ?_⟩
  rw [runAt_bind, run]
  dsimp only
  rw [later, Nat.add_assoc]

theorem Takes.map {step : Read α} {width : Nat} (f : α → β) (takes : step.Takes width) :
    (f <$> step).Takes width := by
  rw [map_eq_pure_bind]
  exact takes.bind fun value => takes_pure (f value)

/-- What follows a step that fails is not run. -/
theorem Refuses.bind {step : Read α} {next : α → Read β} {width : Nat}
    (refuses : step.Refuses width) : (step >>= next).Refuses width := by
  intro data position short
  rw [runAt_bind, refuses data position short]

theorem Refuses.map {step : Read α} {width : Nat} (f : α → β) (refuses : step.Refuses width) :
    (f <$> step).Refuses width := by
  rw [map_eq_pure_bind]
  exact refuses.bind

/-- A count of bytes within the data is taken. -/
theorem takes_bytes (count : Nat) : (Read.bytes count).Takes count :=
  fun _ _ inside => ⟨_, runAt_bytes_of_le inside⟩

/-- A count of bytes that leaves the data is refused. -/
theorem refuses_bytes (count : Nat) : (Read.bytes count).Refuses count := by
  intro data position short
  simp only [Read.bytes, runAt_bind, runAt_get, runAt_read, Bytes.slice?,
    if_neg (Nat.not_le_of_lt short)]
  rfl

theorem takes_number (width : Nat) : (Read.number width).Takes width :=
  (takes_bytes width).bind fun _ => takes_pure _

theorem refuses_number (width : Nat) : (Read.number width).Refuses width :=
  (refuses_bytes width).bind

theorem takes_word8 : Read.word8.Takes 1 :=
  (takes_number 1).map _

theorem takes_word16 : Read.word16.Takes 2 :=
  (takes_number 2).map _

theorem takes_word32 : Read.word32.Takes 4 :=
  (takes_number 4).map _

theorem takes_word64 : Read.word64.Takes 8 :=
  (takes_number 8).map _

theorem takes_signed (width : Nat) : (Read.signed width).Takes width :=
  (takes_number width).bind fun _ => takes_pure _

end ClrDecompiler.Read
