/-
This file runs additions to a heap one after the other. Where every addition keeps the entries
that the heap has, each index that was given out leads to its value in the final data.
-/

import ClrDecompiler.Proofs.Metadata.HeapUpdate

namespace ClrDecompiler.Metadata

/-- A kind of heap: how values are added to it and how they are read from its data. -/
structure HeapKind (σ ν : Type) where
  start : σ
  add : σ → ν → Except Fault (Nat × σ)
  insert : ν → Update σ Nat
  insert_performs : ∀ value, (insert value).Performs fun heap => add heap value
  data : σ → Bytes
  read : Bytes → Nat → Except Fault ν

namespace HeapKind

variable {σ ν : Type}

/-- The answers to additions in place and the heap after the last of them. An addition that is
refused is followed by the others all the same. -/
def run (kind : HeapKind σ ν) (heap : σ) : List ν → List (ν × Except Fault Nat) × σ
  | [] => ([], heap)
  | value :: rest =>
    let (answer, after) := (kind.insert value).runAt heap
    let (answers, last) := kind.run after rest
    ((value, answer) :: answers, last)

variable (kind : HeapKind σ ν) (values : List ν)

def answers : List (ν × Except Fault Nat) :=
  (kind.run kind.start values).1

def image : Bytes :=
  kind.data (kind.run kind.start values).2

/-- Every index among the answers fits a column and leads to its value. -/
def ReadsBack : Prop :=
  ∀ value index, (value, .ok index) ∈ kind.answers values →
    index < UInt32.size ∧ kind.read (kind.image values) index = .ok value

/-- Two additions share an index if and only if they are of one value. -/
def Shares : Prop :=
  ∀ first second place other, (first, .ok place) ∈ kind.answers values →
    (second, .ok other) ∈ kind.answers values → (place = other ↔ first = second)

/-- An addition in place has the answer of `add`, and one that is refused leaves every heap as it
was. -/
def AddsWhole : Prop :=
  ∀ value, (kind.insert value).Performs fun heap => kind.add heap value

/-- Additions leave a sound heap behind that has every entry of before. -/
structure Growth (Sound : σ → Prop) (Holds : σ → ν → Nat → Prop) (heap after : σ) : Prop where
  sound : Sound after
  kept {value : ν} {index : Nat} (holds : Holds heap value index) : Holds after value index

/-- An invariant of the additions of plain values, with the entries that a heap has. -/
structure Lawful (IsPlain : ν → Prop) (Sound : σ → Prop) (Holds : σ → ν → Nat → Prop) :
    Prop where
  start : Sound kind.start
  add {heap after : σ} {value : ν} {index : Nat} (sound : Sound heap) (plain : IsPlain value)
    (added : kind.add heap value = .ok (index, after)) :
    Growth Sound Holds heap after ∧ Holds after value index
  read {heap : σ} {value : ν} {index : Nat} (sound : Sound heap) (holds : Holds heap value index) :
    kind.read (kind.data heap) index = .ok value ∧ index ≤ (kind.data heap).size

variable {kind values} {IsPlain : ν → Prop} {Sound : σ → Prop} {Holds : σ → ν → Nat → Prop}

theorem Growth.refl {heap : σ} (sound : Sound heap) : Growth Sound Holds heap heap :=
  ⟨sound, fun holds => holds⟩

/-- A heap that has grown twice has grown. -/
theorem Growth.trans {heap middle after : σ} (first : Growth Sound Holds heap middle)
    (second : Growth Sound Holds middle after) : Growth Sound Holds heap after :=
  ⟨second.sound, fun holds => second.kept (first.kept holds)⟩

namespace Lawful

variable (lawful : kind.Lawful IsPlain Sound Holds)

include lawful

/-- One addition in place, whatever its answer. -/
theorem insert {heap after : σ} {value : ν} {answer : Except Fault Nat} (sound : Sound heap)
    (plain : IsPlain value) (step : (kind.insert value).runAt heap = (answer, after)) :
    Growth Sound Holds heap after ∧ ∀ index, answer = .ok index → Holds after value index := by
  cases answer with
  | error fault =>
    rw [(kind.insert_performs value).kept step]
    refine ⟨.refl sound, ?_⟩
    intro index given
    cases given
  | ok place =>
    have added := (kind.insert_performs value).eq_ok step
    obtain ⟨growth, holds⟩ := lawful.add sound plain added
    refine ⟨growth, ?_⟩
    intro index given
    cases given
    exact holds

/-- The entries of all additions are in the last heap. -/
theorem run {heap : σ} (sound : Sound heap) (plain : ∀ value ∈ values, IsPlain value) :
    Growth Sound Holds heap (kind.run heap values).2 ∧
      ∀ value index, (value, .ok index) ∈ (kind.run heap values).1 →
        Holds (kind.run heap values).2 value index := by
  -- The first entry is kept by the rest of the run, which starts from the heap that has it.
  induction values generalizing heap with
  | nil =>
    refine ⟨.refl sound, ?_⟩
    intro value index member
    cases member
  | cons value rest ih =>
    cases step : (kind.insert value).runAt heap with
    | mk answer after =>
      obtain ⟨growth, holds⟩ := lawful.insert sound (plain value List.mem_cons_self) step
      obtain ⟨later, held⟩ := ih growth.sound (List.forall_mem_of_forall_mem_cons plain)
      simp only [HeapKind.run, step]
      refine ⟨growth.trans later, ?_⟩
      intro other index member
      cases member with
      | head => exact later.kept (holds index rfl)
      | tail _ member => exact held other index member

/-- A lawful heap reads all additions of a run back from its final data. -/
theorem readsBack (plain : ∀ value ∈ values, IsPlain value)
    (small : (kind.image values).size < UInt32.size) : kind.ReadsBack values := by
  intro value index member
  obtain ⟨growth, holds⟩ := lawful.run lawful.start plain
  obtain ⟨read, inside⟩ := lawful.read growth.sound (holds value index member)
  exact ⟨Nat.lt_of_le_of_lt inside small, read⟩

/-- Equal values share their index where a value has one index only. That different values have
different ones is due to the reader. -/
theorem shares (plain : ∀ value ∈ values, IsPlain value)
    (single : ∀ heap value first second, Holds heap value first → Holds heap value second →
      first = second) : kind.Shares values := by
  intro first second place other firstMember secondMember
  obtain ⟨growth, holds⟩ := lawful.run lawful.start plain
  have firstHolds := holds first place firstMember
  have secondHolds := holds second other secondMember
  constructor
  · -- The reader has one value for an index.
    intro same
    have firstRead := (lawful.read growth.sound firstHolds).1
    have secondRead := (lawful.read growth.sound secondHolds).1
    rw [same, secondRead] at firstRead
    cases firstRead
    rfl
  · intro same
    subst same
    exact single _ _ _ _ firstHolds secondHolds

end Lawful

end HeapKind

end ClrDecompiler.Metadata
