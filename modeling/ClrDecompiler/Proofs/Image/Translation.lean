/-
This file shows where the addresses of an image lead in the file. Every address that a section
covers leads to one place; the places lie in the data of the sections, and different addresses
keep different places, as long as no section is larger in memory than in the file.
-/

import ClrDecompiler.Image.Assembly
import ClrDecompiler.Proofs.Outcome
import Mathlib.Data.List.Pairwise
import Mathlib.Order.CompletePartialOrder
import Mathlib.Order.Interval.Set.Disjoint

namespace ClrDecompiler.Image

namespace Section

/-- The addresses of a section. Their number is the larger of its two sizes. -/
def addresses (part : Section) : Set Nat :=
  Set.Ico part.virtualAddress (part.virtualAddress + max part.virtualSize part.rawSize)

/-- The places in the file that hold the data of a section. -/
def rawData (part : Section) : Set Nat :=
  Set.Ico part.rawOffset (part.rawOffset + part.rawSize)

/-- The places to which the addresses of a section lead, also behind its data. -/
def reach (part : Section) : Set Nat :=
  Set.Ico part.rawOffset (part.rawOffset + max part.virtualSize part.rawSize)

/-- An address is as far from the start of the section as its place is from the start of the
data. -/
def place (part : Section) (address : Nat) : Nat :=
  address - part.virtualAddress + part.rawOffset

variable {part : Section}

theorem mem_addresses {address : Nat} : address ∈ part.addresses ↔
    part.virtualAddress ≤ address ∧
      address < part.virtualAddress + max part.virtualSize part.rawSize :=
  Iff.rfl

theorem mem_rawData {offset : Nat} :
    offset ∈ part.rawData ↔ part.rawOffset ≤ offset ∧ offset < part.rawOffset + part.rawSize :=
  Iff.rfl

/-- The places of a section are those of its addresses. -/
theorem mem_reach_iff {offset : Nat} :
    offset ∈ part.reach ↔ ∃ address ∈ part.addresses, part.place address = offset := by
  simp only [reach, mem_addresses, place, Set.mem_Ico]
  constructor
  · rintro ⟨above, below⟩
    exact ⟨part.virtualAddress + (offset - part.rawOffset), by omega, by omega⟩
  · rintro ⟨address, covered, rfl⟩
    omega

/-- A section puts different addresses at different places. -/
theorem place_injOn {first second : Nat} (firstCovered : first ∈ part.addresses)
    (secondCovered : second ∈ part.addresses) (same : part.place first = part.place second) :
    first = second := by
  rw [mem_addresses] at firstCovered secondCovered
  rw [place, place] at same
  omega

/-- The addresses of a section lead into its data exactly if the data fill it. -/
theorem forall_place_mem_rawData_iff :
    (∀ address ∈ part.addresses, part.place address ∈ part.rawData) ↔
      part.virtualSize ≤ part.rawSize := by
  simp only [mem_addresses, mem_rawData, place]
  constructor
  · intro inside
    by_contra larger
    -- The first address behind the data.
    have behind := inside (part.virtualAddress + part.rawSize) (by omega)
    omega
  · intro fits address covered
    omega

end Section

instance (one other : Section) : Decidable (Disjoint one.addresses other.addresses) :=
  decidable_of_iff _ Set.Ico_disjoint_Ico.symm

instance (one other : Section) : Decidable (Disjoint one.rawData other.rawData) :=
  decidable_of_iff _ Set.Ico_disjoint_Ico.symm

/-- Of ranges that have nothing in common, two with a common member are those of one section. -/
theorem eq_of_shared {range : Section → Set Nat} {sections : List Section}
    (apart : sections.Pairwise fun one other => Disjoint (range one) (range other))
    {one other : Section} (member : one ∈ sections) (otherMember : other ∈ sections) {value : Nat}
    (inside : value ∈ range one) (otherInside : value ∈ range other) : one = other := by
  have symmetric : Std.Symm fun one other => Disjoint (range one) (range other) :=
    ⟨fun _ _ disjoint => disjoint.symm⟩
  by_contra different
  exact Set.disjoint_left.mp (apart.forall member otherMember different) inside otherInside

/-- The sections share neither addresses nor data, and their addresses have 32 bits. -/
structure AreApart (sections : List Section) : Prop where
  bounded : ∀ part ∈ sections,
    part.virtualAddress + max part.virtualSize part.rawSize < UInt32.size
  addresses : sections.Pairwise fun one other => Disjoint one.addresses other.addresses
  rawData : sections.Pairwise fun one other => Disjoint one.rawData other.rawData

instance (sections : List Section) : Decidable (AreApart sections) :=
  decidable_of_iff (_ ∧ _ ∧ _)
    ⟨fun ⟨bounded, addresses, rawData⟩ => ⟨bounded, addresses, rawData⟩,
    fun apart => ⟨apart.bounded, apart.addresses, apart.rawData⟩⟩

namespace Assembly

/-- Different addresses lead to different places. -/
def KeepsApart (image : Assembly) : Prop :=
  ∀ first second place, image.offset first = .ok place → image.offset second = .ok place →
    first = second

/-- An address that leads to a place leads into the data of a section that covers it. -/
def StaysInData (image : Assembly) : Prop :=
  ∀ address place, image.offset address = .ok place →
    ∃ part ∈ image.sections, address ∈ part.addresses ∧ place ∈ part.rawData

/-- Of sections that share no address, the first one that covers an address is the only one. -/
theorem offsetIn_eq_ok_iff {address place : Nat} {sections : List Section}
    (bounded : ∀ part ∈ sections,
      part.virtualAddress + max part.virtualSize part.rawSize < UInt32.size)
    (apart : sections.Pairwise fun one other => Disjoint one.addresses other.addresses) :
    offsetIn address sections = .ok place ↔
      ∃ part ∈ sections, address ∈ part.addresses ∧ part.place address = place := by
  induction sections with
  | nil => simp [offsetIn]
  | cons part rest ih =>
    rw [List.forall_mem_cons] at bounded
    rw [List.pairwise_cons] at apart
    rw [List.exists_mem_cons_iff, offsetIn, if_neg (Nat.not_le_of_lt bounded.1)]
    by_cases covered : address ∈ part.addresses
    · have alone : ¬ ∃ other ∈ rest, address ∈ other.addresses ∧ other.place address = place :=
        fun ⟨other, member, shared, _⟩ =>
          Set.disjoint_left.mp (apart.1 other member) covered shared
      rw [if_pos (Section.mem_addresses.mp covered), Except.ok.injEq, or_iff_left alone]
      exact (and_iff_right covered).symm
    · rw [if_neg (mt Section.mem_addresses.mpr covered), ih bounded.2 apart.2,
        or_iff_right fun first => covered first.1]

section Apart

variable {image : Assembly} (apart : AreApart image.sections)
include apart

/-- An address has exactly the places that the sections over it give it. -/
theorem offset_eq_ok_iff {address place : Nat} :
    image.offset address = .ok place ↔
      ∃ part ∈ image.sections, address ∈ part.addresses ∧ part.place address = place := by
  rw [offset, ← offsetIn_eq_ok_iff apart.bounded apart.addresses]
  split
  case isFalse => rfl
  case isTrue large =>
    -- Behind the addresses of 32 bits there is no section.
    rw [offsetIn_eq_ok_iff apart.bounded apart.addresses]
    refine iff_of_false (fun failed => by cases failed) ?_
    rintro ⟨part, member, covered, -⟩
    have bound := apart.bounded part member
    rw [Section.mem_addresses] at covered
    omega

/-- An address in a section is translated by it. -/
theorem offset_of_mem {part : Section} (member : part ∈ image.sections) {address : Nat}
    (covered : address ∈ part.addresses) : image.offset address = .ok (part.place address) :=
  (offset_eq_ok_iff apart).mpr ⟨part, member, covered, rfl⟩

/-- Different addresses stay apart exactly if the sections do. -/
theorem keepsApart_iff : image.KeepsApart ↔
    image.sections.Pairwise fun one other => Disjoint one.reach other.reach := by
  constructor
  · intro keeps
    refine apart.addresses.imp_of_mem fun {one other} member otherMember disjoint => ?_
    rw [Set.disjoint_left]
    intro place reached otherReached
    obtain ⟨first, covered, placed⟩ := Section.mem_reach_iff.mp reached
    obtain ⟨second, otherCovered, otherPlaced⟩ := Section.mem_reach_iff.mp otherReached
    have same : first = second :=
      keeps first second place ((offset_eq_ok_iff apart).mpr ⟨one, member, covered, placed⟩)
        ((offset_eq_ok_iff apart).mpr ⟨other, otherMember, otherCovered, otherPlaced⟩)
    rw [same] at covered
    exact Set.disjoint_left.mp disjoint covered otherCovered
  · intro disjoint first second place firstRun secondRun
    obtain ⟨one, member, covered, placed⟩ := (offset_eq_ok_iff apart).mp firstRun
    obtain ⟨other, otherMember, otherCovered, otherPlaced⟩ :=
      (offset_eq_ok_iff apart).mp secondRun
    have same : one = other := eq_of_shared disjoint member otherMember
      (Section.mem_reach_iff.mpr ⟨first, covered, placed⟩)
      (Section.mem_reach_iff.mpr ⟨second, otherCovered, otherPlaced⟩)
    subst same
    exact Section.place_injOn covered otherCovered (placed.trans otherPlaced.symm)

/-- Addresses stay in the data of their sections exactly if no section is larger in memory. -/
theorem staysInData_iff :
    image.StaysInData ↔ ∀ part ∈ image.sections, part.virtualSize ≤ part.rawSize := by
  constructor
  · intro stays part member
    rw [← Section.forall_place_mem_rawData_iff]
    intro address covered
    obtain ⟨other, otherMember, otherCovered, inside⟩ :=
      stays address _ (offset_of_mem apart member covered)
    rw [eq_of_shared apart.addresses member otherMember covered otherCovered] at inside ⊢
    exact inside
  · intro fits address place run
    obtain ⟨part, member, covered, rfl⟩ := (offset_eq_ok_iff apart).mp run
    exact ⟨part, member, covered,
      Section.forall_place_mem_rawData_iff.mpr (fits part member) address covered⟩

/-- The data of different sections have no place in common. -/
theorem keepsApart_of_staysInData (stays : image.StaysInData) : image.KeepsApart := by
  rw [keepsApart_iff apart]
  refine apart.rawData.imp_of_mem fun {one other} member otherMember disjoint => ?_
  have fits := (staysInData_iff apart).mp stays
  rw [Section.reach, Section.reach, max_eq_right (fits one member),
    max_eq_right (fits other otherMember)]
  exact disjoint

end Apart

/-- The addresses that lead to a place are those that a section covers. They keep different
places exactly if the sections, as large as they are in memory, do not meet in the file; they
lead into the data of their section exactly if no section is larger in memory than in the file,
and then they keep different places as well. -/
theorem offset_places_exact_iff {image : Assembly} (apart : AreApart image.sections) :
    (∀ address place, image.offset address = .ok place ↔
      ∃ part ∈ image.sections, address ∈ part.addresses ∧ part.place address = place) ∧
    (image.KeepsApart ↔
      image.sections.Pairwise fun one other => Disjoint one.reach other.reach) ∧
    (image.StaysInData ↔ ∀ part ∈ image.sections, part.virtualSize ≤ part.rawSize) ∧
    (image.StaysInData → image.KeepsApart) :=
  ⟨fun _ _ => offset_eq_ok_iff apart, keepsApart_iff apart, staysInData_iff apart,
    keepsApart_of_staysInData apart⟩

/-! A small image of two sections. The first one holds the header of managed code and the start
of the metadata; its size in memory varies. -/

section Sample

open Bytes

def sampleParts (virtualSize : Nat) : List Section :=
  [{ virtualAddress := 0x1000, virtualSize, rawOffset := 0x200, rawSize := 0x200 },
   { virtualAddress := 0x3000, virtualSize := 0x200, rawOffset := 0x400, rawSize := 0x200 }]

def sectionHeader (part : Section) : List UInt8 :=
  List.replicate 8 0 ++ (littleEndian 4 part.virtualSize ++ littleEndian 4 part.virtualAddress ++
    littleEndian 4 part.rawSize ++ littleEndian 4 part.rawOffset) ++ List.replicate 16 0

def sampleImage (virtualSize : Nat) : Bytes :=
  let start := [0x4D, 0x5A] ++ List.replicate 58 0 ++ littleEndian 4 0x40
  let header := [0x50, 0x45, 0x00, 0x00] ++ littleEndian 2 0x14C ++ littleEndian 2 2 ++
    List.replicate 12 0 ++ littleEndian 2 224 ++ littleEndian 2 0
  let optional := littleEndian 2 0x10B ++ List.replicate 34 0 ++ littleEndian 4 0x200 ++
    List.replicate 52 0 ++ littleEndian 4 16 ++ List.replicate 112 0 ++
    (littleEndian 4 0x1000 ++ littleEndian 4 72) ++ List.replicate 8 0
  let cli := littleEndian 4 72 ++ littleEndian 4 0 ++
    (littleEndian 4 0x1048 ++ littleEndian 4 24) ++ List.replicate 56 0
  let metadata := [0x42, 0x53, 0x4A, 0x42] ++ littleEndian 2 1 ++ littleEndian 2 1 ++
    littleEndian 4 0 ++ littleEndian 4 4 ++ [0x76, 0x34, 0x00, 0x00] ++ littleEndian 4 0
  (start ++ header ++ optional ++ (sampleParts virtualSize).flatMap sectionHeader ++
    List.replicate 120 0 ++ (cli ++ metadata) ++ List.replicate 416 0 ++
    List.replicate 0x200 0x2A).toArray

end Sample

theorem offset_places_exact_iff_sample :
    ∃ image, read (sampleImage 0x180) = .ok image ∧ AreApart image.sections ∧
      (∀ place, image.offset 0x11FF = .ok place ↔ ∃ part ∈ image.sections,
        0x11FF ∈ part.addresses ∧ part.place 0x11FF = place) ∧
      image.StaysInData ∧ image.KeepsApart := by
  have opened : (read (sampleImage 0x180)).toOption.any
      (fun image => image.sections == sampleParts 0x180) = true := by decide +kernel
  obtain ⟨image, run, same⟩ := Outcome.ok_of_any opened
  have sections : image.sections = sampleParts 0x180 := eq_of_beq same
  have apart : AreApart image.sections := by
    rw [sections]
    decide
  obtain ⟨places, -, stays, keeps⟩ := offset_places_exact_iff apart
  have inData : image.StaysInData := by
    rw [stays, sections]
    decide
  exact ⟨image, run, apart, places 0x11FF, inData, keeps inData⟩

/-- The first section is larger in memory than in the file. The first address behind its data
leads to the data of the second section. -/
theorem sampleImage_meets :
    ∃ image, read (sampleImage 0x1200) = .ok image ∧ AreApart image.sections ∧
      image.offset 0x1200 = .ok 0x400 ∧ image.offset 0x3000 = .ok 0x400 ∧
      ¬ image.KeepsApart ∧ ¬ image.StaysInData := by
  have opened : (read (sampleImage 0x1200)).toOption.any
      (fun image => image.sections == sampleParts 0x1200) = true := by decide +kernel
  obtain ⟨image, run, same⟩ := Outcome.ok_of_any opened
  have sections : image.sections = sampleParts 0x1200 := eq_of_beq same
  have apart : AreApart image.sections := by
    rw [sections]
    decide
  have behind : image.offset 0x1200 = .ok 0x400 := by
    rw [offset, sections]
    rfl
  have next : image.offset 0x3000 = .ok 0x400 := by
    rw [offset, sections]
    rfl
  refine ⟨image, run, apart, behind, next, fun keeps => ?_, fun stays => ?_⟩
  · exact absurd (keeps 0x1200 0x3000 0x400 behind next) (by decide)
  · have fits := (staysInData_iff apart).mp stays
    rw [sections] at fits
    exact absurd fits (by decide)

end Assembly

end ClrDecompiler.Image
