/-
This file shows that decoding inverts the encoding of instructions: the instructions of code
tile it and encode to it, and encoded instructions are decoded as themselves.
-/

import ClrDecompiler.Proofs.Cil.Recognition

namespace ClrDecompiler.Cil

open Bytes Read

theorem encodeAll_cons (first : Instruction) (rest : List Instruction) :
    encodeAll (first :: rest) = first.encode ++ encodeAll rest := rfl

theorem encodeAll_eq_nil_iff {instructions : List Instruction} :
    encodeAll instructions = [] ↔ instructions = [] := by
  constructor
  · intro written
    cases instructions with
    | nil => rfl
    | cons first rest =>
      rw [encodeAll_cons] at written
      have positive := first.encode_length_pos
      rw [(List.append_eq_nil_iff.mp written).1] at positive
      cases positive
  · rintro rfl
    rfl

/-- Instructions in a row end where their encodings end. -/
theorem Tiles.stop_eq {start stop : Nat} {instructions : List Instruction}
    (tiles : Tiles start instructions stop)
    (formed : ∀ instruction ∈ instructions, instruction.IsWellFormed) :
    stop = start + (encodeAll instructions).length := by
  induction instructions generalizing start with
  | nil => exact (show start = stop from tiles).symm
  | cons first rest ih =>
    obtain ⟨rfl, -, later⟩ := tiles
    rw [List.forall_mem_cons] at formed
    rw [ih later formed.2, encodeAll_cons, List.length_append, ← formed.1.sized, ← Nat.add_assoc]
    rfl

theorem Instruction.IsWellFormed.targetCount_lt {instruction : Instruction}
    (formed : instruction.IsWellFormed) (small : instruction.encode.length < UInt32.size) :
    instruction.operand.targetCount < UInt32.size := by
  have counted := Operand.targetCount_le formed.fits
  rw [Instruction.encode, List.length_append] at small
  omega

/-- One step of the decoder, in front of code that is not at its end. -/
theorem readInstruction_eq_ok_iff {code : Bytes} {before input : List UInt8}
    (whole : code.toList = before ++ input) (small : input.length < UInt32.size)
    {instruction : Instruction} {after : Nat} :
    readInstruction.runAt code before.length = (.ok instruction, after) ↔
      ∃ rest, input = instruction.encode ++ rest ∧ instruction.offset = before.length ∧
        instruction.IsWellFormed ∧ after = (before ++ instruction.encode).length := by
  rw [recognizes_readInstruction whole, List.length_append]
  constructor
  · rintro ⟨_, rest, split, ⟨offset, formed, -, rfl⟩, rfl⟩
    exact ⟨rest, split, offset, formed, rfl⟩
  · rintro ⟨rest, rfl, offset, formed, rfl⟩
    rw [List.length_append] at small
    have counted := formed.targetCount_lt (Nat.lt_of_le_of_lt (Nat.le_add_right _ _) small)
    exact ⟨_, rest, rfl, ⟨offset, formed, counted, rfl⟩, rfl⟩

/-- Well-formed instructions that lie one after the other from a place and encode to the code
there. -/
structure Covers (place : Nat) (input : List UInt8) (instructions : List Instruction) : Prop where
  tiles : Tiles place instructions (place + input.length)
  formed : ∀ instruction ∈ instructions, instruction.IsWellFormed
  written : encodeAll instructions = input

/-- No instructions cover no code. -/
theorem covers_nil_iff {place : Nat} {instructions : List Instruction} :
    Covers place [] instructions ↔ [] = instructions := by
  constructor
  · rintro ⟨-, -, written⟩
    exact (encodeAll_eq_nil_iff.mp written).symm
  · rintro rfl
    exact ⟨rfl, fun _ member => absurd member List.not_mem_nil, rfl⟩

/-- The first instruction covers the front of the code, and the others cover the rest. -/
theorem covers_cons_iff {place : Nat} {input : List UInt8} {first : Instruction}
    {others : List Instruction} :
    Covers place input (first :: others) ↔
      ∃ rest, input = first.encode ++ rest ∧ first.offset = place ∧ first.IsWellFormed ∧
        Covers (place + first.encode.length) rest others := by
  have stop (rest : List UInt8) : place + first.encode.length + rest.length =
      place + (first.encode ++ rest).length := by
    rw [List.length_append, Nat.add_assoc]
  have next (offset : first.offset = place) (formed : first.IsWellFormed) :
      first.nextOffset = place + first.encode.length := by
    rw [Instruction.nextOffset, offset, formed.sized]
  constructor
  · rintro ⟨⟨offset, -, tiles⟩, allFormed, rfl⟩
    obtain ⟨formed, othersFormed⟩ := List.forall_mem_cons.mp allFormed
    refine ⟨encodeAll others, rfl, offset, formed, ?_, othersFormed, rfl⟩
    rw [stop, ← next offset formed]
    exact tiles
  · rintro ⟨rest, rfl, offset, formed, tiles, othersFormed, written⟩
    refine ⟨⟨offset, ?_, ?_⟩, List.forall_mem_cons.mpr ⟨formed, othersFormed⟩, ?_⟩
    · rw [formed.sized]
      exact first.encode_length_pos
    · rw [next offset formed, ← stop]
      exact tiles
    · rw [encodeAll_cons, written]

/-- In front of code the decoder reads one instruction and goes on after it. -/
theorem decodeFrom_succ_eq_iff {bound position : Nat} {code : Bytes} (more : position < code.size)
    {instructions : List Instruction} :
    decodeFrom (bound + 1) code position = (instructions, none) ↔
      ∃ first after later, readInstruction.runAt code position = (.ok first, after) ∧
        decodeFrom bound code after = (later, none) ∧ instructions = first :: later := by
  rw [decodeFrom, if_pos more]
  rcases readInstruction.runAt code position with ⟨fault | first, after⟩
  · simp
  · rcases followed : decodeFrom bound code after with ⟨later, fault⟩
    simp only [followed, Prod.mk.injEq]
    constructor
    · rintro ⟨rfl, rfl⟩
      exact ⟨first, after, later, ⟨rfl, rfl⟩, followed, rfl⟩
    · rintro ⟨_, _, _, ⟨same, rfl⟩, run, rfl⟩
      cases same
      rw [followed] at run
      cases run
      exact ⟨rfl, rfl⟩

/-- The instructions that follow a place, if none is refused, are those that cover the rest of the
code. -/
theorem decodeFrom_eq_iff {code : Bytes} {bound : Nat} {before input : List UInt8}
    (whole : code.toList = before ++ input) (enough : input.length ≤ bound)
    (small : input.length < UInt32.size) (instructions : List Instruction) :
    decodeFrom bound code before.length = (instructions, none) ↔
      Covers before.length input instructions := by
  induction bound generalizing before input instructions with
  | zero =>
    cases List.length_eq_zero_iff.mp (Nat.le_zero.mp enough)
    rw [decodeFrom, Prod.mk.injEq, and_iff_left rfl, covers_nil_iff]
  | succ bound ih =>
    have size : code.size = before.length + input.length := by
      rw [← Array.length_toList, whole, List.length_append]
    by_cases more : before.length < code.size
    · -- Behind the first instruction the rest of the code is shorter than the bound.
      have later {first : Instruction} {rest : List UInt8} (split : input = first.encode ++ rest)
          (others : List Instruction) :
          decodeFrom bound code (before ++ first.encode).length = (others, none) ↔
            Covers (before.length + first.encode.length) rest others := by
        subst split
        have positive := first.encode_length_pos
        rw [List.length_append] at enough small
        rw [← List.append_assoc] at whole
        rw [ih whole (by omega) (by omega) others, List.length_append]
      rw [decodeFrom_succ_eq_iff more]
      constructor
      · rintro ⟨first, after, others, run, followed, rfl⟩
        obtain ⟨rest, split, offset, formed, rfl⟩ := (readInstruction_eq_ok_iff whole small).mp run
        exact covers_cons_iff.mpr ⟨rest, split, offset, formed, (later split others).mp followed⟩
      · intro covers
        cases instructions with
        | nil =>
          cases covers.written
          exact absurd more (Nat.not_lt_of_le (Nat.le_of_eq size))
        | cons first others =>
          obtain ⟨rest, split, offset, formed, covered⟩ := covers_cons_iff.mp covers
          exact ⟨first, _, others,
            (readInstruction_eq_ok_iff whole small).mpr ⟨rest, split, offset, formed, rfl⟩,
            (later split others).mpr covered, rfl⟩
    · cases List.length_eq_zero_iff.mp (show input.length = 0 by omega)
      rw [decodeFrom, if_neg more, Prod.mk.injEq, and_iff_left rfl, covers_nil_iff]

/-- Code is decoded as the instructions that cover it, and only as these. -/
theorem decode_eq_ok_iff {code : Bytes} (small : code.size < UInt32.size)
    {instructions : List Instruction} :
    decode code = .ok instructions ↔ Covers 0 code.toList instructions := by
  have found : decode code = .ok instructions ↔ decodePrefix code = (instructions, none) := by
    rw [decode]
    rcases decodePrefix code with ⟨found, _ | fault⟩ <;> simp
  have whole : code.toList = [] ++ code.toList := rfl
  rw [← Array.length_toList] at small
  rw [found, decodePrefix, ← Array.length_toList]
  exact decodeFrom_eq_iff whole (Nat.le_refl _) small instructions

/-- Instructions that are decoded from code tile it, are well formed and encode to it. Well-formed
instructions that lie one after the other from the start are decoded from their encoding. -/
theorem decode_inverts_encodeAll :
    (∀ code : Bytes, code.size < UInt32.size → ∀ instructions, decode code = .ok instructions →
      Tiles 0 instructions code.size ∧
        (∀ instruction ∈ instructions, instruction.IsWellFormed) ∧
          encodeAll instructions = code.toList) ∧
    (∀ (instructions : List Instruction) (stop : Nat), Tiles 0 instructions stop →
      (∀ instruction ∈ instructions, instruction.IsWellFormed) →
        (encodeAll instructions).length < UInt32.size →
          decode (encodeAll instructions).toArray = .ok instructions) := by
  constructor
  · intro code small instructions run
    obtain ⟨tiles, formed, written⟩ := (decode_eq_ok_iff small).mp run
    rw [Nat.zero_add, Array.length_toList] at tiles
    exact ⟨tiles, formed, written⟩
  · intro instructions stop tiles formed small
    have whole : Tiles 0 instructions (0 + (encodeAll instructions).length) := by
      rw [← tiles.stop_eq formed]
      exact tiles
    have fits : (encodeAll instructions).toArray.size < UInt32.size := small
    exact (decode_eq_ok_iff fits).mpr ⟨whole, formed, rfl⟩

/-- A negative constant, branches in both directions and a jump table with targets before and
after it. -/
def sampleCode : Bytes :=
  #[0x1F, 0xFF, 0x2B, 0xFC, 0x45, 2, 0, 0, 0, 0xEF, 0xFF, 0xFF, 0xFF, 0, 0, 0, 0,
    0x38, 0xF9, 0xFF, 0xFF, 0xFF, 0xFE, 0x16, 1, 0, 0, 0x1B, 0x2A]

def sampleInstructions : List Instruction := [
  ⟨0, 2, ⟨0x1F, "ldc.i4.s", .int8⟩, .signed (-1)⟩,
  ⟨2, 2, ⟨0x2B, "br.s", .shortBranch⟩, .target 0⟩,
  ⟨4, 13, ⟨0x45, "switch", .jumpTable⟩, .jumpTable [0, 17]⟩,
  ⟨17, 5, ⟨0x38, "br", .branch⟩, .target 15⟩,
  ⟨22, 6, ⟨0xFE16, "constrained.", .token⟩, .token ⟨0x1B000001⟩⟩,
  ⟨28, 1, ⟨0x2A, "ret", .none⟩, .none⟩]

theorem decode_inverts_encodeAll_sample :
    decode sampleCode = .ok sampleInstructions ∧
      Tiles 0 sampleInstructions sampleCode.size ∧
      encodeAll sampleInstructions = sampleCode.toList ∧
      decode (encodeAll sampleInstructions).toArray = .ok sampleInstructions := by
  have run : decode sampleCode = .ok sampleInstructions := by decide +kernel
  obtain ⟨decoded, encoded⟩ := decode_inverts_encodeAll
  obtain ⟨tiles, formed, written⟩ := decoded sampleCode (by decide) _ run
  have small : (encodeAll sampleInstructions).length < UInt32.size := by
    rw [written]
    decide
  exact ⟨run, tiles, written, encoded _ _ tiles formed small⟩

end ClrDecompiler.Cil
