/-
This file reads method bodies with accesses that are made without asking, and shows that they
stay in range and that a chain of sections ends.
-/

import ClrDecompiler.Cil.MethodBody
import ClrDecompiler.Proofs.Strict.Number

namespace ClrDecompiler.Strict

open Cil

def scanFatClause : Scan ExceptionClause := do
  return {
    flags := ExceptionClause.knownFlags (← Scan.word32).toUInt16
    tryOffset := ← Scan.word32
    tryLength := ← Scan.word32
    handlerOffset := ← Scan.word32
    handlerLength := ← Scan.word32
    classOrFilter := ← Scan.word32 }

def scanSmallClause : Scan ExceptionClause := do
  return {
    flags := ExceptionClause.knownFlags (← Scan.word16)
    tryOffset := (← Scan.word16).toUInt32
    tryLength := (← Scan.word8).toUInt32
    handlerOffset := (← Scan.word16).toUInt32
    handlerLength := (← Scan.word8).toUInt32
    classOrFilter := ← Scan.word32 }

/-- A chain of more sections than `bound` does not end. -/
def readSections : Nat → Bytes → Nat → Run (List ExceptionClause)
  | 0, _, _ => .error .endless
  | bound + 1, data, cursor => do
    if data.size ≤ (← sum cursor 4) then return []
    let flags ← byteFrom data cursor
    if flags &&& 0x01 == 0 then return []
    let isFat := flags &&& 0x40 != 0
    let size ←
      if isFat then do pure ((← numberFrom data cursor 4) / 0x100)
      else do numberFrom data (← sum cursor 1) 1
    if size < 4 ∨ data.size < (← sum cursor size) then return []
    let count := (← difference size 4) / (if isFat then 24 else 12)
    let clauses ←
      (Scan.readMany (if isFat then scanFatClause else scanSmallClause) count).runFrom data
        (← sum cursor 4)
    if flags &&& 0x80 == 0 then return clauses
    let next ← sum (← sum cursor size) 3
    return clauses ++ (← readSections bound data (next / 4 * 4))

def readTinyBody (data : Bytes) (lead : UInt8) : Run MethodBody := do
  let stop ← sum (lead.toNat / 4) 1
  if data.size < stop then throw (.refused .outOfBounds)
  let code ← slice data 1 stop
  return { headerSize := 1, code, localsToken := 0, maxStack := 8, isFat := false,
           initLocals := false, clauses := [] }

def readFatBody (data : Bytes) : Run MethodBody := do
  if data.size < 12 then throw (.refused .outOfBounds)
  let flags ← word16From data 0
  let headerSize := flags.toNat / 0x1000 * 4
  let codeSize ← numberFrom data 4 4
  let codeEnd ← checked (headerSize + codeSize) .outOfBounds
  if headerSize < 12 ∨ data.size < codeEnd then throw (.refused .outOfBounds)
  let clauses ←
    if flags &&& 0x08 == 0 then pure []
    else do readSections data.size data ((← sum codeEnd 3) / 4 * 4)
  let code ← slice data headerSize codeEnd
  let localsToken ← word32From data 8
  let maxStack ← numberFrom data 2 2
  return { headerSize, code, localsToken, maxStack, isFat := true,
           initLocals := flags &&& 0x10 != 0, clauses }

def readBody (data : Bytes) : Run MethodBody := do
  if data.isEmpty then throw (.refused (.malformed .bodyEmpty))
  let lead ← byteFrom data 0
  if lead &&& 3 == 2 then readTinyBody data lead
  else if lead &&& 3 == 3 then readFatBody data
  else throw (.refused (.malformed (.bodyHeader lead)))

/-- The clauses of fat bodies are read number by number. -/
theorem Follows.scanFatClause {depth : Nat} : Follows depth scanFatClause ExceptionClause.readFat :=
  word32.bind fun _ => word32.bind fun _ => word32.bind fun _ => word32.bind fun _ =>
    word32.bind fun _ => word32.bind fun _ => value _

theorem Follows.scanSmallClause {depth : Nat} :
    Follows depth scanSmallClause ExceptionClause.readSmall :=
  word16.bind fun _ => word16.bind fun _ => word8.bind fun _ => word16.bind fun _ =>
    word8.bind fun _ => word32.bind fun _ => value _

theorem readMany_eq (step : Read ExceptionClause) (count : Nat) :
    ExceptionClause.readMany step count = Signature.readMany step count := by
  induction count with
  | zero => rfl
  | succ count ih => rw [ExceptionClause.readMany, Signature.readMany, ih]

section Bodies

variable {data : Bytes} (addressable : IsAddressable data)
include addressable

/-- Every section is four bytes long at least. -/
theorem settles_readSections {bound cursor : Nat} (left : data.size - cursor < bound)
    (near : cursor ≤ data.size + 3) :
    Settles (readSections bound data cursor) (MethodBody.readSections bound data cursor) := by
  have limit : data.size < 2 ^ 63 := addressable
  induction bound generalizing cursor with
  | zero => omega
  | succ bound ih =>
    refine .access (sum_eq_ok (by rw [wordLimit]; omega)) ?_
    refine .ite Iff.rfl (fun _ => .value []) fun more => ?_
    refine Settles.bind (settles_byteFrom addressable (by omega)) fun flags _ => ?_
    refine .ite Iff.rfl (fun _ => .value []) fun _ => ?_
    extract_lets isFat strictRest step rest
    have sized (size : Nat) (small : size < 2 ^ 32) : Settles (strictRest size) (rest size) := by
      refine .access (sum_eq_ok (by rw [wordLimit]; omega)) ?_
      refine .ite Iff.rfl (fun _ => .value []) fun fits => ?_
      refine .access (difference_eq_ok (by omega)) ?_
      refine .access (sum_eq_ok (by rw [wordLimit]; omega)) ?_
      refine Settles.bind ?_ fun clauses _ => ?_
      · rw [readMany_eq]
        refine (Follows.readMany ?_ _).settles addressable _
        exact .ite (fun _ => .scanFatClause) fun _ => .scanSmallClause
      refine .ite Iff.rfl (fun _ => .value clauses) fun _ => ?_
      refine .access (sum_eq_ok (by rw [wordLimit]; omega)) ?_
      refine .access (sum_eq_ok (by rw [wordLimit]; omega)) ?_
      have next : Settles _
          (MethodBody.readSections bound data (Bytes.alignUp 4 (cursor + size))) :=
        ih (by rw [Bytes.alignUp]; omega) (by rw [Bytes.alignUp]; omega)
      exact next.bind fun later _ => .value (clauses ++ later)
    refine .ite Iff.rfl (fun _ => ?_) fun _ => ?_
    · refine Settles.bind (settles_numberFrom addressable (by omega) 4) fun value found => ?_
      have word := Bytes.lt_of_numberAt? found
      exact sized _ (by omega)
    · refine .access (sum_eq_ok (by rw [wordLimit]; omega)) ?_
      refine Settles.bind (settles_numberFrom addressable (by omega) 1) fun value found => ?_
      have byte := Bytes.lt_of_numberAt? found
      exact sized _ (by omega)

/-- The strict reader of fat bodies never leaves the data. -/
theorem settles_readFatBody : Settles (readFatBody data) (MethodBody.readFat data) := by
  have limit : data.size < 2 ^ 63 := addressable
  have word : data.size < wordLimit := Nat.lt_trans limit (by decide)
  refine .guard Iff.rfl fun long => ?_
  obtain ⟨maxStack, foundStack⟩ := Bytes.exists_number id data 2 2 (by omega)
  obtain ⟨locals, foundLocals⟩ := Bytes.exists_number UInt32.ofNat data 8 4 (by omega)
  rw [Option.map_id_fun, id] at foundStack
  have readStack := (settles_numberFrom addressable (by omega) 2).eq_ok foundStack
  have readLocals := (settles_word32From addressable (by omega)).eq_ok foundLocals
  refine Settles.bind (settles_word16From addressable (by omega)) fun flags _ => ?_
  refine .known foundStack ?_
  refine Settles.bind (settles_numberFrom addressable (by omega) 4) fun codeSize found => ?_
  refine .known foundLocals ?_
  generalize flags.toNat / 0x1000 * 4 = headerSize
  by_cases fits : headerSize + codeSize ≤ data.size
  · have cut : slice data headerSize (headerSize + codeSize) = .ok _ :=
      slice_eq_ok (Nat.le_add_right _ _) fits
    refine .access (if_pos (Nat.lt_of_le_of_lt fits word)) ?_
    refine .ite (or_iff_left (Nat.not_lt_of_le fits)) (fun _ => .refused _) fun large => ?_
    refine .known (congrArg Bytes.orOutOfBounds (if_pos fits)) ?_
    refine .ite Iff.rfl (fun _ => ?_) fun _ => ?_
    · refine .access rfl (.known rfl ?_)
      exact .access cut (.access readLocals (.access readStack (.value _)))
    · have sections : Settles _ (MethodBody.readSections data.size data
          (Bytes.alignUp 4 (headerSize + codeSize))) :=
        settles_readSections addressable (by rw [Bytes.alignUp]; omega)
          (by rw [Bytes.alignUp]; omega)
      refine .access (sum_eq_ok (by rw [wordLimit]; omega)) (sections.bind fun clauses _ => ?_)
      exact .access cut (.access readLocals (.access readStack (.value _)))
  · have missing : data.slice? headerSize codeSize = none := if_neg fits
    refine .checked word (fun _ => ?_) ?_ <;> simp only [missing]
    · split <;> rfl
    · rw [if_pos (.inr (Nat.lt_of_not_le fits))]
      by_cases short : headerSize < 12
      · rw [if_pos short]
        exact .refused _
      · rw [if_neg short]
        exact .refused _

end Bodies

/-- The strict reader of tiny bodies never leaves the data. -/
theorem settles_readTinyBody (data : Bytes) (lead : UInt8) :
    Settles (readTinyBody data lead) (MethodBody.readTiny data lead) := by
  have small : lead.toNat < 256 := lead.toNat_lt
  refine .access (sum_eq_ok (by rw [wordLimit]; omega)) ?_
  rw [MethodBody.readTiny, Bytes.slice?, Nat.add_comm 1]
  by_cases fits : lead.toNat / 4 + 1 ≤ data.size
  · rw [if_neg (Nat.not_lt_of_le fits), if_pos fits]
    exact .access (slice_eq_ok (Nat.le_add_left 1 _) fits) (.value _)
  · rw [if_pos (Nat.lt_of_not_le fits), if_neg fits]
    exact .refused _

/-- The strict reader of bodies gives what the reader gives. -/
theorem settles_readBody {data : Bytes} (addressable : IsAddressable data) :
    Settles (readBody data) (MethodBody.read data) := by
  rw [MethodBody.read, readBody]
  cases first : data[0]? with
  | none =>
    have empty : data.isEmpty = true :=
      Array.isEmpty_iff_size_eq_zero.mpr (Nat.le_zero.mp (Array.getElem?_eq_none_iff.mp first))
    rw [if_pos empty]
    exact .refused _
  | some lead =>
    have filled : ¬ data.isEmpty = true := by
      intro empty
      rw [Array.isEmpty_iff.mp empty] at first
      cases first
    have found : Bytes.orOutOfBounds (data.byteAt? 0) = .ok lead := congrArg _ first
    rw [if_neg filled]
    refine .access ((settles_byteFrom addressable (Nat.zero_le _)).eq_ok found) ?_
    refine .ite Iff.rfl (fun _ => settles_readTinyBody data lead) fun _ => ?_
    exact .ite Iff.rfl (fun _ => settles_readFatBody addressable) fun _ => .refused _

end ClrDecompiler.Strict
