/-
This file shows that a running digest of pieces is the digest of the message that they form, in
whatever way the message is cut.
-/

import ClrDecompiler.Digest.Basic
import Mathlib.Data.List.Basic

namespace ClrDecompiler

namespace Bytes

variable (front back : Bytes) (start : Nat) {stop : Nat}

theorem extract_append_left (inside : stop ≤ front.size) :
    (front ++ back).extract start stop = front.extract start stop := by
  rw [Array.extract_append, Nat.sub_eq_zero_of_le inside, Array.extract_zero, Array.append_empty]

theorem extract_append_right (stop : Nat) :
    (front ++ back).extract (front.size + start) (front.size + stop) =
      back.extract start stop := by
  rw [Array.extract_append, Array.extract_empty_of_size_le_start (by omega), Array.empty_append,
    Nat.add_sub_cancel_left, Nat.add_sub_cancel_left]

end Bytes

namespace Digest

namespace Scheme

section

variable (scheme : Scheme) (front back : Bytes)

/-! Words and blocks are found in the part that they lie in. -/

theorem word_append_left {offset : Nat} (inside : offset + 4 ≤ front.size) :
    scheme.word (front ++ back) offset = scheme.word front offset := by
  have whole : offset + 4 ≤ (front ++ back).size := by
    rw [Array.size_append]
    omega
  have same := Bytes.extract_append_left front back offset inside
  rw [word]
  split
  · rw [wordBigEndian, wordBigEndian, same]
  · simp only [wordLittleEndian, Bytes.word32At?, Bytes.numberAt?, Bytes.slice?, if_pos whole,
      if_pos inside, same]

theorem word_append_right (offset : Nat) :
    scheme.word (front ++ back) (front.size + offset) = scheme.word back offset := by
  have whole : front.size + (offset + 4) ≤ (front ++ back).size ↔ offset + 4 ≤ back.size := by
    rw [Array.size_append]
    omega
  have same := Bytes.extract_append_right front back offset (offset + 4)
  rw [word]
  split
  · rw [wordBigEndian, wordBigEndian, Nat.add_assoc, same]
  · simp only [wordLittleEndian, Bytes.word32At?, Bytes.numberAt?, Bytes.slice?, Nat.add_assoc,
      whole, same]

theorem blockWords_append_left {offset : Nat} (inside : offset + 64 ≤ front.size) :
    blockWords scheme.word (front ++ back) offset = blockWords scheme.word front offset := by
  refine congrArg Array.ofFn (funext fun index => ?_)
  exact scheme.word_append_left front back (by omega)

theorem blockWords_append_right (offset : Nat) :
    blockWords scheme.word (front ++ back) (front.size + offset) =
      blockWords scheme.word back offset := by
  refine congrArg Array.ofFn (funext fun index => ?_)
  rw [Nat.add_assoc]
  exact scheme.word_append_right front back _

end

variable {scheme : Scheme} (state : scheme.State)

/-- Data behind whole blocks is taken after them. -/
theorem overBlocks_append {front : Bytes} {blocks : Nat} (whole : front.size = 64 * blocks)
    (back : Bytes) : scheme.overBlocks state (front ++ back) =
      scheme.overBlocks (scheme.overBlocks state front) back := by
  have count : (front ++ back).size / 64 = blocks + back.size / 64 := by
    rw [Array.size_append, whole]
    omega
  rw [overBlocks, count, List.range_add, List.foldl_append, List.foldl_map, overBlocks, overBlocks,
    whole, Nat.mul_div_cancel_left _ (by decide)]
  have first : (List.range blocks).foldl (fun state block =>
      scheme.compress (blockWords scheme.word (front ++ back) (64 * block)) state) state =
        (List.range blocks).foldl (fun state block =>
          scheme.compress (blockWords scheme.word front (64 * block)) state) state := by
    refine List.foldl_ext _ _ _ fun state block member => ?_
    have below := List.mem_range.mp member
    rw [scheme.blockWords_append_left front back (by omega)]
  rw [first]
  refine List.foldl_ext _ _ _ fun state block member => ?_
  rw [Nat.mul_add, ← whole, scheme.blockWords_append_right]

theorem overBlocks_of_size_lt {data : Bytes} (small : data.size < 64) :
    scheme.overBlocks state data = state := by
  rw [overBlocks, Nat.div_eq_of_lt small]
  rfl

end Scheme

/-! Data are whole blocks and a rest. -/

def wholeBlocks (data : Bytes) : Bytes :=
  data.extract 0 (64 * (data.size / 64))

def restOf (data : Bytes) : Bytes :=
  data.extract (64 * (data.size / 64)) data.size

/-- Data consist of whole blocks and a rest. -/
theorem wholeBlocks_append_restOf (data : Bytes) : wholeBlocks data ++ restOf data = data := by
  rw [wholeBlocks, restOf, Array.extract_append_extract, Nat.min_eq_left (Nat.zero_le _),
    Nat.max_eq_right (Nat.mul_div_le _ _), Array.extract_size]

theorem size_wholeBlocks (data : Bytes) : (wholeBlocks data).size = 64 * (data.size / 64) := by
  rw [wholeBlocks, Array.size_extract]
  omega

theorem size_restOf (data : Bytes) : (restOf data).size = data.size % 64 := by
  rw [restOf, Array.size_extract]
  omega

/-- Whole blocks in front do not change the rest. -/
theorem restOf_append {front : Bytes} {blocks : Nat} (whole : front.size = 64 * blocks)
    (back : Bytes) : restOf (front ++ back) = restOf back := by
  have count : 64 * ((front ++ back).size / 64) = front.size + 64 * (back.size / 64) := by
    rw [Array.size_append, whole]
    omega
  rw [restOf, count, Array.size_append, Bytes.extract_append_right, restOf]

/-- Only whole blocks are worked into the state. -/
theorem overBlocks_eq_wholeBlocks {scheme : Scheme} (state : scheme.State) (data : Bytes) :
    scheme.overBlocks state data = scheme.overBlocks state (wholeBlocks data) := by
  have split := scheme.overBlocks_append state (size_wholeBlocks data) (restOf data)
  have small : (restOf data).size < 64 := size_restOf data ▸ Nat.mod_lt _ (by decide)
  rw [wholeBlocks_append_restOf, Scheme.overBlocks_of_size_lt _ small] at split
  exact split

/-- The padding belongs to the rest of the message. -/
theorem pad_eq_append (message : Bytes) (length : List UInt8) :
    pad message length = wholeBlocks message ++ pad (restOf message) length := by
  have size : (restOf message).size % 64 = message.size % 64 := by
    rw [size_restOf, Nat.mod_mod]
  rw [pad, pad, size]
  generalize (119 - message.size % 64) % 64 = zeros
  conv_lhs => rw [← wholeBlocks_append_restOf message]
  apply Array.toList_inj.mp
  simp

namespace Running

variable {scheme : Scheme} (running : Running scheme)

/-- Data may be absorbed in parts. -/
theorem absorb_absorb (first second : Bytes) :
    (running.absorb first).absorb second = running.absorb (first ++ second) := by
  have whole := size_wholeBlocks (running.pending ++ first)
  have split : wholeBlocks (running.pending ++ first) ++
      (restOf (running.pending ++ first) ++ second) = running.pending ++ (first ++ second) := by
    rw [← Array.append_assoc, wholeBlocks_append_restOf, Array.append_assoc]
  have state : scheme.overBlocks (scheme.overBlocks running.state (running.pending ++ first))
      (restOf (running.pending ++ first) ++ second) =
        scheme.overBlocks running.state (running.pending ++ (first ++ second)) := by
    rw [overBlocks_eq_wholeBlocks running.state (running.pending ++ first),
      ← scheme.overBlocks_append _ whole, split]
  have rest : restOf (restOf (running.pending ++ first) ++ second) =
      restOf (running.pending ++ (first ++ second)) := by
    rw [← restOf_append whole, split]
  change Running.mk _ _ _ = Running.mk _ _ _
  rw [Running.mk.injEq]
  exact ⟨state, rest, by rw [Array.size_append, ← Nat.add_assoc]; rfl⟩

/-- Pieces are absorbed like the data that they form. -/
theorem foldl_absorb (first : Bytes) (rest : List Bytes) :
    (first :: rest).foldl absorb running =
      running.absorb ((first :: rest).flatMap Array.toList).toArray := by
  induction rest generalizing first with
  | nil => rw [List.foldl_cons, List.foldl_nil, List.flatMap_singleton, Array.toArray_toList]
  | cons second rest ih =>
    have joined := ih (first ++ second)
    rw [List.foldl_cons, ← absorb_absorb, List.flatMap_cons, Array.toList_append] at joined
    rw [List.foldl_cons, List.foldl_cons, joined, List.flatMap_cons, List.flatMap_cons,
      List.append_assoc]

/-- What was absorbed from the start is known by its whole blocks, its rest and its size. -/
theorem absorb_start (message : Bytes) : ({} : Running scheme).absorb message =
    ⟨scheme.overBlocks scheme.initial message, restOf message, message.size⟩ := by
  rw [absorb, Array.empty_append, Nat.zero_add]
  rfl

/-- The digest of the pieces so far is the digest of the whole message. -/
theorem finish_absorb (message : Bytes) :
    (({} : Running scheme).absorb message).finish = scheme.hash message := by
  rw [absorb_start, finish, Scheme.hash, pad_eq_append message,
    scheme.overBlocks_append _ (size_wholeBlocks message), ← overBlocks_eq_wholeBlocks]

end Running

end Digest

end ClrDecompiler
