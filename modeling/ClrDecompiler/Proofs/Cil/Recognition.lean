/-
This file shows that the decoder accepts exactly the written instructions: first opcodes, then
the operands of every kind, then whole instructions.
-/

import ClrDecompiler.Proofs.Cil.Encoding
import Mathlib.Data.List.Chain
import Mathlib.Data.List.Nodup

namespace ClrDecompiler.Cil

open Bytes Read

/-! The values of the opcodes rise, so that each belongs to one opcode. -/

/-- Different opcodes have different values. -/
theorem Opcode.values_nodup : (Opcode.all.map (·.value.toNat)).Nodup := by
  have rising : (Opcode.all.map (·.value.toNat)).IsChain (· < ·) := by decide +kernel
  exact (List.isChain_iff_pairwise.mp rising).imp Nat.ne_of_lt

theorem Opcode.ofValue?_eq_some {value : UInt16} {opcode : Opcode} :
    Opcode.ofValue? value = some opcode ↔ opcode ∈ Opcode.all ∧ opcode.value = value := by
  rw [Opcode.ofValue?]
  constructor
  · intro found
    have same := List.find?_some found
    exact ⟨List.mem_of_find?_eq_some found, eq_of_beq same⟩
  · rintro ⟨known, rfl⟩
    cases found : Opcode.all.find? fun other => other.value == opcode.value with
    | none => exact absurd (beq_self_eq_true _) (List.find?_eq_none.mp found opcode known)
    | some other =>
      have listed := List.mem_of_find?_eq_some found
      have same := List.find?_some found
      have equal := congrArg UInt16.toNat (eq_of_beq same)
      rw [List.inj_on_of_nodup_map Opcode.values_nodup listed known equal]

/-- The value of an opcode is its byte, or the byte after the extension below the extension. -/
theorem Opcode.value_shape {opcode : Opcode} (known : opcode ∈ Opcode.all) :
    (opcode.value < 0x100 ∧ opcode.value.toUInt8 ≠ Opcode.extension ∧
        opcode.value.toUInt8.toUInt16 = opcode.value) ∨
      (¬ opcode.value < 0x100 ∧ (opcode.value >>> 8).toUInt8 = Opcode.extension ∧
        0xFE00 ||| opcode.value.toUInt8.toUInt16 = opcode.value) := by
  revert opcode
  decide +kernel

theorem Opcode.encode_eq_single_iff {opcode : Opcode} (known : opcode ∈ Opcode.all) (byte : UInt8) :
    opcode.encode = [byte] ↔ byte ≠ Opcode.extension ∧ opcode.value = byte.toUInt16 := by
  rw [Opcode.encode]
  rcases Opcode.value_shape known with ⟨short, direct, same⟩ | ⟨long, -, -⟩
  · rw [if_pos short, List.singleton_inj]
    constructor
    · rintro rfl
      exact ⟨direct, same.symm⟩
    · rintro ⟨-, value⟩
      rw [value, UInt8.toUInt8_toUInt16]
  · rw [if_neg long]
    constructor
    · intro written
      cases (List.cons.inj written).2
    · rintro ⟨-, value⟩
      rw [value] at long
      exact absurd byte.toNat_lt long

theorem Opcode.encode_eq_pair_iff {opcode : Opcode} (known : opcode ∈ Opcode.all)
    (second : UInt8) : opcode.encode = [Opcode.extension, second] ↔
      opcode.value = 0xFE00 ||| second.toUInt16 := by
  rw [Opcode.encode]
  constructor
  · intro written
    rcases Opcode.value_shape known with ⟨short, -, -⟩ | ⟨long, -, low⟩
    · rw [if_pos short] at written
      cases (List.cons.inj written).2
    · rw [if_neg long] at written
      rw [← List.singleton_inj.mp (List.cons.inj written).2]
      exact low.symm
  · intro value
    have low : opcode.value.toUInt8 = second := by
      rw [value, UInt16.toUInt8_or, UInt8.toUInt8_toUInt16]
      exact UInt8.zero_or
    rcases Opcode.value_shape known with ⟨short, -, -⟩ | ⟨long, high, -⟩
    · have large : 0xFE00 ≤ opcode.value.toNat := by
        rw [value, UInt16.toNat_or]
        exact Nat.left_le_or
      exact absurd short (Nat.not_lt_of_le (Nat.le_trans (by decide) large))
    · rw [if_neg long, high, low]

/-- The lookups of bytes find the opcodes that are written as these bytes. -/
theorem Opcode.ofByte?_eq_some {byte : UInt8} (direct : byte ≠ Opcode.extension) {opcode : Opcode} :
    Opcode.ofByte? byte = some opcode ↔ opcode ∈ Opcode.all ∧ opcode.encode = [byte] := by
  rw [Opcode.ofByte?, Opcode.ofValue?_eq_some]
  apply and_congr_right
  intro known
  rw [Opcode.encode_eq_single_iff known, and_iff_right direct]

theorem Opcode.ofExtendedByte?_eq_some {second : UInt8} {opcode : Opcode} :
    Opcode.ofExtendedByte? second = some opcode ↔
      opcode ∈ Opcode.all ∧ opcode.encode = [Opcode.extension, second] := by
  rw [Opcode.ofExtendedByte?, Opcode.ofValue?_eq_some]
  apply and_congr_right
  intro known
  rw [Opcode.encode_eq_pair_iff known]

/-- An opcode takes one byte, or two behind the byte of extensions. -/
theorem Opcode.encode_cases {opcode : Opcode} (known : opcode ∈ Opcode.all) :
    (∃ byte, byte ≠ Opcode.extension ∧ opcode.encode = [byte]) ∨
      ∃ second, opcode.encode = [Opcode.extension, second] := by
  rw [Opcode.encode]
  rcases Opcode.value_shape known with ⟨short, direct, -⟩ | ⟨long, high, -⟩
  · rw [if_pos short]
    exact .inl ⟨_, direct, rfl⟩
  · rw [if_neg long, high]
    exact .inr ⟨_, rfl⟩

theorem recognizes_lookup (lookup : Option Opcode) (fault : Fault) :
    (lookup.elim (throw fault) pure : Read Opcode).Recognizes fun _ opcode encoding =>
      lookup = some opcode ∧ encoding = [] := by
  cases lookup with
  | none =>
    refine (recognizes_throw fault).congr fun place opcode encoding => ?_
    simp
  | some found =>
    refine (recognizes_pure found).congr fun place opcode encoding => ?_
    rw [Option.some.injEq]

/-- The opcodes that one byte selects, in which nothing follows it. -/
theorem recognizes_direct {first : UInt8} (direct : first ≠ Opcode.extension) (fault : Fault) :
    ((Opcode.ofByte? first).elim (throw fault) pure : Read Opcode).Recognizes
      fun _ opcode encoding => opcode ∈ Opcode.all ∧ opcode.encode = first :: encoding := by
  refine (recognizes_lookup _ _).congr fun place opcode encoding => ?_
  constructor
  · rintro ⟨listed, rfl⟩
    exact (Opcode.ofByte?_eq_some direct).mp listed
  · rintro ⟨known, written⟩
    rcases Opcode.encode_cases known with ⟨byte, -, single⟩ | ⟨second, pair⟩
    · obtain ⟨rfl, rfl⟩ := List.cons.inj (single.symm.trans written)
      exact ⟨(Opcode.ofByte?_eq_some direct).mpr ⟨known, single⟩, rfl⟩
    · exact absurd (List.cons.inj (pair.symm.trans written)).1.symm direct

/-- The opcodes that the byte after the extension selects. -/
theorem recognizes_extended (fault : UInt8 → Fault) : (do
      let second ← Read.word8
      (Opcode.ofExtendedByte? second).elim (throw (fault second)) pure : Read Opcode).Recognizes
    fun _ opcode encoding =>
      opcode ∈ Opcode.all ∧ opcode.encode = Opcode.extension :: encoding := by
  refine (recognizes_word8.bind _ fun second => recognizes_lookup _ _).congr
    fun place opcode encoding => ?_
  constructor
  · rintro ⟨second, _, _, rfl, rfl, listed, rfl⟩
    exact Opcode.ofExtendedByte?_eq_some.mp listed
  · rintro ⟨known, written⟩
    rcases Opcode.encode_cases known with ⟨byte, direct, single⟩ | ⟨second, pair⟩
    · exact absurd (List.cons.inj (single.symm.trans written)).1 direct
    · obtain rfl := (List.cons.inj (pair.symm.trans written)).2
      exact ⟨second, _, _, rfl, rfl, Opcode.ofExtendedByte?_eq_some.mpr ⟨known, pair⟩, rfl⟩

theorem readOpcode_eq : readOpcode = (do
      let start ← get
      let first ← Read.word8
      if first == Opcode.extension then
        let second ← Read.word8
        (Opcode.ofExtendedByte? second).elim
          (throw (.malformed (.extendedOpcode second start))) pure
      else
        (Opcode.ofByte? first).elim (throw (.malformed (.opcode first start))) pure) := by
  refine bind_congr fun start => bind_congr fun first => ?_
  split
  · refine bind_congr fun second => ?_
    cases Opcode.ofExtendedByte? second <;> rfl
  · cases Opcode.ofByte? first <;> rfl

/-- What is read as an opcode is its encoding. -/
theorem recognizes_readOpcode : readOpcode.Recognizes fun _ opcode encoding =>
    opcode ∈ Opcode.all ∧ encoding = opcode.encode := by
  rw [readOpcode_eq]
  refine Recognizes.congr (recognizes_get_bind fun start => recognizes_word8.bind
    (fun first _ opcode encoding => opcode ∈ Opcode.all ∧ opcode.encode = first :: encoding)
    fun first => ?_) fun place opcode encoding => ?_
  · by_cases extended : first = Opcode.extension
    · subst extended
      rw [if_pos (beq_self_eq_true _)]
      exact recognizes_extended fun second => .malformed (.extendedOpcode second start)
    · rw [if_neg (by rwa [beq_iff_eq])]
      exact recognizes_direct extended (.malformed (.opcode first start))
  · constructor
    · rintro ⟨first, _, tail, rfl, rfl, known, written⟩
      exact ⟨known, written.symm⟩
    · rintro ⟨known, rfl⟩
      rcases Opcode.encode_cases known with ⟨first, -, written⟩ | ⟨second, written⟩
      · exact ⟨first, _, _, written, rfl, known, written⟩
      · exact ⟨Opcode.extension, _, _, written, rfl, known, written⟩

/-! An operand is read up to the end of its instruction, from which its targets count. -/

/-- A branch leads to the target exactly if the target fits 32 bits. -/
theorem branchTarget_eq_ok_iff {next target : Nat} {displacement : Int} :
    branchTarget next displacement = .ok target ↔
      target < UInt32.size ∧ displacement = target - next := by
  rw [branchTarget]
  constructor
  · intro run
    split at run
    · cases run
      omega
    · cases run
  · rintro ⟨small, rfl⟩
    rw [if_pos (by omega)]
    congr 1
    omega

theorem recognizes_displacements (count : Nat) : (displacements count).Recognizes
    fun _ found encoding => found.length = count ∧ (∀ value ∈ found, FitsSigned 4 value) ∧
      encoding = found.flatMap (twosComplement 4) := by
  induction count with
  | zero =>
    refine (recognizes_pure []).congr fun place found encoding => ?_
    constructor
    · rintro ⟨rfl, rfl⟩
      simp
    · rintro ⟨none, -, rfl⟩
      cases List.length_eq_zero_iff.mp none
      exact ⟨rfl, rfl⟩
  | succ count ih =>
    refine ((recognizes_signed (by decide)).bind _ fun first => ih.bind _ fun rest =>
      recognizes_pure (first :: rest)).congr fun place found encoding => ?_
    constructor
    · rintro ⟨first, _, _, rfl, ⟨fits, rfl⟩, rest, _, _, rfl, ⟨rfl, others, rfl⟩, rfl, rfl⟩
      rw [List.append_nil]
      exact ⟨rfl, List.forall_mem_cons.mpr ⟨fits, others⟩, rfl⟩
    · rintro ⟨counted, fits, rfl⟩
      cases found with
      | nil => cases counted
      | cons first rest =>
        rw [List.forall_mem_cons] at fits
        exact ⟨first, _, _, rfl, ⟨fits.1, rfl⟩, rest, _, [], (List.append_nil _).symm,
          ⟨Nat.succ.inj counted, fits.2, rfl⟩, rfl, rfl⟩

theorem recognizes_targets (next : Nat) (found : List Int) :
    (found.mapM fun displacement => liftM (branchTarget next displacement) :
      Read (List Nat)).Recognizes fun _ targets encoding =>
        (∀ target ∈ targets, target < UInt32.size) ∧
          found = targets.map (fun target : Nat => (target - next : Int)) ∧ encoding = [] := by
  induction found with
  | nil =>
    refine (recognizes_pure []).congr fun place targets encoding => ?_
    constructor
    · rintro ⟨rfl, rfl⟩
      simp
    · rintro ⟨-, none, rfl⟩
      exact ⟨(List.map_eq_nil_iff.mp none.symm).symm, rfl⟩
  | cons first rest ih =>
    rw [List.mapM_cons]
    refine ((recognizes_liftM _).bind _ fun target => ih.bind _ fun targets =>
      recognizes_pure (target :: targets)).congr fun place targets encoding => ?_
    constructor
    · rintro ⟨target, _, _, rfl, ⟨run, rfl⟩, others, _, _, rfl, ⟨small, rfl, rfl⟩, rfl, rfl⟩
      obtain ⟨bound, rfl⟩ := branchTarget_eq_ok_iff.mp run
      exact ⟨List.forall_mem_cons.mpr ⟨bound, small⟩, rfl, rfl⟩
    · rintro ⟨small, listed, rfl⟩
      cases targets with
      | nil => cases listed
      | cons target others =>
        obtain ⟨rfl, rfl⟩ := List.cons.inj listed
        rw [List.forall_mem_cons] at small
        exact ⟨target, [], [], rfl, ⟨branchTarget_eq_ok_iff.mpr ⟨small.1, rfl⟩, rfl⟩,
          others, [], [], rfl, ⟨small.2, rfl, rfl⟩, rfl, rfl⟩

/-- The targets of a jump table, without their number. -/
theorem recognizes_jumps (count : Nat) : (do
      let found ← displacements count
      let next ← get
      found.mapM fun displacement => liftM (branchTarget next displacement) :
        Read (List Nat)).Recognizes fun place targets encoding =>
    targets.length = count ∧
      (∀ target ∈ targets, IsReached 4 (place + encoding.length) target) ∧
      encoding = targets.flatMap (encodeTarget 4 (place + encoding.length)) := by
  refine Recognizes.congr ((recognizes_displacements count).bind _ fun found =>
    recognizes_get_bind fun next => recognizes_targets next found) fun place targets encoding => ?_
  constructor
  · rintro ⟨found, encoding, _, rfl, ⟨rfl, fits, written⟩, small, listed, rfl⟩
    rw [List.append_nil]
    have table : found.flatMap (twosComplement 4) =
        targets.flatMap (encodeTarget 4 (place + encoding.length)) := by
      rw [listed, List.flatMap_map]
      rfl
    refine ⟨by rw [listed, List.length_map], fun target member => ⟨small target member, ?_⟩, ?_⟩
    · apply fits
      rw [listed]
      exact List.mem_map_of_mem member
    · exact written.trans table
  · rintro ⟨counted, reached, written⟩
    let distance (target : Nat) : Int := target - (place + encoding.length : Nat)
    have fits : ∀ value ∈ targets.map distance, FitsSigned 4 value :=
      List.forall_mem_map.mpr fun target member => (reached target member).2
    have table : encoding = (targets.map distance).flatMap (twosComplement 4) := by
      rw [List.flatMap_map]
      exact written
    exact ⟨targets.map distance, encoding, [], (List.append_nil _).symm,
      ⟨by rw [List.length_map, counted], fits, table⟩,
      fun target member => (reached target member).1, rfl, rfl⟩

/-- What is read as a table of jumps leads to its targets from behind the table. -/
theorem recognizes_jumpTable : jumpTable.Recognizes fun place targets encoding =>
    targets.length < UInt32.size ∧
      (∀ target ∈ targets, IsReached 4 (place + encoding.length) target) ∧
      encoding = littleEndian 4 targets.length ++
        targets.flatMap (encodeTarget 4 (place + encoding.length)) := by
  refine Recognizes.congr ((recognizes_number 4).bind _ fun count =>
    (recognizes_jumps count).after_room ?_ _) fun place targets encoding => ?_
  · rintro place targets encoding ⟨rfl, -, written⟩
    rw [written, flatMap_length (encodeTarget_length 4 _)]
  · constructor
    · rintro ⟨_, _, table, rfl, ⟨small, rfl⟩, rfl, reached, written⟩
      rw [Nat.add_assoc, ← List.length_append] at reached written
      exact ⟨small, reached, congrArg _ written⟩
    · rintro ⟨small, reached, written⟩
      let table := targets.flatMap (encodeTarget 4 (place + encoding.length))
      have size : place + (littleEndian 4 targets.length).length + table.length =
          place + encoding.length := by
        rw [Nat.add_assoc, ← List.length_append, ← written]
      refine ⟨targets.length, _, table, written, ⟨small, rfl⟩, rfl, ?_, ?_⟩
      · rw [size]
        exact reached
      · rw [size]

/-- What is read as a branch leads to its target from behind the branch. -/
theorem recognizes_branch {width : Nat} (positive : 0 < width) : (do
      let displacement ← Read.signed width
      .target <$> liftM (branchTarget (← get) displacement) : Read Operand).Recognizes
    fun place operand encoding => ∃ target, IsReached width (place + encoding.length) target ∧
      encoding = encodeTarget width (place + encoding.length) target ∧
        Operand.target target = operand := by
  refine Recognizes.congr ((recognizes_signed positive).bind _ fun displacement =>
    recognizes_get_bind fun next => (recognizes_liftM _).map Operand.target)
    fun place operand encoding => ?_
  constructor
  · rintro ⟨displacement, encoding, _, rfl, ⟨fits, written⟩, target, ⟨run, rfl⟩, rfl⟩
    obtain ⟨small, distance⟩ := branchTarget_eq_ok_iff.mp run
    rw [List.append_nil]
    rw [distance] at fits written
    exact ⟨target, ⟨small, fits⟩, written, rfl⟩
  · rintro ⟨target, ⟨small, fits⟩, written, rfl⟩
    exact ⟨_, encoding, [], (List.append_nil _).symm, ⟨fits, written⟩, target,
      ⟨branchTarget_eq_ok_iff.mpr ⟨small, rfl⟩, rfl⟩, rfl⟩

/-- The bytes of an operand at a place. Targets count from the end of these bytes. -/
def Operand.IsWritten (kind : OperandKind) (place : Nat) (operand : Operand)
    (encoding : List UInt8) : Prop :=
  operand.Fits (place + encoding.length) kind ∧ operand.targetCount < UInt32.size ∧
    encoding = operand.encode (place + encoding.length) kind

/-- What is read as an operand is written as one of its kind. -/
theorem recognizes_readOperand (kind : OperandKind) :
    (readOperand kind).Recognizes (Operand.IsWritten kind) := by
  have small : 0 < UInt32.size := by decide
  cases kind with
  | none =>
    refine (recognizes_pure Operand.none).congr fun place operand encoding => ?_
    cases operand <;> simp [Operand.IsWritten, small]
  | int8 =>
    apply ((recognizes_signed (by decide)).map Operand.signed).congr
    intro place operand encoding
    cases operand <;> simp [Operand.IsWritten, small]
  | uint8 =>
    refine ((recognizes_number 1).map Operand.unsigned).congr fun place operand encoding => ?_
    cases operand <;> simp [Operand.IsWritten, small]
  | uint16 =>
    refine ((recognizes_number 2).map Operand.unsigned).congr fun place operand encoding => ?_
    cases operand <;> simp [Operand.IsWritten, small]
  | int32 =>
    apply ((recognizes_signed (by decide)).map Operand.signed).congr
    intro place operand encoding
    cases operand <;> simp [Operand.IsWritten, small]
  | int64 =>
    apply ((recognizes_signed (by decide)).map Operand.signed).congr
    intro place operand encoding
    cases operand <;> simp [Operand.IsWritten, small]
  | float32 =>
    refine (recognizes_word32.map Operand.float32).congr fun place operand encoding => ?_
    cases operand <;> simp [Operand.IsWritten, small]
  | float64 =>
    refine (recognizes_word64.map Operand.float64).congr fun place operand encoding => ?_
    cases operand <;> simp [Operand.IsWritten, small]
  | token =>
    refine (recognizes_word32.map fun value => Operand.token ⟨value⟩).congr
      fun place operand encoding => ?_
    cases operand with
    | token found =>
      constructor
      · rintro ⟨value, rfl, same⟩
        cases same
        exact ⟨trivial, small, rfl⟩
      · rintro ⟨-, -, written⟩
        exact ⟨found.value, written, rfl⟩
    | _ => simp [Operand.IsWritten]
  | shortBranch =>
    refine (recognizes_branch (by decide)).congr fun place operand encoding => ?_
    cases operand <;> simp [Operand.IsWritten, small]
  | branch =>
    refine (recognizes_branch (by decide)).congr fun place operand encoding => ?_
    cases operand <;> simp [Operand.IsWritten, small]
  | jumpTable =>
    refine (recognizes_jumpTable.map Operand.jumpTable).congr fun place operand encoding => ?_
    cases operand with
    | jumpTable targets =>
      simp only [Operand.IsWritten, Operand.Fits, Operand.targetCount, Operand.encode,
        Operand.jumpTable.injEq, exists_eq_right, and_left_comm]
    | _ => simp [Operand.IsWritten]

/-- The decoder accepts an instruction at its offset, in the bytes that encode it. -/
theorem recognizes_readInstruction : readInstruction.Recognizes fun place instruction encoding =>
    instruction.offset = place ∧ instruction.IsWellFormed ∧
      instruction.operand.targetCount < UInt32.size ∧ encoding = instruction.encode := by
  refine Recognizes.congr (recognizes_get_bind fun start => recognizes_readOpcode.bind _
    fun opcode => (recognizes_readOperand opcode.operand).bind _ fun operand =>
      recognizes_get_bind fun stop =>
        recognizes_pure (Instruction.mk start (stop - start) opcode operand))
    fun place instruction encoding => ?_
  constructor
  · rintro ⟨opcode, _, _, rfl, ⟨known, rfl⟩, operand, encoding, _, rfl,
      ⟨fits, counted, written⟩, rfl, rfl⟩
    let size := opcode.encode.length + encoding.length
    have stop : place + opcode.encode.length + encoding.length = place + size := Nat.add_assoc _ _ _
    rw [stop] at fits written
    rw [stop, Nat.add_sub_cancel_left, List.append_nil]
    have whole : (Instruction.mk place size opcode operand).encode = opcode.encode ++ encoding :=
      congrArg _ written.symm
    have sized : size = (Instruction.mk place size opcode operand).encode.length := by
      rw [whole, List.length_append]
    exact ⟨rfl, ⟨known, fits, sized⟩, counted, whole.symm⟩
  · obtain ⟨start, size, opcode, operand⟩ := instruction
    rintro ⟨rfl, ⟨known, fits, sized⟩, counted, rfl⟩
    let encoding := operand.encode (start + size) opcode.operand
    have stop : start + opcode.encode.length + encoding.length = start + size := by
      rw [Nat.add_assoc, ← List.length_append]
      exact congrArg _ sized.symm
    refine ⟨opcode, _, encoding, rfl, ⟨known, rfl⟩, operand, encoding, [],
      (List.append_nil _).symm, ⟨?_, counted, ?_⟩, ?_, rfl⟩
    · rw [stop]
      exact fits
    · rw [stop]
    · rw [stop, Nat.add_sub_cancel_left]

end ClrDecompiler.Cil
