/-
This file shows that method bodies are read as they are laid out: the clauses of a section, the
chain of sections after the code, and the header.
-/

import ClrDecompiler.Proofs.Cil.BodyEncoding

namespace ClrDecompiler.Cil

open Bytes Read

namespace ExceptionClause

variable {clause : ExceptionClause}

/-- A fat clause is read back. -/
theorem yields_readFat (hasKind : clause.HasKind) (rest : List UInt8) :
    readFat.Yields (clause.encodeFat ++ rest) clause rest := by
  have flags (rest : List UInt8) : Read.word32.Yields
      (littleEndian 4 clause.flags.toNat ++ rest) clause.flags.toUInt32 rest := by
    rw [← UInt16.toNat_toUInt32]
    exact yields_word32 _ rest
  simp only [encodeFat, List.append_assoc]
  refine (flags _).bind ((yields_word32 _ _).bind ((yields_word32 _ _).bind
    ((yields_word32 _ _).bind ((yields_word32 _ _).bind ((yields_word32 _ _).bind ?_)))))
  rw [UInt16.toUInt16_toUInt32, hasKind.knownFlags_eq]
  exact yields_pure clause rest

/-- A small clause is read back if its numbers fit it. -/
theorem yields_readSmall (hasKind : clause.HasKind) (narrow : clause.IsNarrow)
    (rest : List UInt8) : readSmall.Yields (clause.encodeSmall ++ rest) clause rest := by
  have word16 {value : UInt32} (fits : value.toNat < 256 ^ 2) (rest : List UInt8) :
      ∃ word : UInt16, word.toUInt32 = value ∧
        Read.word16.Yields (littleEndian 2 value.toNat ++ rest) word rest := by
    refine ⟨value.toUInt16, ?_, (yields_number 2 fits rest).map UInt16.ofNat⟩
    rw [← UInt32.toNat_inj, UInt16.toNat_toUInt32, UInt32.toNat_toUInt16]
    exact Nat.mod_eq_of_lt fits
  have word8 {value : UInt32} (fits : value.toNat < 256 ^ 1) (rest : List UInt8) :
      ∃ byte : UInt8, byte.toUInt32 = value ∧
        Read.word8.Yields (littleEndian 1 value.toNat ++ rest) byte rest := by
    refine ⟨value.toUInt8, ?_, (yields_number 1 fits rest).map UInt8.ofNat⟩
    rw [← UInt32.toNat_inj, UInt8.toNat_toUInt32, UInt32.toNat_toUInt8]
    exact Nat.mod_eq_of_lt fits
  simp only [encodeSmall, List.append_assoc]
  obtain ⟨handlerLength, sameHandlerLength, readHandlerLength⟩ := word8 narrow.handlerLength
    (littleEndian 4 clause.classOrFilter.toNat ++ rest)
  obtain ⟨handlerOffset, sameHandlerOffset, readHandlerOffset⟩ := word16 narrow.handlerOffset _
  obtain ⟨tryLength, sameTryLength, readTryLength⟩ := word8 narrow.tryLength _
  obtain ⟨tryOffset, sameTryOffset, readTryOffset⟩ := word16 narrow.tryOffset _
  refine (yields_word16 _ _).bind (readTryOffset.bind (readTryLength.bind
    (readHandlerOffset.bind (readHandlerLength.bind ((yields_word32 _ _).bind ?_)))))
  rw [hasKind.knownFlags_eq, sameTryOffset, sameTryLength, sameHandlerOffset, sameHandlerLength]
  exact yields_pure clause rest

theorem yields_readMany {step : Read ExceptionClause} {encode : ExceptionClause → List UInt8}
    {clauses : List ExceptionClause}
    (reads : ∀ clause ∈ clauses, ∀ rest, step.Yields (encode clause ++ rest) clause rest)
    (rest : List UInt8) :
    (readMany step clauses.length).Yields (clauses.flatMap encode ++ rest) clauses rest := by
  induction clauses with
  | nil => exact yields_pure [] rest
  | cons first others ih =>
    obtain ⟨head, tail⟩ := List.forall_mem_cons.mp reads
    rw [List.flatMap_cons, List.append_assoc]
    exact (head _).bind ((ih tail).bind (yields_pure _ rest))

end ExceptionClause

namespace HandlerTable

/-- The clauses of a table are read back in its format. -/
theorem IsWellFormed.yields_clauses {table : HandlerTable} (formed : table.IsWellFormed)
    (rest : List UInt8) :
    (ExceptionClause.readMany
      (if table.isFat then ExceptionClause.readFat else ExceptionClause.readSmall)
      table.clauses.length).Yields
      (table.clauses.flatMap (ExceptionClause.encode table.isFat) ++ rest) table.clauses rest := by
  refine ExceptionClause.yields_readMany (fun clause member rest => ?_) rest
  have hasKind := formed.kinds clause member
  cases format : table.isFat with
  | true => exact ExceptionClause.yields_readFat hasKind rest
  | false =>
    have narrow := formed.narrow format clause member
    exact ExceptionClause.yields_readSmall hasKind narrow rest

/-! The first byte of a section is read bit by bit. -/

theorem kindByte_table (isFat more : Bool) : (kindByte isFat more &&& 0x01 == 0) = false := by
  cases isFat <;> cases more <;> rfl

theorem kindByte_fat (isFat more : Bool) : (kindByte isFat more &&& 0x40 != 0) = isFat := by
  cases isFat <;> cases more <;> rfl

theorem kindByte_more (isFat more : Bool) : (kindByte isFat more &&& 0x80 == 0) = !more := by
  cases isFat <;> cases more <;> rfl

section Place

variable {data : Bytes} {before after : List UInt8} {table : HandlerTable} {more : Bool}
  (formed : table.IsWellFormed) (whole : data.toList = before ++ (table.encode more ++ after))
include formed whole

theorem numberAt?_fat (fat : table.isFat = true) :
    data.numberAt? before.length 4 =
      some ((kindByte true more).toNat + 0x100 * table.size) := by
  have sized : table.size < 2 ^ 24 := by
    have bound := formed.sized
    rwa [if_pos fat] at bound
  have low := (kindByte true more).toNat_lt
  apply numberAt?_middle (by omega)
  rw [whole, encode, header, fat, if_pos rfl, littleEndian_cons, List.append_assoc]

theorem numberAt?_small (small : table.isFat = false) :
    data.numberAt? (before.length + 1) 1 = some table.size := by
  have sized : table.size < 256 ^ 1 := by
    have bound := formed.sized
    rw [small, if_neg Bool.false_ne_true] at bound
    rw [size, small, ExceptionClause.width, if_neg Bool.false_ne_true]
    omega
  have start : (before ++ [kindByte false more]).length = before.length + 1 :=
    List.length_append
  have split : data.toList = (before ++ [kindByte false more]) ++ (littleEndian 1 table.size ++
      ([0, 0] ++ (table.clauses.flatMap (ExceptionClause.encode false) ++ after))) := by
    rw [whole, encode, header, small, if_neg Bool.false_ne_true]
    simp only [List.append_assoc, List.cons_append, List.nil_append]
  rw [← start, numberAt?_middle sized split]

/-- One step of the reader at a section that does not end the data. -/
theorem readSections_succ (long : before.length + 4 < data.size) (bound : Nat) :
    MethodBody.readSections (bound + 1) data before.length =
      if more then do
        return table.clauses ++
          (← MethodBody.readSections bound data (alignUp 4 (before.length + table.size)))
      else .ok table.clauses := by
  have lead : data.byteAt? before.length = some (kindByte table.isFat more) := by
    apply byteAt?_middle before
    rw [whole, encode, header]
    rfl
  have inside : ¬ (table.size < 4 ∨ data.size < before.length + table.size) := by
    have all := congrArg List.length whole
    rw [Array.length_toList, List.length_append, List.length_append, encode_length] at all
    rw [size] at all ⊢
    omega
  have count : (table.size - 4) / (if table.isFat then 24 else 12) = table.clauses.length := by
    rw [size, Nat.add_sub_cancel_left]
    exact Nat.mul_div_cancel _ (ExceptionClause.width_pos table.isFat)
  have content : ((ExceptionClause.readMany
      (if table.isFat then ExceptionClause.readFat else ExceptionClause.readSmall)
      table.clauses.length).runAt data (before.length + 4)).1 = .ok table.clauses := by
    rw [encode, List.append_assoc, ← List.append_assoc] at whole
    have run := (formed.yields_clauses after).runAt_append whole
    rw [List.length_append, header_length] at run
    rw [run]
  rw [MethodBody.readSections, if_neg (Nat.not_le_of_lt long), lead]
  simp only [orOutOfBounds, bind, Except.bind, pure, Except.pure, kindByte_table, kindByte_fat,
    kindByte_more, Bool.false_eq_true, if_false]
  cases format : table.isFat with
  | true =>
    rw [format, if_pos rfl] at count content
    have value : ((kindByte true more).toNat + 0x100 * table.size) / 0x100 = table.size := by
      have low := (kindByte true more).toNat_lt
      omega
    simp only [numberAt?_fat formed whole format, value, if_true, if_neg inside, count, content]
    cases more <;> rfl
  | false =>
    rw [format, if_neg Bool.false_ne_true] at count content
    simp only [numberAt?_small formed whole format, Bool.false_eq_true, if_false, if_neg inside,
      count, content]
    cases more <;> rfl

end Place

/-- The last section ends the chain. If it is empty and ends the data, it is not looked at. -/
theorem readSections_last {data : Bytes} {before trailing : List UInt8} {last : HandlerTable}
    (formed : last.IsWellFormed)
    (whole : data.toList = before ++ (last.encode false ++ trailing)) (bound : Nat) :
    MethodBody.readSections (bound + 1) data before.length = .ok last.clauses := by
  by_cases long : before.length + 4 < data.size
  · exact readSections_succ formed whole long bound
  · have empty : last.clauses = [] := by
      have all := congrArg List.length whole
      have positive := ExceptionClause.width_pos last.isFat
      rw [Array.length_toList, List.length_append, List.length_append, encode_length, size] at all
      have none : last.clauses.length * ExceptionClause.width last.isFat = 0 := by omega
      exact List.eq_nil_of_length_eq_zero
        ((Nat.mul_eq_zero.mp none).resolve_right (Nat.ne_of_gt positive))
    rw [MethodBody.readSections, if_pos (Nat.le_of_not_lt long), empty]
    rfl

/-- The reader goes on to the next section, which starts where the one before it ends. -/
theorem readSections_encodeAll {data : Bytes} {trailing : List UInt8} {tables : List HandlerTable}
    (present : tables ≠ []) (formed : ∀ table ∈ tables, table.IsWellFormed) {bound : Nat}
    (enough : tables.length ≤ bound) {before : List UInt8} (aligned : before.length % 4 = 0)
    (whole : data.toList = before ++ (encodeAll tables ++ trailing)) :
    MethodBody.readSections bound data before.length =
      .ok (tables.flatMap HandlerTable.clauses) := by
  induction tables using encodeAll.induct generalizing bound before with
  | case1 => exact absurd rfl present
  | case2 last =>
    obtain ⟨bound, rfl⟩ := Nat.exists_eq_add_of_le' enough
    rw [encodeAll] at whole
    rw [List.flatMap_singleton]
    exact readSections_last (formed last List.mem_cons_self) whole _
  | case3 first second rest ih =>
    obtain ⟨bound, rfl⟩ := Nat.exists_eq_add_of_le' (Nat.le_of_add_left_le enough)
    rw [List.forall_mem_cons] at formed
    rw [encodeAll, padded_encode, List.append_assoc] at whole
    have long : before.length + 4 < data.size := by
      have all := congrArg List.length whole
      have later := length_le_encodeAll_length (second :: rest)
      rw [Array.length_toList, List.length_append, List.length_append, List.length_append,
        encode_length, size] at all
      rw [List.length_cons] at later
      omega
    have start : (before ++ first.encode true).length % 4 = 0 := by
      rw [List.length_append, encode_length, Nat.add_mod, aligned, size_mod_four]
    have next : alignUp 4 (before.length + first.size) = (before ++ first.encode true).length := by
      rw [List.length_append, encode_length] at start ⊢
      rw [alignUp]
      omega
    have later := ih (List.cons_ne_nil _ _) formed.2 (Nat.le_of_succ_le_succ enough) start
      (whole.trans (List.append_assoc _ _ _).symm)
    rw [readSections_succ formed.1 whole long, next, if_pos rfl, later]
    rfl

end HandlerTable

namespace BodyLayout

/-! The first word of a fat header is read bit by bit. -/

/-- A mask splits into that of the flags and that of the fixed bits. -/
theorem fatWord_and (flags mask : UInt16) (more : Bool) :
    fatWord flags more &&& mask =
      flags &&& (0x0FF4 &&& mask) ||| ((if more then 0x300B else 0x3003) &&& mask) := by
  rw [← UInt16.toNat_inj]
  simp only [fatWord, UInt16.toNat_and, UInt16.toNat_or, Nat.and_or_distrib_right, Nat.and_assoc]

theorem fatWord_more (flags : UInt16) (more : Bool) :
    (fatWord flags more &&& 0x08 == 0) = !more := by
  have apart : (0x0FF4 &&& 0x08 : UInt16) = 0 := rfl
  rw [fatWord_and, apart, UInt16.and_zero, UInt16.zero_or]
  cases more <;> rfl

theorem fatWord_initLocals (flags : UInt16) (more : Bool) :
    fatWord flags more &&& 0x10 = flags &&& 0x10 := by
  have kept : (0x0FF4 &&& 0x10 : UInt16) = 0x10 := rfl
  have free : ((if more then 0x300B else 0x3003) &&& 0x10 : UInt16) = 0 := by
    cases more <;> rfl
  rw [fatWord_and, kept, free, UInt16.or_zero]

theorem fatWord_format (flags : UInt16) (more : Bool) : (fatWord flags more).toNat % 4 = 3 := by
  have apart : (0x0FF4 &&& 0x03 : UInt16) = 0 := rfl
  have fixed : fatWord flags more &&& 0x03 = 0x03 := by
    rw [fatWord_and, apart, UInt16.and_zero, UInt16.zero_or]
    cases more <;> rfl
  have bits := congrArg UInt16.toNat fixed
  rwa [UInt16.toNat_and, show (0x03 : UInt16).toNat = 2 ^ 2 - 1 from rfl,
    Nat.and_two_pow_sub_one_eq_mod] at bits

theorem fatWord_size (flags : UInt16) (more : Bool) :
    (fatWord flags more).toNat / 0x1000 = 3 := by
  rw [show 0x1000 = 2 ^ 12 from rfl, ← Nat.shiftRight_eq_div_pow, fatWord, UInt16.toNat_or,
    UInt16.toNat_and, Nat.shiftRight_or_distrib, Nat.shiftRight_and_distrib]
  have none : (0x0FF4 : UInt16).toNat >>> 12 = 0 := rfl
  rw [none, Nat.and_zero, Nat.zero_or]
  cases more <;> rfl

end BodyLayout

namespace MethodBody

/-- The low two bits of the first byte choose the header. -/
theorem format_eq_iff (lead format : UInt8) :
    (lead &&& 3 == format) = true ↔ lead.toNat % 4 = format.toNat := by
  rw [beq_iff_eq, ← UInt8.toNat_inj, UInt8.toNat_and,
    show (3 : UInt8).toNat = 2 ^ 2 - 1 from rfl, Nat.and_two_pow_sub_one_eq_mod]

/-- A tiny body is read back, whatever follows it. -/
theorem read_tiny {data code : Bytes} {trailing : List UInt8} (small : code.size < 64)
    (whole : data.toList = UInt8.ofNat (4 * code.size + 2) :: (code.toList ++ trailing)) :
    read data = .ok (BodyLayout.tiny code).body := by
  have lead : data[0]? = some (UInt8.ofNat (4 * code.size + 2)) := byteAt?_middle [] whole
  have value : (UInt8.ofNat (4 * code.size + 2)).toNat = 4 * code.size + 2 :=
    UInt8.toNat_ofNat_of_lt' (by rw [UInt8.size]; omega)
  have format : (UInt8.ofNat (4 * code.size + 2) &&& 3 == 2) = true := by
    rw [format_eq_iff, value]
    change (4 * code.size + 2) % 4 = 2
    omega
  have cut : data.slice? [UInt8.ofNat (4 * code.size + 2)].length code.size = some code :=
    slice?_part whole
  have count : (4 * code.size + 2) / 4 = code.size := by omega
  rw [read, lead]
  simp only [format, if_true]
  rw [List.length_singleton] at cut
  rw [readTiny, value, count, cut]
  rfl

section Fat

variable {data code : Bytes} {flags maxStack : UInt16} {localsToken : UInt32} {more : Bool}
  {rest : List UInt8} (small : code.size < UInt32.size)
  (whole : data.toList =
    BodyLayout.fatHeader flags maxStack localsToken code more ++ (code.toList ++ rest))
include small whole

theorem readFat_eq :
    readFat data = do
      let clauses ←
        if more then readSections data.size data (alignUp 4 (12 + code.size)) else pure []
      return { headerSize := 12, code, localsToken, maxStack := maxStack.toNat, isFat := true,
               initLocals := flags &&& 0x10 != 0, clauses } := by
  have long : ¬ data.size < 12 := by
    rw [← Array.length_toList, whole, List.length_append, BodyLayout.fatHeader_length]
    omega
  have cut : data.slice? 12 code.size = some code := by
    have found := slice?_part whole
    rwa [BodyLayout.fatHeader_length] at found
  simp only [BodyLayout.fatHeader, List.append_assoc] at whole
  have word : data.word16At? 0 = some (BodyLayout.fatWord flags more) := by
    have found := word16At?_middle (UInt16.toNat_lt _) (show data.toList = [] ++ _ from whole)
    rwa [UInt16.ofNat_toNat] at found
  have stack : data.numberAt? 2 2 = some maxStack.toNat := by
    have found := numberAt?_middle maxStack.toNat_lt whole
    rwa [littleEndian_length] at found
  rw [← List.append_assoc] at whole
  have size : data.numberAt? 4 4 = some code.size := by
    have found := numberAt?_middle small whole
    rwa [List.length_append, littleEndian_length, littleEndian_length] at found
  rw [← List.append_assoc] at whole
  have token : data.word32At? 8 = some localsToken := by
    have found := word32At?_middle localsToken.toNat_lt whole
    rwa [List.length_append, List.length_append, littleEndian_length, littleEndian_length,
      littleEndian_length, UInt32.ofNat_toNat] at found
  rw [readFat, if_neg long, word, stack, size, token]
  simp only [orOutOfBounds, bind, Except.bind, BodyLayout.fatWord_size, BodyLayout.fatWord_more,
    BodyLayout.fatWord_initLocals, cut]
  cases more <;> rfl

omit small in
/-- The header of a fat body is told from that of a tiny one. -/
theorem read_eq_readFat : read data = readFat data := by
  have low : (UInt8.ofNat ((BodyLayout.fatWord flags more).toNat % 256)).toNat % 4 = 3 := by
    rw [UInt8.toNat_ofNat_of_lt' (Nat.mod_lt _ (by decide)),
      Nat.mod_mod_of_dvd _ (by decide : 4 ∣ 256), BodyLayout.fatWord_format]
  have lead : data[0]? = some (UInt8.ofNat ((BodyLayout.fatWord flags more).toNat % 256)) :=
    byteAt?_middle [] whole
  generalize UInt8.ofNat ((BodyLayout.fatWord flags more).toNat % 256) = byte at low lead
  have notTiny : ¬ (byte &&& 3 == 2) = true := by
    rw [format_eq_iff, low]
    decide
  rw [read, lead]
  simp only [if_neg notTiny, if_pos ((format_eq_iff byte 3).mpr low)]

/-- The header and the code come first, and the sections follow if the header says so. -/
theorem read_fat :
    read data = do
      let clauses ←
        if more then readSections data.size data (alignUp 4 (12 + code.size)) else pure []
      return { headerSize := 12, code, localsToken, maxStack := maxStack.toNat, isFat := true,
               initLocals := flags &&& 0x10 != 0, clauses } := by
  rw [read_eq_readFat whole, readFat_eq small whole]

end Fat

/-- The sections start at the first multiple of four after the code. -/
theorem readSections_after {data : Bytes} {content trailing : List UInt8}
    {tables : List HandlerTable} (present : tables ≠ [])
    (formed : ∀ table ∈ tables, table.IsWellFormed)
    (whole : data.toList = padded content ++ (HandlerTable.encodeAll tables ++ trailing)) :
    readSections data.size data (alignUp 4 content.length) =
      .ok (tables.flatMap HandlerTable.clauses) := by
  have enough : tables.length ≤ data.size := by
    have all := congrArg List.length whole
    have fewer := HandlerTable.length_le_encodeAll_length tables
    rw [Array.length_toList, List.length_append, List.length_append] at all
    omega
  have aligned : (padded content).length % 4 = 0 := by
    rw [padded_length, alignUp_four_mod]
  rw [← padded_length]
  exact HandlerTable.readSections_encodeAll present formed enough aligned whole

end MethodBody

/-- A method body is read as it is laid out, whatever follows it. -/
theorem BodyLayout.read_inverts_encode (layout : BodyLayout) (formed : layout.IsWellFormed)
    (trailing : List UInt8) :
    MethodBody.read (layout.encode ++ trailing).toArray = .ok layout.body := by
  cases layout with
  | tiny code => exact MethodBody.read_tiny formed rfl
  | fat flags maxStack localsToken code tables =>
    obtain ⟨small, tablesFormed⟩ := formed
    cases tables with
    | nil =>
      have whole : (encode (.fat flags maxStack localsToken code []) ++ trailing).toArray.toList =
          fatHeader flags maxStack localsToken code false ++ (code.toList ++ trailing) :=
        List.append_assoc _ _ _
      rw [MethodBody.read_fat small whole]
      rfl
    | cons first others =>
      have whole :
          (encode (.fat flags maxStack localsToken code (first :: others)) ++
            trailing).toArray.toList =
          padded (fatHeader flags maxStack localsToken code true ++ code.toList) ++
            (HandlerTable.encodeAll (first :: others) ++ trailing) :=
        List.append_assoc _ _ _
      have sections := MethodBody.readSections_after (List.cons_ne_nil _ _) tablesFormed whole
      rw [List.length_append, fatHeader_length, Array.length_toList] at sections
      rw [padded, List.append_assoc, List.append_assoc] at whole
      rw [MethodBody.read_fat small whole, if_pos rfl, sections]
      rfl

/-- A body of five bytes with a small section and, after it, a fat one. -/
def sampleLayout : BodyLayout :=
  .fat 0x10 2 0x11000001 #[0x00, 0x00, 0x00, 0x00, 0x2A]
    [{ isFat := false
       clauses := [{ flags := 2, tryOffset := 0, tryLength := 1, handlerOffset := 1,
                     handlerLength := 2, classOrFilter := 0 }] },
     { isFat := true
       clauses := [{ flags := 1, tryOffset := 0, tryLength := 0x20000, handlerOffset := 0x20003,
                     handlerLength := 2, classOrFilter := 0x20001 },
                   { flags := 0, tryOffset := 3, tryLength := 1, handlerOffset := 4,
                     handlerLength := 1, classOrFilter := 0x01000002 }] }]

theorem BodyLayout.read_inverts_encode_sample :
    sampleLayout.IsWellFormed ∧
      MethodBody.read (sampleLayout.encode ++ [0x2A, 0x00]).toArray = .ok sampleLayout.body :=
  have formed : sampleLayout.IsWellFormed := by decide
  ⟨formed, sampleLayout.read_inverts_encode formed [0x2A, 0x00]⟩

example :
    (BodyLayout.fat 0x10 2 0x11000001 #[0x00, 0x00, 0x00, 0x2A]
      [{ isFat := false
         clauses := [{ flags := 2, tryOffset := 0, tryLength := 1, handlerOffset := 1,
                       handlerLength := 2, classOrFilter := 0 }] }]).encode =
      [0x1B, 0x30, 0x02, 0x00, 0x04, 0x00, 0x00, 0x00, 0x01, 0x00, 0x00, 0x11,
       0x00, 0x00, 0x00, 0x2A,
       0x01, 0x10, 0x00, 0x00, 0x02, 0x00, 0x00, 0x00, 0x01, 0x01, 0x00, 0x02,
       0x00, 0x00, 0x00, 0x00] := by
  decide

end ClrDecompiler.Cil
