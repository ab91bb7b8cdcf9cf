/-
This file says which value a stored number stands for in a column of a table, which bytes a row
of stored numbers takes, and that reading the columns one after the other takes the values back.
-/

import ClrDecompiler.Metadata.Row
import ClrDecompiler.Proofs.Bytes.Reading

namespace ClrDecompiler.Metadata

open Read

abbrev Column.Value : Column → Type
  | .word16 => UInt16
  | .word32 => UInt32
  | .string => UInt32
  | .guid => UInt32
  | .blob => UInt32
  | .row _ => UInt32
  | .coded _ => CodedIndex

/-- The values of a list of columns. -/
def Values : List Column → Type
  | [] => Unit
  | column :: rest => column.Value × Values rest

def Column.read (sizes : TableSizes) : (column : Column) → Read column.Value
  | .word16 => Read.word16
  | .word32 => Read.word32
  | .string => sizes.readString
  | .guid => sizes.readGuid
  | .blob => sizes.readBlob
  | .row table => sizes.readRow table
  | .coded kind => sizes.readCoded kind

def readValues (sizes : TableSizes) : (columns : List Column) → Read (Values columns)
  | [] => return ()
  | column :: rest => do return (← column.read sizes, ← readValues sizes rest)

theorem CodedKind.candidates_length_le (kind : CodedKind) :
    kind.candidates.length ≤ 2 ^ kind.tagBits := by
  cases kind <;> decide

namespace Column

/-- The number that is stored for a value. A coded index keeps the place of its table among the
candidates in its low bits and the row above them. -/
def Stores : (column : Column) → UInt32 → column.Value → Prop
  | .word16, raw, (value : UInt16) => raw = value.toUInt32
  | .word32, raw, (value : UInt32) => raw = value
  | .string, raw, (value : UInt32) => raw = value
  | .guid, raw, (value : UInt32) => raw = value
  | .blob, raw, (value : UInt32) => raw = value
  | .row _, raw, (value : UInt32) => raw = value
  | .coded kind, raw, (index : CodedIndex) => ∃ tag, kind.candidates[tag]? = some index.table ∧
      raw.toNat = index.row.toNat * 2 ^ kind.tagBits + tag

/-- The tag of a coded index names a candidate. -/
def IsTagged : Column → UInt32 → Prop
  | .coded kind, raw => raw.toNat % 2 ^ kind.tagBits < kind.candidates.length
  | _, _ => True

instance (column : Column) (raw : UInt32) : Decidable (column.IsTagged raw) :=
  match column with
  | .coded kind =>
    inferInstanceAs (Decidable (raw.toNat % 2 ^ kind.tagBits < kind.candidates.length))
  | .word16 | .word32 | .string | .guid | .blob | .row _ => .isTrue trivial

variable (sizes : TableSizes)

/-- A number fits a column if it has no more bytes than the column. -/
def Fits (column : Column) (raw : UInt32) : Prop :=
  raw.toNat < 256 ^ sizes.columnSize column

def encode (column : Column) (raw : UInt32) : List UInt8 :=
  Bytes.littleEndian (sizes.columnSize column) raw.toNat

/-- A number takes the size of its column. -/
theorem encode_length (column : Column) (raw : UInt32) :
    (column.encode sizes raw).length = sizes.columnSize column :=
  Bytes.littleEndian_length _ _

/-- An index that fits its width is read back. -/
theorem yields_index {wide : Bool} {raw : UInt32} (fits : raw.toNat < 256 ^ (if wide then 4 else 2))
    (rest : List UInt8) :
    (Read.index wide).Yields (Bytes.littleEndian (if wide then 4 else 2) raw.toNat ++ rest)
      raw rest := by
  cases wide with
  | true => exact yields_word32 raw rest
  | false =>
    change raw.toNat < 65536 at fits
    have narrow : raw.toUInt16.toNat = raw.toNat := by
      rw [UInt32.toNat_toUInt16, Nat.mod_eq_of_lt fits]
    have reads := (yields_word16 raw.toUInt16 rest).map UInt16.toUInt32
    have same : raw.toUInt16.toUInt32 = raw := by
      apply UInt32.toNat_inj.mp
      rw [UInt16.toNat_toUInt32, narrow]
    rw [same, narrow] at reads
    exact reads

/-- The tag and the row of a coded index are the remainder and the quotient. -/
theorem decode_of_stores {kind : CodedKind} {raw : UInt32} {index : CodedIndex}
    (stores : (Column.coded kind).Stores raw index) : kind.decode raw = .ok index := by
  obtain ⟨tag, listed, same⟩ := stores
  have small : tag < 2 ^ kind.tagBits :=
    Nat.lt_of_lt_of_le (List.getElem?_eq_some_iff.mp listed).1 kind.candidates_length_le
  have remainder : raw.toNat % (1 <<< kind.tagBits) = tag := by
    rw [Nat.one_shiftLeft, same, Nat.mul_add_mod_of_lt small]
  have quotient : raw.toNat >>> kind.tagBits = index.row.toNat := by
    rw [Nat.shiftRight_eq_div_pow, same, Nat.mul_comm, Nat.mul_add_div (Nat.two_pow_pos _),
      Nat.div_eq_of_lt small, Nat.add_zero]
  simp only [CodedKind.decode, remainder, quotient, listed, UInt32.ofNat_toNat]

/-- The value of a column is read back from the number that stands for it. -/
theorem yields_read {column : Column} {raw : UInt32} {value : column.Value}
    (stores : column.Stores raw value) (fits : column.Fits sizes raw) (rest : List UInt8) :
    (column.read sizes).Yields (column.encode sizes raw ++ rest) value rest := by
  cases column with
  | word16 =>
    change raw = UInt16.toUInt32 value at stores
    subst stores
    exact yields_word16 value rest
  | word32 =>
    cases stores
    exact yields_word32 raw rest
  | string | guid | blob | row =>
    cases stores
    exact yields_index fits rest
  | coded kind =>
    apply (yields_index fits rest).bind
    exact yields_liftM (decode_of_stores stores) rest

/-- A number that fits a column and has a known tag stands for some value. -/
theorem exists_stores {column : Column} {raw : UInt32} (fits : column.Fits sizes raw)
    (tagged : column.IsTagged raw) : ∃ value, column.Stores raw value := by
  cases column with
  | word16 =>
    change raw.toNat < 65536 at fits
    refine ⟨raw.toUInt16, UInt32.toNat_inj.mp ?_⟩
    rw [UInt16.toNat_toUInt32, UInt32.toNat_toUInt16, Nat.mod_eq_of_lt fits]
  | word32 | string | guid | blob | row => exact ⟨raw, rfl⟩
  | coded kind =>
    have inside : raw.toNat % 2 ^ kind.tagBits < kind.candidates.length := tagged
    have small : raw.toNat / 2 ^ kind.tagBits < 4294967296 :=
      Nat.lt_of_le_of_lt (Nat.div_le_self _ _) raw.toNat_lt
    refine ⟨⟨kind.candidates[raw.toNat % 2 ^ kind.tagBits],
      UInt32.ofNat (raw.toNat / 2 ^ kind.tagBits)⟩, _, List.getElem?_eq_getElem inside, ?_⟩
    rw [UInt32.toNat_ofNat_of_lt' small, Nat.mul_comm]
    exact (Nat.div_add_mod _ _).symm

end Column

/-! Rows are their columns one after the other. -/

/-- The numbers of a row stand for the values of its columns. -/
def StoresAll : (columns : List Column) → List UInt32 → Values columns → Prop
  | [], raws, _ => raws = []
  | column :: rest, raws, (value, values) =>
    ∃ raw others, raws = raw :: others ∧ column.Stores raw value ∧ StoresAll rest others values

section Rows

variable (sizes : TableSizes)

def FitsAll (columns : List Column) (raws : List UInt32) : Prop :=
  ∀ entry ∈ columns.zip raws, entry.1.Fits sizes entry.2

def IsTaggedAll (columns : List Column) (raws : List UInt32) : Prop :=
  ∀ entry ∈ columns.zip raws, entry.1.IsTagged entry.2

def encodeRow (columns : List Column) (raws : List UInt32) : List UInt8 :=
  (columns.zip raws).flatMap fun entry => entry.1.encode sizes entry.2

/-- A row takes the sum of the sizes of its columns. -/
theorem encodeRow_length {columns : List Column} {raws : List UInt32}
    (shape : raws.length = columns.length) :
    (encodeRow sizes columns raws).length =
      (columns.map sizes.columnSize).foldr (· + ·) 0 := by
  induction columns generalizing raws with
  | nil => rfl
  | cons column rest ih =>
    cases raws with
    | nil => cases shape
    | cons raw others =>
      have tail := ih (Nat.succ.inj shape)
      rw [encodeRow] at tail ⊢
      rw [List.zip_cons_cons, List.flatMap_cons, List.length_append, tail, Column.encode_length]
      rfl

/-- The values of a row are read back one after the other. -/
theorem yields_readValues {columns : List Column} {raws : List UInt32} {values : Values columns}
    (stores : StoresAll columns raws values) (fits : FitsAll sizes columns raws)
    (rest : List UInt8) :
    (readValues sizes columns).Yields (encodeRow sizes columns raws ++ rest) values rest := by
  induction columns generalizing raws with
  | nil => exact yields_pure () rest
  | cons column columns ih =>
    obtain ⟨value, values⟩ := values
    obtain ⟨raw, others, rfl, first, later⟩ := stores
    rw [FitsAll, List.zip_cons_cons, List.forall_mem_cons] at fits
    rw [encodeRow, List.zip_cons_cons, List.flatMap_cons, List.append_assoc]
    apply (Column.yields_read sizes first fits.1 _).bind
    exact (ih later fits.2).bind (yields_pure _ rest)

/-- Numbers that fit and have tags with candidates stand for values. -/
theorem exists_storesAll {columns : List Column} {raws : List UInt32}
    (shape : raws.length = columns.length) (fits : FitsAll sizes columns raws)
    (tagged : IsTaggedAll columns raws) : ∃ values, StoresAll columns raws values := by
  induction columns generalizing raws with
  | nil => exact ⟨(), List.length_eq_zero_iff.mp shape⟩
  | cons column rest ih =>
    cases raws with
    | nil => cases shape
    | cons raw others =>
      rw [FitsAll, List.zip_cons_cons, List.forall_mem_cons] at fits
      rw [IsTaggedAll, List.zip_cons_cons, List.forall_mem_cons] at tagged
      obtain ⟨value, stores⟩ := Column.exists_stores sizes fits.1 tagged.1
      obtain ⟨values, later⟩ := ih (Nat.succ.inj shape) fits.2 tagged.2
      exact ⟨(value, values), raw, others, rfl, stores, later⟩

end Rows

end ClrDecompiler.Metadata
