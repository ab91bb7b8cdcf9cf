/-
This file compares the encoding of coded indexes with their decoding. Rows that are too large for
the encoded form lose their high bits, and the tags that the attribute constructors leave unused
are decoded all the same; everywhere else each undoes the other.
-/

import ClrDecompiler.Proofs.Metadata.Column
import Mathlib.Data.List.Nodup

namespace ClrDecompiler.Metadata

namespace CodedKind

variable {kind : CodedKind}

/-! The tags and the tables that they choose. -/

/-- Only the owners of attributes list a table twice. -/
theorem candidates_nodup (ordinary : kind ≠ .customAttributeType) : kind.candidates.Nodup := by
  cases kind with
  | customAttributeType => exact absurd rfl ordinary
  | _ => decide

/-- No kind has tags of more than five bits. -/
theorem tagBits_le (kind : CodedKind) : kind.tagBits ≤ 5 := by
  cases kind <;> decide

/-- But for one kind, the tag is the place of the table among the candidates. -/
theorem tag?_eq_findIdx? (ordinary : kind ≠ .customAttributeType) (table : TableId) :
    kind.tag? table = kind.candidates.findIdx? (· = table) := by
  cases kind with
  | customAttributeType => exact absurd rfl ordinary
  | _ => rfl

/-- The tag that is written for a table is a place where the table is a candidate. -/
theorem getElem?_of_tag? {table : TableId} {tag : Nat} (tagged : kind.tag? table = some tag) :
    kind.candidates[tag]? = some table := by
  by_cases ordinary : kind = .customAttributeType
  · subst ordinary
    cases table <;> cases tagged <;> rfl
  · rw [tag?_eq_findIdx? ordinary, List.findIdx?_eq_some_iff_getElem] at tagged
    obtain ⟨inside, same, -⟩ := tagged
    rw [List.getElem?_eq_getElem inside, of_decide_eq_true same]

/-- The attribute constructors have candidates that only make their tags wider. -/
def IsSpare (kind : CodedKind) (tag : Nat) : Prop :=
  kind = .customAttributeType ∧ tag ∈ [0, 1, 4]

instance (kind : CodedKind) (tag : Nat) : Decidable (kind.IsSpare tag) :=
  inferInstanceAs (Decidable (_ ∧ _))

/-- A tag is the one that is written unless it is spare. -/
theorem tag?_eq_some_iff {table : TableId} {tag : Nat}
    (listed : kind.candidates[tag]? = some table) :
    kind.tag? table = some tag ↔ ¬ kind.IsSpare tag := by
  obtain ⟨inside, rfl⟩ := List.getElem?_eq_some_iff.mp listed
  by_cases ordinary : kind = .customAttributeType
  · subst ordinary
    have each : ∀ tag : Fin 5, tag? .customAttributeType (candidates .customAttributeType)[tag] =
        some tag.val ↔ ¬ IsSpare .customAttributeType tag := by
      decide
    exact each ⟨tag, inside⟩
  · have used : ¬ kind.IsSpare tag := fun spare => ordinary spare.1
    rw [iff_true_right used, tag?_eq_findIdx? ordinary, List.findIdx?_eq_some_iff_getElem]
    refine ⟨inside, decide_eq_true rfl, ?_⟩
    intro earlier before same
    have place := (candidates_nodup ordinary).getElem_inj_iff.mp (of_decide_eq_true same)
    exact Nat.ne_of_lt before place

/-- Exactly the candidates have a tag. -/
theorem exists_tag?_iff {table : TableId} :
    (∃ tag, kind.tag? table = some tag) ↔ table ∈ kind.candidates := by
  constructor
  · rintro ⟨tag, tagged⟩
    exact List.mem_of_getElem? (getElem?_of_tag? tagged)
  · intro member
    by_cases ordinary : kind = .customAttributeType
    · subst ordinary
      have each : ∀ table ∈ candidates .customAttributeType,
          (tag? .customAttributeType table).isSome := by
        decide
      exact Option.isSome_iff_exists.mp (each table member)
    · obtain ⟨tag, listed⟩ := List.mem_iff_getElem?.mp member
      exact ⟨tag, (tag?_eq_some_iff listed).mpr fun spare => ordinary spare.1⟩

/-! The encoded form as a number. -/

/-- A tag fits its bits. -/
theorem tag_lt {table : TableId} {tag : Nat} (listed : kind.candidates[tag]? = some table) :
    tag < 2 ^ kind.tagBits :=
  Nat.lt_of_lt_of_le (List.getElem?_eq_some_iff.mp listed).1 kind.candidates_length_le

/-- A value is decoded as the index that it is stored for. -/
theorem decode_eq_ok_iff {raw : UInt32} {index : CodedIndex} :
    kind.decode raw = .ok index ↔ (Column.coded kind).Stores raw index := by
  refine ⟨fun decoded => ?_, Column.decode_of_stores⟩
  rw [decode] at decoded
  split at decoded
  · next table listed =>
    cases decoded
    rw [Nat.one_shiftLeft] at listed
    have small : raw.toNat >>> kind.tagBits < 4294967296 :=
      Nat.lt_of_le_of_lt (Nat.shiftRight_le _ _) raw.toNat_lt
    refine ⟨_, listed, ?_⟩
    rw [UInt32.toNat_ofNat_of_lt' small, Nat.shiftRight_eq_div_pow, Nat.mul_comm,
      Nat.div_add_mod]
  · cases decoded

/-- The low bits of a decoded value choose the table and the others are the row. -/
theorem parts_of_decode {raw : UInt32} {index : CodedIndex}
    (decoded : kind.decode raw = .ok index) :
    kind.candidates[raw.toNat % 2 ^ kind.tagBits]? = some index.table ∧
      index.row.toNat = raw.toNat / 2 ^ kind.tagBits := by
  obtain ⟨tag, listed, same⟩ := decode_eq_ok_iff.mp decoded
  have small := tag_lt listed
  constructor
  · rw [same, Nat.mul_add_mod_of_lt small, listed]
  · rw [same, Nat.mul_comm, Nat.mul_add_div (Nat.two_pow_pos _), Nat.div_eq_of_lt small,
      Nat.add_zero]

/-- A number is refused exactly if no candidate stands at its tag. -/
theorem decode_eq_error_iff {raw : UInt32} :
    (∃ fault, kind.decode raw = .error fault) ↔
      kind.candidates.length ≤ raw.toNat % 2 ^ kind.tagBits := by
  rw [decode, Nat.one_shiftLeft]
  rw [← List.getElem?_eq_none_iff]
  cases kind.candidates[raw.toNat % 2 ^ kind.tagBits]? <;> simp

/-- The row is shifted by the width of the tag, and what leaves 32 bits is lost. -/
theorem encode_eq_ok_iff {table : TableId} {row value : UInt32} :
    kind.encode table row = .ok value ↔ ∃ tag, kind.tag? table = some tag ∧
      value.toNat = (row.toNat * 2 ^ kind.tagBits + tag) % 2 ^ 32 := by
  rw [encode]
  cases kind.tag? table with
  | none => simp
  | some tag =>
    simp only [Except.ok.injEq, Option.some.injEq, exists_eq_left', ← UInt32.toNat_inj,
      UInt32.toNat_ofNat', Nat.shiftLeft_eq, eq_comm]

/-- Exactly the tables that are no candidates are refused. -/
theorem encode_eq_error_iff {table : TableId} {row : UInt32} :
    (∃ fault, kind.encode table row = .error fault) ↔ table ∉ kind.candidates := by
  rw [← exists_tag?_iff, encode]
  cases kind.tag? table <;> simp

/-- Every candidate has a coded index, whatever the row. -/
theorem exists_encode {table : TableId} (member : table ∈ kind.candidates) (row : UInt32) :
    ∃ value, kind.encode table row = .ok value := by
  obtain ⟨tag, tagged⟩ := exists_tag?_iff.mpr member
  exact ⟨_, by rw [encode, tagged]⟩

theorem two_pow_split (kind : CodedKind) : 2 ^ kind.tagBits * 2 ^ (32 - kind.tagBits) = 2 ^ 32 := by
  rw [← Nat.pow_add, Nat.add_sub_cancel' (Nat.le_trans kind.tagBits_le (by decide))]

/-- The bits of a row that do not fit beside the tag are lost. -/
theorem packed_mod {tag row : Nat} (small : tag < 2 ^ kind.tagBits) :
    (row * 2 ^ kind.tagBits + tag) % 2 ^ 32 =
      row % 2 ^ (32 - kind.tagBits) * 2 ^ kind.tagBits + tag := by
  have quotient : (row * 2 ^ kind.tagBits + tag) / 2 ^ kind.tagBits = row := by
    rw [Nat.mul_comm, Nat.mul_add_div (Nat.two_pow_pos _), Nat.div_eq_of_lt small, Nat.add_zero]
  rw [← two_pow_split, Nat.mod_mul, quotient, Nat.mul_add_mod_of_lt small, Nat.add_comm,
    Nat.mul_comm]

/-- Some value stands for the row. -/
def Represents (kind : CodedKind) (table : TableId) (row : UInt32) : Prop :=
  ∃ value, kind.decode value = .ok ⟨table, row⟩

/-- The rows that have a form are those whose bits are left over by the tag. -/
theorem represents_iff {table : TableId} {row : UInt32} :
    kind.Represents table row ↔
      table ∈ kind.candidates ∧ row.toNat < 2 ^ (32 - kind.tagBits) := by
  constructor
  · rintro ⟨value, decoded⟩
    obtain ⟨tag, listed, same⟩ := decode_eq_ok_iff.mp decoded
    refine ⟨List.mem_of_getElem? listed, ?_⟩
    apply Nat.lt_of_mul_lt_mul_left (a := 2 ^ kind.tagBits)
    rw [two_pow_split, Nat.mul_comm]
    exact Nat.lt_of_le_of_lt (Nat.le_of_add_right_le (Nat.le_of_eq same.symm)) value.toNat_lt
  · rintro ⟨member, small⟩
    obtain ⟨tag, listed⟩ := List.mem_iff_getElem?.mp member
    have same : (row.toNat * 2 ^ kind.tagBits + tag) % 2 ^ 32 =
        row.toNat * 2 ^ kind.tagBits + tag := by
      rw [packed_mod (tag_lt listed), Nat.mod_eq_of_lt small]
    refine ⟨UInt32.ofNat (row.toNat * 2 ^ kind.tagBits + tag), decode_eq_ok_iff.mpr ?_⟩
    exact ⟨tag, listed, by rw [UInt32.toNat_ofNat']; exact same⟩

/-- What the encoded form keeps of a row. -/
def keptRow (kind : CodedKind) (row : UInt32) : UInt32 :=
  UInt32.ofNat (row.toNat % 2 ^ (32 - kind.tagBits))

/-- Of a row the bits are kept that stand beside the tag. -/
theorem toNat_keptRow (row : UInt32) :
    (kind.keptRow row).toNat = row.toNat % 2 ^ (32 - kind.tagBits) :=
  UInt32.toNat_ofNat_of_lt' (Nat.lt_of_le_of_lt (Nat.mod_le _ _) row.toNat_lt)

/-- A row is kept whole exactly if it leaves room for the tag. -/
theorem keptRow_eq_iff {row : UInt32} :
    kind.keptRow row = row ↔ row.toNat < 2 ^ (32 - kind.tagBits) := by
  rw [← UInt32.toNat_inj, toNat_keptRow, Nat.mod_eq_iff_lt (Nat.ne_of_gt (Nat.two_pow_pos _))]

/-- The table of an encoded index is decoded again, and what is kept of its row. -/
theorem decode_encode {table : TableId} {row value : UInt32}
    (encoded : kind.encode table row = .ok value) :
    kind.decode value = .ok ⟨table, kind.keptRow row⟩ := by
  obtain ⟨tag, tagged, same⟩ := encode_eq_ok_iff.mp encoded
  have listed := getElem?_of_tag? tagged
  refine decode_eq_ok_iff.mpr ⟨tag, listed, ?_⟩
  rw [same, packed_mod (tag_lt listed), toNat_keptRow]

/-- A decoded index is encoded with the tag that its table is written with. -/
theorem encode_decode {value : UInt32} {index : CodedIndex}
    (decoded : kind.decode value = .ok index) :
    kind.encode index.table index.row = .ok value ↔
      ¬ kind.IsSpare (value.toNat % 2 ^ kind.tagBits) := by
  obtain ⟨listed, row⟩ := parts_of_decode decoded
  have same : value.toNat =
      index.row.toNat * 2 ^ kind.tagBits + value.toNat % 2 ^ kind.tagBits := by
    rw [row, Nat.mul_comm, Nat.div_add_mod]
  rw [← tag?_eq_some_iff listed, encode_eq_ok_iff]
  constructor
  · rintro ⟨written, tagged, equal⟩
    have kept := (represents_iff.mp ⟨value, decoded⟩).2
    rw [packed_mod (tag_lt (getElem?_of_tag? tagged)), Nat.mod_eq_of_lt kept] at equal
    rw [tagged, Nat.add_left_cancel (same.symm.trans equal)]
  · intro tagged
    exact ⟨_, tagged, by rw [← same, Nat.mod_eq_of_lt value.toNat_lt]⟩

/-- Encoding and decoding undo each other except in two places. A row that leaves no room for the
tag is encoded without its high bits and not refused, and a value with a tag that is not in use is
decoded, but not as the value that is encoded for the index. -/
theorem encode_decode_inverse_iff (kind : CodedKind) :
    (∀ table row value, kind.encode table row = .ok value →
      kind.decode value = .ok ⟨table, kind.keptRow row⟩ ∧
      (kind.decode value = .ok ⟨table, row⟩ ↔ row.toNat < 2 ^ (32 - kind.tagBits))) ∧
    (∀ value index, kind.decode value = .ok index →
      (∃ other, kind.encode index.table index.row = .ok other ∧ kind.decode other = .ok index) ∧
      (kind.encode index.table index.row = .ok value ↔
        ¬ kind.IsSpare (value.toNat % 2 ^ kind.tagBits))) ∧
    ∀ table row,
      (kind.Represents table row ↔
        table ∈ kind.candidates ∧ row.toNat < 2 ^ (32 - kind.tagBits)) ∧
      ((¬ kind.Represents table row → ∃ fault, kind.encode table row = .error fault) ↔
        (table ∈ kind.candidates → row.toNat < 2 ^ (32 - kind.tagBits))) := by
  refine ⟨?_, ?_, ?_⟩
  · intro table row value encoded
    have decoded := decode_encode encoded
    refine ⟨decoded, ?_⟩
    rw [decoded, Except.ok.injEq, CodedIndex.mk.injEq, eq_self, true_and, keptRow_eq_iff]
  · intro value index decoded
    refine ⟨?_, encode_decode decoded⟩
    have represented := represents_iff.mp ⟨value, decoded⟩
    obtain ⟨other, encoded⟩ := exists_encode represented.1 index.row
    exact ⟨other, encoded, by rw [decode_encode encoded, keptRow_eq_iff.mpr represented.2]⟩
  · intro table row
    refine ⟨represents_iff, ?_⟩
    rw [represents_iff, encode_eq_error_iff]
    tauto

/-- A row of a type reference, and one of a member reference beside a tag of three bits. -/
theorem encode_decode_inverse_iff_sample :
    encode .typeDefOrRef .typeRef 3 = .ok 0x0D ∧ decode .typeDefOrRef 0x0D = .ok ⟨.typeRef, 3⟩ ∧
      encode .customAttributeType .memberRef 3 = .ok 0x1B := by
  have encoded : encode .typeDefOrRef .typeRef 3 = .ok 0x0D := by decide +kernel
  have decoded : decode .customAttributeType 0x1B = .ok ⟨.memberRef, 3⟩ := by decide +kernel
  refine ⟨encoded, ?_, ?_⟩
  · exact ((encode_decode_inverse_iff .typeDefOrRef).1 _ _ _ encoded).2.mpr (by decide)
  · exact ((encode_decode_inverse_iff .customAttributeType).2.1 _ _ decoded).2.mpr (by decide)

/-- Two rows share a form, the larger of which has none of its own, and a value with an unused tag
is decoded as an index that another value is encoded for. -/
theorem encode_decode_not_inverse :
    (encode .typeDefOrRef .typeDef 0x40000001 = .ok 4 ∧
      encode .typeDefOrRef .typeDef 1 = .ok 4 ∧ decode .typeDefOrRef 4 = .ok ⟨.typeDef, 1⟩ ∧
      ¬ Represents .typeDefOrRef .typeDef 0x40000001) ∧
    decode .customAttributeType 0x18 = .ok ⟨.methodDef, 3⟩ ∧
      encode .customAttributeType .methodDef 3 = .ok 0x1A := by
  refine ⟨⟨by decide +kernel, by decide +kernel, by decide +kernel, ?_⟩, by decide +kernel,
    by decide +kernel⟩
  rw [represents_iff]
  decide

end CodedKind

end ClrDecompiler.Metadata
