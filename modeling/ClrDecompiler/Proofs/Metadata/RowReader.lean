/-
This file compares the readers of rows with the columns of their tables: each of them takes the
columns one after the other, whatever widths they have.
-/

import ClrDecompiler.Proofs.Metadata.Column

namespace ClrDecompiler

namespace Read

variable {α β : Type}

/-- The value of a step and the place where it stops, if it succeeds. -/
def ended (step : Read α) (data : Bytes) (position : Nat) : Except Fault (α × Nat) :=
  (step.runAt data position).1.map fun value => (value, (step.runAt data position).2)

/-- Both steps end alike. A refused step may have read further than the other. -/
def Agrees (step other : Read α) : Prop :=
  ∀ data position, step.ended data position = other.ended data position

theorem Agrees.of_eq {step other : Read α} (same : step = other) : step.Agrees other :=
  fun _ _ => by rw [same]

/-- Readers that agree through another one agree. -/
theorem Agrees.trans {first second third : Read α} (before : first.Agrees second)
    (after : second.Agrees third) : first.Agrees third :=
  fun data position => (before data position).trans (after data position)

/-- A reader ends at a place with a value. -/
theorem ended_eq_ok {step : Read α} {data : Bytes} {position after : Nat} {value : α} :
    step.ended data position = .ok (value, after) ↔
      step.runAt data position = (.ok value, after) := by
  rw [ended]
  rcases step.runAt data position with ⟨fault | found, stop⟩ <;> simp [Except.map]

/-- Readers that agree succeed with the same values at the same places. -/
theorem Agrees.runAt_eq_ok {step other : Read α} (agrees : step.Agrees other) {data : Bytes}
    {position after : Nat} {value : α} :
    step.runAt data position = (.ok value, after) ↔
      other.runAt data position = (.ok value, after) := by
  rw [← ended_eq_ok, ← ended_eq_ok, agrees]

/-- Readers that agree have the same outcomes. -/
theorem Agrees.outcome {step other : Read α} (agrees : step.Agrees other) (data : Bytes)
    (position : Nat) : (step.runAt data position).1 = (other.runAt data position).1 := by
  have same := congrArg (Except.map Prod.fst) (agrees data position)
  rw [ended, ended] at same
  revert same
  rcases (step.runAt data position).1 with fault | value <;>
    rcases (other.runAt data position).1 with other | found <;> exact id

/-- A reader that goes on begins where the first one ended. -/
theorem ended_bind (step : Read α) (next : α → Read β) (data : Bytes) (position : Nat) :
    (step >>= next).ended data position =
      step.ended data position >>= fun (value, after) => (next value).ended data after := by
  rw [ended, ended, runAt_bind]
  rcases step.runAt data position with ⟨fault | value, after⟩ <;> rfl

/-- Readers agree if they do so after a common step. -/
theorem Agrees.bind {step : Read α} {next other : α → Read β}
    (later : ∀ value, (next value).Agrees (other value)) :
    (step >>= next).Agrees (step >>= other) := by
  intro data position
  rw [ended_bind, ended_bind]
  exact bind_congr fun (value, after) => later value data after

section

variable {width : Nat} (make : Nat → α) {data : Bytes} {position : Nat}

/-- A number inside the data is read and passed. -/
theorem ended_map_number (inside : position + width ≤ data.size) :
    (make <$> number width).ended data position =
      .ok (make (Bytes.ofLittleEndian ((data.toList.drop position).take width)),
        position + width) := by
  have found : data.slice? position width = some (data.extract position (position + width)) :=
    if_pos inside
  simp only [ended, number, bytes, map_bind, map_pure, runAt_bind, runAt_get, runAt_read, found,
    runAt_set, runAt_pure, Array.toList_extract, List.extract, Nat.add_sub_cancel_left]
  rfl

/-- A number that leaves the data is refused. -/
theorem ended_map_number_outside (outside : data.size < position + width) :
    (make <$> number width).ended data position = .error .outOfBounds := by
  have missing : data.slice? position width = none := if_neg (Nat.not_le_of_lt outside)
  simp only [ended, number, bytes, map_bind, map_pure, runAt_bind, runAt_get, runAt_read, missing]
  rfl

end

theorem toUInt8_littleEndian (low high : UInt8) :
    (UInt16.ofNat (Bytes.ofLittleEndian [low, high])).toUInt8 = low := by
  have small := low.toNat_lt
  apply UInt8.toNat_inj.mp
  simp only [Bytes.ofLittleEndian, UInt16.toNat_toUInt8, UInt16.toNat_ofNat']
  omega

/-- The first of two single bytes is the low one of the number that they form. -/
theorem ended_word8_word16 {data : Bytes} {position : Nat}
    (inside : position + 2 ≤ data.size) :
    ∃ (both : UInt16) (byte : UInt8), word16.ended data position = .ok (both, position + 2) ∧
      word8.ended data position = .ok (both.toUInt8, position + 1) ∧
      word8.ended data (position + 1) = .ok (byte, position + 2) := by
  obtain ⟨low, high, rest, tail⟩ : ∃ low high rest,
      data.toList.drop position = low :: high :: rest := by
    rw [List.drop_eq_getElem_cons (by rw [Array.length_toList]; omega),
      List.drop_eq_getElem_cons (by rw [Array.length_toList]; omega)]
    exact ⟨_, _, _, rfl⟩
  refine ⟨UInt16.ofNat (Bytes.ofLittleEndian [low, high]), _, ?_, ?_,
    ended_map_number _ inside⟩
  · rw [word16, ended_map_number _ inside, tail]
    rfl
  · rw [toUInt8_littleEndian, word8, ended_map_number _ (Nat.le_of_succ_le inside), tail]
    simp [Bytes.ofLittleEndian]

/-- Two single bytes are read like the number that they form. -/
theorem agrees_word8_word8 (next : UInt8 → Read α) :
    (do let low ← word8; let _ ← word8; next low : Read α).Agrees
      (do let both ← word16; next both.toUInt8) := by
  intro data position
  simp only [ended_bind]
  by_cases inside : position + 2 ≤ data.size
  · obtain ⟨both, byte, whole, first, second⟩ := ended_word8_word16 inside
    rw [first, whole]
    change (word8.ended data (position + 1) >>= fun (_, after) =>
      (next both.toUInt8).ended data after) = (next both.toUInt8).ended data (position + 2)
    rw [second]
    rfl
  · have outside : data.size < position + 2 := Nat.lt_of_not_le inside
    rw [show word16.ended data position = _ from ended_map_number_outside _ outside]
    by_cases single : position + 1 ≤ data.size
    · rw [word8, ended_map_number _ single]
      change (word8.ended data (position + 1) >>= _) = .error .outOfBounds
      rw [show word8.ended data (position + 1) = _ from ended_map_number_outside _ outside]
      rfl
    · rw [word8, ended_map_number_outside _ (Nat.lt_of_not_le single)]
      rfl

end Read

namespace Metadata

section

variable {ρ : Type} {sizes : TableSizes}

theorem map_readPair {α β : Type} (make : α × β → ρ) (first : Read α) (later : Read β) :
    make <$> (do return (← first, ← later)) =
      first >>= fun value => (fun values => make (value, values)) <$> later := by
  simp only [map_eq_pure_bind, bind_assoc, pure_bind]

/-- Behind the last column the row is complete. -/
theorem agrees_nil {make : Values [] → ρ} {row : ρ} (same : make () = row) :
    (pure row : Read ρ).Agrees (make <$> readValues sizes []) := by
  subst same
  exact .of_eq (map_pure make ()).symm

/-- The first column is read before the others. -/
theorem agrees_cons (column : Column) {rest : List Column} {make : Values (column :: rest) → ρ}
    {next : column.Value → Read ρ}
    (later : ∀ value, (next value).Agrees
      ((fun values => make (value, values)) <$> readValues sizes rest)) :
    (column.read sizes >>= next).Agrees (make <$> readValues sizes (column :: rest)) := by
  have same : make <$> readValues sizes (column :: rest) = column.read sizes >>= fun value =>
      (fun values => make (value, values)) <$> readValues sizes rest :=
    map_readPair make (column.read sizes) (readValues sizes rest)
  rw [same]
  exact .bind later

end

/-- The reader of the rows takes the columns of their table in order. -/
class ReadsColumns (ρ : Type) [Row ρ] where
  ofValues : Values (Row.table ρ).columns → ρ
  agrees (sizes : TableSizes) : (Row.read sizes : Read ρ).Agrees
    (ofValues <$> readValues sizes (Row.table ρ).columns)

instance : ReadsColumns ModuleRow where
  ofValues := fun (_, name, mvid, _) => { name, mvid }
  agrees _ := agrees_cons .word16 fun _ => agrees_cons .string fun _ => agrees_cons .guid fun _ =>
    agrees_cons .guid fun _ => agrees_cons .guid fun _ => agrees_nil rfl

instance : ReadsColumns TypeRefRow where
  ofValues := fun (scope, name, namespaceName, _) => { scope, name, namespaceName }
  agrees _ := agrees_cons (.coded .resolutionScope) fun _ => agrees_cons .string fun _ =>
    agrees_cons .string fun _ => agrees_nil rfl

instance : ReadsColumns TypeDefRow where
  ofValues := fun (flags, name, namespaceName, baseType, fields, methods, _) =>
    { flags, name, namespaceName, baseType, fields, methods }
  agrees _ := agrees_cons .word32 fun _ => agrees_cons .string fun _ => agrees_cons .string fun _ =>
    agrees_cons (.coded .typeDefOrRef) fun _ => agrees_cons (.row .field) fun _ =>
    agrees_cons (.row .methodDef) fun _ => agrees_nil rfl

instance : ReadsColumns FieldPtrRow where
  ofValues := fun (field, _) => { field }
  agrees _ := agrees_cons (.row .field) fun _ => agrees_nil rfl

instance : ReadsColumns FieldRow where
  ofValues := fun (flags, name, signature, _) => { flags, name, signature }
  agrees _ := agrees_cons .word16 fun _ => agrees_cons .string fun _ => agrees_cons .blob fun _ =>
    agrees_nil rfl

instance : ReadsColumns MethodPtrRow where
  ofValues := fun (method, _) => { method }
  agrees _ := agrees_cons (.row .methodDef) fun _ => agrees_nil rfl

instance : ReadsColumns MethodDefRow where
  ofValues := fun (address, implementation, flags, name, signature, params, _) =>
    { address, implementation, flags, name, signature, params }
  agrees _ := agrees_cons .word32 fun _ => agrees_cons .word16 fun _ => agrees_cons .word16 fun _ =>
    agrees_cons .string fun _ => agrees_cons .blob fun _ => agrees_cons (.row .param) fun _ =>
    agrees_nil rfl

instance : ReadsColumns ParamRow where
  ofValues := fun (flags, sequence, name, _) => { flags, sequence, name }
  agrees _ := agrees_cons .word16 fun _ => agrees_cons .word16 fun _ => agrees_cons .string fun _ =>
    agrees_nil rfl

instance : ReadsColumns InterfaceImplRow where
  ofValues := fun (implementer, implemented, _) => { implementer, implemented }
  agrees _ := agrees_cons (.row .typeDef) fun _ => agrees_cons (.coded .typeDefOrRef) fun _ =>
    agrees_nil rfl

instance : ReadsColumns MemberRefRow where
  ofValues := fun (parent, name, signature, _) => { parent, name, signature }
  agrees _ := agrees_cons (.coded .memberRefParent) fun _ => agrees_cons .string fun _ =>
    agrees_cons .blob fun _ => agrees_nil rfl

instance : ReadsColumns ConstantRow where
  ofValues := fun (elementType, parent, value, _) =>
    { elementType := elementType.toUInt8, parent, value }
  -- The first column is read as two bytes, of which the second is dropped.
  agrees _ := (Read.agrees_word8_word8 _).trans (agrees_cons .word16 fun _ =>
    agrees_cons (.coded .hasConstant) fun _ => agrees_cons .blob fun _ => agrees_nil rfl)

instance : ReadsColumns CustomAttributeRow where
  ofValues := fun (parent, constructor, value, _) => { parent, constructor, value }
  agrees _ := agrees_cons (.coded .hasCustomAttribute) fun _ =>
    agrees_cons (.coded .customAttributeType) fun _ => agrees_cons .blob fun _ => agrees_nil rfl

instance : ReadsColumns StandAloneSigRow where
  ofValues := fun (signature, _) => { signature }
  agrees _ := agrees_cons .blob fun _ => agrees_nil rfl

instance : ReadsColumns TypeSpecRow where
  ofValues := fun (signature, _) => { signature }
  agrees _ := agrees_cons .blob fun _ => agrees_nil rfl

instance : ReadsColumns AssemblyRow where
  ofValues := fun (_, major, minor, build, revision, flags, key, name, culture, _) =>
    { version := { major, minor, build, revision }, flags, key, name, culture }
  agrees _ := agrees_cons .word32 fun _ => agrees_cons .word16 fun _ => agrees_cons .word16 fun _ =>
    agrees_cons .word16 fun _ => agrees_cons .word16 fun _ => agrees_cons .word32 fun _ =>
    agrees_cons .blob fun _ => agrees_cons .string fun _ => agrees_cons .string fun _ =>
    agrees_nil rfl

instance : ReadsColumns AssemblyRefRow where
  ofValues := fun (major, minor, build, revision, flags, key, name, culture, _) =>
    { version := { major, minor, build, revision }, flags, key, name, culture }
  agrees _ := agrees_cons .word16 fun _ => agrees_cons .word16 fun _ => agrees_cons .word16 fun _ =>
    agrees_cons .word16 fun _ => agrees_cons .word32 fun _ => agrees_cons .blob fun _ =>
    agrees_cons .string fun _ => agrees_cons .string fun _ => agrees_cons .blob fun _ =>
    agrees_nil rfl

instance : ReadsColumns NestedClassRow where
  ofValues := fun (nested, enclosing, _) => { nested, enclosing }
  agrees _ := agrees_cons (.row .typeDef) fun _ => agrees_cons (.row .typeDef) fun _ =>
    agrees_nil rfl

instance : ReadsColumns GenericParamRow where
  ofValues := fun (number, flags, owner, name, _) => { number, flags, owner, name }
  agrees _ := agrees_cons .word16 fun _ => agrees_cons .word16 fun _ =>
    agrees_cons (.coded .typeOrMethodDef) fun _ => agrees_cons .string fun _ => agrees_nil rfl

instance : ReadsColumns MethodSpecRow where
  ofValues := fun (method, instantiation, _) => { method, instantiation }
  agrees _ := agrees_cons (.coded .methodDefOrRef) fun _ => agrees_cons .blob fun _ =>
    agrees_nil rfl

instance : ReadsColumns DocumentRow where
  ofValues := fun (name, algorithm, hash, language, _) => { name, algorithm, hash, language }
  agrees _ := agrees_cons .blob fun _ => agrees_cons .guid fun _ => agrees_cons .blob fun _ =>
    agrees_cons .guid fun _ => agrees_nil rfl

instance : ReadsColumns MethodDebugInformationRow where
  ofValues := fun (document, points, _) => { document, points }
  agrees _ := agrees_cons (.row .document) fun _ => agrees_cons .blob fun _ => agrees_nil rfl

/-- A reader takes the numbers of its row and stops right after them. -/
theorem runAt_read_row {ρ : Type} [Row ρ] [ReadsColumns ρ] {sizes : TableSizes}
    {raws : List UInt32} {values : Values (Row.table ρ).columns}
    (stores : StoresAll (Row.table ρ).columns raws values)
    (fits : FitsAll sizes (Row.table ρ).columns raws) {data : Bytes} {before rest : List UInt8}
    (whole : data.toList = before ++ (encodeRow sizes (Row.table ρ).columns raws ++ rest)) :
    (Row.read sizes : Read ρ).runAt data before.length =
      (.ok (ReadsColumns.ofValues values),
        before.length + (encodeRow sizes (Row.table ρ).columns raws).length) :=
  (ReadsColumns.agrees sizes).runAt_eq_ok.mpr
    (((yields_readValues sizes stores fits rest).map ReadsColumns.ofValues).runAt_append whole)

end Metadata

end ClrDecompiler
