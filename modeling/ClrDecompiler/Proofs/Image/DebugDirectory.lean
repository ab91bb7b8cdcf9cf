/-
This file shows that the symbols of a module that was read from an image have an identifier of
twenty bytes.
-/

import ClrDecompiler.Module.Load
import ClrDecompiler.Proofs.Bytes.Reading
import ClrDecompiler.Proofs.Outcome

namespace ClrDecompiler

namespace Image

open Outcome

/-- The identifier of an entry is a GUID. -/
def DebugEntry.IsSized (entry : DebugEntry) : Prop :=
  ∀ codeView ∈ entry.codeView, codeView.guid.size = 16

/-- The identifier of a record has 16 bytes. -/
theorem CodeView.read?_sized {data : Bytes} {codeView : CodeView}
    (run : CodeView.read? data = .ok (some codeView)) : codeView.guid.size = 16 := by
  rw [CodeView.read?] at run
  split at run
  case isTrue => cases run
  case isFalse =>
    obtain ⟨signature, -, run⟩ := of_bind_eq_ok run
    split at run
    case isTrue => cases run
    case isFalse =>
      split at run
      case isTrue => cases run
      case isFalse enough =>
        obtain ⟨age, -, run⟩ := of_bind_eq_ok run
        cases run
        rw [Array.size_extract]
        omega

/-- The fixed fields of an entry come before its record. -/
theorem DebugEntry.codeView_of_readRecord {data : Bytes} {position : Nat} {entry : DebugEntry}
    (run : (readRecord.runAt data position).1 = .ok entry) : entry.codeView = none := by
  simp only [readRecord, Read.runAt_bind] at run
  repeat' split at run
  all_goals cases run
  rfl

theorem DebugEntry.readAt_sized {directory image : Bytes} {position : Nat} {entry : DebugEntry}
    (run : readAt directory image position = .ok entry) : entry.IsSized := by
  obtain ⟨record, read, run⟩ := of_bind_eq_ok run
  split at run
  case isTrue =>
    obtain ⟨data, -, run⟩ := of_bind_eq_ok run
    obtain ⟨codeView, found, run⟩ := of_bind_eq_ok run
    cases run
    intro view same
    change codeView = some view at same
    rw [same] at found
    exact CodeView.read?_sized found
  case isFalse =>
    cases run
    intro view same
    rw [codeView_of_readRecord read] at same
    cases same

theorem DebugEntry.readAll_sized {directory image : Bytes} {entries : List DebugEntry}
    (run : readAll directory image = .ok entries) : ∀ entry ∈ entries, entry.IsSized := by
  rw [readAll] at run
  split at run
  case isTrue => cases run
  case isFalse => exact forall_of_mapM_eq_ok (fun _ _ read => readAt_sized read) run

/-- The entries of an image have identifiers of 16 bytes. -/
theorem Assembly.debugEntries_sized {image : Assembly} {entries : List DebugEntry}
    (run : image.debugEntries = .ok entries) : ∀ entry ∈ entries, entry.IsSized := by
  rw [Assembly.debugEntries] at run
  split at run
  · cases run
    exact fun _ member => absurd member List.not_mem_nil
  · obtain ⟨offset, -, run⟩ := of_bind_eq_ok run
    obtain ⟨directory, -, run⟩ := of_bind_eq_ok run
    exact DebugEntry.readAll_sized run

end Image

namespace Module

open Outcome

/-- A loaded module has the debug entries of its image, or none. -/
theorem debugEntries_of_load {path : String} {image : Image.Assembly} {module : Module}
    (run : load path image = .ok module) :
    module.debugEntries = image.debugEntries.toOption.getD [] := by
  simp only [load, bind, Except.bind, pure, Except.pure, throw, throwThe,
    MonadExceptOf.throw] at run
  repeat' split at run
  all_goals cases run
  rfl

/-- The identifier of the symbols of a loaded module is a GUID and a time stamp. -/
theorem symbolsId?_size_of_load {path : String} {image : Image.Assembly} {module : Module}
    {id : Bytes} (run : load path image = .ok module)
    (identified : module.codeView?.bind (·.symbolsId?) = some id) : id.size = 20 := by
  have sized : ∀ entry ∈ module.debugEntries, entry.IsSized := by
    rw [debugEntries_of_load run]
    cases entries : image.debugEntries with
    | error fault => exact fun _ member => absurd member List.not_mem_nil
    | ok found => exact Image.Assembly.debugEntries_sized entries
  obtain ⟨entry, found, identified⟩ := Option.bind_eq_some_iff.mp identified
  obtain ⟨codeView, named, rfl⟩ := Option.map_eq_some_iff.mp identified
  have guid := sized entry (List.mem_of_find?_eq_some found) codeView named
  rw [← Array.length_toList, Bytes.appendWord32, Bytes.toList_appendNumber, List.length_append,
    Bytes.littleEndian_length, Array.length_toList, guid]

end Module

end ClrDecompiler
