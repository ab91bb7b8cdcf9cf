/-
This file shows that loading a module stays within its data: the loader that makes its accesses
without asking ends with the module or with the refusal of the loader that asks.
-/

import ClrDecompiler.Proofs.Module.NestingConsistency
import ClrDecompiler.Proofs.Strict.Load

namespace ClrDecompiler

namespace Image

theorem orRefused_eq_ok {α : Type} {found : Option α} {value : α}
    (run : orRefused found = .ok value) : found = some value := by
  cases found with
  | none => cases run
  | some found => exact congrArg some (Except.ok.inj run)

theorem Container.rawOffset_of_readSections {data : Bytes} {offset count : Nat}
    {sections : List Section} (run : Container.readSections data offset count = .ok sections) :
    ∀ part ∈ sections, part.rawOffset < UInt32.size := by
  induction count generalizing offset sections with
  | zero =>
    cases run
    exact fun _ member => absurd member List.not_mem_nil
  | succ count ih =>
    obtain ⟨whole, -, run⟩ := Outcome.of_bind_eq_ok run
    obtain ⟨virtualSize, -, run⟩ := Outcome.of_bind_eq_ok run
    obtain ⟨virtualAddress, -, run⟩ := Outcome.of_bind_eq_ok run
    obtain ⟨rawSize, -, run⟩ := Outcome.of_bind_eq_ok run
    obtain ⟨rawOffset, found, run⟩ := Outcome.of_bind_eq_ok run
    obtain ⟨others, later, run⟩ := Outcome.of_bind_eq_ok run
    cases run
    rw [List.forall_mem_cons]
    exact ⟨Bytes.lt_of_numberAt? (congrArg _ (orRefused_eq_ok found)), ih later⟩

theorem Container.rawOffset_of_readHeaders {data : Bytes} {container : Container}
    (run : Container.readHeaders data = .ok container) :
    ∀ part ∈ container.sections, part.rawOffset < UInt32.size := by
  obtain ⟨-, -, run⟩ := Outcome.of_bind_eq_ok run
  obtain ⟨-, -, run⟩ := Outcome.of_bind_eq_ok run
  obtain ⟨start, -, run⟩ := Outcome.of_bind_eq_ok run
  obtain ⟨-, -, run⟩ := Outcome.of_bind_eq_ok run
  obtain ⟨signature, -, run⟩ := Outcome.of_bind_eq_ok run
  obtain ⟨-, -, run⟩ := Outcome.of_bind_eq_ok run
  obtain ⟨header, -, run⟩ := Outcome.of_bind_eq_ok run
  obtain ⟨machine, -, run⟩ := Outcome.of_bind_eq_ok run
  obtain ⟨count, -, run⟩ := Outcome.of_bind_eq_ok run
  obtain ⟨timestamp, -, run⟩ := Outcome.of_bind_eq_ok run
  obtain ⟨size, -, run⟩ := Outcome.of_bind_eq_ok run
  -- The sections follow the optional header, whether there is one or not.
  split at run <;>
  · obtain ⟨optional, -, run⟩ := Outcome.of_bind_eq_ok run
    obtain ⟨-, -, run⟩ := Outcome.of_bind_eq_ok run
    obtain ⟨sections, found, run⟩ := Outcome.of_bind_eq_ok run
    cases run
    exact Container.rawOffset_of_readSections found

/-- The sections of an image have places of 32 bits in the file. -/
theorem Assembly.isMapped_of_read {data : Bytes} {image : Assembly}
    (addressable : Strict.IsAddressable data) (run : Assembly.read data = .ok image) :
    Strict.IsMapped image := by
  obtain ⟨-, run⟩ := Outcome.of_guard_eq_ok run
  obtain ⟨container, opened, run⟩ := Outcome.of_bind_eq_ok run
  obtain ⟨headers, found, opened⟩ := Outcome.of_bind_eq_ok opened
  obtain ⟨-, -, opened⟩ := Outcome.of_bind_eq_ok opened
  obtain ⟨-, -, opened⟩ := Outcome.of_bind_eq_ok opened
  cases opened
  split at run
  · cases run
  · cases run
  · cases run
    exact ⟨addressable, Container.rawOffset_of_readHeaders found⟩

end Image

namespace Module

/-- Loading ends with a module or with a refusal, and with the same one if every slice, index and
difference is taken without asking whether it is in range. -/
theorem load_in_range (path : String) {image : Image.Assembly} (mapped : Strict.IsMapped image) :
    (∃ module, Strict.load path image = .ok module ∧ load path image = .ok module) ∨
      ∃ fault, Strict.load path image = .error (.refused fault) ∧
        load path image = .error fault := by
  have same := Strict.settles_load path mapped
  cases outcome : load path image with
  | ok module => exact .inl ⟨module, same.eq_ok outcome, rfl⟩
  | error fault => exact .inr ⟨fault, same.eq_error outcome, rfl⟩

theorem load_in_range_sample :
    ∃ image module, Image.Assembly.read (sampleImage 2 [(2, 1)]) = .ok image ∧
      Strict.IsMapped image ∧ Strict.load "" image = .ok module := by
  have accepted : (ofBytes "" (sampleImage 2 [(2, 1)])).isOk = true := by decide +kernel
  rw [ofBytes] at accepted
  cases opened : Image.Assembly.read (sampleImage 2 [(2, 1)]) with
  | error fault =>
    rw [opened] at accepted
    cases accepted
  | ok image =>
    rw [opened] at accepted
    have addressable : Strict.IsAddressable (sampleImage 2 [(2, 1)]) := by decide +kernel
    have mapped := Image.Assembly.isMapped_of_read addressable opened
    rcases load_in_range "" mapped with ⟨module, strict, -⟩ | ⟨fault, -, refused⟩
    · exact ⟨image, module, rfl, mapped, strict⟩
    · change (load "" image).isOk = true at accepted
      rw [refused] at accepted
      cases accepted

end Module

end ClrDecompiler
