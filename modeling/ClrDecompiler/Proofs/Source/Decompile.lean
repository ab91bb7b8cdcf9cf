/-
This file says when there is a document of types: if all names in it come to an end.
-/

import ClrDecompiler.Proofs.Module.NameEnd
import ClrDecompiler.Source.Type

namespace ClrDecompiler.Source

open Metadata

variable {module : Module} {language : Language} {types : List TypeDefinition}

/-- There is a document exactly if all names in it come to an end. -/
theorem decompile_eq_ok_iff {document : Document} :
    decompile module language types = .ok document ↔
      (∀ token ∈ types.flatMap (typeTokens module module.types.size), module.NameEnds token) ∧
        ofTypes module language types = document := by
  rw [← Module.checkNames_eq_ok_iff, decompile]
  cases module.checkNames (types.flatMap (typeTokens module module.types.size)) with
  | error fault => exact iff_of_false (fun run => by cases run) fun both => by cases both.1
  | ok _ => exact ⟨fun run => ⟨rfl, Except.ok.inj run⟩, fun both => congrArg Except.ok both.2⟩

/-- A name without an end is the only thing that stops the rendering. -/
theorem decompile_eq_error {fault : Fault}
    (refused : decompile module language types = .error fault) : fault = .endlessName := by
  rw [decompile] at refused
  cases names : module.checkNames (types.flatMap (typeTokens module module.types.size)) with
  | error other =>
    rw [names] at refused
    cases refused
    exact Module.checkNames_eq_error names
  | ok _ =>
    rw [names] at refused
    cases refused

end ClrDecompiler.Source
