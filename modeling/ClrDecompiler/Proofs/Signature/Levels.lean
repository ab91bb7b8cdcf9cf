/-
This file compares a reader of types that are allowed fewer levels with one that is allowed more:
it does the same or fails for its levels.
-/

import ClrDecompiler.Proofs.Signature.Relation

namespace ClrDecompiler.Signature

open Read

variable {α β : Type}

def isNestingFault : Fault → Bool
  | .recursionLimit _ => true
  | _ => false

/-- The outcome of a signature that was refused for its nesting. -/
def isRefused : Except Fault α → Bool
  | .ok _ => false
  | .error fault => isNestingFault fault

/-- The step does what the other does, unless it refuses the nesting. -/
def Approximates (step other : Read α) : Prop :=
  ∀ data position, step.runAt data position = other.runAt data position ∨
    isRefused (step.runAt data position).1 = true

theorem Approximates.refl (step : Read α) : Approximates step step :=
  fun _ _ => .inl rfl

/-- More levels change nothing where fewer are enough, step by step. -/
theorem Approximates.bind {step other : Read α} {next otherNext : α → Read β}
    (first : Approximates step other)
    (second : ∀ value, Approximates (next value) (otherNext value)) :
    Approximates (step >>= next) (other >>= otherNext) := by
  intro data position
  rw [runAt_bind, runAt_bind]
  rcases first data position with same | refused
  · rw [same]
    rcases other.runAt data position with ⟨fault | value, after⟩
    · exact .inl rfl
    · exact second value data after
  · refine .inr ?_
    rcases run : step.runAt data position with ⟨fault | value, after⟩ <;> rw [run] at refused
    · exact refused
    · cases refused

/-- The readers of all signatures keep what holds of the reader of types. -/
theorem congruent_approximates : Congruent Approximates where
  value _ := .refl _
  failure _ := .refl _
  word8 := .refl _
  peek := .refl _
  unsigned := .refl _
  signed := .refl _
  token := .refl _
  modifiers := .refl _
  bind := .bind

/-- A type that is read with fewer levels is read in the same way with more. -/
theorem readType_approximates {fewer more : Nat} (le : fewer ≤ more) :
    Approximates (readType fewer) (readType more) := by
  induction fewer generalizing more with
  | zero => exact fun _ _ => .inr rfl
  | succ fewer ih =>
    cases more with
    | zero => cases le
    | succ more =>
      exact (Approximates.refl _).bind fun lead =>
        congruent_approximates.readElement (ih (Nat.le_of_succ_le_succ le)) lead

end ClrDecompiler.Signature
