/-
This file shows that what a signature reader does follows from the bytes in front of it.
-/

import ClrDecompiler.Proofs.Bytes.Locality
import ClrDecompiler.Proofs.Signature.Relation

namespace ClrDecompiler.Signature

open Read

/-- Where a byte follows, it decides whether a modifier is passed over. -/
theorem behaves_skipModifiers_cons {lead : UInt8} {tail : List UInt8} {used : Nat}
    {outcome : Except Fault Unit}
    (later : ∀ bound, tail.length ≤ bound → (if isModifier lead then do
        let _ ← Read.word8
        let _ ← Read.compressedToken
        skipModifiers bound
      else return () : Read Unit).Behaves (lead :: tail) outcome used) :
    ∀ bound, (lead :: tail).length ≤ bound →
      (skipModifiers bound).Behaves (lead :: tail) outcome used := by
  intro bound large
  obtain ⟨bound, rfl⟩ := Nat.exists_eq_add_of_lt large
  have continued := later _ (Nat.le_add_right _ bound)
  apply (yields_hasMore _).ahead_behaves
  apply (yields_peek lead tail).ahead_behaves
  cases marked : isModifier lead <;> rw [marked] at continued <;> exact continued

/-- With a bound that is not below the number of bytes, the modifiers that are passed over do not
depend on it. -/
theorem behaves_skipModifiers (input : List UInt8) :
    ∃ outcome used, ∀ bound, input.length ≤ bound →
      (skipModifiers bound).Behaves input outcome used := by
  -- The induction is on the size of the input, since a modifier takes several bytes.
  induction size : input.length using Nat.strongRecOn generalizing input with
  | ind size ih =>
    subst size
    rcases input with _ | ⟨lead, tail⟩
    · refine ⟨.ok (), 0, fun bound _ => ?_⟩
      cases bound with
      | zero => exact behaves_pure () _
      | succ bound => exact (yields_hasMore _).ahead_behaves (behaves_pure () _)
    cases marked : isModifier lead with
    | false =>
      refine ⟨.ok (), 0, behaves_skipModifiers_cons fun bound _ => ?_⟩
      rw [marked]
      exact behaves_pure () _
    | true =>
      obtain ⟨fault | token, used, target⟩ := local_compressedToken tail
      · refine ⟨.error fault, 1 + used, behaves_skipModifiers_cons fun bound _ => ?_⟩
        rw [marked]
        exact word8_behaves target.bind_error
      · have shorter : (tail.drop used).length < (lead :: tail).length := by
          rw [List.length_drop, List.length_cons]
          omega
        obtain ⟨outcome, more, others⟩ := ih _ shorter _ rfl
        refine ⟨outcome, 1 + (used + more), behaves_skipModifiers_cons fun bound large => ?_⟩
        rw [marked]
        refine word8_behaves (target.bind (others bound ?_))
        rw [List.length_drop]
        omega

theorem local_skipAllModifiers : skipAllModifiers.Local :=
  local_size behaves_skipModifiers

/-- The readers of all signatures are local if the reader of types is. -/
theorem congruent_local : Congruent fun step _ => step.Local where
  value := local_pure
  failure := local_throw
  word8 := local_word8
  peek := local_peek
  unsigned := local_compressedUnsigned
  signed := local_compressedSigned
  token := local_compressedToken
  modifiers := local_skipAllModifiers
  bind := Local.bind

/-- A type is read from the bytes behind its place only. -/
theorem local_readType (levels : Nat) : (readType levels).Local := by
  induction levels with
  | zero => exact local_throw _
  | succ levels ih =>
    exact local_word8.bind fun lead =>
      @Congruent.readElement _ congruent_local (readType levels) (readType levels) ih lead

end ClrDecompiler.Signature
