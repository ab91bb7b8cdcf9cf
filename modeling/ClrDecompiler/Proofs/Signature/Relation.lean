/-
This file shows that a relation between reading steps, which holds for the steps that signatures
are made of and goes through sequencing, goes from the reader of the types inside a signature
through to the reader of the signature.
-/

import ClrDecompiler.Proofs.Bytes.Reading
import ClrDecompiler.Signature.Reader

namespace ClrDecompiler.Signature

/-- The relation holds for the steps that signatures are made of, and goes through sequencing. -/
structure Congruent (relation : ∀ {α : Type}, Read α → Read α → Prop) : Prop where
  value {α : Type} (value : α) : relation (pure value) (pure value)
  failure {α : Type} (fault : Fault) : relation (throw fault : Read α) (throw fault)
  word8 : relation Read.word8 Read.word8
  peek : relation Read.peek Read.peek
  unsigned : relation Read.compressedUnsigned Read.compressedUnsigned
  signed : relation Read.compressedSigned Read.compressedSigned
  token : relation Read.compressedToken Read.compressedToken
  modifiers : relation skipAllModifiers skipAllModifiers
  bind {α β : Type} {step other : Read α} {next otherNext : α → Read β}
    (first : relation step other) (second : ∀ value, relation (next value) (otherNext value)) :
    relation (step >>= next) (other >>= otherNext)

namespace Congruent

variable {relation : ∀ {α : Type}, Read α → Read α → Prop} (congruent : Congruent relation)
include congruent

/-- Readers that are related stay so when their values are changed alike. -/
theorem map {α β : Type} {step other : Read α} (f : α → β) (inner : relation step other) :
    relation (f <$> step) (f <$> other) := by
  rw [map_eq_pure_bind, map_eq_pure_bind]
  exact congruent.bind inner fun _ => congruent.value _

/-- A relation between steps holds for many of them. -/
theorem skipMany {α : Type} {step other : Read α} (inner : relation step other) (count : Nat) :
    relation (skipMany step count) (skipMany other count) := by
  induction count with
  | zero => exact congruent.value ()
  | succ count ih => exact congruent.bind inner fun _ => ih

/-- A relation between steps holds for many of them with their values. -/
theorem readMany {α : Type} {step other : Read α} (inner : relation step other) (count : Nat) :
    relation (readMany step count) (readMany other count) := by
  induction count with
  | zero => exact congruent.value []
  | succ count ih =>
    exact congruent.bind inner fun _ => congruent.bind ih fun _ => congruent.value _

section Parts

variable {element other : Read TypeSig} (inner : relation element other)
include inner

theorem modified : relation (do skipAllModifiers; element) (do skipAllModifiers; other) :=
  congruent.bind congruent.modifiers fun _ => inner

/-- A relation between readers of types holds for those of parameters. -/
theorem readParameter : relation (readParameter element) (readParameter other) := by
  refine congruent.bind congruent.modifiers fun _ => congruent.bind congruent.peek fun lead => ?_
  dsimp only
  split
  · exact congruent.bind congruent.word8 fun _ => congruent.bind inner fun _ => congruent.value _
  · exact congruent.bind inner fun _ => congruent.value _

theorem readParameters (count : Nat) :
    relation (readParameters element count) (readParameters other count) := by
  induction count with
  | zero => exact congruent.value []
  | succ count ih =>
    refine congruent.bind congruent.peek fun lead => ?_
    split
    · exact congruent.value []
    · exact congruent.bind (congruent.readParameter inner) fun _ =>
        congruent.bind ih fun _ => congruent.value _

/-- A relation between readers of types holds for those of method signatures. -/
theorem readMethodWith : relation (readMethodWith element) (readMethodWith other) := by
  have afterGenerics (convention : UInt8) (genericCount : Nat) :=
    congruent.bind congruent.unsigned fun count =>
      congruent.bind (congruent.readParameter inner) fun returns =>
        congruent.bind (congruent.readParameters inner count) fun params =>
          congruent.value ({
            hasThis := convention &&& 0x20 ≠ 0
            explicitThis := convention &&& 0x40 ≠ 0
            vararg := convention &&& 0x0F = 0x05
            genericCount, returns, params } : MethodSig)
  refine congruent.bind congruent.word8 fun convention => ?_
  split
  · exact congruent.bind congruent.unsigned fun genericCount => afterGenerics _ genericCount
  · exact congruent.bind (congruent.value 0) fun genericCount => afterGenerics _ genericCount

theorem readArray : relation (readArray element) (readArray other) :=
  congruent.bind inner fun _ =>
    congruent.bind congruent.unsigned fun _ =>
      congruent.bind congruent.unsigned fun sizes =>
        congruent.bind (congruent.skipMany congruent.unsigned sizes) fun _ =>
          congruent.bind congruent.unsigned fun bounds =>
            congruent.bind (congruent.skipMany congruent.signed bounds) fun _ => congruent.value _

/-- An instantiation is read by related readers alike. -/
theorem readGeneric : relation (readGeneric element) (readGeneric other) := by
  refine congruent.bind congruent.peek fun lead => ?_
  split
  · exact congruent.bind (congruent.failure _) fun _ =>
      congruent.bind inner fun _ =>
        congruent.bind congruent.unsigned fun count =>
          congruent.bind (congruent.readMany inner count) fun _ => congruent.value _
  · exact congruent.bind inner fun _ =>
      congruent.bind congruent.unsigned fun count =>
        congruent.bind (congruent.readMany inner count) fun _ => congruent.value _

/-- A relation between readers of types holds for one more level of types. -/
theorem readElement (lead : UInt8) :
    relation (readElement element lead) (readElement other lead) := by
  unfold Signature.readElement
  split
  · exact congruent.bind congruent.modifiers fun _ => congruent.map _ inner
  · exact congruent.map _ inner
  · exact congruent.map _ congruent.token
  · exact congruent.map _ congruent.token
  · exact congruent.map _ congruent.unsigned
  · exact congruent.readArray inner
  · exact congruent.readGeneric inner
  · exact congruent.map _ (congruent.readMethodWith inner)
  · exact congruent.bind congruent.modifiers fun _ => congruent.map _ inner
  · exact congruent.map _ congruent.unsigned
  · exact congruent.bind congruent.token fun _ => inner
  · exact congruent.bind congruent.token fun _ => inner
  · exact congruent.map _ inner
  · cases simpleType? lead with
    | none => exact congruent.failure _
    | some type => exact congruent.value type

end Parts

section Readers

variable {levels other : Nat} (inner : relation (readType levels) (readType other))
include inner

/-- The relation holds for the readers of signatures of all kinds. -/
theorem readTypeSpec : relation (readTypeSpec levels) (readTypeSpec other) :=
  congruent.modified inner

/-- So is a method. -/
theorem readMethod : relation (readMethod levels) (readMethod other) :=
  congruent.readMethodWith inner

/-- So is a field. -/
theorem readField : relation (readField levels) (readField other) := by
  refine congruent.bind congruent.word8 fun lead => ?_
  split
  · exact congruent.bind (congruent.failure _) fun _ => congruent.modified inner
  · exact congruent.modified inner

/-- So are local variables. -/
theorem readLocals : relation (readLocals levels) (readLocals other) := by
  have entries := congruent.bind congruent.unsigned fun count =>
    congruent.readMany (congruent.modified inner) count
  refine congruent.bind congruent.word8 fun lead => ?_
  split
  · exact congruent.bind (congruent.failure _) fun _ => entries
  · exact entries

/-- So are the type arguments of a method. -/
theorem readMethodSpec : relation (readMethodSpec levels) (readMethodSpec other) := by
  have arguments := congruent.bind congruent.unsigned fun count => congruent.readMany inner count
  refine congruent.bind congruent.word8 fun lead => ?_
  split
  · exact congruent.bind (congruent.failure _) fun _ => arguments
  · exact arguments

end Readers

end Congruent

end ClrDecompiler.Signature
