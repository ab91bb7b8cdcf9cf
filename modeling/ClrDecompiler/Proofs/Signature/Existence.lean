/-
This file shows that every type whose numbers, tokens, names and references have encodings
has one itself.
-/

import ClrDecompiler.Proofs.Metadata.Token
import ClrDecompiler.Proofs.Signature.Form

namespace ClrDecompiler.Signature

open Metadata Compressed TypeSig

/-- Every number below 2^29 has a compressed form. -/
theorem exists_unsignedForm {value : Nat} (small : isNumber value = true) :
    ∃ encoding, UnsignedForm value encoding :=
  ⟨_, .four (of_decide_eq_true small)⟩

/-- Every token of a type has a compressed form. -/
theorem exists_tokenForm {token : Token} (pointed : isTypeToken token = true) :
    ∃ encoding, TokenForm token encoding := by
  obtain ⟨table, listed, points⟩ := List.any_eq_true.mp pointed
  obtain ⟨same, fits⟩ := Token.eq_ofRow points
  obtain ⟨tag, inside, tagged⟩ := List.mem_iff_getElem.mp listed
  have small : tag < 3 := inside
  refine ⟨fourBytes (4 * token.row.toNat + tag), ?_⟩
  have form := TokenForm.mk (List.getElem?_eq_some_iff.mpr ⟨inside, tagged⟩) fits
    (.four (show 4 * token.row.toNat + tag < 0x20000000 by omega))
  rw [← same] at form
  exact form

/-- Arrays need not say anything of their bounds. -/
theorem exists_boundsForm : ∃ encoding, BoundsForm encoding :=
  ⟨_, @BoundsForm.mk [] [] _ _ _ _ (.one (by decide)) .nil (.one (by decide)) .nil⟩

/-- The flags of a method are independent of each other. -/
theorem exists_convention (hasThis explicitThis vararg : Bool) :
    ∃ convention : UInt8, hasThis = (convention &&& 0x20 ≠ 0 : Bool) ∧
      explicitThis = (convention &&& 0x40 ≠ 0 : Bool) ∧
      vararg = (convention &&& 0x0F = 0x05 : Bool) ∧ convention &&& 0x10 ≠ 0 := by
  refine ⟨0x10 ||| (if hasThis then 0x20 else 0) ||| (if explicitThis then 0x40 else 0) |||
    (if vararg then 0x05 else 0), ?_⟩
  cases hasThis <;> cases explicitThis <;> cases vararg <;> decide

/-- A parameter has an encoding if its type has one. -/
theorem exists_parameterForm {form : TypeSig → List UInt8 → Prop} {type : TypeSig}
    {encoding : List UInt8} (byRef : Bool) (plain : (byRef || !type.isByRef) = true)
    (inner : form type encoding) : ∃ encoding, ParameterForm form ⟨byRef, type⟩ encoding := by
  cases byRef with
  | true => exact ⟨_, .reference .nil inner⟩
  | false =>
    rw [Bool.false_or, Bool.not_eq_true'] at plain
    exact ⟨_, .value .nil inner plain⟩

mutual

/-- Every type that signatures can express has an encoding. -/
theorem exists_typeForm : ∀ type : TypeSig, type.isExpressible = true →
    ∃ encoding, TypeForm type encoding
  | .unknown, expressible => by cases expressible
  | .void, _ | .boolean, _ | .char, _ | .int8, _ | .uint8, _ | .int16, _ | .uint16, _
  | .int32, _ | .uint32, _ | .int64, _ | .uint64, _ | .float32, _ | .float64, _ | .string, _
  | .typedByRef, _ | .nativeInt, _ | .nativeUint, _ | .object, _ => ⟨_, .simple rfl⟩
  | .pointer element, expressible => by
    simp only [isExpressible] at expressible
    obtain ⟨encoding, inner⟩ := exists_typeForm element expressible
    exact ⟨_, .pointer .nil inner⟩
  | .byRef element, expressible => by
    simp only [isExpressible] at expressible
    obtain ⟨encoding, inner⟩ := exists_typeForm element expressible
    exact ⟨_, .byRef inner⟩
  | .vector element, expressible => by
    simp only [isExpressible] at expressible
    obtain ⟨encoding, inner⟩ := exists_typeForm element expressible
    exact ⟨_, .vector .nil inner⟩
  | .pinned element, expressible => by
    simp only [isExpressible] at expressible
    obtain ⟨encoding, inner⟩ := exists_typeForm element expressible
    exact ⟨_, .pinned inner⟩
  | .valueType token, expressible => by
    simp only [isExpressible] at expressible
    obtain ⟨encoding, target⟩ := exists_tokenForm expressible
    exact ⟨_, .valueType target⟩
  | .classType token, expressible => by
    simp only [isExpressible] at expressible
    obtain ⟨encoding, target⟩ := exists_tokenForm expressible
    exact ⟨_, .classType target⟩
  | .typeParam number, expressible => by
    simp only [isExpressible] at expressible
    obtain ⟨encoding, value⟩ := exists_unsignedForm expressible
    exact ⟨_, .typeParam value⟩
  | .methodParam number, expressible => by
    simp only [isExpressible] at expressible
    obtain ⟨encoding, value⟩ := exists_unsignedForm expressible
    exact ⟨_, .methodParam value⟩
  | .array element rank, expressible => by
    simp only [isExpressible, Bool.and_eq_true] at expressible
    obtain ⟨encoding, inner⟩ := exists_typeForm element expressible.1
    obtain ⟨dimensions, value⟩ := exists_unsignedForm expressible.2
    obtain ⟨bounds, shape⟩ := exists_boundsForm
    exact ⟨_, .array inner value shape⟩
  | .generic base arguments, expressible => by
    simp only [isExpressible, Bool.and_eq_true] at expressible
    obtain ⟨⟨⟨named, based⟩, counted⟩, applied⟩ := expressible
    obtain ⟨encoding, inner⟩ := exists_typeForm base based
    obtain ⟨count, number⟩ := exists_unsignedForm counted
    obtain ⟨values, sequence⟩ := exists_typeForms arguments applied
    exact ⟨_, .generic named inner number sequence⟩
  | .function ⟨hasThis, explicitThis, vararg, genericCount, ⟨reference, returns⟩, params⟩,
      expressible => by
    simp only [isExpressible, Bool.and_eq_true] at expressible
    obtain ⟨⟨⟨⟨generics, counted⟩, plain⟩, returned⟩, passed⟩ := expressible
    obtain ⟨convention, implicit, explicit, variadic, marked⟩ :=
      exists_convention hasThis explicitThis vararg
    obtain ⟨genericBytes, genericNumber⟩ := exists_unsignedForm generics
    obtain ⟨count, number⟩ := exists_unsignedForm counted
    obtain ⟨encoding, inner⟩ := exists_typeForm returns returned
    obtain ⟨result, returnForm⟩ := exists_parameterForm reference plain inner
    obtain ⟨values, sequence⟩ := exists_parameterForms params passed
    exact ⟨_, .function (.mk implicit explicit variadic (.present marked genericNumber) number
      returnForm sequence)⟩

/-- So have all types of a list. -/
theorem exists_typeForms : ∀ types : List TypeSig, areExpressible types = true →
    ∃ encoding, Sequence TypeForm types encoding
  | [], _ => ⟨_, .nil⟩
  | first :: rest, expressible => by
    simp only [areExpressible, Bool.and_eq_true] at expressible
    obtain ⟨encoding, head⟩ := exists_typeForm first expressible.1
    obtain ⟨others, tail⟩ := exists_typeForms rest expressible.2
    exact ⟨_, .cons head tail⟩

/-- So have all parameters of a list. -/
theorem exists_parameterForms : ∀ params : List (Parameter TypeSig),
    areExpressibleParams params = true →
      ∃ encoding, Sequence (ParameterForm TypeForm) params encoding
  | [], _ => ⟨_, .nil⟩
  | ⟨reference, first⟩ :: rest, expressible => by
    simp only [areExpressibleParams, Bool.and_eq_true] at expressible
    obtain ⟨⟨plain, expressed⟩, others⟩ := expressible
    obtain ⟨encoding, inner⟩ := exists_typeForm first expressed
    obtain ⟨_, head⟩ := exists_parameterForm reference plain inner
    obtain ⟨_, tail⟩ := exists_parameterForms rest others
    exact ⟨_, .cons head tail⟩

end

end ClrDecompiler.Signature
