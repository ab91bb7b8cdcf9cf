/-
This file shows that every signature of a bounded nesting is read back from each of its
encodings, whatever bytes follow.
-/

import ClrDecompiler.Proofs.Signature.Existence
import ClrDecompiler.Proofs.Signature.Reading

namespace ClrDecompiler.Signature

open Metadata Compressed Read

/-! A type is nested more deeply than the types in it. -/

namespace TypeSig

/-- Every type has at least one level. -/
theorem nesting_pos (type : TypeSig) : 0 < type.nesting := by
  cases type <;> simp [nesting]

/-- A list of types is nested at least as deep as each of them. -/
theorem le_nestingOfAll {type : TypeSig} {types : List TypeSig} (member : type ∈ types) :
    type.nesting ≤ nestingOfAll types := by
  induction types with
  | nil => cases member
  | cons first rest ih =>
    rw [nestingOfAll]
    rcases List.mem_cons.mp member with rfl | inRest
    · exact Nat.le_max_left _ _
    · exact Nat.le_trans (ih inRest) (Nat.le_max_right _ _)

/-- Parameters are as deep as the deepest of them. -/
theorem le_nestingOfParams {param : Parameter TypeSig} {params : List (Parameter TypeSig)}
    (member : param ∈ params) : param.type.nesting ≤ nestingOfParams params := by
  induction params with
  | nil => cases member
  | cons first rest ih =>
    rw [nestingOfParams]
    rcases List.mem_cons.mp member with rfl | inRest
    · exact Nat.le_max_left _ _
    · exact Nat.le_trans (ih inRest) (Nat.le_max_right _ _)

/-- The types of a method are less deep than a pointer to it. -/
theorem nesting_function {method : MethodSig} {type : TypeSig} (member : type ∈ method.types) :
    type.nesting < (TypeSig.function method).nesting := by
  rw [nesting]
  rcases List.mem_cons.mp member with rfl | inParams
  · exact Nat.lt_succ_of_le (Nat.le_max_left _ _)
  · obtain ⟨param, inside, rfl⟩ := List.mem_map.mp inParams
    exact Nat.lt_succ_of_le (Nat.le_trans (le_nestingOfParams inside) (Nat.le_max_right _ _))

end TypeSig

/-- The encoding of a parameter keeps its form if that of the type is weakened. -/
theorem ParameterForm.imp {form other : TypeSig → List UInt8 → Prop} {param : Parameter TypeSig}
    {encoding : List UInt8} (weaken : ∀ encoding, form param.type encoding →
      other param.type encoding) (shape : ParameterForm form param encoding) :
    ParameterForm other param encoding := by
  cases shape with
  | value before inner plain => exact .value before (weaken _ inner) plain
  | reference before inner => exact .reference before (weaken _ inner)

/-- The encoding of a method keeps its form if those of the types in it are weakened. -/
theorem MethodForm.imp {form other : TypeSig → List UInt8 → Prop} {method : MethodSig}
    {encoding : List UInt8} (weaken : ∀ type ∈ method.types, ∀ encoding, form type encoding →
      other type encoding) (shape : MethodForm form method encoding) :
    MethodForm other method encoding := by
  obtain ⟨implicit, explicit, variadic, genericNumber, number, returned, passed⟩ := shape
  refine .mk implicit explicit variadic genericNumber number ?_ ?_
  · exact returned.imp (weaken _ List.mem_cons_self)
  · refine passed.imp fun param member encoding => ParameterForm.imp ?_
    exact weaken _ (List.mem_cons_of_mem _ (List.mem_map_of_mem member))

/-- The type that a generic one instantiates starts with the byte of a class or a value. -/
theorem TypeForm.named_start {base : TypeSig} {encoding : List UInt8}
    (form : TypeForm base encoding) (named : base.isNamed = true) :
    ∃ lead tail, encoding = lead :: tail ∧ (lead = 0x11 ∨ lead = 0x12) := by
  cases form with
  | simple listed =>
    have unnamed : base.isNamed = false := by cases base <;> first | rfl | cases listed
    cases named.symm.trans unnamed
  | valueType => exact ⟨_, _, rfl, .inl rfl⟩
  | classType => exact ⟨_, _, rfl, .inr rfl⟩
  | _ => cases named

/-- The forms of the types that are nested at most so deeply. -/
def ShallowForm (levels : Nat) (type : TypeSig) (encoding : List UInt8) : Prop :=
  TypeForm type encoding ∧ type.nesting ≤ levels

theorem shallowForm_led (levels : Nat) : Led (ShallowForm levels) :=
  fun _ _ inner => typeForm_led inner.1

/-- Every level of the reader undoes one level of nesting. -/
theorem inverts_readType (levels : Nat) : (readType levels).Inverts (ShallowForm levels) := by
  induction levels with
  | zero =>
    rintro type encoding ⟨-, shallow⟩
    exact absurd type.nesting_pos (Nat.not_lt_of_le shallow)
  | succ levels ih =>
    rintro type encoding ⟨form, shallow⟩ rest
    have led := shallowForm_led levels
    cases form with
    | simple listed =>
      apply (yields_word8 _ _).bind
      cases type <;> simp only [simpleByte?, Option.some.injEq, reduceCtorEq] at listed <;>
        subst listed <;> exact yields_pure _ rest
    | pointer before inner =>
      have within := Nat.le_of_succ_le_succ shallow
      exact (yields_word8 _ _).bind (yields_wrapped ih led before ⟨inner, within⟩ .pointer rest)
    | byRef inner =>
      have within := Nat.le_of_succ_le_succ shallow
      exact (yields_word8 _ _).bind ((ih ⟨inner, within⟩ rest).map TypeSig.byRef)
    | valueType target =>
      exact (yields_word8 _ _).bind ((inverts_compressedToken target rest).map TypeSig.valueType)
    | classType target =>
      exact (yields_word8 _ _).bind ((inverts_compressedToken target rest).map TypeSig.classType)
    | typeParam value =>
      exact (yields_word8 _ _).bind ((inverts_compressedUnsigned value rest).map TypeSig.typeParam)
    | array inner value shape =>
      have within := Nat.le_of_succ_le_succ shallow
      exact (yields_word8 _ _).bind (yields_readArray ih ⟨inner, within⟩ value shape rest)
    | generic named inner number applied =>
      have within := Nat.le_of_succ_le_succ shallow
      apply (yields_word8 _ _).bind
      refine yields_readGeneric ih (inner.named_start named) ⟨inner, ?_⟩ number ?_ rest
      · exact Nat.le_trans (Nat.le_max_left _ _) within
      · refine applied.imp fun argument member encoding inside => ⟨inside, ?_⟩
        have bounded := TypeSig.le_nestingOfAll member
        exact Nat.le_trans bounded (Nat.le_trans (Nat.le_max_right _ _) within)
    | function shape =>
      apply (yields_word8 _ _).bind
      refine (inverts_readMethodWith ih led ?_ rest).map TypeSig.function
      refine shape.imp fun type member encoding inner => ⟨inner, ?_⟩
      have smaller := TypeSig.nesting_function member
      exact Nat.le_of_lt_succ (Nat.lt_of_lt_of_le smaller shallow)
    | vector before inner =>
      have within := Nat.le_of_succ_le_succ shallow
      exact (yields_word8 _ _).bind (yields_wrapped ih led before ⟨inner, within⟩ .vector rest)
    | methodParam value =>
      apply (yields_word8 _ _).bind
      exact (inverts_compressedUnsigned value rest).map TypeSig.methodParam
    | pinned inner =>
      have within := Nat.le_of_succ_le_succ shallow
      exact (yields_word8 _ _).bind ((ih ⟨inner, within⟩ rest).map TypeSig.pinned)

/-! A reader that starts with all its levels takes types of up to 49 levels. -/

/-- The value has an encoding, and from each of its encodings, whatever stands before and after
it, the reader takes the value back and stops right after the encoding. -/
def ReadsBack {α : Type} (step : Nat → Read α) (form : α → List UInt8 → Prop) (value : α) :
    Prop :=
  (∃ encoding, form value encoding) ∧
    ∀ encoding before after : List UInt8, form value encoding →
      Place.read ⟨before.length, 0⟩ step (before ++ (encoding ++ after)).toArray =
        (.ok value, ⟨before.length + encoding.length, 0⟩)

/-- A value that is read from each of its encodings is read back. -/
theorem readsBack_of_yields {α : Type} {step : Nat → Read α} {form : α → List UInt8 → Prop}
    {value : α} (encodable : ∃ encoding, form value encoding)
    (yields : ∀ encoding, form value encoding → ∀ rest,
      (step (nestingLimit - 1)).Yields (encoding ++ rest) value rest) :
    ReadsBack step form value := by
  refine ⟨encodable, fun encoding before after shape => ?_⟩
  have whole : (before ++ (encoding ++ after)).toArray.toList = before ++ (encoding ++ after) := rfl
  have runs := (yields encoding shape after).runAt_append whole
  simp only [Place.read, Place.levels, Nat.sub_zero, runs, Nat.add_zero]

/-- With all levels every type of the allowed depth is read from each of its encodings. -/
theorem inverts_readType_top : (readType (nestingLimit - 1)).Inverts (ShallowForm 49) :=
  inverts_readType 49

/-- Types, as they stand in blobs of their own. -/
theorem readTypeSpec_readsBack {type : TypeSig} (expressible : type.isExpressible = true)
    (shallow : type.nesting ≤ 49) : ReadsBack readTypeSpec (ModifiedForm TypeForm) type := by
  obtain ⟨encoding, inner⟩ := exists_typeForm type expressible
  apply readsBack_of_yields ⟨_, .mk .nil inner⟩
  rintro _ ⟨before, shape⟩ rest
  exact inverts_modified inverts_readType_top (shallowForm_led _) (.mk before ⟨shape, shallow⟩) rest

/-- Method signatures are read back. -/
theorem readMethod_readsBack {method : MethodSig} (expressible : method.isExpressible = true)
    (shallow : ∀ type ∈ method.types, type.nesting ≤ 49) :
    ReadsBack readMethod (MethodForm TypeForm) method := by
  obtain ⟨encoding, pointed⟩ := exists_typeForm (.function method) expressible
  cases pointed with
  | simple listed => cases listed
  | function shape =>
    apply readsBack_of_yields ⟨_, shape⟩
    intro encoding shape rest
    refine inverts_readMethodWith inverts_readType_top (shallowForm_led _) ?_ rest
    exact shape.imp fun type member encoding inner => ⟨inner, shallow type member⟩

/-- Signatures of fields are read back. -/
theorem readField_readsBack {type : TypeSig} (expressible : type.isExpressible = true)
    (shallow : type.nesting ≤ 49) : ReadsBack readField FieldForm type := by
  obtain ⟨encoding, inner⟩ := exists_typeForm type expressible
  apply readsBack_of_yields ⟨_, .mk (.mk .nil inner)⟩
  rintro _ ⟨⟨before, shape⟩⟩ rest
  apply (yields_word8 _ _).bind
  exact inverts_modified inverts_readType_top (shallowForm_led _) (.mk before ⟨shape, shallow⟩) rest

/-- Signatures of local variables are read back. -/
theorem readLocals_readsBack {types : List TypeSig} (counted : TypeSig.isNumber types.length = true)
    (expressible : TypeSig.areExpressible types = true)
    (shallow : ∀ type ∈ types, type.nesting ≤ 49) : ReadsBack readLocals LocalsForm types := by
  obtain ⟨count, number⟩ := exists_unsignedForm counted
  obtain ⟨values, sequence⟩ := exists_typeForms types expressible
  have plain : Sequence (ModifiedForm TypeForm) types values :=
    sequence.imp fun _ _ _ inner => .mk .nil inner
  apply readsBack_of_yields ⟨_, .mk number plain⟩
  rintro _ ⟨number, locals⟩ rest
  apply (yields_word8 _ _).bind
  rw [List.append_eq, List.append_assoc]
  apply (inverts_compressedUnsigned number _).bind
  refine yields_readMany (inverts_modified inverts_readType_top (shallowForm_led _)) ?_ rest
  apply locals.imp
  intro type member encoding shape
  obtain ⟨before, inner⟩ := shape
  exact .mk before ⟨inner, shallow type member⟩

/-- Lists of type arguments are read back. -/
theorem readMethodSpec_readsBack {types : List TypeSig}
    (counted : TypeSig.isNumber types.length = true)
    (expressible : TypeSig.areExpressible types = true)
    (shallow : ∀ type ∈ types, type.nesting ≤ 49) :
    ReadsBack readMethodSpec ArgumentsForm types := by
  obtain ⟨count, number⟩ := exists_unsignedForm counted
  obtain ⟨values, sequence⟩ := exists_typeForms types expressible
  apply readsBack_of_yields ⟨_, .mk number sequence⟩
  rintro _ ⟨number, applied⟩ rest
  apply (yields_word8 _ _).bind
  rw [List.append_eq, List.append_assoc]
  apply (inverts_compressedUnsigned number _).bind
  refine yields_readMany inverts_readType_top ?_ rest
  exact applied.imp fun type member encoding inner => ⟨inner, shallow type member⟩

/-- Every reader of signatures takes each encoding of a value back and stops right after it, if
the types in the value have encodings and at most 49 levels. -/
theorem readers_invert_encodings :
    (∀ type : TypeSig, type.isExpressible = true → type.nesting ≤ 49 →
      ReadsBack readTypeSpec (ModifiedForm TypeForm) type) ∧
    (∀ method : MethodSig, method.isExpressible = true →
      (∀ type ∈ method.types, type.nesting ≤ 49) →
        ReadsBack readMethod (MethodForm TypeForm) method) ∧
    (∀ type : TypeSig, type.isExpressible = true → type.nesting ≤ 49 →
      ReadsBack readField FieldForm type) ∧
    (∀ types : List TypeSig, TypeSig.isNumber types.length = true →
      TypeSig.areExpressible types = true → (∀ type ∈ types, type.nesting ≤ 49) →
        ReadsBack readLocals LocalsForm types) ∧
    (∀ types : List TypeSig, TypeSig.isNumber types.length = true →
      TypeSig.areExpressible types = true → (∀ type ∈ types, type.nesting ≤ 49) →
        ReadsBack readMethodSpec ArgumentsForm types) :=
  ⟨fun _ => readTypeSpec_readsBack, fun _ => readMethod_readsBack,
    fun _ => readField_readsBack, fun _ => readLocals_readsBack,
    fun _ => readMethodSpec_readsBack⟩

/-- A function pointer that takes a vector of numbers and a reference to a `List<string>` and
gives nothing, as a type and as the only local variable of a method. -/
theorem readers_invert_encodings_pointer :
    let instantiated := TypeSig.generic (.classType (Token.ofRow .typeRef 7)) [.string]
    let method : MethodSig := ⟨true, false, false, 0, ⟨false, .void⟩,
      [⟨false, .vector .int32⟩, ⟨true, instantiated⟩]⟩
    ReadsBack readTypeSpec (ModifiedForm TypeForm) (.function method) ∧
    ReadsBack readMethod (MethodForm TypeForm) method ∧
    ReadsBack readField FieldForm (.function method) ∧
    ReadsBack readLocals LocalsForm [.function method] ∧
    ReadsBack readMethodSpec ArgumentsForm [.function method] := by
  intro instantiated method
  have expressible : (TypeSig.function method).isExpressible = true := by decide
  have shallow : (TypeSig.function method).nesting ≤ 49 := by decide
  have alone : ∀ type ∈ [TypeSig.function method], type.nesting ≤ 49 := by
    intro type member
    rw [List.mem_singleton.mp member]
    exact shallow
  have inside : ∀ type ∈ method.types, type.nesting ≤ 49 := by
    intro type member
    have smaller := TypeSig.nesting_function member
    exact Nat.le_of_lt (Nat.lt_of_lt_of_le smaller shallow)
  obtain ⟨type, methods, field, locals, arguments⟩ := readers_invert_encodings
  refine ⟨type _ expressible shallow, methods _ expressible inside, field _ expressible shallow,
    locals _ (by decide) ?_ alone, arguments _ (by decide) ?_ alone⟩
  · exact Bool.and_eq_true_iff.mpr ⟨expressible, rfl⟩
  · exact Bool.and_eq_true_iff.mpr ⟨expressible, rfl⟩

end ClrDecompiler.Signature
