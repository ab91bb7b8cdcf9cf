/-
This file shows for every part of a signature that its reader takes each form of the part back.
The readers of the parts are given the reader of the types in them.
-/

import ClrDecompiler.Proofs.Metadata.Token
import ClrDecompiler.Proofs.Signature.Form

namespace ClrDecompiler.Signature

open Metadata Compressed Read

/-- Every form of a token is read as the token. -/
theorem inverts_compressedToken : Read.compressedToken.Inverts TokenForm := by
  rintro _ encoding @⟨table, row, tag, _, tagged, fits, number⟩ rest
  have small : tag < 3 := (List.getElem?_eq_some_iff.mp tagged).1
  apply (inverts_compressedUnsigned number rest).bind
  have quotient : (4 * row + tag) / 4 = row := by omega
  have remainder : (4 * row + tag) % 4 = tag := by omega
  have value (high : UInt32) (same : high.toNat = table.number * 0x1000000) :
      (⟨high + UInt32.ofNat row⟩ : Token) = Token.ofRow table row := by
    have number : table.number < 64 := table.number_lt
    apply congrArg Token.mk
    apply UInt32.toNat_inj.mp
    rw [UInt32.toNat_add, same, UInt32.toNat_ofNat_of_lt' (by change _ < 4294967296; omega)]
    change _ = (Token.ofRow table row).value.toNat
    rw [Token.ofRow_value fits]
    omega
  rw [quotient, remainder]
  match tag, small with
  | 0, _ =>
    cases tagged
    rw [← value 0x02000000 rfl]
    exact (yields_pure _ _).bind (yields_pure _ _)
  | 1, _ =>
    cases tagged
    rw [← value 0x01000000 rfl]
    exact (yields_pure _ _).bind (yields_pure _ _)
  | 2, _ =>
    cases tagged
    rw [← value 0x1B000000 rfl]
    exact (yields_pure _ _).bind (yields_pure _ _)

section Lists

variable {α : Type} {step : Read α} {form : α → List UInt8 → Prop}

/-- The values that are read before others. -/
theorem yields_readMany_append (inverts : step.Inverts form) {values others : List α}
    {encoding input rest : List UInt8} {more : Nat} (sequence : Sequence form values encoding)
    (later : (readMany step more).Yields input others rest) :
    (readMany step (values.length + more)).Yields (encoding ++ input) (values ++ others) rest := by
  induction sequence with
  | nil =>
    rw [List.length_nil, Nat.zero_add]
    exact later
  | cons head tail ih =>
    rw [List.append_assoc, List.length_cons, Nat.add_right_comm]
    exact (inverts head _).bind (ih.bind (yields_pure _ _))

/-- Entries that stand one after the other are all read. -/
theorem yields_readMany (inverts : step.Inverts form) {values : List α} {encoding : List UInt8}
    (sequence : Sequence form values encoding) (rest : List UInt8) :
    (readMany step values.length).Yields (encoding ++ rest) values rest := by
  have none : (readMany step 0).Yields rest [] rest := yields_pure [] rest
  have all := yields_readMany_append inverts sequence none
  rw [List.append_nil] at all
  exact all

/-- Values that are skipped are passed over whole. -/
theorem yields_skipMany (inverts : step.Inverts form) {values : List α} {encoding : List UInt8}
    (sequence : Sequence form values encoding) (rest : List UInt8) :
    (skipMany step values.length).Yields (encoding ++ rest) () rest := by
  induction sequence with
  | nil => exact yields_pure () rest
  | cons head tail ih =>
    rw [List.append_assoc]
    exact (inverts head _).bind ih

end Lists

/-- The bytes at which the search for modifiers ends. -/
def Unmodified (input : List UInt8) : Prop :=
  ∃ lead tail, input = lead :: tail ∧ isModifier lead = false

/-- All modifiers are skipped if nothing behind them is one. -/
theorem yields_skipModifiers {modifiers rest : List UInt8} (form : ModifiersForm modifiers)
    (unmodified : Unmodified rest) (bound : Nat) (enough : modifiers.length < bound) :
    (skipModifiers bound).Yields (modifiers ++ rest) () rest := by
  induction form generalizing bound with
  | nil =>
    obtain ⟨lead, tail, rfl, other⟩ := unmodified
    obtain ⟨bound, rfl⟩ := Nat.exists_eq_add_of_lt enough
    apply (yields_hasMore _).bind
    apply (yields_peek _ _).bind
    rw [other]
    exact yields_pure () _
  | @cons lead token encoding others modifier target tail ih =>
    obtain ⟨bound, rfl⟩ := Nat.exists_eq_add_of_lt enough
    have isMark : isModifier lead = true := by
      rcases modifier with rfl | rfl <;> rfl
    apply (yields_hasMore _).bind
    apply (yields_peek _ _).bind
    rw [isMark]
    apply (yields_word8 _ _).bind
    rw [List.append_eq, List.append_assoc]
    refine (inverts_compressedToken target _).bind (ih _ ?_)
    simp only [List.length_cons, List.length_append]
    omega

/-- The modifiers are passed over up to the first byte that is none. -/
theorem yields_skipAllModifiers {modifiers rest : List UInt8} (form : ModifiersForm modifiers)
    (unmodified : Unmodified rest) :
    skipAllModifiers.Yields (modifiers ++ rest) () rest := by
  refine yields_size fun bound large => yields_skipModifiers form unmodified bound ?_
  obtain ⟨lead, tail, rfl, -⟩ := unmodified
  simp only [List.length_append, List.length_cons] at large
  omega

/-- A type starts with a byte of its own. It is no modifier, not the mark of the arguments of a
call, and the byte of references only if the type is one. -/
def Led (form : TypeSig → List UInt8 → Prop) : Prop :=
  ∀ ⦃type : TypeSig⦄ ⦃encoding : List UInt8⦄, form type encoding → ∃ lead tail,
    encoding = lead :: tail ∧ isModifier lead = false ∧ lead ≠ 0x41 ∧
      (lead = 0x10 → type.isByRef = true)

/-- The byte of a simple type is not taken for a modifier, a mark or a reference. -/
theorem simpleByte?_lead {type : TypeSig} {lead : UInt8} (listed : simpleByte? type = some lead) :
    isModifier lead = false ∧ lead ≠ 0x41 ∧ lead ≠ 0x10 := by
  cases type <;> simp only [simpleByte?, Option.some.injEq, reduceCtorEq] at listed <;>
    subst listed <;> decide

/-- The encoding of a type does not start with a modifier or the mark. -/
theorem typeForm_led : Led TypeForm := by
  intro type encoding form
  cases form with
  | simple listed =>
    obtain ⟨unmodified, unmarked, direct⟩ := simpleByte?_lead listed
    exact ⟨_, [], rfl, unmodified, unmarked, fun same => absurd same direct⟩
  | byRef => exact ⟨_, _, rfl, rfl, by decide, fun _ => rfl⟩
  | _ => exact ⟨_, _, rfl, rfl, by decide, fun same => absurd same (by decide)⟩

section Parts

variable {element : Read TypeSig} {form : TypeSig → List UInt8 → Prop}

/-- A type does not begin with a modifier. -/
theorem Led.unmodified (led : Led form) {type : TypeSig} {encoding : List UInt8}
    (inner : form type encoding) (rest : List UInt8) : Unmodified (encoding ++ rest) := by
  obtain ⟨lead, tail, rfl, other, -⟩ := led inner
  exact ⟨lead, tail ++ rest, rfl, other⟩

/-- A type is read behind any modifiers. -/
theorem inverts_modified (inverts : element.Inverts form) (led : Led form) :
    (do skipAllModifiers; element : Read TypeSig).Inverts (ModifiedForm form) := by
  rintro type _ ⟨before, inner⟩ rest
  rw [List.append_assoc]
  exact (yields_skipAllModifiers before (led.unmodified inner rest)).bind (inverts inner rest)

/-- The types that wrap a type after modifiers. -/
theorem yields_wrapped (inverts : element.Inverts form) (led : Led form) {type : TypeSig}
    {modifiers encoding : List UInt8} (before : ModifiersForm modifiers)
    (inner : form type encoding) (wrap : TypeSig → TypeSig) (rest : List UInt8) :
    (do skipAllModifiers; wrap <$> element : Read TypeSig).Yields
      (modifiers ++ encoding ++ rest) (wrap type) rest := by
  rw [List.append_assoc]
  exact (yields_skipAllModifiers before (led.unmodified inner rest)).bind
    ((inverts inner rest).map wrap)

/-- A parameter or a return type is read with its reference. -/
theorem yields_readParameter {rest : List UInt8}
    (reads : ∀ ⦃type encoding⦄, form type encoding → element.Yields (encoding ++ rest) type rest)
    (led : Led form) {param : Parameter TypeSig} {encoding : List UInt8}
    (shape : ParameterForm form param encoding) :
    (readParameter element).Yields (encoding ++ rest) param rest := by
  cases shape with
  | @value type modifiers encoding before inner plain =>
    rw [List.append_assoc]
    apply (yields_skipAllModifiers before (led.unmodified inner rest)).bind
    obtain ⟨lead, tail, rfl, -, -, reference⟩ := led inner
    have direct : (lead == 0x10) = false := by
      apply beq_false_of_ne
      intro same
      rw [reference same] at plain
      cases plain
    apply (yields_peek _ _).bind
    simp only [direct]
    exact (reads inner).bind (yields_pure _ rest)
  | @reference type modifiers encoding before inner =>
    rw [List.append_assoc]
    apply (yields_skipAllModifiers before ⟨0x10, _, rfl, rfl⟩).bind
    apply (yields_peek _ _).bind
    exact (yields_word8 _ _).bind ((reads inner).bind (yields_pure _ rest))

/-- A parameter is read back from its encoding. -/
theorem inverts_readParameter (inverts : element.Inverts form) (led : Led form) :
    (readParameter element).Inverts (ParameterForm form) :=
  fun _ _ shape rest => yields_readParameter (fun _ _ inner => inverts inner rest) led shape

/-- No parameter looks like the mark of the arguments of a call. -/
theorem ParameterForm.start (led : Led form) {param : Parameter TypeSig} {encoding : List UInt8}
    (shape : ParameterForm form param encoding) :
    ∃ lead tail, encoding = lead :: tail ∧ (lead == 0x41) = false := by
  have marked {modifiers : List UInt8} (before : ModifiersForm modifiers) {inner : List UInt8}
      (start : ∃ lead tail, inner = lead :: tail ∧ lead ≠ 0x41) :
      ∃ lead tail, modifiers ++ inner = lead :: tail ∧ (lead == 0x41) = false := by
    cases before with
    | nil =>
      obtain ⟨lead, tail, rfl, other⟩ := start
      exact ⟨lead, tail, rfl, beq_false_of_ne other⟩
    | cons modifier target tail =>
      refine ⟨_, _, rfl, ?_⟩
      rcases modifier with rfl | rfl <;> rfl
  cases shape with
  | value before inner plain =>
    obtain ⟨lead, tail, same, -, other, -⟩ := led inner
    exact marked before ⟨lead, tail, same, other⟩
  | reference before inner => exact marked before ⟨0x10, _, rfl, by decide⟩

/-- The first parameter is read before the others. -/
theorem yields_readParameters_cons (led : Led form) {param : Parameter TypeSig}
    {params : List (Parameter TypeSig)} {encoding input rest : List UInt8} {more : Nat}
    (head : ParameterForm form param encoding)
    (first : (readParameter element).Yields (encoding ++ input) param input)
    (later : (readParameters element more).Yields input params rest) :
    (readParameters element (more + 1)).Yields (encoding ++ input) (param :: params) rest := by
  obtain ⟨lead, others, rfl, unmarked⟩ := head.start led
  apply (yields_peek _ _).bind
  rw [unmarked]
  exact first.bind (later.bind (yields_pure _ rest))

/-- The parameters that are read before others. -/
theorem yields_readParameters_append (inverts : element.Inverts form) (led : Led form)
    {params others : List (Parameter TypeSig)} {encoding input rest : List UInt8} {more : Nat}
    (sequence : Sequence (ParameterForm form) params encoding)
    (later : (readParameters element more).Yields input others rest) :
    (readParameters element (params.length + more)).Yields (encoding ++ input)
      (params ++ others) rest := by
  induction sequence with
  | nil =>
    rw [List.length_nil, Nat.zero_add]
    exact later
  | cons head tail ih =>
    rw [List.append_assoc, List.length_cons, Nat.add_right_comm]
    exact yields_readParameters_cons led head (inverts_readParameter inverts led head _) ih

/-- All parameters that were announced are read. -/
theorem yields_readParameters (inverts : element.Inverts form) (led : Led form)
    {params : List (Parameter TypeSig)} {encoding : List UInt8}
    (sequence : Sequence (ParameterForm form) params encoding) (rest : List UInt8) :
    (readParameters element params.length).Yields (encoding ++ rest) params rest := by
  have none : (readParameters element 0).Yields rest [] rest := yields_pure [] rest
  have all := yields_readParameters_append inverts led sequence none
  rw [List.append_nil] at all
  exact all

/-- Both ways to read the number of type parameters go on in the same way. -/
theorem yields_genericCount {β : Type} {next : Nat → Read β} {convention : UInt8} {count : Nat}
    {encoding middle rest : List UInt8} {result : β}
    (shape : GenericCountForm convention count encoding)
    (later : (next count).Yields middle result rest) :
    (if convention &&& 0x10 ≠ 0 then Read.compressedUnsigned >>= next
      else pure 0 >>= next : Read β).Yields (encoding ++ middle) result rest := by
  cases shape with
  | absent clear =>
    rw [if_neg (not_not_intro clear)]
    exact (yields_pure 0 _).bind later
  | present marked number =>
    rw [if_pos marked]
    exact (inverts_compressedUnsigned number _).bind later

/-- A method is read part by part. -/
theorem yields_readMethodWith {convention : UInt8} {genericCount total : Nat}
    {generics count result input rest : List UInt8} {returns : Parameter TypeSig}
    {params : List (Parameter TypeSig)}
    (genericNumber : GenericCountForm convention genericCount generics)
    (number : UnsignedForm total count)
    (returned : (readParameter element).Yields (result ++ input) returns input)
    (passed : (readParameters element total).Yields input params rest) :
    (readMethodWith element).Yields
      (convention :: (generics ++ (count ++ (result ++ input))))
      ⟨convention &&& 0x20 ≠ 0, convention &&& 0x40 ≠ 0, convention &&& 0x0F = 0x05,
        genericCount, returns, params⟩ rest := by
  apply (yields_word8 _ _).bind
  apply yields_genericCount genericNumber
  apply (inverts_compressedUnsigned number _).bind
  exact returned.bind (passed.bind (yields_pure _ rest))

/-- A method signature is read, given the reader of the types in it. -/
theorem inverts_readMethodWith (inverts : element.Inverts form) (led : Led form) :
    (readMethodWith element).Inverts (MethodForm form) := by
  rintro _ _ ⟨rfl, rfl, rfl, genericNumber, number, returned, passed⟩ rest
  simp only [List.cons_append, List.append_assoc]
  exact yields_readMethodWith genericNumber number (inverts_readParameter inverts led returned _)
    (yields_readParameters inverts led passed rest)

/-- An array is read with its rank, and its bounds are passed over. -/
theorem yields_readArray (inverts : element.Inverts form) {type : TypeSig} {rank : Nat}
    {encoding dimensions bounds : List UInt8} (inner : form type encoding)
    (value : UnsignedForm rank dimensions) (shape : BoundsForm bounds) (rest : List UInt8) :
    (readArray element).Yields (encoding ++ (dimensions ++ bounds) ++ rest)
      (.array type rank) rest := by
  obtain ⟨sizeCount, sizeValues, lowerCount, lowerValues⟩ := shape
  simp only [List.append_assoc]
  apply (inverts inner _).bind
  apply (inverts_compressedUnsigned value _).bind
  apply (inverts_compressedUnsigned sizeCount _).bind
  apply (yields_skipMany inverts_compressedUnsigned sizeValues _).bind
  apply (inverts_compressedUnsigned lowerCount _).bind
  exact (yields_skipMany inverts_compressedSigned lowerValues rest).bind (yields_pure _ rest)

/-- The type that is instantiated is read before the arguments. -/
theorem yields_readGeneric (inverts : element.Inverts form) {base : TypeSig}
    {arguments : List TypeSig} {encoding count values : List UInt8}
    (start : ∃ lead tail, encoding = lead :: tail ∧ (lead = 0x11 ∨ lead = 0x12))
    (inner : form base encoding) (number : UnsignedForm arguments.length count)
    (applied : Sequence form arguments values) (rest : List UInt8) :
    (readGeneric element).Yields (encoding ++ (count ++ values) ++ rest)
      (.generic base arguments) rest := by
  have named := inverts inner (count ++ (values ++ rest))
  obtain ⟨lead, tail, rfl, accepted⟩ := start
  rw [List.append_assoc, List.append_assoc]
  apply (yields_peek _ _).bind
  rw [if_neg (not_and_or.mpr (accepted.imp not_not_intro not_not_intro))]
  apply named.bind
  apply (inverts_compressedUnsigned number _).bind
  exact (yields_readMany inverts applied rest).bind (yields_pure _ rest)

end Parts

end ClrDecompiler.Signature
