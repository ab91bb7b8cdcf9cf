/-
This file follows the readers of signatures to a method with parameters of a call. They stop
before the mark of these parameters, which is then taken for the next part of the signature.
-/

import ClrDecompiler.Proofs.Bytes.Locality
import ClrDecompiler.Proofs.Signature.RoundTrip

namespace ClrDecompiler.Signature

open Compressed Read

theorem TypeSig.nesting_of_isNamed {type : TypeSig} (named : type.isNamed = true) :
    type.nesting = 1 := by
  cases type <;> first | rfl | cases named

/-- The start of the bytes of a method, which counts so many more parameters. -/
inductive HeadForm (result : Parameter TypeSig → List UInt8 → Prop)
    (passed : List (Parameter TypeSig) → List UInt8 → Prop) (more : Nat) :
    MethodSig → List UInt8 → Prop where
  | mk {convention : UInt8} {genericCount : Nat} {returns : Parameter TypeSig}
      {params : List (Parameter TypeSig)} {generics count returned values : List UInt8}
      (genericNumber : GenericCountForm convention genericCount generics)
      (number : UnsignedForm (params.length + more) count)
      (first : result returns returned) (others : passed params values) :
      HeadForm result passed more
        ⟨convention &&& 0x20 ≠ 0, convention &&& 0x40 ≠ 0, convention &&& 0x0F = 0x05,
          genericCount, returns, params⟩
        (convention :: (generics ++ (count ++ (returned ++ values))))

/-- A method with a variable number of arguments at a call: its own parameters, and after a mark
the parameters of the call, which are counted with them. -/
inductive CallForm (method : MethodSig) (own : List UInt8) : List UInt8 → Prop where
  | mk {added : List (Parameter TypeSig)} {values : List UInt8} (variadic : method.vararg = true)
      (head : HeadForm (ParameterForm TypeForm) (Sequence (ParameterForm TypeForm)) added.length
        method own)
      (some : added ≠ []) (others : Sequence (ParameterForm TypeForm) added values) :
      CallForm method own (0x41 :: values)

/-- The bytes of a function pointer up to the mark. -/
inductive PointerForm (method : MethodSig) (own : List UInt8) : TypeSig → List UInt8 → Prop where
  | mk : PointerForm method own (.function method) (0x1B :: own)

/-- A sequence whose last entry has a form of its own. -/
inductive EndingForm {α : Type} (form last : α → List UInt8 → Prop) :
    List α → List UInt8 → Prop where
  | mk {earlier : List α} {value : α} {values encoding : List UInt8}
      (before : Sequence form earlier values) (ending : last value encoding) :
      EndingForm form last (earlier ++ [value]) (values ++ encoding)

section Lists

variable {α : Type} {step : Read α} {form last : α → List UInt8 → Prop} {values : List α}
  {encoding rest : List UInt8}

/-- Several entries are read one after the other, the last of them by a reading of its own. -/
theorem yields_readMany_ending (inverts : step.Inverts form)
    (reads : ∀ ⦃value encoding⦄, last value encoding → step.Yields (encoding ++ rest) value rest)
    (sequence : EndingForm form last values encoding) :
    (readMany step values.length).Yields (encoding ++ rest) values rest := by
  obtain ⟨before, ending⟩ := sequence
  rw [List.length_append, List.append_assoc]
  apply yields_readMany_append inverts before
  exact (reads ending).bind (yields_pure _ rest)

/-- A failure behind entries that were read is that of all of them. -/
theorem fails_readMany_append (inverts : step.Inverts form)
    (sequence : Sequence form values encoding) {fault : Fault} {more : Nat}
    (later : (readMany step more).Fails rest fault) :
    (readMany step (values.length + more)).Fails (encoding ++ rest) fault := by
  induction sequence with
  | nil =>
    rw [List.length_nil, Nat.zero_add]
    exact later
  | cons head tail ih =>
    rw [List.append_assoc, List.length_cons, Nat.add_right_comm]
    exact (inverts head _).bind_fails ih.bind

/-- What follows the last entry is read as one more. -/
theorem fails_readMany_ending (inverts : step.Inverts form)
    (reads : ∀ ⦃value encoding⦄, last value encoding → step.Yields (encoding ++ rest) value rest)
    (sequence : EndingForm form last values encoding) {fault : Fault}
    (fails : step.Fails rest fault) {more : Nat} (further : more ≠ 0) :
    (readMany step (values.length + more)).Fails (encoding ++ rest) fault := by
  obtain ⟨before, ending⟩ := sequence
  obtain ⟨more, rfl⟩ := Nat.exists_eq_succ_of_ne_zero further
  rw [List.length_append, List.append_assoc, Nat.add_assoc]
  apply fails_readMany_append inverts before
  rw [List.length_singleton, Nat.add_comm]
  exact (reads ending).bind_fails (Fails.bind (fails.bind))

/-- The entries end at the cut, or the next one fails there. -/
theorem cutOff_readMany (inverts : step.Inverts form)
    (reads : ∀ ⦃value encoding⦄, last value encoding → step.Yields (encoding ++ rest) value rest)
    (sequence : EndingForm form last values encoding) {fault : Fault}
    (fails : step.Fails rest fault) (more : Nat) :
    CutOff more (readMany step (values.length + more)) (encoding ++ rest) values rest fault where
  whole none := by
    subst none
    exact yields_readMany_ending inverts reads sequence
  short further := fails_readMany_ending inverts reads sequence fails further

end Lists

section Parts

variable {element : Read TypeSig} {form last : TypeSig → List UInt8 → Prop}
  {params : List (Parameter TypeSig)} {values rest : List UInt8}

/-- However many parameters are counted, none is read at the mark. -/
theorem yields_readParameters_mark (more : Nat) :
    (readParameters element more).Yields (0x41 :: rest) [] (0x41 :: rest) := by
  cases more with
  | zero => exact yields_pure [] _
  | succ more => exact (yields_peek _ _).bind (yields_pure [] _)

/-- The parameters before the mark are all that is read, however many were announced. -/
theorem yields_readParameters_marked (inverts : element.Inverts form) (led : Led form)
    (sequence : Sequence (ParameterForm form) params values) (more : Nat) :
    (readParameters element (params.length + more)).Yields (values ++ 0x41 :: rest) params
      (0x41 :: rest) := by
  have none : (readParameters element more).Yields (0x41 :: rest) [] (0x41 :: rest) :=
    yields_readParameters_mark more
  have all := yields_readParameters_append inverts led sequence none
  rw [List.append_nil] at all
  exact all

/-- The parameters before a sentinel are read, the last of which it follows. -/
theorem yields_readParameters_ending (inverts : element.Inverts form) (led : Led form)
    (reads : ∀ ⦃type encoding⦄, last type encoding →
      element.Yields (encoding ++ 0x41 :: rest) type (0x41 :: rest)) (lastLed : Led last)
    (sequence : EndingForm (ParameterForm form) (ParameterForm last) params values) (more : Nat) :
    (readParameters element (params.length + more)).Yields (values ++ 0x41 :: rest) params
      (0x41 :: rest) := by
  obtain ⟨before, ending⟩ := sequence
  rw [List.length_append, List.append_assoc, Nat.add_assoc]
  apply yields_readParameters_append inverts led before
  rw [List.length_singleton, Nat.add_comm]
  exact yields_readParameters_cons lastLed ending (yields_readParameter reads lastLed ending)
    (yields_readParameters_mark more)

/-- A generic type is cut off in its arguments. -/
theorem cutOff_readGeneric {base : TypeSig} {arguments : List TypeSig} {total more : Nat}
    {encoding count input : List UInt8} {fault : Fault}
    (start : ∃ lead tail, encoding = lead :: tail ∧ (lead = 0x11 ∨ lead = 0x12))
    (named : element.Yields (encoding ++ (count ++ input)) base (count ++ input))
    (number : UnsignedForm total count)
    (applied : CutOff more (readMany element total) input arguments rest fault) :
    CutOff more (readGeneric element) (encoding ++ (count ++ input)) (.generic base arguments) rest
      fault := by
  obtain ⟨lead, tail, rfl, accepted⟩ := start
  apply (yields_peek _ _).bind_cutOff
  rw [if_neg (not_and_or.mpr (accepted.imp not_not_intro not_not_intro))]
  apply named.bind_cutOff
  apply (inverts_compressedUnsigned number _).bind_cutOff
  exact applied.bind (yields_pure _ rest)

/-- The part of an array after its element type and its rank. -/
def readBounds (type : TypeSig) (rank : Nat) : Read TypeSig := do
  skipMany Read.compressedUnsigned (← Read.compressedUnsigned)
  skipMany Read.compressedSigned (← Read.compressedUnsigned)
  return .array type rank

theorem readArray_eq : readArray element = (do
    let type ← element
    let rank ← Read.compressedUnsigned
    readBounds type rank) := rfl

end Parts

namespace HeadForm

variable {result other : Parameter TypeSig → List UInt8 → Prop}
  {passed otherPassed : List (Parameter TypeSig) → List UInt8 → Prop} {more : Nat}
  {method : MethodSig} {own rest : List UInt8}

/-- The head of a call keeps its form if the forms inside it are weakened. -/
theorem imp (weaken : ∀ encoding, result method.returns encoding → other method.returns encoding)
    (weakenAll : ∀ values, passed method.params values → otherPassed method.params values)
    (shape : HeadForm result passed more method own) :
    HeadForm other otherPassed more method own := by
  obtain ⟨genericNumber, number, first, others⟩ := shape
  exact .mk genericNumber number (weaken _ first) (weakenAll _ others)

/-- A method signature is read up to the mark, given the readings of its parts. -/
theorem yields_readMethodWith {element : Read TypeSig}
    (shape : HeadForm result passed more method own)
    (returned : ∀ ⦃returns encoding params values⦄, result returns encoding → passed params values →
      (readParameter element).Yields (encoding ++ (values ++ rest)) returns (values ++ rest))
    (others : ∀ ⦃params values⦄, passed params values →
      (readParameters element (params.length + more)).Yields (values ++ rest) params rest) :
    (readMethodWith element).Yields (own ++ rest) method rest := by
  obtain ⟨genericNumber, number, first, passes⟩ := shape
  simp only [List.cons_append, List.append_assoc]
  exact Signature.yields_readMethodWith genericNumber number (returned first passes) (others passes)

end HeadForm

/-- A pointer to a function starts with a byte that is not a modifier. -/
theorem pointerForm_led (method : MethodSig) (own : List UInt8) : Led (PointerForm method own) := by
  rintro _ _ ⟨⟩
  exact ⟨0x1B, own, rfl, rfl, by decide, fun same => absurd same (by decide)⟩

namespace CallForm

variable {method : MethodSig} {own arguments : List UInt8} (shape : CallForm method own arguments)
include shape

/-- The arguments begin with the sentinel. -/
theorem arguments_start : ∃ values, arguments = 0x41 :: values := by
  obtain ⟨-, -, -, -⟩ := shape
  exact ⟨_, rfl⟩

/-- The sentinel is not a modifier. -/
theorem unmodified (after : List UInt8) : Unmodified (arguments ++ after) := by
  obtain ⟨values, rfl⟩ := shape.arguments_start
  exact ⟨0x41, values ++ after, rfl, rfl⟩

/-- The mark is no type. -/
theorem fails_readType (levels : Nat) (after : List UInt8) :
    (readType (levels + 1)).Fails (arguments ++ after) (.malformed (.elementType 0x41)) := by
  obtain ⟨values, rfl⟩ := shape.arguments_start
  exact (yields_word8 _ _).bind_fails (fails_throw _ _)

/-- The method ends before the mark. -/
theorem yields_readMethodWith {levels : Nat}
    (shallow : ∀ type ∈ method.types, type.nesting ≤ levels) (after : List UInt8) :
    (readMethodWith (readType levels)).Yields (own ++ (arguments ++ after)) method
      (arguments ++ after) := by
  have inverts := inverts_readType levels
  have led := shallowForm_led levels
  obtain @⟨added, _, -, head, -, -⟩ := shape
  have bounded : HeadForm (ParameterForm (ShallowForm levels))
      (Sequence (ParameterForm (ShallowForm levels))) added.length method own := by
    apply head.imp
    · exact fun _ => ParameterForm.imp fun _ inner => ⟨inner, shallow _ List.mem_cons_self⟩
    · intro values
      refine Sequence.imp fun param member _ => ParameterForm.imp fun _ inner => ⟨inner, ?_⟩
      exact shallow _ (List.mem_cons_of_mem _ (List.mem_map_of_mem member))
  exact bounded.yields_readMethodWith
    (fun _ _ _ _ returned _ => inverts_readParameter inverts led returned _)
    fun _ _ passed => yields_readParameters_marked inverts led passed _

/-- A pointer to a function that is called is read up to the mark. -/
theorem yields_readType {levels : Nat} (shallow : (TypeSig.function method).nesting ≤ levels)
    (after : List UInt8) ⦃type : TypeSig⦄ ⦃encoding : List UInt8⦄
    (pointer : PointerForm method own type encoding) :
    (readType levels).Yields (encoding ++ (arguments ++ after)) type (arguments ++ after) := by
  obtain ⟨⟩ := pointer
  obtain ⟨levels, rfl⟩ := Nat.exists_eq_add_of_le' (Nat.le_trans (TypeSig.nesting_pos _) shallow)
  apply (yields_word8 _ _).bind
  refine (shape.yields_readMethodWith ?_ after).map TypeSig.function
  intro type member
  exact Nat.le_of_lt_succ (Nat.lt_of_lt_of_le (TypeSig.nesting_function member) shallow)

theorem yields_modified {levels : Nat} (shallow : (TypeSig.function method).nesting ≤ levels)
    (after : List UInt8) ⦃type : TypeSig⦄ ⦃encoding : List UInt8⦄
    (pointer : ModifiedForm (PointerForm method own) type encoding) :
    (do skipAllModifiers; readType levels : Read TypeSig).Yields (encoding ++ (arguments ++ after))
      type (arguments ++ after) := by
  obtain ⟨before, inner⟩ := pointer
  rw [List.append_assoc]
  exact (yields_skipAllModifiers before ((pointerForm_led method own).unmodified inner _)).bind
    (shape.yields_readType shallow after inner)

/-- The mark is no element type. -/
theorem fails_modified (levels : Nat) (after : List UInt8) :
    (do skipAllModifiers; readType (levels + 1) : Read TypeSig).Fails (arguments ++ after)
      (.malformed (.elementType 0x41)) :=
  (yields_skipAllModifiers .nil (shape.unmodified after)).bind_fails
    (shape.fails_readType levels after)

end CallForm

/-! What the readers with all their levels make of a signature around such a method. -/

section Readers

variable {α : Type} (step : Nat → Read α) (encoding tail : List UInt8)

/-- If the tail follows the encoding, the reader gives the value and stops between the two. -/
def StopsBefore (value : α) : Prop :=
  ∀ before after : List UInt8,
    Place.read ⟨before.length, 0⟩ step (before ++ (encoding ++ (tail ++ after))).toArray =
      (.ok value, ⟨before.length + encoding.length, 0⟩)

/-- If the tail follows the encoding, the reader fails. -/
def FailsAt (fault : Fault) : Prop :=
  ∀ before after : List UInt8,
    (Place.read ⟨before.length, 0⟩ step
      (before ++ (encoding ++ (tail ++ after))).toArray).1 = .error fault

variable {step encoding tail}

/-- A reading that stops at the mark leaves the rest unread. -/
theorem stopsBefore_of_yields {value : α}
    (yields : ∀ after, (step 49).Yields (encoding ++ (tail ++ after)) value (tail ++ after)) :
    StopsBefore step encoding tail value := by
  intro before after
  have whole : (before ++ (encoding ++ (tail ++ after))).toArray.toList =
    before ++ (encoding ++ (tail ++ after)) := rfl
  have runs := (yields after).runAt_append whole
  have levels : Place.levels ⟨before.length, 0⟩ = 49 := rfl
  simp only [Place.read, levels, runs, Nat.add_zero]

theorem failsAt_of_fails {fault : Fault}
    (fails : ∀ after, (step 49).Fails (encoding ++ (tail ++ after)) fault) :
    FailsAt step encoding tail fault := by
  intro before after
  obtain ⟨used, -, runs⟩ := fails after
  have run := runs (before ++ (encoding ++ (tail ++ after))).toArray before rfl
  exact congrArg Prod.fst run

/-- The cut is an answer if nothing more was announced, and otherwise a failure. -/
theorem stops_of_cutOff {value : α} {fault : Fault} {more : Nat}
    (cut : ∀ after,
      CutOff more (step 49) (encoding ++ (tail ++ after)) value (tail ++ after) fault) :
    if more = 0 then StopsBefore step encoding tail value
    else FailsAt step encoding tail fault := by
  split
  · next none => exact stopsBefore_of_yields fun after => (cut after).whole none
  · next some => exact failsAt_of_fails fun after => (cut after).short some

end Readers

namespace CallForm

variable {method : MethodSig} {own arguments : List UInt8} (shape : CallForm method own arguments)
include shape

/-- The signature of a call is read as one of a method that ends at the mark. -/
theorem readMethod_stops (shallow : ∀ type ∈ method.types, type.nesting ≤ 49) :
    StopsBefore readMethod own arguments method :=
  stopsBefore_of_yields fun after => shape.yields_readMethodWith shallow after

/-- The pointer is the type of the last variable only if no other follows. -/
theorem readLocals_stops (shallow : (TypeSig.function method).nesting ≤ 49) {types : List TypeSig}
    {values count : List UInt8} {more : Nat} (number : UnsignedForm (types.length + more) count)
    (sequence : EndingForm (ModifiedForm (ShallowForm 49)) (ModifiedForm (PointerForm method own))
      types values) :
    if more = 0 then StopsBefore readLocals (0x07 :: (count ++ values)) arguments types
    else FailsAt readLocals (0x07 :: (count ++ values)) arguments
      (.malformed (.elementType 0x41)) := by
  have inverts := inverts_modified (inverts_readType 49) (shallowForm_led 49)
  refine stops_of_cutOff fun after => ?_
  rw [List.cons_append, List.append_assoc]
  apply (yields_word8 _ _).bind_cutOff
  apply (inverts_compressedUnsigned number _).bind_cutOff
  exact cutOff_readMany inverts (shape.yields_modified shallow after) sequence
    (shape.fails_modified 48 after) more

/-- Type arguments end at the mark if the last one was announced. -/
theorem readMethodSpec_stops (shallow : (TypeSig.function method).nesting ≤ 49)
    {types : List TypeSig} {values count : List UInt8} {more : Nat}
    (number : UnsignedForm (types.length + more) count)
    (sequence : EndingForm (ShallowForm 49) (PointerForm method own) types values) :
    if more = 0 then StopsBefore readMethodSpec (0x0A :: (count ++ values)) arguments types
    else FailsAt readMethodSpec (0x0A :: (count ++ values)) arguments
      (.malformed (.elementType 0x41)) := by
  refine stops_of_cutOff fun after => ?_
  rw [List.cons_append, List.append_assoc]
  apply (yields_word8 _ _).bind_cutOff
  apply (inverts_compressedUnsigned number _).bind_cutOff
  exact cutOff_readMany (inverts_readType 49) (shape.yields_readType shallow after) sequence
    (shape.fails_readType 48 after) more

/-- In an instantiated type the arguments of the type stand one level deeper. -/
theorem readTypeSpec_generic_stops (shallow : (TypeSig.function method).nesting ≤ 48)
    {base : TypeSig} {types : List TypeSig} {named values count : List UInt8} {more : Nat}
    (isNamed : base.isNamed = true) (start : TypeForm base named)
    (number : UnsignedForm (types.length + more) count)
    (sequence : EndingForm (ShallowForm 48) (PointerForm method own) types values) :
    if more = 0 then
      StopsBefore readTypeSpec (0x15 :: (named ++ (count ++ values))) arguments
        (.generic base types)
    else FailsAt readTypeSpec (0x15 :: (named ++ (count ++ values))) arguments
      (.malformed (.elementType 0x41)) := by
  have inverts := inverts_readType 48
  have shallowBase : base.nesting ≤ 48 := by
    rw [TypeSig.nesting_of_isNamed isNamed]
    decide
  have read (input : List UInt8) : (readType 48).Yields (named ++ (count ++ input)) base
      (count ++ input) := inverts ⟨start, shallowBase⟩ _
  refine stops_of_cutOff fun after => ?_
  simp only [List.cons_append, List.append_assoc]
  apply (yields_skipAllModifiers .nil ⟨0x15, _, rfl, rfl⟩).bind_cutOff
  apply (yields_word8 _ _).bind_cutOff
  apply cutOff_readGeneric (start.named_start isNamed) (read _) number
  exact cutOff_readMany inverts (shape.yields_readType shallow after) sequence
    (shape.fails_readType 47 after) more

/-- The bounds of an array of pointers are read from the mark on. -/
theorem runAt_array {levels : Nat} (shallow : (TypeSig.function method).nesting ≤ levels)
    {data : Bytes} {before after : List UInt8}
    (whole : data.toList = before ++ ([0x14] ++ (0x1B :: own ++ (arguments ++ after)))) :
    (readType (levels + 1)).runAt data before.length =
      (readBounds (.function method) 0x41).runAt data
        (before ++ [0x14] ++ 0x1B :: own ++ [0x41]).length := by
  obtain ⟨values, rfl⟩ := shape.arguments_start
  have lead : Read.word8.Yields ([0x14] ++ (0x1B :: own ++ (0x41 :: values ++ after))) 0x14 _ :=
    yields_word8 _ _
  have inner := shape.yields_readType shallow after (.mk : PointerForm method own _ _)
  have rank : Read.compressedUnsigned.Yields ([0x41] ++ (values ++ after)) 0x41 _ :=
    inverts_compressedUnsigned (.one (by decide)) _
  calc (readType (levels + 1)).runAt data before.length
    _ = (readArray (readType levels)).runAt data (before ++ [0x14]).length := lead.runAt_next whole
    _ = _ := by
      rw [readArray_eq]
      exact inner.runAt_next (by rw [whole, List.append_assoc])
    _ = _ := rank.runAt_next (by simp only [whole, List.append_assoc]; rfl)

/-- An array of such pointers takes the mark for its rank and the parameters of the call for its
sizes and lower bounds. -/
theorem readTypeSpec_array_stops (shallow : (TypeSig.function method).nesting ≤ 48)
    (before after : List UInt8) :
    let encoding := 0x14 :: 0x1B :: own
    let data := (before ++ (encoding ++ (arguments ++ after))).toArray
    Place.read ⟨before.length, 0⟩ readTypeSpec data =
      Place.read ⟨before.length + encoding.length + 1, 0⟩
        (fun _ => readBounds (.function method) 0x41) data := by
  intro encoding data
  have whole : data.toList = before ++ ([0x14] ++ (0x1B :: own ++ (arguments ++ after))) := rfl
  have none := yields_skipAllModifiers .nil
    ⟨0x14, 0x1B :: own ++ (arguments ++ after), rfl, rfl⟩
  have start : (readTypeSpec 49).runAt data before.length =
      (readType 49).runAt data (before ++ []).length := none.runAt_next whole
  rw [List.append_nil] at start
  have run := start.trans (shape.runAt_array shallow whole)
  have position : (before ++ [0x14] ++ 0x1B :: own ++ [0x41]).length =
      before.length + encoding.length + 1 := by
    simp only [encoding, List.length_append, List.length_cons, List.length_nil]
    omega
  rw [position] at run
  have levels : Place.levels ⟨before.length, 0⟩ = 49 := rfl
  simp only [Place.read, levels, run]

/-- A later parameter of the method around the pointer is lost. -/
theorem readMethod_param_stops (shallow : (TypeSig.function method).nesting ≤ 49)
    {outer : MethodSig} {head : List UInt8} {more : Nat}
    (around : HeadForm (ParameterForm (ShallowForm 49))
      (EndingForm (ParameterForm (ShallowForm 49)) (ParameterForm (PointerForm method own))) more
      outer head) :
    StopsBefore readMethod head arguments outer := by
  have inverts := inverts_readType 49
  have led := shallowForm_led 49
  obtain ⟨rest, start⟩ := shape.arguments_start
  refine stopsBefore_of_yields fun after => around.yields_readMethodWith
    (fun _ _ _ _ returned _ => inverts_readParameter inverts led returned _) fun _ _ passed => ?_
  have reads := shape.yields_readType shallow after
  rw [start] at reads ⊢
  exact yields_readParameters_ending inverts led reads (pointerForm_led method own) passed _

/-- So are all parameters after a result that is such a pointer. -/
theorem readMethod_result_stops (shallow : (TypeSig.function method).nesting ≤ 49)
    {outer : MethodSig} {head : List UInt8} {more : Nat}
    (around : HeadForm (ParameterForm (PointerForm method own))
      (fun params values => params = [] ∧ values = []) more outer head) :
    StopsBefore readMethod head arguments outer := by
  obtain ⟨rest, start⟩ := shape.arguments_start
  refine stopsBefore_of_yields fun after => around.yields_readMethodWith ?_ ?_
  · rintro _ _ _ _ returned ⟨rfl, rfl⟩
    exact yields_readParameter (shape.yields_readType shallow after) (pointerForm_led method own)
      returned
  · rintro _ _ ⟨rfl, rfl⟩
    rw [start]
    exact yields_readParameters_mark _

end CallForm

/-- The readers return a method at a call without the parameters of the call, as they should, but
stop before these. So a signature is cut off after a function pointer of this kind: as a local
variable or a type argument it must be the last one, or the mark after it is refused as a type;
the parameters that come after it are missing from the method around it; and an array of it has
the mark for its rank. -/
theorem readers_stop_before_call_arguments {method : MethodSig} {own arguments : List UInt8}
    (shape : CallForm method own arguments) :
    ((∀ type ∈ method.types, type.nesting ≤ 49) → StopsBefore readMethod own arguments method) ∧
    ((TypeSig.function method).nesting ≤ 49 →
      (∀ {types values count more}, UnsignedForm (types.length + more) count →
        EndingForm (ModifiedForm (ShallowForm 49)) (ModifiedForm (PointerForm method own))
          types values →
        if more = 0 then StopsBefore readLocals (0x07 :: (count ++ values)) arguments types
        else FailsAt readLocals (0x07 :: (count ++ values)) arguments
          (.malformed (.elementType 0x41))) ∧
      (∀ {types values count more}, UnsignedForm (types.length + more) count →
        EndingForm (ShallowForm 49) (PointerForm method own) types values →
        if more = 0 then StopsBefore readMethodSpec (0x0A :: (count ++ values)) arguments types
        else FailsAt readMethodSpec (0x0A :: (count ++ values)) arguments
          (.malformed (.elementType 0x41))) ∧
      (∀ {outer head more}, HeadForm (ParameterForm (ShallowForm 49))
          (EndingForm (ParameterForm (ShallowForm 49)) (ParameterForm (PointerForm method own)))
          more outer head → StopsBefore readMethod head arguments outer) ∧
      (∀ {outer head more}, HeadForm (ParameterForm (PointerForm method own))
          (fun params values => params = [] ∧ values = []) more outer head →
        StopsBefore readMethod head arguments outer)) ∧
    ((TypeSig.function method).nesting ≤ 48 →
      (∀ {base types named values count more}, base.isNamed = true → TypeForm base named →
        UnsignedForm (types.length + more) count →
        EndingForm (ShallowForm 48) (PointerForm method own) types values →
        if more = 0 then
          StopsBefore readTypeSpec (0x15 :: (named ++ (count ++ values))) arguments
            (.generic base types)
        else FailsAt readTypeSpec (0x15 :: (named ++ (count ++ values))) arguments
          (.malformed (.elementType 0x41))) ∧
      (∀ before after : List UInt8,
        let encoding := 0x14 :: 0x1B :: own
        let data := (before ++ (encoding ++ (arguments ++ after))).toArray
        Place.read ⟨before.length, 0⟩ readTypeSpec data =
          Place.read ⟨before.length + encoding.length + 1, 0⟩
            (fun _ => readBounds (.function method) 0x41) data)) :=
  ⟨shape.readMethod_stops,
    fun shallow => ⟨shape.readLocals_stops shallow, shape.readMethodSpec_stops shallow,
      shape.readMethod_param_stops shallow, shape.readMethod_result_stops shallow⟩,
    fun shallow => ⟨shape.readTypeSpec_generic_stops shallow,
      shape.readTypeSpec_array_stops shallow⟩⟩

/-- A method that takes a number, and a string at the call. -/
def callSample : MethodSig :=
  ⟨false, false, true, 0, ⟨false, .void⟩, [⟨false, .int32⟩]⟩

/-- The signature of the example, up to and behind the sentinel. -/
theorem callSample_form : CallForm callSample [0x05, 0x02, 0x01, 0x08] [0x41, 0x0E] := by
  have parameter {type : TypeSig} {lead : UInt8} (listed : simpleByte? type = some lead)
      (plain : type.isByRef = false) : ParameterForm TypeForm ⟨false, type⟩ ([] ++ [lead]) :=
    .value .nil (.simple listed) plain
  have head : HeadForm (ParameterForm TypeForm) (Sequence (ParameterForm TypeForm)) 1
      ⟨_, _, _, 0, ⟨false, .void⟩, [⟨false, .int32⟩]⟩
      (0x05 :: ([] ++ ([0x02] ++ ([0x01] ++ [0x08])))) :=
    .mk (.absent (by decide)) (.one (by decide)) (parameter rfl rfl)
      (.cons (parameter rfl rfl) .nil)
  exact @CallForm.mk _ _ [⟨false, .string⟩] _ rfl head (List.cons_ne_nil _ _)
    (.cons (parameter rfl rfl) .nil)

/-- As the first of two local variables a pointer to the method is refused with its mark. -/
theorem readers_stop_before_call_arguments_locals :
    StopsBefore readMethod [0x05, 0x02, 0x01, 0x08] [0x41, 0x0E] callSample ∧
      FailsAt readLocals [0x07, 0x02, 0x1B, 0x05, 0x02, 0x01, 0x08] [0x41, 0x0E]
        (.malformed (.elementType 0x41)) := by
  obtain ⟨method, around, -⟩ := readers_stop_before_call_arguments callSample_form
  have shallow : (TypeSig.function callSample).nesting ≤ 49 := by decide
  have first : EndingForm (ModifiedForm (ShallowForm 49))
      (ModifiedForm (PointerForm callSample [0x05, 0x02, 0x01, 0x08])) [.function callSample]
      ([] ++ ([] ++ 0x1B :: [0x05, 0x02, 0x01, 0x08])) :=
    @EndingForm.mk _ _ _ [] _ _ _ .nil (.mk .nil .mk)
  constructor
  · refine method fun type member => ?_
    exact Nat.le_of_lt (Nat.lt_of_lt_of_le (TypeSig.nesting_function member) shallow)
  · exact @(around shallow).1 _ _ [0x02] 1 (.one (by decide)) first

/-- The method does not end after the parameters of the call, and two local variables of which
the first is a pointer to it are not read. -/
theorem callSample_not_consumed :
    CallForm callSample [0x05, 0x02, 0x01, 0x08] [0x41, 0x0E] ∧
      Place.start.read readMethod #[0x05, 0x02, 0x01, 0x08, 0x41, 0x0E] ≠ (.ok callSample, ⟨6, 0⟩) ∧
      (Place.start.read readLocals
        #[0x07, 0x02, 0x1B, 0x05, 0x02, 0x01, 0x08, 0x41, 0x0E, 0x1C]).1 ≠
          .ok [.function callSample, .object] := by
  refine ⟨callSample_form, fun same => ?_, fun same => ?_⟩
  · have position : (Place.start.read readMethod
        #[0x05, 0x02, 0x01, 0x08, 0x41, 0x0E]).2.position ≠ 6 := by decide +kernel
    exact position (congrArg (·.2.position) same)
  · have failed : (Place.start.read readLocals
        #[0x07, 0x02, 0x1B, 0x05, 0x02, 0x01, 0x08, 0x41, 0x0E, 0x1C]).1.isOk = false := by
      decide +kernel
    rw [same] at failed
    cases failed

end ClrDecompiler.Signature
