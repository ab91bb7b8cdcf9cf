/-
This file shows that names are spelled from the signatures that they lead to and from no others.
-/

import ClrDecompiler.Proofs.Module.NameEnd

namespace ClrDecompiler.Module

open Metadata Signature

variable (module : Module)

/-- The module with other signatures in the place of its own. -/
def withTypeSpecs (typeSpecs : Array TypeSig) : Module :=
  { module with typeSpecs }

/-- The tokens whose names come to an end stand for the same signatures as before. -/
def KeepsEnding (typeSpecs : Array TypeSig) : Prop :=
  ∀ token, module.NameEnds token →
    (module.withTypeSpecs typeSpecs).typeSpec? token = module.typeSpec? token

/-! Names of declared types and of references. -/

variable {module} {typeSpecs : Array TypeSig} {style : NameStyle} {names : GenericNames}

/-- Signatures say nothing about how types are nested. -/
theorem enclosingChain_withTypeSpecs (bound : Nat) (definition : TypeDefinition) :
    (module.withTypeSpecs typeSpecs).enclosingChain bound definition =
      module.enclosingChain bound definition := by
  induction bound generalizing definition with
  | zero => rfl
  | succ bound ih =>
    rw [enclosingChain, enclosingChain,
      show (module.withTypeSpecs typeSpecs).enclosing? definition = module.enclosing? definition
        from rfl]
    simp only [ih]

/-- Declared types are named without signatures. -/
theorem declaredName_withTypeSpecs (definition : TypeDefinition) :
    (module.withTypeSpecs typeSpecs).declaredName style definition =
      module.declaredName style definition := by
  rw [declaredName, declaredName, enclosingChain_withTypeSpecs]

/-- So are types of other assemblies. -/
theorem referenceNameWithin_withTypeSpecs (bound : Nat) (reference : TypeReference) :
    (module.withTypeSpecs typeSpecs).referenceNameWithin style bound reference =
      module.referenceNameWithin style bound reference := by
  induction bound generalizing reference with
  | zero => rfl
  | succ bound ih =>
    rw [referenceNameWithin, referenceNameWithin,
      show (module.withTypeSpecs typeSpecs).outerReference? reference =
        module.outerReference? reference from rfl]
    simp only [ih]
    rfl

/-- Tokens that stand for no signature are spelled without any. -/
theorem tokenName_withTypeSpecs_of_plain {token : Token} (plain : module.typeSpec? token = none)
    (kept : (module.withTypeSpecs typeSpecs).typeSpec? token = none) :
    (module.withTypeSpecs typeSpecs).tokenName style names token =
      module.tokenName style names token := by
  rw [tokenName, tokenName, tokenName?, tokenName?, tokenNameWithin, tokenNameWithin, plain, kept,
    show (module.withTypeSpecs typeSpecs).type? token = module.type? token from rfl,
    show (module.withTypeSpecs typeSpecs).typeRef? token = module.typeRef? token from rfl]
  simp only [declaredName_withTypeSpecs, referenceName, referenceNameWithin_withTypeSpecs]
  cases module.type? token <;> cases module.typeRef? token <;> rfl

/-! Names of signatures. -/

/-- Names that come to an end still do so with other signatures. -/
theorem NameEnds.withTypeSpecs (kept : module.KeepsEnding typeSpecs) {token : Token}
    (ends : module.NameEnds token) : (module.withTypeSpecs typeSpecs).NameEnds token := by
  induction ends with
  | intro token below ih =>
    refine .intro token fun inner step => ih inner ?_
    obtain ⟨type, found, member⟩ := step
    exact ⟨type, kept token (.intro token below) ▸ found, member⟩

/-- They are spelled in the same way. -/
theorem tokenName_withTypeSpecs (kept : module.KeepsEnding typeSpecs) {token : Token}
    (ends : module.NameEnds token) :
    (module.withTypeSpecs typeSpecs).tokenName style names token =
      module.tokenName style names token := by
  induction ends with
  | intro token below ih =>
    have ends : module.NameEnds token := .intro token below
    cases specified : module.typeSpec? token with
    | none => exact tokenName_withTypeSpecs_of_plain specified ((kept token ends).trans specified)
    | some type =>
      rw [tokenName_eq_typeName ((kept token ends).trans specified) (ends.withTypeSpecs kept),
        tokenName_eq_typeName specified ends]
      exact type_congr type fun inner member => ih inner ⟨type, specified, member⟩

/-- So are types all of whose names come to an end. -/
theorem typeName_withTypeSpecs (kept : module.KeepsEnding typeSpecs) {type : TypeSig}
    (ends : ∀ token ∈ type.tokens, module.NameEnds token) :
    (module.withTypeSpecs typeSpecs).typeName style names type =
      module.typeName style names type :=
  type_congr type fun token member => tokenName_withTypeSpecs kept (ends token member)

/-- So are parameters. -/
theorem parameter_withTypeSpecs (kept : module.KeepsEnding typeSpecs)
    {parameter : Parameter TypeSig}
    (ends : ∀ token ∈ parameter.type.tokens, module.NameEnds token) :
    ((module.withTypeSpecs typeSpecs).speller style names).parameter parameter =
      (module.speller style names).parameter parameter :=
  congrArg (Speller.reference (module.speller style names) parameter.byRef)
    (typeName_withTypeSpecs kept ends)

/-- A signature whose name does not come to an end can be exchanged for any other. -/
theorem keepsEnding_setIfInBounds {row : Nat}
    (endless : ¬ module.NameEnds (Token.ofRow .typeSpec (row + 1))) (type : TypeSig) :
    module.KeepsEnding (module.typeSpecs.setIfInBounds row type) := by
  intro token ends
  show listed? .typeSpec (module.typeSpecs.setIfInBounds row type) token =
    listed? .typeSpec module.typeSpecs token
  rw [listed?, listed?]
  split
  case isTrue named =>
    rw [Bool.and_eq_true, Bool.not_eq_true'] at named
    have filled := Token.row_ne_zero named.2
    refine Array.getElem?_setIfInBounds_ne fun same => endless ?_
    rw [show row + 1 = token.row.toNat by omega, ← (Token.eq_ofRow named.1).1]
    exact ends
  case isFalse => rfl

/-- The tokens of parameters are those of each of them. -/
theorem tokensOfParameters_eq (params : List (Parameter TypeSig)) :
    tokensOfParameters params = params.flatMap (·.type.tokens) := by
  induction params with
  | nil => rfl
  | cons first rest ih => rw [tokensOfParameters, ih, List.flatMap_cons]

/-- What holds of the tokens of all parameters of a method holds of those of each of them. -/
theorem forall_mem_paramTokens {signature : MethodSig} {p : Token → Prop} :
    (∀ token ∈ signature.paramTokens, p token) ↔
      ∀ param ∈ signature.params, ∀ token ∈ param.type.tokens, p token := by
  rw [MethodShape.paramTokens, tokensOfParameters_eq, List.forall_mem_flatMap]

end ClrDecompiler.Module
