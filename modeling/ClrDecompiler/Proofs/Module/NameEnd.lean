/-
This file says which spellings of tokens come to an end. Signatures can name other signatures, and
a spelling that comes back to a signature on its way goes on for ever.
-/

import ClrDecompiler.Module.Names
import ClrDecompiler.Proofs.Metadata.Token
import Mathlib.Data.List.Nodup
import Mathlib.Logic.Relation

namespace ClrDecompiler.Module

open Metadata Signature

/-! Spellings of several tokens. -/

section Together

variable {spell : Token → Option String} {tokens : List Token}

theorem spellAll_cons (first : Token) (rest : List Token) : spellAll spell (first :: rest) =
    (spell first).bind fun text => (spellAll spell rest).map ((first, text) :: ·) := by
  rw [spellAll, List.mapM_cons]
  cases spell first with
  | none => rfl
  | some text =>
    rw [spellAll]
    cases rest.mapM fun token => return (token, ← spell token) <;> rfl

/-- All tokens are spelled exactly if each of them is. -/
theorem isSome_spellAll_iff :
    (spellAll spell tokens).isSome = true ↔ ∀ token ∈ tokens, (spell token).isSome = true := by
  induction tokens with
  | nil => exact iff_of_true rfl (List.forall_mem_nil _)
  | cons first rest ih =>
    rw [spellAll_cons, List.forall_mem_cons, ← ih]
    cases spell first <;> simp

/-- A speller that knows more spells the same tokens in the same way. -/
theorem spellAll_mono {other : Token → Option String}
    (kept : ∀ token text, spell token = some text → other token = some text)
    {spelled : List (Token × String)} (run : spellAll spell tokens = some spelled) :
    spellAll other tokens = some spelled := by
  induction tokens generalizing spelled with
  | nil => exact run
  | cons first rest ih =>
    rw [spellAll_cons] at run
    obtain ⟨own, named, run⟩ := Option.bind_eq_some_iff.mp run
    obtain ⟨others, later, rfl⟩ := Option.map_eq_some_iff.mp run
    rw [spellAll_cons, kept first own named, ih later]
    rfl

/-- What is looked up among the spellings is the spelling of its token. -/
theorem spell_of_lookup {spelled : List (Token × String)}
    (run : spellAll spell tokens = some spelled) {token : Token} {text : String}
    (found : spelled.lookup token = some text) : spell token = some text := by
  induction tokens generalizing spelled with
  | nil =>
    cases run
    cases found
  | cons first rest ih =>
    rw [spellAll_cons] at run
    obtain ⟨own, named, run⟩ := Option.bind_eq_some_iff.mp run
    obtain ⟨others, later, rfl⟩ := Option.map_eq_some_iff.mp run
    rw [List.lookup_cons] at found
    split at found
    case h_1 same => rw [eq_of_beq same, named, found]
    case h_2 => exact ih later found

/-- The text of a token is the one that it was spelled with. -/
theorem lookup_spellAll {spelled : List (Token × String)}
    (run : spellAll spell tokens = some spelled) {token : Token} (member : token ∈ tokens) :
    spelled.lookup token = spell token := by
  induction tokens generalizing spelled with
  | nil => cases member
  | cons first rest ih =>
    rw [spellAll_cons] at run
    obtain ⟨own, named, run⟩ := Option.bind_eq_some_iff.mp run
    obtain ⟨others, later, rfl⟩ := Option.map_eq_some_iff.mp run
    rw [List.lookup_cons]
    split
    case h_1 same => rw [eq_of_beq same, named]
    case h_2 other =>
      refine ih later ((List.mem_cons.mp member).resolve_left ?_)
      rintro rfl
      rw [beq_self_eq_true] at other
      cases other

end Together

/-! A type is spelled from the spellings of its tokens. -/

section Congruence

variable {style : NameStyle} {names : GenericNames} {first second : Token → String}

theorem namedType_congr (kind : String) {token : Token} (same : first token = second token) :
    Speller.namedType ⟨style, names, first⟩ kind token =
      Speller.namedType ⟨style, names, second⟩ kind token := by
  simp only [Speller.namedType, same]

mutual

/-- A type is spelled with the texts of its own tokens only. -/
theorem type_congr : ∀ type : TypeSig, (∀ token ∈ type.tokens, first token = second token) →
    Speller.type ⟨style, names, first⟩ type = Speller.type ⟨style, names, second⟩ type
  | .unknown, _ | .void, _ | .boolean, _ | .char, _ | .int8, _ | .uint8, _ | .int16, _
  | .uint16, _ | .int32, _ | .uint32, _ | .int64, _ | .uint64, _ | .float32, _ | .float64, _
  | .string, _ | .typedByRef, _ | .nativeInt, _ | .nativeUint, _ | .object, _ | .typeParam _, _
  | .methodParam _, _ => rfl
  | .valueType token, same => namedType_congr _ (same token (List.mem_singleton_self token))
  | .classType token, same => namedType_congr _ (same token (List.mem_singleton_self token))
  | .pointer element, same | .vector element, same | .array element _, same => by
    rw [Speller.type, Speller.type, type_congr element same]
  | .byRef element, same | .pinned element, same => by
    rw [Speller.type, Speller.type, type_congr element same]
    rfl
  | .generic base arguments, same => by
    obtain ⟨ofBase, ofArguments⟩ := List.forall_mem_append.mp same
    rw [Speller.type, Speller.type, type_congr base ofBase, types_congr arguments ofArguments]
    rfl
  | .function ⟨_, _, _, _, ⟨_, returns⟩, params⟩, same => by
    obtain ⟨ofResult, ofParams⟩ := List.forall_mem_append.mp same
    rw [Speller.type, Speller.type, type_congr returns ofResult, parameters_congr params ofParams]
    rfl

/-- So are several types. -/
theorem types_congr : ∀ types : List TypeSig,
    (∀ token ∈ tokensOf types, first token = second token) →
    Speller.types ⟨style, names, first⟩ types = Speller.types ⟨style, names, second⟩ types
  | [], _ => rfl
  | head :: rest, same => by
    obtain ⟨ofHead, ofRest⟩ := List.forall_mem_append.mp same
    rw [Speller.types, Speller.types, type_congr head ofHead, types_congr rest ofRest]

/-- So are parameters. -/
theorem parameters_congr : ∀ params : List (Parameter TypeSig),
    (∀ token ∈ tokensOfParameters params, first token = second token) →
    Speller.parameters ⟨style, names, first⟩ params =
      Speller.parameters ⟨style, names, second⟩ params
  | [], _ => rfl
  | ⟨_, head⟩ :: rest, same => by
    obtain ⟨ofHead, ofRest⟩ := List.forall_mem_append.mp same
    rw [Speller.parameters, Speller.parameters, type_congr head ofHead,
      parameters_congr rest ofRest]
    rfl

end

end Congruence

/-! Spellings that come to an end. -/

variable (module : Module)

/-- The first token is spelled on the way to the spelling of the second. -/
def IsSpelledIn (inner outer : Token) : Prop :=
  ∃ type, module.typeSpec? outer = some type ∧ inner ∈ type.tokens

/-- No chain of tokens that are spelled in one another goes on for ever from the token. -/
def NameEnds (token : Token) : Prop :=
  Acc module.IsSpelledIn token

/-- All chains of tokens that are spelled in one another are shorter than a bound. -/
def NameEndsWithin : Nat → Token → Prop
  | 0, _ => False
  | bound + 1, token => ∀ inner, module.IsSpelledIn inner token → NameEndsWithin bound inner

variable {module} {style : NameStyle} {names : GenericNames} {token : Token}

/-- A token stands for a signature if it points to a row of them. -/
theorem typeSpec?_eq_some_iff {type : TypeSig} : module.typeSpec? token = some type ↔
    token.pointsInto .typeSpec = true ∧ token.isNull = false ∧
      module.typeSpecs[token.row.toNat - 1]? = some type := by
  rw [typeSpec?, listed?]
  cases token.pointsInto .typeSpec <;> cases token.isNull <;> simp

/-- Tokens of signatures stand for nothing else. -/
theorem listed?_of_typeSpec? {α : Type} {table : TableId} (entries : Array α) {type : TypeSig}
    (specified : module.typeSpec? token = some type) (other : table.number ≠ 0x1B) :
    listed? table entries token = none := by
  have points : token.table.toNat = 0x1B := eq_of_beq (typeSpec?_eq_some_iff.mp specified).1
  have elsewhere : token.pointsInto table = false := by
    rw [Token.pointsInto, points]
    exact beq_false_of_ne other.symm
  rw [listed?, elsewhere]
  rfl

theorem tokenNameWithin_of_typeSpec? (bound : Nat) {type : TypeSig}
    (specified : module.typeSpec? token = some type) :
    module.tokenNameWithin style names (bound + 1) token =
      (spellAll (module.tokenNameWithin style names bound) type.tokens).map fun spelled =>
        Speller.type ⟨style, names, fun token => (spelled.lookup token).getD token.text⟩ type := by
  have undeclared : module.type? token = none := listed?_of_typeSpec? _ specified (by decide)
  have unreferenced : module.typeRef? token = none := listed?_of_typeSpec? _ specified (by decide)
  rw [tokenNameWithin, undeclared, unreferenced, specified]

/-- Tokens of declared types and of references are spelled under every bound alike. -/
theorem exists_tokenNameWithin (plain : module.typeSpec? token = none) :
    ∃ text, ∀ bound, module.tokenNameWithin style names (bound + 1) token = some text := by
  simp only [tokenNameWithin, plain]
  cases module.type? token with
  | some definition => exact ⟨_, fun _ => rfl⟩
  | none => cases module.typeRef? token <;> exact ⟨_, fun _ => rfl⟩

/-- Whether a bound is enough depends neither on the style nor on the names of parameters. -/
theorem isSome_tokenNameWithin_iff {bound : Nat} :
    (module.tokenNameWithin style names bound token).isSome = true ↔
      module.NameEndsWithin bound token := by
  induction bound generalizing token with
  | zero => exact iff_of_false Bool.false_ne_true id
  | succ bound ih =>
    cases specified : module.typeSpec? token with
    | none =>
      obtain ⟨text, same⟩ := exists_tokenNameWithin specified
      refine iff_of_true (Option.isSome_of_eq_some (same bound)) ?_
      rintro inner ⟨type, found, -⟩
      rw [specified] at found
      cases found
    | some type =>
      have only : (∀ inner, module.IsSpelledIn inner token → module.NameEndsWithin bound inner) ↔
          ∀ inner ∈ type.tokens, module.NameEndsWithin bound inner := by
        refine forall_congr' fun inner => ⟨fun ends member => ends ⟨type, specified, member⟩, ?_⟩
        rintro ends ⟨other, found, member⟩
        rw [specified] at found
        cases found
        exact ends member
      rw [tokenNameWithin_of_typeSpec? bound specified, Option.isSome_map, isSome_spellAll_iff,
        NameEndsWithin, only]
      exact forall₂_congr fun inner _ => ih

/-- A name that ends within some depth ends. -/
theorem NameEndsWithin.nameEnds {bound : Nat} (ends : module.NameEndsWithin bound token) :
    module.NameEnds token := by
  induction bound generalizing token with
  | zero => exact ends.elim
  | succ bound ih => exact .intro token fun inner step => ih (ends inner step)

/-- Different tokens of signatures have different rows. -/
theorem length_le_typeSpecs {path : List Token} (different : path.Nodup)
    (specified : ∀ outer ∈ path, (module.typeSpec? outer).isSome = true) :
    path.length ≤ module.typeSpecs.size := by
  have listed (outer : Token) (member : outer ∈ path) :
      outer = Token.ofRow .typeSpec outer.row.toNat ∧ outer.row.toNat ≠ 0 ∧
        outer.row.toNat - 1 < module.typeSpecs.size := by
    obtain ⟨type, found⟩ := Option.isSome_iff_exists.mp (specified outer member)
    obtain ⟨points, filled, row⟩ := typeSpec?_eq_some_iff.mp found
    obtain ⟨inside, -⟩ := Array.getElem?_eq_some_iff.mp row
    exact ⟨(Token.eq_ofRow points).1, Token.row_ne_zero filled, inside⟩
  have rows : (path.map fun outer => outer.row.toNat - 1).Nodup := by
    refine different.map_on fun first inFirst second inSecond same => ?_
    obtain ⟨firstRow, firstFilled, -⟩ := listed first inFirst
    obtain ⟨secondRow, secondFilled, -⟩ := listed second inSecond
    rw [firstRow, secondRow, show first.row.toNat = second.row.toNat by omega]
  have inside : (path.map fun outer => outer.row.toNat - 1) ⊆ List.range module.typeSpecs.size :=
    List.forall_mem_map.mpr fun outer member => List.mem_range.mpr (listed outer member).2.2
  have few := rows.length_le_of_subset inside
  rwa [List.length_map, List.length_range] at few

/-- A name that ends does not lead back to itself. -/
theorem NameEnds.not_cycle (ends : module.NameEnds token) :
    ¬ Relation.TransGen module.IsSpelledIn token token := by
  have below := Acc.transGen ends
  clear ends
  induction below with
  | intro token _ ih => exact fun cycle => ih token cycle cycle

/-- A chain goes through different signatures of the module, so it is no longer than their list. The
signatures on the way down to a token are kept, none of which can come back. -/
theorem NameEnds.within_of_path (ends : module.NameEnds token) {path : List Token}
    (different : path.Nodup) (specified : ∀ outer ∈ path, (module.typeSpec? outer).isSome = true)
    (leads : ∀ outer ∈ path, Relation.TransGen module.IsSpelledIn token outer) {bound : Nat}
    (enough : module.typeSpecs.size < path.length + bound) :
    module.NameEndsWithin bound token := by
  induction ends generalizing path bound with
  | intro token below ih =>
    have short := length_le_typeSpecs different specified
    obtain ⟨bound, rfl⟩ := Nat.exists_eq_succ_of_ne_zero (show bound ≠ 0 by omega)
    intro inner step
    have new : token ∉ path := fun member => not_cycle (.intro token below) (leads token member)
    obtain ⟨type, found, -⟩ := id step
    refine ih inner step (List.nodup_cons.mpr ⟨new, different⟩)
      (List.forall_mem_cons.mpr ⟨Option.isSome_of_eq_some found, specified⟩)
      (List.forall_mem_cons.mpr ⟨.single step, fun outer member => ?_⟩) ?_
    · exact .head step (leads outer member)
    · rw [List.length_cons]
      omega

/-- Spellings that come to an end do so within the bound that is set by the number of signatures. -/
theorem nameEnds_iff : module.nameEnds token = true ↔ module.NameEnds token := by
  rw [nameEnds, tokenName?, isSome_tokenNameWithin_iff]
  refine ⟨NameEndsWithin.nameEnds, fun ends => ?_⟩
  exact ends.within_of_path .nil (List.forall_mem_nil _) (List.forall_mem_nil _)
    (by rw [List.length_nil, Nat.zero_add]; exact Nat.lt_succ_self _)

/-- A token is spelled exactly if its name ends. -/
theorem isSome_tokenName?_iff :
    (module.tokenName? style names token).isSome = true ↔ module.NameEnds token := by
  rw [← nameEnds_iff, nameEnds, tokenName?, tokenName?, isSome_tokenNameWithin_iff,
    isSome_tokenNameWithin_iff]

/-- A token without a spelling would not have one under any other bound. -/
theorem tokenName?_eq_none_iff : module.tokenName? style names token = none ↔
    ∀ bound, module.tokenNameWithin style names bound token = none := by
  refine ⟨fun missing bound => ?_, fun missing => missing _⟩
  rw [← Option.not_isSome_iff_eq_none, isSome_tokenName?_iff] at missing
  rw [← Option.not_isSome_iff_eq_none, isSome_tokenNameWithin_iff]
  exact mt NameEndsWithin.nameEnds missing

/-- A text that is found does not change with a greater depth. -/
theorem tokenNameWithin_mono {bound : Nat} {text : String}
    (spelled : module.tokenNameWithin style names bound token = some text) :
    module.tokenNameWithin style names (bound + 1) token = some text := by
  induction bound generalizing token text with
  | zero => cases spelled
  | succ bound ih =>
    cases specified : module.typeSpec? token with
    | none =>
      obtain ⟨own, same⟩ := exists_tokenNameWithin specified
      rw [same, ← spelled, same]
    | some type =>
      rw [tokenNameWithin_of_typeSpec? _ specified] at spelled ⊢
      obtain ⟨inner, run, rfl⟩ := Option.map_eq_some_iff.mp spelled
      rw [spellAll_mono (fun _ _ => ih) run]
      rfl

/-- A token of a signature is spelled like the signature, without a bound, if the spelling comes to
an end. -/
theorem tokenName_eq_typeName {type : TypeSig} (specified : module.typeSpec? token = some type)
    (ends : module.NameEnds token) :
    module.tokenName style names token = module.typeName style names type := by
  obtain ⟨text, spelled⟩ : ∃ text, module.tokenName? style names token = some text :=
    Option.isSome_iff_exists.mp (isSome_tokenName?_iff.mpr ends)
  rw [tokenName, spelled, Option.getD_some]
  rw [tokenName?, tokenNameWithin_of_typeSpec? _ specified] at spelled
  obtain ⟨inner, run, rfl⟩ := Option.map_eq_some_iff.mp spelled
  refine type_congr type fun token member => ?_
  obtain ⟨own, named⟩ := Option.isSome_iff_exists.mp
    (isSome_spellAll_iff.mp (Option.isSome_of_eq_some run) token member)
  rw [lookup_spellAll run member, named, tokenName, tokenName?, tokenNameWithin_mono named]

/-! Names that have to come to an end. -/

/-- The check lets through exactly the tokens whose names end. -/
theorem checkNames_eq_ok_iff {tokens : List Token} :
    module.checkNames tokens = .ok () ↔ ∀ token ∈ tokens, module.NameEnds token := by
  simp only [checkNames, ← nameEnds_iff, ← List.all_eq_true]
  cases tokens.all module.nameEnds <;> simp

/-- It refuses the others for nothing else. -/
theorem checkNames_eq_error {tokens : List Token} {fault : Fault}
    (refused : module.checkNames tokens = .error fault) : fault = .endlessName := by
  rw [checkNames] at refused
  split at refused <;> cases refused
  rfl

end ClrDecompiler.Module
