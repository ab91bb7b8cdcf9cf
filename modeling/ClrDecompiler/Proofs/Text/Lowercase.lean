/-
This file describes lower-casing of texts that are put together from parts. Only the form of a
sigma depends on the text around it, and only up to the ends of its word.
-/

import ClrDecompiler.Proofs.Text.Pieces
import ClrDecompiler.Text.Lowercase
import Mathlib.Data.List.Infix

namespace ClrDecompiler.Text

/-- A character at which words end: it has no case and is not passed over. -/
structure IsBreak (c : Char) : Prop where
  uncased : isCased c = false
  counts : isCaseIgnorable c = false

theorem isBreak_slash : IsBreak '/' :=
  ⟨by decide +kernel, by decide +kernel⟩

theorem letterNext_cons (c : Char) (rest : List Char) :
    letterNext (c :: rest) = if isCaseIgnorable c then letterNext rest else isCased c := by
  rw [letterNext, letterNext, List.dropWhile_cons]
  by_cases passed : isCaseIgnorable c
  · rw [if_pos passed, if_pos passed]
  · rw [if_neg passed, if_neg passed]

/-- The letter behind a text is looked for up to a break. -/
theorem letterNext_append_break {c : Char} (ends : IsBreak c) (text more : List Char) :
    letterNext (text ++ c :: more) = letterNext text := by
  induction text with
  | nil =>
    rw [List.nil_append, letterNext_cons, ends.counts, ends.uncased]
    rfl
  | cons d rest ih => rw [List.cons_append, letterNext_cons, letterNext_cons, ih]

/-- The lower-case form of a character between other text. -/
def lowerForm (before : List Char) (c : Char) (after : List Char) : List Char :=
  if c == 'Σ' then [lowerSigma before after] else lowerChar c

theorem lowerAfter_cons (before : List Char) (c : Char) (rest : List Char) :
    lowerAfter before (c :: rest) = lowerForm before c rest ++ lowerAfter (c :: before) rest :=
  rfl

/-- Text before the end of a word does not matter behind it. -/
theorem lowerAfter_behind_break {c : Char} (ends : IsBreak c) (seen before text : List Char) :
    lowerAfter (seen ++ c :: before) text = lowerAfter seen text := by
  induction text generalizing seen with
  | nil => rfl
  | cons d rest ih =>
    rw [lowerAfter_cons, lowerAfter_cons, ← List.cons_append, ih (d :: seen), lowerForm, lowerForm,
      lowerSigma, lowerSigma, letterNext_append_break ends]

/-- A break splits a text into parts that are lowered by themselves. -/
theorem lowerAfter_append_break {c : Char} (ends : IsBreak c) (before first rest : List Char) :
    lowerAfter before (first ++ c :: rest) =
      lowerAfter before first ++ lowerForm (first.reverse ++ before) c rest ++
        lowerAfter [] rest := by
  induction first generalizing before with
  | nil =>
    have behind := lowerAfter_behind_break ends [] before rest
    rw [List.nil_append] at behind
    rw [List.nil_append, lowerAfter_cons, behind]
    rfl
  | cons d first ih =>
    have same : lowerForm before d (first ++ c :: rest) = lowerForm before d first := by
      rw [lowerForm, lowerForm, lowerSigma, lowerSigma, letterNext_append_break ends]
    rw [List.cons_append, lowerAfter_cons, lowerAfter_cons, ih, same, List.reverse_cons]
    simp only [List.append_assoc, List.singleton_append]

/-- The end of a text is lower-cased at the end, whatever stands before it. -/
theorem lowerAfter_suffix (before first rest : List Char) :
    lowerAfter (first.reverse ++ before) rest <:+ lowerAfter before (first ++ rest) := by
  induction first generalizing before with
  | nil => exact List.suffix_rfl
  | cons c first ih =>
    rw [List.cons_append, lowerAfter_cons, List.reverse_cons, List.append_assoc]
    exact (ih (c :: before)).trans (List.suffix_append _ _)

theorem length_lowerForm (before : List Char) (c : Char) (after : List Char) :
    (lowerForm before c after).length = (lowerChar c).length := by
  rw [lowerForm]
  split
  · next sigma =>
    have single : (lowerChar 'Σ').length = 1 := by decide +kernel
    rw [beq_iff_eq.mp sigma, single]
    rfl
  · rfl

/-- The context of a character does not change the length of its lower case. -/
theorem length_lowerAfter (before text : List Char) :
    (lowerAfter before text).length = (text.flatMap lowerChar).length := by
  induction text generalizing before with
  | nil => rfl
  | cons c rest ih =>
    rw [lowerAfter_cons, List.flatMap_cons, List.length_append, List.length_append, ih,
      length_lowerForm]

theorem length_lowerAfter_append (before first rest : List Char) :
    (lowerAfter before (first ++ rest)).length =
      (lowerAfter [] first).length + (lowerAfter [] rest).length := by
  simp only [length_lowerAfter, List.flatMap_append, List.length_append]

theorem toNat_charOfNat (code : Nat) :
    (Char.ofNat code).toNat = code ∨ (Char.ofNat code).toNat = 0 := by
  by_cases valid : code.isValidChar
  · rw [Char.ofNat, dif_pos valid]
    exact .inl rfl
  · rw [Char.ofNat, dif_neg valid]
    exact .inr rfl

/-- No capital letter has a form among the marks and digits of ASCII. -/
theorem lowerChar_of_mark {c form : Char} (member : form ∈ lowerChar c) (positive : 0 < form.toNat)
    (small : form.toNat < 0x41) : lowerChar c = [c] := by
  rw [lowerChar] at member ⊢
  split at member
  case isTrue ascii =>
    rw [if_pos ascii]
    have kept : ∀ code < 0x80, (Char.ofNat code).toLower.toNat < 0x41 →
        (Char.ofNat code).toLower = Char.ofNat code := by decide
    have same := kept c.toNat ascii
    rw [Char.ofNat_toNat] at same
    rw [List.mem_singleton.mp member] at small
    rw [same small]
  case isFalse wide =>
    rw [if_neg wide]
    split at member
    case isTrue dotted =>
      exfalso
      rcases List.mem_pair.mp member with rfl | rfl
      · exact absurd small (by decide)
      · exact absurd small (by decide)
    case isFalse plain =>
      rw [if_neg plain]
      cases found : lowerRuns.findSome? fun run => run.lower? c.toNat with
      | none => rfl
      | some lowered =>
        exfalso
        rw [found] at member
        cases List.mem_singleton.mp member
        obtain ⟨run, listed, maps⟩ := List.exists_of_findSome?_eq_some found
        have high : ∀ run ∈ lowerRuns, (0x41 : Int) ≤ run.first + run.shift := by
          decide +kernel
        have above := high run listed
        rw [LowerRun.lower?] at maps
        split at maps
        case isFalse => cases maps
        case isTrue inside =>
          cases maps
          rw [Option.getD_some] at positive small
          have reached := toNat_charOfNat (c.toNat + run.shift).toNat
          omega

theorem lowerChar_ne_nil (c : Char) : lowerChar c ≠ [] := by
  rw [lowerChar]
  split
  · exact List.cons_ne_nil _ _
  · split
    · exact List.cons_ne_nil _ _
    · exact List.cons_ne_nil _ _

/-- Only a mark has a mark for its lower case. -/
theorem lowerForm_of_mark {before after : List Char} {c form : Char}
    (member : form ∈ lowerForm before c after) (positive : 0 < form.toNat)
    (small : form.toNat < 0x41) : lowerForm before c after = [c] := by
  rw [lowerForm] at member ⊢
  split at member
  case isTrue =>
    exfalso
    rw [List.mem_singleton.mp member, lowerSigma] at small
    split at small
    · exact absurd small (by decide)
    · exact absurd small (by decide)
  case isFalse plain =>
    rw [if_neg plain]
    exact lowerChar_of_mark member positive small

/-- Marks and digits in a lower-case text stand there in the text itself. -/
theorem mem_of_mem_lowerAfter {before text : List Char} {form : Char}
    (member : form ∈ lowerAfter before text) (positive : 0 < form.toNat)
    (small : form.toNat < 0x41) : form ∈ text := by
  induction text generalizing before with
  | nil => exact absurd member List.not_mem_nil
  | cons c rest ih =>
    rw [lowerAfter_cons, List.mem_append] at member
    rcases member with head | tail
    · rw [lowerForm_of_mark head positive small] at head
      rw [List.mem_singleton.mp head]
      exact List.mem_cons_self
    · exact List.mem_cons_of_mem c (ih tail)

/-- A text whose lower-case form has only marks and digits has no letters. -/
theorem lowerAfter_eq_self {before text : List Char}
    (marks : ∀ form ∈ lowerAfter before text, 0 < form.toNat ∧ form.toNat < 0x41) :
    lowerAfter before text = text := by
  induction text generalizing before with
  | nil => rfl
  | cons c rest ih =>
    rw [lowerAfter_cons, List.forall_mem_append] at marks
    obtain ⟨form, others, same⟩ : ∃ form others, lowerForm before c rest = form :: others := by
      apply List.exists_cons_of_ne_nil
      intro empty
      have length := length_lowerForm before c rest
      rw [empty] at length
      exact lowerChar_ne_nil c (List.eq_nil_of_length_eq_zero length.symm)
    have first : form ∈ lowerForm before c rest := same ▸ List.mem_cons_self
    obtain ⟨positive, small⟩ := marks.1 form first
    rw [lowerAfter_cons, lowerForm_of_mark first positive small, ih marks.2]
    rfl

theorem lower_eq_iff_of_marks {text : String}
    (marks : ∀ c ∈ text.toList, 0 < c.toNat ∧ c.toNat < 0x41)
    (fixed : lower text = text) (name : String) : lower name = text ↔ name = text := by
  constructor
  · intro same
    have lowered : lowerAfter [] name.toList = text.toList := by
      rw [← same, lower, String.toList_ofList]
    rw [← lowered] at marks
    rw [← same, lower, lowerAfter_eq_self marks, String.ofList_toList]
  · rintro rfl
    exact fixed

/-- The names of a path are lowered one by one. -/
theorem lower_append_slash (first rest : List Char) :
    lowerAfter [] (first ++ '/' :: rest) =
      lowerAfter [] first ++ '/' :: lowerAfter [] rest := by
  rw [lowerAfter_append_break isBreak_slash, List.append_assoc]
  rfl

/-- Lower-casing keeps the separators of a path. -/
theorem split_lower (path : String) :
    split '/' (lower path) = (split '/' path).map lower := by
  have general (length : Nat) (text : List Char) (bounded : text.length ≤ length) :
      split '/' (lower (String.ofList text)) = (split '/' (String.ofList text)).map lower := by
    induction length generalizing text with
    | zero =>
      cases List.eq_nil_of_length_eq_zero (Nat.le_zero.mp bounded)
      rfl
    | succ length ih =>
      by_cases separated : '/' ∈ text
      · obtain ⟨first, rest, rfl, whole⟩ := List.eq_append_cons_of_mem separated
        have cut : String.ofList (first ++ '/' :: rest) =
            String.ofList first ++ String.singleton '/' ++ String.ofList rest := by
          apply String.toList_injective
          simp only [String.toList_ofList, String.toList_append, String.toList_singleton,
            List.append_assoc, List.singleton_append]
        have lowered : lower (String.ofList (first ++ '/' :: rest)) =
            lower (String.ofList first) ++ String.singleton '/' ++ lower (String.ofList rest) := by
          apply String.toList_injective
          simp only [lower, String.toList_ofList, String.toList_append, String.toList_singleton,
            List.append_assoc, List.singleton_append, lower_append_slash]
        rw [List.length_append, List.length_cons] at bounded
        rw [lowered, cut, split_append, split_append, List.map_append, ih first (by omega),
          ih rest (by omega)]
      · have absent : '/' ∉ (lower (String.ofList text)).toList := by
          rw [lower, String.toList_ofList, String.toList_ofList]
          exact fun member => separated (mem_of_mem_lowerAfter member (by decide) (by decide))
        rw [split_eq_singleton absent, split_eq_singleton (by rwa [String.toList_ofList])]
        rfl
  have whole := general path.toList.length path.toList (Nat.le_refl _)
  rwa [String.ofList_toList] at whole

end ClrDecompiler.Text
