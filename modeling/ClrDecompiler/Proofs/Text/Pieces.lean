/-
This file relates the pieces of a text between separators to the texts that are put together
from them.
-/

import ClrDecompiler.Text.Pieces
import Mathlib.Data.List.Basic
import Mathlib.Data.List.TakeWhile

namespace ClrDecompiler.Text

theorem pieces_eq_splitOnP (isSeparator : Char → Bool) (text : List Char) :
    pieces isSeparator text = text.splitOnP isSeparator := by
  induction text with
  | nil => rfl
  | cons c rest ih =>
    rw [pieces, List.splitOnP_cons_eq_if_modifyHead, ih]
    cases same : rest.splitOnP isSeparator with
    | nil => exact absurd same (List.splitOnP_ne_nil isSeparator rest)
    | cons => rfl

theorem pieces_eq_singleton {isSeparator : Char → Bool} {text : List Char}
    (whole : ∀ c ∈ text, isSeparator c = false) : pieces isSeparator text = [text] := by
  rw [pieces_eq_splitOnP, List.splitOnP_eq_singleton whole]

theorem pieces_append_cons {isSeparator : Char → Bool} {separator : Char}
    (separates : isSeparator separator = true) (first rest : List Char) :
    pieces isSeparator (first ++ separator :: rest) =
      pieces isSeparator first ++ pieces isSeparator rest := by
  simp only [pieces_eq_splitOnP]
  exact List.splitOnP_append_cons first rest separates

/-- Characters that are no separators belong to the first piece. -/
theorem pieces_append_of_plain {isSeparator : Char → Bool} {first : List Char}
    (plain : ∀ c ∈ first, isSeparator c = false) (rest : List Char) :
    pieces isSeparator (first ++ rest) = (pieces isSeparator rest).modifyHead (first ++ ·) := by
  induction first with
  | nil =>
    show pieces isSeparator rest = (pieces isSeparator rest).modifyHead ([] ++ ·)
    cases pieces isSeparator rest <;> rfl
  | cons c first ih =>
    obtain ⟨ahead, others⟩ := List.forall_mem_cons.mp plain
    rw [List.cons_append, pieces, if_neg (Bool.eq_false_iff.mp ahead), ih others]
    cases same : pieces isSeparator rest with
    | nil =>
      rw [pieces_eq_splitOnP] at same
      exact absurd same (List.splitOnP_ne_nil isSeparator rest)
    | cons piece pieces => rfl

/-- A piece is a run of characters of the text without separators. -/
theorem forall_mem_pieces {isSeparator : Char → Bool} {text piece : List Char}
    (member : piece ∈ pieces isSeparator text) :
    ∀ c ∈ piece, c ∈ text ∧ isSeparator c = false := by
  induction text generalizing piece with
  | nil =>
    cases List.mem_singleton.mp member
    exact fun _ inside => absurd inside List.not_mem_nil
  | cons d rest ih =>
    have later {other : List Char} (member : other ∈ pieces isSeparator rest) :
        ∀ c ∈ other, c ∈ d :: rest ∧ isSeparator c = false := fun c inside =>
      ⟨List.mem_cons_of_mem d (ih member c inside).1, (ih member c inside).2⟩
    rw [pieces] at member
    split at member
    case isTrue =>
      rcases List.mem_cons.mp member with rfl | member
      · exact fun _ inside => absurd inside List.not_mem_nil
      · exact later member
    case isFalse inPiece =>
      have ahead : isSeparator d = false := Bool.eq_false_iff.mpr inPiece
      split at member
      case h_1 =>
        cases List.mem_singleton.mp member
        intro c inside
        cases List.mem_singleton.mp inside
        exact ⟨List.mem_cons_self, ahead⟩
      case h_2 first others same =>
        rw [same] at later
        rcases List.mem_cons.mp member with rfl | member
        · rw [List.forall_mem_cons]
          exact ⟨⟨List.mem_cons_self, ahead⟩, later List.mem_cons_self⟩
        · exact later (List.mem_cons_of_mem _ member)

theorem split_eq_singleton {separator : Char} {text : String}
    (whole : separator ∉ text.toList) : split separator text = [text] := by
  have apart : ∀ c ∈ text.toList, (c == separator) = false := fun c inside =>
    beq_eq_false_iff_ne.mpr fun same => whole (same ▸ inside)
  rw [split, pieces_eq_singleton apart, List.map_singleton, String.ofList_toList]

/-- A text is split where a separator joins two parts. -/
theorem split_append (separator : Char) (first rest : String) :
    split separator (first ++ String.singleton separator ++ rest) =
      split separator first ++ split separator rest := by
  have separated : pieces (· == separator) (first.toList ++ separator :: rest.toList) =
      pieces (· == separator) first.toList ++ pieces (· == separator) rest.toList :=
    pieces_append_cons (by rw [beq_self_eq_true]) first.toList rest.toList
  rw [split, String.toList_append, String.toList_append, String.toList_singleton,
    List.append_assoc, List.singleton_append,
    separated, List.map_append]
  rfl

/-- Parts without separators are the pieces of the text that has a separator between them. -/
theorem split_intercalate {separator : Char} {parts : List String} (present : parts ≠ [])
    (whole : ∀ part ∈ parts, separator ∉ part.toList) :
    split separator ((String.singleton separator).intercalate parts) = parts := by
  induction parts with
  | nil => exact absurd rfl present
  | cons part rest ih =>
    rw [List.forall_mem_cons] at whole
    cases rest with
    | nil => rw [String.intercalate_singleton, split_eq_singleton whole.1]
    | cons next others =>
      rw [String.intercalate_cons_cons, split_append, split_eq_singleton whole.1,
        ih (List.cons_ne_nil _ _) whole.2, List.singleton_append]

/-- There is one piece more than there are separators. -/
theorem length_split (separator : Char) (text : String) :
    (split separator text).length = text.toList.count separator + 1 := by
  rw [split, List.length_map]
  induction text.toList with
  | nil => rfl
  | cons c rest ih =>
    rw [pieces_eq_splitOnP] at ih ⊢
    rw [List.splitOnP_cons_eq_if_modifyHead, List.count_cons]
    split
    · rw [List.length_cons, ih]
    · rw [List.length_modifyHead, ih]

/-- The parts have no separator. -/
theorem not_mem_of_mem_split {separator : Char} {text name : String}
    (member : name ∈ split separator text) : separator ∉ name.toList := by
  obtain ⟨piece, inside, rfl⟩ := List.mem_map.mp member
  rw [String.toList_ofList]
  intro found
  have apart := (forall_mem_pieces inside separator found).2
  rw [beq_self_eq_true] at apart
  cases apart

theorem after?_append (start rest : List Char) : after? start (start ++ rest) = some rest := by
  induction start with
  | nil => rfl
  | cons c start ih => rw [List.cons_append, after?, if_pos rfl, ih]

/-! The last separator of a text. -/

theorem splitLast?_eq_none {p : Char → Bool} {text : List Char}
    (plain : ∀ c ∈ text, p c = false) : splitLast? p text = none := by
  have nothing : text.reverse.dropWhile (!p ·) = [] := by
    rw [List.dropWhile_eq_nil_iff]
    intro c member
    rw [plain c (List.mem_reverse.mp member)]
    rfl
  rw [splitLast?, nothing]

/-- A text is split at its last separator. -/
theorem splitLast?_append_cons {p : Char → Bool} {separator : Char}
    (separates : p separator = true) (before : List Char) {after : List Char}
    (plain : ∀ c ∈ after, p c = false) :
    splitLast? p (before ++ separator :: after) = some (before, after) := by
  have passed : ∀ c ∈ after.reverse, (!p c) = true := by
    intro c member
    rw [plain c (List.mem_reverse.mp member)]
    rfl
  have turned : (before ++ separator :: after).reverse =
      after.reverse ++ separator :: before.reverse := by
    simp
  rw [splitLast?, turned, List.dropWhile_append_of_pos passed, List.takeWhile_append_of_pos passed]
  simp [separates]

/-- A text has a last separator or none at all. -/
theorem exists_last_or_plain (p : Char → Bool) (text : List Char) :
    (∀ c ∈ text, p c = false) ∨ ∃ before separator after,
      text = before ++ separator :: after ∧ p separator = true ∧
        ∀ c ∈ after, p c = false := by
  induction text with
  | nil => exact .inl fun _ member => absurd member List.not_mem_nil
  | cons first rest ih =>
    rcases ih with plain | ⟨before, separator, after, rfl, separates, plain⟩
    · cases separates : p first with
      | true => exact .inr ⟨[], first, rest, rfl, separates, plain⟩
      | false => exact .inl (List.forall_mem_cons.mpr ⟨separates, plain⟩)
    · exact .inr ⟨first :: before, separator, after, rfl, separates, plain⟩

/-- A text is cut at its last mark, or it has no mark. -/
theorem splitLast?_cases (mark : Char) (text : List Char) :
    (mark ∉ text ∧ splitLast? (· == mark) text = none) ∨ ∃ before after,
      text = before ++ mark :: after ∧ mark ∉ after ∧
        splitLast? (· == mark) text = some (before, after) := by
  have apart {part : List Char} (plain : ∀ c ∈ part, (c == mark) = false) : mark ∉ part :=
    fun inside => absurd (plain mark inside) (by rw [beq_self_eq_true]; decide)
  rcases exists_last_or_plain (· == mark) text with
    plain | ⟨before, separator, after, rfl, separates, plain⟩
  · exact .inl ⟨apart plain, splitLast?_eq_none plain⟩
  · obtain rfl := beq_iff_eq.mp separates
    exact .inr ⟨before, after, rfl, apart plain,
      splitLast?_append_cons (p := (· == separator)) separates before plain⟩

end ClrDecompiler.Text
