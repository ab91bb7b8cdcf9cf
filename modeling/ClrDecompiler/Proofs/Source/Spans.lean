/-
This file says which places the spans of a document hold: each that of one declaration, with the
number of its line among the lines and the columns behind its tabs.
-/

import ClrDecompiler.Proofs.Source.LineText
import ClrDecompiler.Proofs.Source.Outline

namespace ClrDecompiler.Source

open Metadata ClrDecompiler.Module

/-- A line with a declaration, at the depth that the first column of a span says. -/
def Span.declaringLine (span : Span) (declaration : String) : Line :=
  ⟨span.startColumn - 1, declaration, some span.method⟩

/-- The span is the place of a declaration that stands behind some lines. -/
structure Span.Follows (span : Span) (before : List Line) (declaration : String) : Prop where
  line : span.line = before.length + 1
  start : 0 < span.startColumn
  stop : span.endColumn = span.startColumn + declaration.length

/-- One line of a text, counted from one, is tabs with a declaration after them, which stands
between the columns of the span and is not empty. -/
structure Span.Delimits (span : Span) (text declaration : String) : Prop where
  line : 0 < span.line
  whole : (Text.split '\n' text)[span.line - 1]? =
    some (String.ofList (List.replicate (span.startColumn - 1) '\t') ++ declaration)
  start : 0 < span.startColumn
  stop : span.endColumn = span.startColumn + declaration.length
  filled : span.startColumn < span.endColumn

/-- The place that is some lines further down. -/
def Span.shift (span : Span) (lines : Nat) : Span :=
  { span with line := span.line + lines }

/-- The declaration behind some lines is the line of the text that comes after these lines and after
the line ends inside them, unless it has line ends itself. -/
theorem Span.Follows.delimits_shift_iff {span : Span} {before : List Line} {declaration : String}
    (follows : span.Follows before declaration) (filled : declaration ≠ "") (after : List Line) :
    (span.shift (innerEnds before)).Delimits
        (Line.text (before ++ span.declaringLine declaration :: after)) declaration ↔
      '\n' ∉ declaration.toList := by
  constructor
  · intro delimits
    have single := Text.not_mem_of_mem_split (List.mem_of_getElem? delimits.whole)
    rw [String.toList_append, List.mem_append, not_or] at single
    exact single.2
  · intro single
    have whole : '\n' ∉ (span.declaringLine declaration).content.toList := single
    have found := split_text_getElem? before after whole
    have shown : written (span.declaringLine declaration) =
        String.ofList (List.replicate (span.startColumn - 1) '\t') ++ declaration := by
      show (if declaration.isEmpty then "" else _) = _
      rw [if_neg (by rwa [String.isEmpty_iff])]
      rw [String.ofList_append, String.ofList_toList]
      rfl
    have index : (span.shift (innerEnds before)).line - 1 = before.length + innerEnds before := by
      show span.line + _ - 1 = _
      rw [follows.line]
      omega
    refine ⟨?_, ?_, follows.start, follows.stop, ?_⟩
    · show 0 < span.line + _
      rw [follows.line]
      omega
    · rw [index, found, shown]
      rfl
    · show span.startColumn < span.endColumn
      have long : 0 < declaration.length := by
        rw [Nat.pos_iff_ne_zero, Ne, String.length_eq_zero_iff]
        exact filled
      rw [follows.stop]
      omega

/-- Every span follows the lines before the declaration that it belongs to. -/
theorem spansFrom_follow (before lines : List Line) :
    List.Forall₂ (fun span declaration =>
        span.method = declaration.1 ∧ ∃ earlier after,
          before ++ lines = earlier ++ span.declaringLine declaration.2 :: after ∧
            span.Follows earlier declaration.2)
      (Document.spansFrom (before.length + 1) lines) (Line.declarations lines) := by
  induction lines generalizing before with
  | nil => exact .nil
  | cons line rest ih =>
    have later := ih (before ++ [line])
    rw [List.length_append, List.append_assoc] at later
    obtain ⟨depth, content, method⟩ := line
    cases method with
    | none => exact later
    | some method =>
      exact .cons ⟨rfl, before, rest, rfl, rfl, Nat.succ_pos depth, rfl⟩ later

/-- The spans are those of the lines that declare methods, in order. -/
theorem spansFrom_methods (number : Nat) (lines : List Line) :
    (Document.spansFrom number lines).map (·.method) =
      (Line.declarations lines).map (·.1) := by
  induction lines generalizing number with
  | nil => rfl
  | cons line rest ih =>
    obtain ⟨depth, content, method⟩ := line
    cases method with
    | none => exact ih (number + 1)
    | some method => exact congrArg (method :: ·) (ih (number + 1))

/-- The spans go down in the text, from the number of the first line. -/
theorem spansFrom_increasing (number : Nat) (lines : List Line) :
    (∀ span ∈ Document.spansFrom number lines, number ≤ span.line) ∧
      (Document.spansFrom number lines).Pairwise fun first second => first.line < second.line := by
  induction lines generalizing number with
  | nil => exact ⟨List.forall_mem_nil _, .nil⟩
  | cons line rest ih =>
    obtain ⟨low, ordered⟩ := ih (number + 1)
    have weaken : ∀ span ∈ Document.spansFrom (number + 1) rest, number ≤ span.line :=
      fun span member => Nat.le_of_succ_le (low span member)
    obtain ⟨depth, content, method⟩ := line
    cases method with
    | none => exact ⟨weaken, ordered⟩
    | some method =>
      exact ⟨List.forall_mem_cons.mpr ⟨Nat.le_refl number, weaken⟩,
        List.pairwise_cons.mpr ⟨low, ordered⟩⟩

end ClrDecompiler.Source
