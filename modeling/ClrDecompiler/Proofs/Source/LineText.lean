/-
This file finds the lines of source in its text, where the contents of the lines can have line ends
of their own.
-/

import ClrDecompiler.Proofs.Text.Pieces
import ClrDecompiler.Source.Line

namespace ClrDecompiler.Source

/-- The text of a line before its end. -/
def written (line : Line) : String :=
  if line.content.isEmpty then ""
  else String.ofList (List.replicate line.depth '\t' ++ line.content.toList)

theorem chars_eq_written (line : Line) : line.chars = (written line).toList ++ ['\n'] := by
  rw [Line.chars, written]
  split
  · rfl
  · rw [String.toList_ofList]

/-- The lines of the text are those of its lines one after the other, and nothing after the last
line end. -/
theorem split_text (lines : List Line) : Text.split '\n' (Line.text lines) =
    lines.flatMap (fun line => Text.split '\n' (written line)) ++ [""] := by
  induction lines with
  | nil => rfl
  | cons line rest ih =>
    have separate := Text.split_append '\n' (written line) (Line.text rest)
    rw [List.flatMap_cons, List.append_assoc, ← ih, ← separate]
    congr 1
    apply String.toList_inj.mp
    simp only [Line.text, List.flatMap_cons, chars_eq_written, String.toList_ofList,
      String.toList_append, String.toList_singleton]

/-- The line ends inside the contents of lines. -/
def innerEnds (lines : List Line) : Nat :=
  (lines.flatMap fun line => line.content.toList).count '\n'

/-- No ends are counted exactly if no line has one inside. -/
theorem innerEnds_eq_zero_iff (lines : List Line) :
    innerEnds lines = 0 ↔ ∀ line ∈ lines, '\n' ∉ line.content.toList := by
  simp only [innerEnds, List.count_eq_zero, List.mem_flatMap, not_exists, not_and]

/-- Indentation has no line ends. -/
theorem count_written (line : Line) :
    (written line).toList.count '\n' = line.content.toList.count '\n' := by
  rw [written]
  split
  · rename_i blank
    rw [String.isEmpty_iff.mp blank]
  · have tabs : (List.replicate line.depth '\t').count '\n' = 0 :=
      List.count_eq_zero.mpr fun member => absurd (List.eq_of_mem_replicate member) (by decide)
    rw [String.toList_ofList, List.count_append, tabs, Nat.zero_add]

/-- A line without inner line ends is whole in the text, after the lines before it and after the
line ends inside these. -/
theorem split_text_getElem? (before after : List Line) {line : Line}
    (single : '\n' ∉ line.content.toList) :
    (Text.split '\n' (Line.text (before ++ line :: after)))[before.length + innerEnds before]? =
      some (written line) := by
  have whole : '\n' ∉ (written line).toList := by
    rw [← List.count_eq_zero, count_written]
    exact List.count_eq_zero.mpr single
  have passed : (before.flatMap fun line => Text.split '\n' (written line)).length =
      before.length + innerEnds before := by
    induction before with
    | nil => rfl
    | cons first rest ih =>
      rw [List.flatMap_cons, List.length_append, ih, Text.length_split, count_written,
        List.length_cons, innerEnds, innerEnds, List.flatMap_cons, List.count_append]
      omega
  rw [split_text, List.flatMap_append, List.append_assoc, ← passed,
    List.getElem?_append_right (Nat.le_refl _), Nat.sub_self, List.flatMap_cons,
    Text.split_eq_singleton whole]
  rfl

end ClrDecompiler.Source
