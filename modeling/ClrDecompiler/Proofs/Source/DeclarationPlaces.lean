/-
This file compares the places that the spans of a document hold with the lines of its text.
-/

import ClrDecompiler.Proofs.Source.SingleLine

namespace ClrDecompiler.Source

open Metadata ClrDecompiler.Module TypeTree

section Places

variable {module : Module} (language : Language) {types : List TypeDefinition}
  (acyclic : module.IsAcyclic) (declared : ∀ definition ∈ types, definition ∈ module.types)

include acyclic declared

/-- The spans of a document belong to the methods of its types, and each is behind the lines that
its own line number counts. -/
theorem spans_follow : ∃ entries : List (TypeDefinition × MethodDefinition),
    (∀ entry ∈ entries, entry.1 ∈ module.types ∧ entry.2 ∈ entry.1.methods) ∧
    List.Forall₂ (fun span entry =>
        let declaration := declarationText module entry.1 entry.2
        span.method = entry.2.token ∧ ∃ before after,
          sourceLines module language types =
            before ++ span.declaringLine declaration :: after ∧
          span.Follows before declaration ∧
          ((span.shift (innerEnds before)).Delimits (ofTypes module language types).text
            declaration ↔ '\n' ∉ declaration.toList))
      (ofTypes module language types).spans entries := by
  obtain ⟨forest, isForest⟩ := exists_isForest acyclic declared
  have places := spansFrom_follow [] (sourceLines module language types)
  rw [declarations_sourceLines language acyclic declared isForest,
    List.forall₂_map_right_iff] at places
  refine ⟨_, ?_, places.imp ?_⟩
  · simp only [List.forall_mem_flatMap]
    intro block member tree inside
    refine declared_of_mem (isForest.unfolds block member tree inside) (declared _ ?_)
    exact (isForest.isGrouping.kept _ (List.mem_map_of_mem member)).subset
      (List.mem_map_of_mem inside)
  · rintro span ⟨definition, method⟩ ⟨token, before, after, lines, follows⟩
    have text : (ofTypes module language types).text = Line.text (before ++
        span.declaringLine (declarationText module definition method) :: after) :=
      congrArg Line.text lines
    refine ⟨token, before, after, lines, follows, ?_⟩
    rw [text]
    exact follows.delimits_shift_iff (declarationText_ne_empty module definition method) after

/-- Every span of a document belongs to a method of its types and spans as many columns as the
declaration of that method has characters. Further down than its line, by as many lines as there are
line ends inside the lines before, the text has the declaration alone behind its tabs, unless the
declaration has line ends itself. So all spans are right if no name of the module has line ends. -/
theorem ofTypes_spans_delimit : ∃ entries : List (TypeDefinition × MethodDefinition),
    (∀ entry ∈ entries, entry.1 ∈ module.types ∧ entry.2 ∈ entry.1.methods) ∧
    List.Forall₂ (fun span entry =>
        let before := (sourceLines module language types).take (span.line - 1)
        let declaration := declarationText module entry.1 entry.2
        span.method = entry.2.token ∧ declaration ≠ "" ∧ span.Follows before declaration ∧
          ((span.shift (innerEnds before)).Delimits (ofTypes module language types).text
            declaration ↔ '\n' ∉ declaration.toList))
      (ofTypes module language types).spans entries ∧
    (module.HasSingleLineNames →
      List.Forall₂ (fun span entry => span.method = entry.2.token ∧
          span.Delimits (ofTypes module language types).text
            (declarationText module entry.1 entry.2))
        (ofTypes module language types).spans entries) := by
  obtain ⟨entries, owned, places⟩ := spans_follow language acyclic declared
  refine ⟨entries, owned, places.imp ?_, fun names => places.imp ?_⟩
  · rintro span ⟨definition, method⟩ ⟨token, before, after, lines, follows, delimits⟩
    have taken : (sourceLines module language types).take (span.line - 1) = before := by
      rw [lines, follows.line, Nat.add_sub_cancel, List.take_left]
    dsimp only
    rw [taken]
    exact ⟨token, declarationText_ne_empty module definition method, follows, delimits⟩
  · rintro span entry ⟨token, before, after, lines, follows, delimits⟩
    have single := areSingle_sourceLines names language declared
    rw [lines, AreSingle, List.forall_mem_append, List.forall_mem_cons] at single
    rw [(innerEnds_eq_zero_iff before).mpr single.1] at delimits
    exact ⟨token, delimits.mpr single.2.1⟩

end Places

/-- The names of these types have no line ends. -/
theorem ofTypes_spans_delimit_shapes :
    (ofTypes shapesModule .latest shapesModule.topLevelTypes).spans.length = 5 ∧
    ∃ entries : List (TypeDefinition × MethodDefinition),
      List.Forall₂ (fun span entry => span.method = entry.2.token ∧
          span.Delimits (ofTypes shapesModule .latest shapesModule.topLevelTypes).text
            (declarationText shapesModule entry.1 entry.2))
        (ofTypes shapesModule .latest shapesModule.topLevelTypes).spans entries := by
  have names : shapesModule.HasSingleLineNames := by decide +kernel
  obtain ⟨entries, -, -, delimit⟩ :=
    ofTypes_spans_delimit .latest isAcyclic_shapesModule fun _ => mem_of_topLevelTypes
  exact ⟨by decide +kernel, entries, delimit names⟩

/-- A class with a line end in its name. -/
def brokenModule : Module := { Module.ofNames [] with
  types := #[⟨⟨0x02000001⟩, 1, "", "A\nB", .classType, none, [], [], [], [bareMethod 1 "M"], none,
    []⟩] }

/-- The rest of the name is a line of the text that no span counts: where the span of the method
is, a brace stands. -/
theorem ofTypes_span_misses :
    let document := ofTypes brokenModule .latest brokenModule.topLevelTypes
    brokenModule.IsAcyclic ∧ document.spans = [⟨⟨0x06000001⟩, 6, 2, 25⟩] ∧
    (Text.split '\n' document.text)[5]? = some "\x7b" ∧
    ∀ span ∈ document.spans, ∀ definition ∈ brokenModule.types, ∀ method ∈ definition.methods,
      ¬ span.Delimits document.text (declarationText brokenModule definition method) := by
  intro document
  have spans : document.spans = [⟨⟨0x06000001⟩, 6, 2, 25⟩] := by decide +kernel
  have line : (Text.split '\n' document.text)[5]? = some "\x7b" := by decide +kernel
  refine ⟨isAcyclic_of_increasing (by decide +kernel), spans, line, ?_⟩
  rw [spans, List.forall_mem_singleton]
  intro definition _ method _ delimits
  have whole : "\x7b" = String.ofList ['\t'] ++ declarationText brokenModule definition method :=
    Option.some.inj (line.symm.trans delimits.whole)
  have first := congrArg (·.toList.head?) whole
  simp at first

end ClrDecompiler.Source
