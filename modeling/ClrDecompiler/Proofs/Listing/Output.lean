/-
This file says what becomes of the lines and of the fault when outputs are put together, and
reduces outputs to the lines that a predicate keeps.
-/

import ClrDecompiler.Listing.Module
import ClrDecompiler.Proofs.Module.NameEnd

namespace ClrDecompiler.Listing

open Metadata Source

namespace Output

variable {p : Line → Bool}

@[simp] theorem fault_ofLines (lines : List Line) : (ofLines lines).fault = none := rfl

@[simp] theorem lines_ofLines (lines : List Line) : (ofLines lines).lines = lines := rfl

@[simp] theorem fault_indent (output : Output) : output.indent.fault = output.fault := rfl

@[simp] theorem lines_indent (output : Output) :
    output.indent.lines = output.lines.map Line.indent := rfl

/-- Nothing is written after a fault. -/
theorem append_of_fault {first : Output} {fault : Fault} (failed : first.fault = some fault)
    (second : Output) : first ++ second = first := by
  show append first second = first
  simp only [append, failed]

/-- What follows an output without fault is written behind it. -/
theorem append_of_clean {first : Output} (clean : first.fault = none) (second : Output) :
    first ++ second = ⟨first.lines ++ second.lines, second.fault⟩ := by
  show append first second = _
  simp only [append, clean]

@[simp] theorem nil_append (output : Output) : ofLines [] ++ output = output := rfl

@[simp] theorem append_nil (output : Output) : output ++ ofLines [] = output := by
  cases failed : output.fault with
  | some fault => exact append_of_fault failed _
  | none => rw [append_of_clean failed, lines_ofLines, List.append_nil, fault_ofLines, ← failed]

/-- Two outputs are clean exactly if both of them are. -/
theorem fault_append_eq_none_iff (first second : Output) :
    (first ++ second).fault = none ↔ first.fault = none ∧ second.fault = none := by
  cases failed : first.fault with
  | some fault =>
    rw [append_of_fault failed, failed]
    simp
  | none =>
    rw [append_of_clean failed]
    simp

theorem concat_cons (first : Output) (rest : List Output) :
    concat (first :: rest) = first ++ concat rest := rfl

/-- Several outputs are clean exactly if all of them are. -/
theorem fault_concat_eq_none_iff (outputs : List Output) :
    (concat outputs).fault = none ↔ ∀ output ∈ outputs, output.fault = none := by
  induction outputs with
  | nil => simp [concat]
  | cons first rest ih =>
    rw [concat_cons, fault_append_eq_none_iff, ih, List.forall_mem_cons]

/-- The lines of clean outputs stand one after the other. -/
theorem lines_concat {outputs : List Output} (clean : ∀ output ∈ outputs, output.fault = none) :
    (concat outputs).lines = outputs.flatMap lines := by
  induction outputs with
  | nil => rfl
  | cons first rest ih =>
    obtain ⟨firstClean, restClean⟩ := List.forall_mem_cons.mp clean
    rw [concat_cons, append_of_clean firstClean, ih restClean, List.flatMap_cons]

theorem fault_separated_eq_none_iff : ∀ outputs : List Output,
    (separated outputs).fault = none ↔ ∀ output ∈ outputs, output.fault = none
  | [] => by simp [separated]
  | [_] => by simp [separated]
  | first :: second :: rest => by
    have ih := fault_separated_eq_none_iff (second :: rest)
    show (first ++ ofLines [Line.blank] ++ separated (second :: rest)).fault = none ↔ _
    rw [fault_append_eq_none_iff, fault_append_eq_none_iff, ih, fault_ofLines]
    simp only [List.forall_mem_cons, and_true]

theorem lines_append {first : Output} (clean : first.fault = none) (second : Output) :
    (first ++ second).lines = first.lines ++ second.lines := by
  rw [append_of_clean clean]

/-- What holds of the lines of both parts holds of those of the whole. -/
theorem forall_lines_append {holds : Line → Prop} {first second : Output}
    (before : ∀ line ∈ first.lines, holds line) (after : ∀ line ∈ second.lines, holds line) :
    ∀ line ∈ (first ++ second).lines, holds line := by
  cases failed : first.fault with
  | some fault => rwa [append_of_fault failed]
  | none =>
    rw [lines_append failed, List.forall_mem_append]
    exact ⟨before, after⟩

/-! Kinds of faults. -/

/-- If the output has a fault, it is of a kind. -/
def FaultIs (kind : Fault → Prop) (output : Output) : Prop :=
  ∀ fault, output.fault = some fault → kind fault

section Kinds

variable {kind : Fault → Prop}

theorem FaultIs.mono {other : Fault → Prop} {output : Output} (own : output.FaultIs kind)
    (weaker : ∀ fault, kind fault → other fault) : output.FaultIs other :=
  fun fault found => weaker fault (own fault found)

theorem faultIs_ofLines (lines : List Line) : (ofLines lines).FaultIs kind := nofun

theorem FaultIs.indent {output : Output} (own : output.FaultIs kind) :
    output.indent.FaultIs kind := own

/-- The fault of two outputs is that of one of them. -/
theorem FaultIs.append {first second : Output} (before : first.FaultIs kind)
    (after : second.FaultIs kind) : (first ++ second).FaultIs kind := by
  cases failed : first.fault with
  | some fault => rwa [append_of_fault failed]
  | none =>
    rw [append_of_clean failed]
    exact after

/-- The fault of several outputs is that of one of them. -/
theorem faultIs_concat {outputs : List Output} (each : ∀ output ∈ outputs, output.FaultIs kind) :
    (concat outputs).FaultIs kind := by
  induction outputs with
  | nil => exact faultIs_ofLines []
  | cons first rest ih =>
    obtain ⟨before, after⟩ := List.forall_mem_cons.mp each
    exact before.append (ih after)

theorem faultIs_separated : ∀ {outputs : List Output},
    (∀ output ∈ outputs, output.FaultIs kind) → (separated outputs).FaultIs kind
  | [], _ => faultIs_ofLines []
  | [_], each => each _ List.mem_cons_self
  | _ :: _ :: _, each => by
    obtain ⟨before, after⟩ := List.forall_mem_cons.mp each
    exact (before.append (faultIs_ofLines _)).append (faultIs_separated after)

end Kinds

/-- The output with only those lines that a predicate holds of. -/
def keep (p : Line → Bool) (output : Output) : Output :=
  { output with lines := output.lines.filter p }

@[simp] theorem fault_keep (output : Output) : (output.keep p).fault = output.fault := rfl

@[simp] theorem lines_keep (output : Output) : (output.keep p).lines = output.lines.filter p := rfl

@[simp] theorem keep_ofLines (lines : List Line) :
    (ofLines lines).keep p = ofLines (lines.filter p) := rfl

/-- Lines are left out of each part of an output. -/
@[simp] theorem keep_append (first second : Output) :
    (first ++ second).keep p = first.keep p ++ second.keep p := by
  cases failed : first.fault with
  | some fault => rw [append_of_fault failed, append_of_fault (by rw [fault_keep, failed])]
  | none =>
    rw [append_of_clean failed, append_of_clean (by rw [fault_keep, failed]), keep, lines_keep,
      lines_keep, fault_keep, List.filter_append]

theorem keep_concat (outputs : List Output) :
    (concat outputs).keep p = concat (outputs.map (keep p)) := by
  induction outputs with
  | nil => rfl
  | cons first rest ih => rw [concat_cons, keep_append, ih, List.map_cons, concat_cons]

/-- A predicate that does not look at the indentation keeps the same lines in an indented
output. -/
theorem keep_indent (blind : ∀ line, p line.indent = p line) (output : Output) :
    output.indent.keep p = (output.keep p).indent := by
  have same : p ∘ Line.indent = p := funext blind
  rw [keep, indent, keep, indent, List.filter_map, same]

/-- Blank lines that are kept still separate the outputs. -/
theorem keep_separated (kept : p Line.blank = true) : ∀ outputs : List Output,
    (separated outputs).keep p = separated (outputs.map (keep p))
  | [] => rfl
  | [_] => rfl
  | first :: second :: rest => by
    have blank : [Line.blank].filter p = [Line.blank] := List.filter_cons_of_pos kept
    show (first ++ ofLines [Line.blank] ++ separated (second :: rest)).keep p =
      first.keep p ++ ofLines [Line.blank] ++ separated ((second :: rest).map (keep p))
    rw [keep_append, keep_append, keep_ofLines, blank, keep_separated kept]

/-- Without the blank lines the outputs follow one another. -/
theorem keep_separated_of_dropped (dropped : p Line.blank = false) : ∀ outputs : List Output,
    (separated outputs).keep p = concat (outputs.map (keep p))
  | [] => rfl
  | [only] => (append_nil (only.keep p)).symm
  | first :: second :: rest => by
    have blank : [Line.blank].filter p = [] :=
      List.filter_cons_of_neg (Bool.eq_false_iff.mp dropped)
    show (first ++ ofLines [Line.blank] ++ separated (second :: rest)).keep p =
      first.keep p ++ concat ((second :: rest).map (keep p))
    rw [keep_append, keep_append, keep_ofLines, blank, append_nil,
      keep_separated_of_dropped dropped]

end Output

/-! Names. -/

section Names

variable {module : Module} {tokens : List Token}

theorem namesOutput_eq_nil (ends : ∀ token ∈ tokens, module.NameEnds token) :
    namesOutput module tokens = Output.ofLines [] := by
  rw [namesOutput, Module.checkNames_eq_ok_iff.mpr ends]
  rfl

/-- Names are let through exactly if they all come to an end. -/
theorem fault_namesOutput_eq_none_iff : (namesOutput module tokens).fault = none ↔
    ∀ token ∈ tokens, module.NameEnds token := by
  rw [← Module.checkNames_eq_ok_iff, namesOutput]
  cases module.checkNames tokens <;> simp [Output.ofCheck, Output.failed]

theorem lines_namesOutput : (namesOutput module tokens).lines = [] := by
  rw [namesOutput]
  cases module.checkNames tokens <;> rfl

theorem faultIs_namesOutput : (namesOutput module tokens).FaultIs (· = .endlessName) := by
  rw [namesOutput]
  cases refused : module.checkNames tokens with
  | ok _ => exact Output.faultIs_ofLines []
  | error fault =>
    rintro other ⟨⟩
    exact Module.checkNames_eq_error refused

@[simp] theorem keep_namesOutput {p : Line → Bool} :
    (namesOutput module tokens).keep p = namesOutput module tokens := by
  rw [namesOutput]
  cases module.checkNames tokens <;> rfl

end Names

end ClrDecompiler.Listing
