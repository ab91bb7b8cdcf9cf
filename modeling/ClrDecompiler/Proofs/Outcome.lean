/-
This file takes computations that can fail apart: what a successful run says of its parts.
-/

import Mathlib.Data.List.Forall2

namespace ClrDecompiler.Outcome

variable {ε α β γ : Type}

/-- A result of two steps comes from a value of the first one. -/
theorem of_bind_eq_ok {first : Except ε α} {next : α → Except ε β} {result : β}
    (run : first >>= next = .ok result) :
    ∃ value, first = .ok value ∧ next value = .ok result := by
  cases first with
  | error fault => cases run
  | ok value => exact ⟨value, rfl, run⟩

theorem ok_of_any {result : Except ε α} {p : α → Bool} (holds : result.toOption.any p = true) :
    ∃ value, result = .ok value ∧ p value = true := by
  cases result with
  | error fault => cases holds
  | ok value => exact ⟨value, rfl, holds⟩

/-- A result behind a guard was not refused by it. -/
theorem of_guard_eq_ok {refuses : Prop} [Decidable refuses] {fault : ε}
    {rest : PUnit → Except ε α} {next : Except ε α} {result : α}
    (run : (if refuses then throw fault >>= rest else next) = .ok result) :
    ¬ refuses ∧ next = .ok result := by
  split at run
  · cases run
  · next accepts => exact ⟨accepts, run⟩

theorem of_map_eq_ok {first : Except ε α} {f : α → β} {result : β}
    (run : f <$> first = .ok result) : ∃ value, first = .ok value ∧ f value = result := by
  cases first with
  | error fault => cases run
  | ok value =>
    cases run
    exact ⟨value, rfl, rfl⟩

/-- Entries that stand for keys have the results that the keys determine. -/
theorem mapM_eq_ok_of_forall₂ {f : α → Except ε β} {standsFor : α → γ → Prop} {entries : List α}
    {keys : List γ} {results : List β} (related : List.Forall₂ standsFor entries keys)
    (each : List.Forall₂ (fun key result => ∀ entry, standsFor entry key → f entry = .ok result)
      keys results) : entries.mapM f = .ok results := by
  induction related generalizing results with
  | nil =>
    cases each
    rfl
  | cons head tail ih =>
    cases each with
    | cons first later =>
      rw [List.mapM_cons, first _ head, ih later]
      rfl

/-- Steps that succeed for every entry succeed for all of them. -/
theorem mapM_eq_ok_of_forall {f : α → Except ε β} {holds : α → β → Prop} {entries : List α}
    (each : ∀ entry ∈ entries, ∃ result, f entry = .ok result ∧ holds entry result) :
    ∃ results, entries.mapM f = .ok results ∧ List.Forall₂ holds entries results := by
  induction entries with
  | nil => exact ⟨[], rfl, .nil⟩
  | cons entry rest ih =>
    rw [List.forall_mem_cons] at each
    obtain ⟨⟨result, run, head⟩, others⟩ := each
    obtain ⟨results, runs, tail⟩ := ih others
    refine ⟨result :: results, ?_, .cons head tail⟩
    rw [List.mapM_cons, run, runs]
    rfl

theorem forall₂_of_mapM_eq_ok {f : α → Except ε β} {entries : List α} {results : List β}
    (run : entries.mapM f = .ok results) :
    List.Forall₂ (fun entry result => f entry = .ok result) entries results := by
  induction entries generalizing results with
  | nil =>
    cases run
    exact .nil
  | cons entry rest ih =>
    rw [List.mapM_cons] at run
    obtain ⟨first, head, run⟩ := of_bind_eq_ok run
    obtain ⟨others, tail, run⟩ := of_bind_eq_ok run
    cases run
    exact .cons head (ih tail)

/-- Every result of a run over a list comes from an entry. -/
theorem forall_of_mapM_eq_ok {f : α → Except ε β} {entries : List α} {results : List β}
    {holds : β → Prop} (each : ∀ entry result, f entry = .ok result → holds result)
    (run : entries.mapM f = .ok results) : ∀ result ∈ results, holds result := by
  induction entries generalizing results with
  | nil =>
    cases run
    exact fun _ member => absurd member List.not_mem_nil
  | cons entry rest ih =>
    rw [List.mapM_cons] at run
    obtain ⟨first, head, run⟩ := of_bind_eq_ok run
    obtain ⟨others, tail, run⟩ := of_bind_eq_ok run
    cases run
    rw [List.forall_mem_cons]
    exact ⟨each entry first head, ih tail⟩

/-- A run over a list that succeeds has a state after each entry. What every entry preserves
holds at the end. -/
theorem foldlM_induction {step : β → α → Except ε β} {motive : List α → β → Prop}
    (preserves : ∀ (done : List α) (state : β) (entry : α) (next : β), motive done state →
      step state entry = .ok next → motive (done ++ [entry]) next)
    {entries : List α} {state result : β} (start : motive [] state)
    (run : entries.foldlM step state = .ok result) : motive entries result := by
  have general (entries done : List α) (state : β) (held : motive done state)
      (run : entries.foldlM step state = .ok result) : motive (done ++ entries) result := by
    induction entries generalizing done state with
    | nil =>
      cases run
      rw [List.append_nil]
      exact held
    | cons entry rest ih =>
      rw [List.foldlM_cons] at run
      obtain ⟨next, stepped, later⟩ := of_bind_eq_ok run
      have reached := ih (done ++ [entry]) next (preserves done state entry next held stepped) later
      rw [List.append_assoc] at reached
      exact reached
  exact general entries [] state start run

end ClrDecompiler.Outcome
