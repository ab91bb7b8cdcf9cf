/-
This file defines runs whose accesses are made without asking: a slice, an index or a difference
that leaves its range stops the run, and so does a loop that goes on for too long. It compares
such runs with outcomes of readers that ask before each access.
-/

import ClrDecompiler.Bytes.Cursor
import ClrDecompiler.Proofs.Outcome
import Mathlib.Algebra.Group.Nat.Defs

namespace ClrDecompiler.Strict

variable {α β γ δ : Type}

/-- The ways in which a run ends without a result. Only a refusal is an answer to the data. -/
inductive Stop where
  | refused (fault : Fault)
  | outOfRange
  | endless
  deriving DecidableEq, Repr

abbrev Run := Except Stop

/-- Sizes and positions are numbers of 64 bits. -/
def wordLimit : Nat := 2 ^ 64

/-- A byte string that lies in memory is smaller than half of the numbers. -/
def IsAddressable (data : Bytes) : Prop :=
  data.size < 2 ^ 63

instance (data : Bytes) : Decidable (IsAddressable data) :=
  inferInstanceAs (Decidable (data.size < 2 ^ 63))

def sum (first second : Nat) : Run Nat :=
  if first + second < wordLimit then .ok (first + second) else .error .outOfRange

def difference (first second : Nat) : Run Nat :=
  if second ≤ first then .ok (first - second) else .error .outOfRange

def product (first second : Nat) : Run Nat :=
  if first * second < wordLimit then .ok (first * second) else .error .outOfRange

/-- A number that has outgrown its 64 bits is refused. -/
def checked (value : Nat) (fault : Fault) : Run Nat :=
  if value < wordLimit then .ok value else .error (.refused fault)

def slice (items : Array α) (start stop : Nat) : Run (Array α) :=
  if start ≤ stop ∧ stop ≤ items.size then .ok (items.extract start stop) else .error .outOfRange

/-- Everything from a position on. -/
def tail (items : Array α) (start : Nat) : Run (Array α) :=
  slice items start items.size

def item (items : Array α) (index : Nat) : Run α :=
  match items[index]? with
  | some value => .ok value
  | none => .error .outOfRange

def store (items : Array α) (index : Nat) (value : α) : Run (Array α) :=
  if index < items.size then .ok (items.setIfInBounds index value) else .error .outOfRange

/-- A copy into a place of a fixed size, which has to be that of the original. -/
def copy (count : Nat) (items : Array α) : Run (Array α) :=
  if items.size = count then .ok items else .error .outOfRange

/-- A refusal is taken for an answer. -/
def attempt : Run α → Run (Option α)
  | .ok value => .ok (some value)
  | .error (.refused _) => .ok none
  | .error stop => .error stop

section Accesses

variable {first second start stop index : Nat} {items : Array α}

/-- A sum that fits a word is the exact one. -/
theorem sum_eq_ok (fits : first + second < wordLimit) : sum first second = .ok (first + second) :=
  if_pos fits

theorem difference_eq_ok (le : second ≤ first) : difference first second = .ok (first - second) :=
  if_pos le

theorem product_eq_ok (fits : first * second < wordLimit) :
    product first second = .ok (first * second) :=
  if_pos fits

/-- A part whose bounds are in order and inside the items is cut out. -/
theorem slice_eq_ok (start_le : start ≤ stop) (stop_le : stop ≤ items.size) :
    slice items start stop = .ok (items.extract start stop) :=
  if_pos ⟨start_le, stop_le⟩

theorem tail_eq_ok (start_le : start ≤ items.size) :
    tail items start = .ok (items.extract start items.size) :=
  slice_eq_ok start_le (Nat.le_refl _)

/-- An index at which something is found does not leave the items. -/
theorem item_eq_ok {value : α} (found : items[index]? = some value) :
    item items index = .ok value := by
  rw [item, found]

theorem store_eq_ok (inside : index < items.size) (value : α) :
    store items index value = .ok (items.setIfInBounds index value) :=
  if_pos inside

theorem copy_eq_ok {count : Nat} (size : items.size = count) : copy count items = .ok items :=
  if_pos size

end Accesses

/-- A step that succeeds for every entry succeeds for all of them. -/
theorem mapM_eq_ok {f : α → Run β} {g : α → β} {entries : List α}
    (each : ∀ entry ∈ entries, f entry = .ok (g entry)) :
    entries.mapM f = .ok (entries.map g) := by
  induction entries with
  | nil => rfl
  | cons entry rest ih =>
    rw [List.forall_mem_cons] at each
    rw [List.mapM_cons, each.1, ih each.2]
    rfl

/-- The run and the outcome are refused for the same reason, or both have a result and the
results are related. The run has then stayed in range and come to its end. -/
inductive Agree (related : α → β → Prop) : Run α → Except Fault β → Prop where
  | ok {value : α} {other : β} (results : related value other) :
    Agree related (.ok value) (.ok other)
  | refused (fault : Fault) : Agree related (.error (.refused fault)) (.error fault)

/-- The run has the outcome. -/
abbrev Settles (run : Run α) (outcome : Except Fault α) : Prop :=
  Agree Eq run outcome

/-! Runs and outcomes agree if their parts do. -/

section Rules

variable {related : α → β → Prop} {relatedNext : γ → δ → Prop} {run : Run α}
  {outcome : Except Fault β} {next : α → Run γ} {nextOutcome : β → Except Fault δ}

/-- A strict run agrees step by step. -/
theorem Agree.bind (first : Agree related run outcome)
    (second : ∀ value other, outcome = .ok other → related value other →
      Agree relatedNext (next value) (nextOutcome other)) :
    Agree relatedNext (run >>= next) (outcome >>= nextOutcome) := by
  cases first with
  | ok results => exact second _ _ rfl results
  | refused fault => exact .refused fault

/-- A strict run that settles passes on the value that the other one has. -/
theorem Settles.bind {run : Run α} {outcome : Except Fault α} {next : α → Run γ}
    {nextOutcome : α → Except Fault δ} (first : Settles run outcome)
    (second : ∀ value, outcome = .ok value →
      Agree relatedNext (next value) (nextOutcome value)) :
    Agree relatedNext (run >>= next) (outcome >>= nextOutcome) := by
  refine Agree.bind first fun value other found same => ?_
  subst same
  exact second value found

/-- What is related more narrowly is related more widely. -/
theorem Agree.mono {wider : α → β → Prop} (agree : Agree related run outcome)
    (implies : ∀ value other, related value other → wider value other) :
    Agree wider run outcome := by
  cases agree with
  | ok results => exact .ok (implies _ _ results)
  | refused fault => exact .refused fault

/-- Only the outcome goes on to a further value. -/
theorem Agree.continued {relatedToo : α → δ → Prop} {f : β → δ} (agree : Agree related run outcome)
    (results : ∀ value other, related value other → relatedToo value (f other)) :
    Agree relatedToo run (do return f (← outcome)) := by
  cases agree with
  | ok related => exact .ok (results _ _ related)
  | refused fault => exact .refused fault

/-- An access that stays in range has no counterpart. -/
theorem Agree.access {run : Run α} {value : α} {next : α → Run γ} {outcome : Except Fault δ}
    (inside : run = .ok value) (rest : Agree relatedNext (next value) outcome) :
    Agree relatedNext (run >>= next) outcome := by
  subst inside
  exact rest

/-- A lookup that succeeds has no counterpart. -/
theorem Agree.known {run : Run γ} {outcome : Except Fault α} {value : α}
    {next : α → Except Fault δ} (found : outcome = .ok value)
    (rest : Agree relatedNext run (next value)) : Agree relatedNext run (outcome >>= next) := by
  subst found
  exact rest

/-- Both sides branch on the same condition. -/
theorem Agree.ite {condition conditionToo : Prop} [Decidable condition] [Decidable conditionToo]
    {run runElse : Run γ} {outcome outcomeElse : Except Fault δ} (same : condition ↔ conditionToo)
    (holds : conditionToo → Agree relatedNext run outcome)
    (fails : ¬ conditionToo → Agree relatedNext runElse outcomeElse) :
    Agree relatedNext (if condition then run else runElse)
      (if conditionToo then outcome else outcomeElse) := by
  by_cases known : conditionToo
  · rw [if_pos (same.mpr known), if_pos known]
    exact holds known
  · rw [if_neg (mt same.mp known), if_neg known]
    exact fails known

/-- Both sides refuse on the same condition, with the same fault. -/
theorem Agree.guard {refuses refusesToo : Prop} [Decidable refuses] [Decidable refusesToo]
    {fault : Fault} {run : Run γ} {outcome : Except Fault δ} {rest : PUnit → Run γ}
    {restOutcome : PUnit → Except Fault δ} (same : refuses ↔ refusesToo)
    (accepted : ¬ refusesToo → Agree relatedNext run outcome) :
    Agree relatedNext (if refuses then throw (.refused fault) >>= rest else run)
      (if refusesToo then throw fault >>= restOutcome else outcome) :=
  .ite same (fun _ => .refused fault) accepted

theorem Agree.value (value : α) : Settles (.ok value) (.ok value) :=
  .ok rfl

/-- A value of the model is that of the strict run. -/
theorem Settles.eq_ok {run : Run α} {outcome : Except Fault α} {value : α}
    (same : Settles run outcome) (found : outcome = .ok value) : run = .ok value := by
  subst found
  cases same with
  | ok results => rw [results]

/-- A fault of the model is the only way in which the strict run stops. -/
theorem Settles.eq_error {run : Run α} {outcome : Except Fault α} {fault : Fault}
    (same : Settles run outcome) (found : outcome = .error fault) :
    run = .error (.refused fault) := by
  subst found
  cases same
  rfl

/-- A value that both loaders give may be changed alike. -/
theorem Settles.map {run : Run α} {outcome : Except Fault α} (f : α → β)
    (same : Settles run outcome) : Settles (f <$> run) (f <$> outcome) := by
  cases same with
  | ok results => exact .ok (congrArg f results)
  | refused fault => exact .refused fault

/-- All entries settle if each of them does. -/
theorem Settles.mapM {f : α → Run β} {g : α → Except Fault β} {entries : List α}
    (each : ∀ entry ∈ entries, Settles (f entry) (g entry)) :
    Settles (entries.mapM f) (entries.mapM g) := by
  induction entries with
  | nil => exact .value []
  | cons entry rest ih =>
    rw [List.forall_mem_cons] at each
    rw [List.mapM_cons, List.mapM_cons]
    exact each.1.bind fun first _ => (ih each.2).bind fun others _ => .value (first :: others)

/-- What is taken for an answer has stayed in range. -/
theorem Settles.attempt {run : Run α} {outcome : Except Fault α} (same : Settles run outcome) :
    attempt run = .ok outcome.toOption := by
  cases same with
  | ok results => rw [results]; rfl
  | refused fault => rfl

/-- A number that is refused for its size is too large for the data anyway. -/
theorem Agree.checked {value limit : Nat} {fault : Fault} {next : Nat → Run γ}
    {nextOutcome : Except Fault δ} (fits : limit < wordLimit)
    (large : limit < value → nextOutcome = .error fault)
    (rest : Agree relatedNext (next value) nextOutcome) :
    Agree relatedNext (checked value fault >>= next) nextOutcome := by
  rw [Strict.checked]
  split
  · exact rest
  · rw [large (by omega)]
    exact .refused fault

end Rules

end ClrDecompiler.Strict
