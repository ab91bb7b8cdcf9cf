/-
This file shows that the source files of a project get paths that differ by more than case.
-/

import ClrDecompiler.Proofs.Project.SourcePath
import ClrDecompiler.Proofs.Text.Lowercase
import Mathlib.Data.List.Nodup
import Mathlib.Data.List.Perm.Subperm

namespace ClrDecompiler.Project

open Source Text

/-- Words end at digits, and digits have no case. -/
theorem lowerAfter_digit {digit : Char} (ends : IsBreak digit) (plain : lowerChar digit = [digit])
    (notSigma : digit ≠ 'Σ') (before first rest : List Char) :
    lowerAfter before (first ++ digit :: rest) =
      lowerAfter before first ++ digit :: lowerAfter [] rest := by
  have form : lowerForm (first.reverse ++ before) digit rest = [digit] := by
    rw [lowerForm, if_neg (mt beq_iff_eq.mp notSigma), plain]
  rw [lowerAfter_append_break ends, form, List.append_assoc, List.singleton_append]

theorem lowerAfter_ending (before : List Char) : lowerAfter before ".cs".toList = ".cs".toList :=
  rfl

/-- The number in a path stands in its lower-case form too. -/
theorem lower_candidatePath_succ (base : String) (attempt : Nat) :
    (lower (candidatePath base (attempt + 1))).toList =
      lowerAfter [] base.toList ++ (numberText (attempt + 1)).toList ++ ".cs".toList := by
  have plain : ∀ c ∈ (numberText (attempt + 1)).toList,
      IsBreak c ∧ lowerChar c = [c] ∧ c ≠ 'Σ' := by
    refine forall_mem_numberText (fun c => IsBreak c ∧ lowerChar c = [c] ∧ c ≠ 'Σ') ?_ (attempt + 1)
    have uncased : ∀ code < 10, isCased (Char.ofNat (48 + code)) = false := by decide +kernel
    have counts : ∀ code < 10, isCaseIgnorable (Char.ofNat (48 + code)) = false := by
      decide +kernel
    have kept : ∀ code < 10, lowerChar (Char.ofNat (48 + code)) = [Char.ofNat (48 + code)] := by
      decide
    have notSigma : ∀ code < 10, Char.ofNat (48 + code) ≠ 'Σ' := by decide
    exact fun code small => ⟨⟨uncased code small, counts code small⟩, kept code small,
      notSigma code small⟩
  have ending (digits : List Char) (plain : ∀ c ∈ digits, IsBreak c ∧ lowerChar c = [c] ∧ c ≠ 'Σ') :
      lowerAfter [] (digits ++ ".cs".toList) = digits ++ ".cs".toList := by
    induction digits with
    | nil => exact lowerAfter_ending []
    | cons digit rest ih =>
      rw [List.forall_mem_cons] at plain
      obtain ⟨⟨ends, kept, notSigma⟩, plain⟩ := plain
      exact (lowerAfter_digit ends kept notSigma [] [] (rest ++ ".cs".toList)).trans
        (congrArg (digit :: ·) (ih plain))
  rw [candidatePath_eq, lower, String.toList_ofList, String.toList_append, String.toList_append,
    List.append_assoc, List.append_assoc]
  cases number : (numberText (attempt + 1)).toList with
  | nil =>
    rw [numberText, Nat.toString_eq_repr, Nat.toList_repr] at number
    exact absurd number Nat.toDigits_ne_nil
  | cons digit rest =>
    rw [number, List.forall_mem_cons] at plain
    obtain ⟨⟨ends, kept, notSigma⟩, plain⟩ := plain
    rw [List.cons_append, lowerAfter_digit ends kept notSigma, ending rest plain]

theorem length_lower_candidatePath_zero (base : String) :
    (lower (candidatePath base 0)).toList.length = (lowerAfter [] base.toList).length + 3 := by
  rw [candidatePath, lower, String.toList_ofList, String.toList_append, length_lowerAfter_append]
  rfl

/-- The paths of different attempts differ by more than case. -/
theorem lower_candidatePath_injective (base : String) :
    Function.Injective fun attempt => lower (candidatePath base attempt) := by
  have numbered (attempt : Nat) :
      lower (candidatePath base 0) ≠ lower (candidatePath base (attempt + 1)) := by
    intro same
    have length := congrArg (fun path => path.toList.length) same
    rw [length_lower_candidatePath_zero, lower_candidatePath_succ, List.length_append,
      List.length_append, numberText, Nat.toString_eq_repr, Nat.toList_repr] at length
    have positive := List.length_pos_of_ne_nil (Nat.toDigits_ne_nil (n := attempt + 2) (b := 10))
    have three : ".cs".toList.length = 3 := rfl
    omega
  intro first second same
  cases first with
  | zero =>
    cases second with
    | zero => rfl
    | succ second => exact absurd same (numbered second)
  | succ first =>
    cases second with
    | zero => exact absurd same.symm (numbered first)
    | succ second =>
      have texts := congrArg String.toList same
      simp only [lower_candidatePath_succ] at texts
      have digits := List.append_cancel_left (List.append_cancel_right texts)
      rw [numberText, numberText, Nat.toString_eq_repr, Nat.toString_eq_repr, Nat.toList_repr,
        Nat.toList_repr] at digits
      have numbers := congrArg (Nat.ofDigitChars 10 · 0) digits
      simp only [Nat.ofDigitChars_toDigits (by decide : 1 < 10) (Nat.le_refl 10)] at numbers
      omega

/-- A search that tries every attempt up to a bound ends at an unused path or at the bound. -/
theorem freePath_spec (used : List String) (base : String) (bound attempt : Nat) :
    ∃ tries ≤ bound, freePath used base bound attempt = candidatePath base (attempt + tries) ∧
      (∀ earlier < tries, lower (candidatePath base (attempt + earlier)) ∈ used) ∧
      (tries < bound → lower (candidatePath base (attempt + tries)) ∉ used) := by
  induction bound generalizing attempt with
  | zero =>
    exact ⟨0, Nat.le_refl 0, rfl, fun _ before => absurd before (Nat.not_lt_zero _),
      fun before => absurd before (Nat.not_lt_zero _)⟩
  | succ bound ih =>
    rw [freePath]
    split
    case isTrue taken =>
      obtain ⟨tries, few, path, passed, free⟩ := ih (attempt + 1)
      rw [Nat.add_right_comm, Nat.add_assoc] at path free
      refine ⟨tries + 1, Nat.succ_le_succ few, path, ?_, fun before => free (by omega)⟩
      intro earlier before
      cases earlier with
      | zero => exact List.contains_iff_mem.mp taken
      | succ earlier =>
        have used := passed earlier (by omega)
        rw [Nat.add_right_comm, Nat.add_assoc] at used
        exact used
    case isFalse free =>
      exact ⟨0, Nat.zero_le _, rfl, fun _ before => absurd before (Nat.not_lt_zero _),
        fun _ => mt List.contains_iff_mem.mpr free⟩

/-- As many attempts as there are used paths are enough: the path is the first that is free. -/
theorem freePath_first (used : List String) (base : String) :
    ∃ attempt ≤ used.length, freePath used base used.length 0 = candidatePath base attempt ∧
      (∀ earlier < attempt, lower (candidatePath base earlier) ∈ used) ∧
      lower (candidatePath base attempt) ∉ used := by
  obtain ⟨attempt, few, path, passed, free⟩ := freePath_spec used base used.length 0
  simp only [Nat.zero_add] at path passed free
  refine ⟨attempt, few, path, passed, fun taken => ?_⟩
  rcases Nat.lt_or_eq_of_le few with before | last
  · exact free before taken
  · -- All attempts up to the bound are different and used, which is one too many.
    have inside : (List.range (attempt + 1)).map (fun tried => lower (candidatePath base tried)) ⊆
        used := by
      intro path member
      obtain ⟨tried, small, rfl⟩ := List.mem_map.mp member
      rcases Nat.lt_or_eq_of_le (Nat.lt_succ_iff.mp (List.mem_range.mp small)) with before | rfl
      · exact passed tried before
      · exact taken
    have different := (List.nodup_range (n := attempt + 1)).map (lower_candidatePath_injective base)
    have length := (List.subperm_of_subset different inside).length_le
    rw [List.length_map, List.length_range] at length
    omega

/-- The path that is chosen is not in use. -/
theorem lower_freePath_not_mem (used : List String) (base : String) :
    lower (freePath used base used.length 0) ∉ used := by
  obtain ⟨attempt, -, path, -, free⟩ := freePath_first used base
  rw [path]
  exact free

/-- The assigned paths differ by more than case, from each other and from those used before. -/
theorem assignPaths_fresh (used : List String) (types : List TypeDefinition) :
    ((assignPaths used types).map fun assigned => lower assigned.1).Nodup ∧
      ∀ assigned ∈ assignPaths used types, lower assigned.1 ∉ used := by
  induction types generalizing used with
  | nil => exact ⟨List.nodup_nil, fun _ member => absurd member List.not_mem_nil⟩
  | cons definition rest ih =>
    rw [assignPaths, List.map_cons, List.nodup_cons, List.forall_mem_cons]
    obtain ⟨different, unused⟩ :=
      ih (lower (freePath used (basePath definition) used.length 0) :: used)
    refine ⟨⟨fun member => ?_, different⟩, lower_freePath_not_mem used _, fun assigned member => ?_⟩
    · obtain ⟨assigned, inside, same⟩ := List.mem_map.mp member
      exact unused assigned inside (same ▸ List.mem_cons_self)
    · exact fun taken => unused assigned member (List.mem_cons_of_mem _ taken)

/-- The first choice of every type is taken, by the type itself or by one before it. -/
theorem first_candidate_assigned (used : List String) {types : List TypeDefinition}
    {definition : TypeDefinition} (member : definition ∈ types) :
    lower (candidatePath (basePath definition) 0) ∈
      used ++ (assignPaths used types).map fun assigned => lower assigned.1 := by
  induction types generalizing used with
  | nil => exact absurd member List.not_mem_nil
  | cons first rest ih =>
    rw [assignPaths, List.map_cons]
    rcases List.mem_cons.mp member with rfl | later
    · obtain ⟨attempt, -, path, passed, -⟩ := freePath_first used (basePath definition)
      cases attempt with
      | zero =>
        rw [path]
        exact List.mem_append_right used List.mem_cons_self
      | succ attempt => exact List.mem_append_left _ (passed 0 (Nat.succ_pos attempt))
    · have inside := ih (lower (freePath used (basePath first) used.length 0) :: used) later
      rw [List.mem_append, List.mem_cons] at inside
      rw [List.mem_append, List.mem_cons]
      tauto

end ClrDecompiler.Project
