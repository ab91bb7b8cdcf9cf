/-
This file follows paths that are joined from a directory and names: to which segments they
lead, and to which location.
-/

import ClrDecompiler.Path
import ClrDecompiler.Proofs.Text.Pieces

namespace ClrDecompiler.Path

theorem isRooted_ofList (text : List Char) :
    isRooted (String.ofList text) = (text.head? == some '/') := by
  rw [isRooted, String.toList_ofList]

/-- A single name is not rooted. -/
theorem isRooted_of_not_mem {name : String} (whole : '/' ∉ name.toList) :
    isRooted name = false := by
  rw [isRooted, beq_eq_false_iff_ne]
  exact fun first => whole (List.mem_of_mem_head? (Option.mem_def.mpr first))

theorem segments_of_not_rooted {path : String} (relative : isRooted path = false) :
    segments path = Text.split '/' path := by
  rw [segments]
  split
  case h_1 rest same =>
    rw [isRooted, same] at relative
    cases relative
  case h_2 => rfl

/-- The first separator of a path from the root is no separator between segments. -/
theorem segments_ofList_cons (rest : List Char) :
    segments (String.ofList ('/' :: rest)) = Text.split '/' (String.ofList rest) := by
  rw [segments, Text.split]
  simp only [String.toList_ofList]

/-- A separator that is not the first character lies between segments. -/
theorem segments_ofList_append {front : List Char} (present : front ≠ []) (rest : List Char) :
    segments (String.ofList (front ++ '/' :: rest)) =
        segments (String.ofList front) ++ Text.split '/' (String.ofList rest) ∧
      isRooted (String.ofList (front ++ '/' :: rest)) = isRooted (String.ofList front) := by
  have separated (text : List Char) : Text.split '/' (String.ofList (text ++ '/' :: rest)) =
      Text.split '/' (String.ofList text) ++ Text.split '/' (String.ofList rest) := by
    rw [← Text.split_append, ← String.ofList_toList (s := _ ++ String.ofList rest)]
    simp only [String.toList_append, String.toList_ofList, String.toList_singleton,
      List.append_assoc, List.singleton_append]
  cases front with
  | nil => exact absurd rfl present
  | cons c front =>
    have rooted : isRooted (String.ofList (c :: front ++ '/' :: rest)) =
        isRooted (String.ofList (c :: front)) := by
      simp only [isRooted_ofList, List.cons_append, List.head?_cons]
    refine ⟨?_, rooted⟩
    by_cases slash : c = '/'
    · rw [slash, List.cons_append, segments_ofList_cons, segments_ofList_cons, separated]
    · have relative : isRooted (String.ofList (c :: front)) = false := by
        rw [isRooted_ofList, List.head?_cons, beq_eq_false_iff_ne]
        exact fun same => slash (Option.some_inj.mp same)
      rw [segments_of_not_rooted (rooted.trans relative), segments_of_not_rooted relative,
        separated]

/-- The segments of a path that is joined to another follow those of the other. They take the place
of an empty last segment. -/
theorem segments_join {base path : String} (present : base ≠ "")
    (relative : isRooted path = false) :
    ∃ shared, segments (join base path) = shared ++ segments path ∧
      (segments base = shared ∨ segments base = shared ++ [""]) ∧
      isRooted (join base path) = isRooted base := by
  have filled : base.isEmpty = false := by
    rw [Bool.eq_false_iff, Ne, String.isEmpty_iff]
    exact present
  have last : Text.split '/' (String.ofList path.toList) = segments path := by
    rw [String.ofList_toList, segments_of_not_rooted relative]
  have trailing : Text.split '/' (String.ofList []) = [""] := rfl
  rw [join, if_neg (Bool.eq_false_iff.mp relative), filled, Bool.false_or]
  by_cases closed : base.toList.getLast? = some '/'
  · obtain ⟨front, same⟩ := List.getLast?_eq_some_iff.mp closed
    have whole : base = String.ofList (front ++ ['/']) := by rw [← same, String.ofList_toList]
    have joined : base ++ path = String.ofList (front ++ '/' :: path.toList) := by
      apply String.toList_injective
      rw [String.toList_append, same, List.append_assoc]
      exact String.toList_ofList.symm
    rw [if_pos (beq_iff_eq.mpr closed), joined, whole]
    by_cases empty : front = []
    · subst empty
      refine ⟨[], ?_, .inr ?_, ?_⟩
      · rw [List.nil_append, segments_ofList_cons, last]
        rfl
      · rfl
      · simp only [isRooted_ofList, List.nil_append, List.head?_cons]
    · obtain ⟨longer, rooted⟩ := segments_ofList_append empty path.toList
      obtain ⟨shorter, same⟩ := segments_ofList_append empty []
      refine ⟨segments (String.ofList front), ?_, .inr ?_, rooted.trans same.symm⟩
      · rw [longer, last]
      · rw [shorter, trailing]
  · have joined : base ++ "/" ++ path = String.ofList (base.toList ++ '/' :: path.toList) := by
      apply String.toList_injective
      rw [String.toList_append, String.toList_append, List.append_assoc]
      exact String.toList_ofList.symm
    obtain ⟨longer, rooted⟩ := segments_ofList_append
      (mt String.toList_eq_nil_iff.mp present) path.toList
    rw [if_neg (mt beq_iff_eq.mp closed), joined]
    rw [String.ofList_toList] at longer rooted
    refine ⟨segments base, ?_, .inl rfl, rooted⟩
    rw [longer, last]

/-- A relative path in an empty one is itself. -/
theorem join_empty {path : String} (relative : isRooted path = false) : join "" path = path := by
  have empty : "".isEmpty = true := rfl
  rw [join, if_neg (Bool.eq_false_iff.mp relative), empty, Bool.true_or, if_pos rfl,
    String.empty_append]

/-- A name that does not end in a point is no name of points alone. -/
theorem append_ne_points {front ending points : String} {last : Char}
    (closed : ending.toList.getLast? = some last) (notPoint : last ≠ '.')
    (only : points.toList.getLast?.all (· = '.') = true) : front ++ ending ≠ points := by
  rintro rfl
  rw [String.toList_append, List.getLast?_append, closed, Option.some_or] at only
  exact notPoint (of_decide_eq_true only)

/-- The components that count wherever the path starts. -/
def location (path : String) : List Component :=
  (components path).filter (· != .current)

/-- The components of the segments that lead somewhere. -/
def steps (segments : List String) : List Component :=
  (segments.filter (!isVoid ·)).map ofSegment

/-- The steps of a path are those of its parts. -/
theorem steps_append (first rest : List String) :
    steps (first ++ rest) = steps first ++ steps rest := by
  rw [steps, List.filter_append, List.map_append]
  rfl

theorem location_eq (path : String) :
    location path = (if isRooted path then [.root] else []) ++ steps (segments path) := by
  have counted : (steps (segments path)).filter (· != .current) = steps (segments path) := by
    rw [List.filter_eq_self]
    intro component member
    obtain ⟨segment, -, rfl⟩ := List.mem_map.mp member
    rw [ofSegment]
    split <;> rfl
  rw [location, components]
  change List.filter _ (if _ then Component.root :: steps _
    else if _ then Component.current :: steps _ else steps _) = _
  split
  · rw [List.filter_cons_of_pos (by decide), counted]
    rfl
  · split
    · rw [List.filter_cons_of_neg (by decide), counted]
      rfl
    · rw [counted]
      rfl

/-- A relative path leads on from the base. -/
theorem location_join {path : String} (base : String) (relative : isRooted path = false) :
    location (join base path) = location base ++ steps (segments path) := by
  by_cases present : base = ""
  · rw [present, join_empty relative, location_eq, relative]
    rfl
  · obtain ⟨shared, longer, shorter, rooted⟩ := segments_join present relative
    have same : steps (segments base) = steps shared := by
      rcases shorter with shorter | shorter
      · rw [shorter]
      · rw [shorter, steps_append]
        exact List.append_nil (steps shared)
    rw [location_eq, longer, rooted, steps_append, ← same, ← List.append_assoc, ← location_eq]

/-- Names that are joined to a path one after the other lead on from its location. -/
theorem location_foldl_join {names : List String} (base : String)
    (whole : ∀ name ∈ names, '/' ∉ name.toList) :
    location (names.foldl join base) = location base ++ steps names := by
  induction names generalizing base with
  | nil => exact (List.append_nil _).symm
  | cons name rest ih =>
    rw [List.forall_mem_cons] at whole
    have relative := isRooted_of_not_mem whole.1
    rw [List.foldl_cons, ih (join base name) whole.2, location_join base relative,
      segments_of_not_rooted relative, Text.split_eq_singleton whole.1, List.append_assoc,
      ← steps_append]
    rfl

/-! The way from one path to another. -/

theorem absolute?_eq {path : String} (current : String) (present : path ≠ "") :
    absolute? current path =
      some ((if isRooted path then [] else components current) ++ location path) := by
  have filled : path.isEmpty = false := by
    rw [Bool.eq_false_iff, Ne, String.isEmpty_iff]
    exact present
  cases rooted : isRooted path with
  | false =>
    simp only [absolute?, filled, rooted, Bool.false_eq_true, if_false]
    rfl
  | true =>
    have counted : components path = location path := by
      rw [location_eq, components, rooted]
      rfl
    simp only [absolute?, filled, rooted, Bool.false_eq_true, if_false, if_true, List.nil_append,
      counted]

/-- A common front is counted in full. -/
theorem commonLength_append (front first second : List Component) :
    commonLength (front ++ first) (front ++ second) =
      front.length + commonLength first second := by
  induction front with
  | nil => exact (Nat.zero_add _).symm
  | cons component rest ih =>
    rw [List.cons_append, List.cons_append, commonLength, if_pos rfl, ih, List.length_cons]
    omega

/-- The way from a place to another, both below the same directory. -/
def way (base target : List Component) : String :=
  let common := commonLength base target
  ofComponents (List.replicate (base.length - common) .parent ++ target.drop common)

theorem join_ne_empty {base path : String} (present : base ≠ "")
    (relative : isRooted path = false) : join base path ≠ "" := by
  rw [join, if_neg (Bool.eq_false_iff.mp relative)]
  split <;>
  · intro empty
    have nothing := congrArg String.toList empty
    simp only [String.toList_append, String.toList_empty, List.append_eq_nil_iff,
      String.toList_eq_nil_iff] at nothing
    tauto

/-- The way between two paths below a directory does not depend on the directory, nor on the current
one. -/
theorem relative_join {base directory path : String} (current : String) (present : base ≠ "")
    (directoryRelative : isRooted directory = false) (pathRelative : isRooted path = false) :
    relative current (join base directory) (join base path) =
      way (steps (segments directory)) (steps (segments path)) := by
  obtain ⟨-, -, -, directoryRooted⟩ := segments_join present directoryRelative
  obtain ⟨-, -, -, pathRooted⟩ := segments_join present pathRelative
  rw [relative, absolute?_eq current (join_ne_empty present directoryRelative),
    absolute?_eq current (join_ne_empty present pathRelative), directoryRooted, pathRooted,
    location_join base directoryRelative, location_join base pathRelative, ← List.append_assoc,
    ← List.append_assoc]
  generalize (if isRooted base then [] else components current) ++ location base = front
  simp only [commonLength_append, List.length_append, way, Nat.add_sub_add_left,
    List.drop_length_add_append]

example : relative "/" "/b/nested/Sample" "/b/nested/Dep.dll" = "../Dep.dll" := by
  decide +kernel

end ClrDecompiler.Path
