/-
This file follows paths without looking at the file system and finds out where the way from a
directory to a path leads.
-/

import ClrDecompiler.Proofs.Path
import Mathlib.Data.List.Count

namespace ClrDecompiler.Path

/-! Following components. -/

/-- The place, innermost name first, to which components lead from a place. The parent of a name
takes the name away, and the root is its own parent. -/
def follow (place : List String) : List Component → List String
  | [] => place
  | .root :: rest => follow [] rest
  | .current :: rest => follow place rest
  | .parent :: rest => follow place.tail rest
  | .normal name :: rest => follow (name :: place) rest

/-- The number of names at the end of a place that components take away. -/
def climb : List Component → Nat
  | .parent :: rest => climb rest + 1
  | .normal _ :: rest => climb rest - 1
  | _ => 0

/-- A way is followed part by part. -/
theorem follow_append (place : List String) (first rest : List Component) :
    follow place (first ++ rest) = follow (follow place first) rest := by
  induction first generalizing place with
  | nil => rfl
  | cons component others ih => cases component <;> simp only [List.cons_append, follow, ih]

/-- Going up drops the last names of a place. -/
theorem follow_parents (place : List String) (count : Nat) :
    follow place (List.replicate count .parent) = place.drop count := by
  induction count generalizing place with
  | zero => rfl
  | succ count ih => rw [List.replicate_succ, follow, ih, List.drop_tail]

/-- A segment leads to the parent or to a name. -/
theorem ofSegment_cases (segment : String) :
    (segment = ".." ∧ ofSegment segment = .parent) ∨ ofSegment segment = .normal segment := by
  by_cases up : segment = ".."
  · exact .inl ⟨up, by rw [up]; rfl⟩
  · exact .inr (by rw [ofSegment, if_neg (mt beq_iff_eq.mp up)])

/-- As many parents as there were components take every name away again, and two names for every
parent among the components: the one that it took away and the one that it is counted for. -/
theorem drop_follow (place : List String) (segments : List String) :
    (follow place (segments.map ofSegment)).drop segments.length =
      place.drop (2 * (segments.map ofSegment).count .parent) := by
  induction segments generalizing place with
  | nil => rfl
  | cons segment rest ih =>
    rw [List.map_cons, List.length_cons, ← List.drop_drop]
    rcases ofSegment_cases segment with ⟨-, up⟩ | down
    · rw [up, follow, ih, List.count_cons_self, List.drop_drop, List.drop_tail]
      congr 1
    · have apart : Component.normal segment ≠ .parent := Component.noConfusion
      rw [down, follow, ih, List.count_cons_of_ne apart, List.drop_drop, List.drop_succ_cons]

/-- Components take names away from the end of a place and add others, which do not depend on the
place. -/
theorem follow_eq (place : List String) (segments : List String) :
    follow place (segments.map ofSegment) = follow [] (segments.map ofSegment) ++
      place.drop (climb (segments.map ofSegment)) := by
  induction segments generalizing place with
  | nil => simp [follow, climb]
  | cons segment rest ih =>
    rw [List.map_cons]
    rcases ofSegment_cases segment with ⟨-, up⟩ | down
    · rw [up, follow, follow, climb, ih, List.drop_tail, List.tail_nil]
    · rw [down, follow, follow, climb, ih (segment :: place), ih [segment], List.append_assoc]
      cases climb (rest.map ofSegment) <;> simp

/-- Names that are missing at the end of the place are missed, unless the components take the whole
place away. -/
theorem follow_drop_iff (place : List String) (missing : Nat) (segments : List String) :
    follow (place.drop missing) (segments.map ofSegment) = follow place (segments.map ofSegment) ↔
      missing = 0 ∨ place.length ≤ climb (segments.map ofSegment) := by
  rw [follow_eq, follow_eq place, List.append_cancel_left_eq, List.drop_drop]
  constructor
  · intro same
    have lengths := congrArg List.length same
    simp only [List.length_drop] at lengths
    omega
  · rintro (none | short)
    · rw [none, Nat.zero_add]
    · rw [List.drop_eq_nil_of_le short, List.drop_eq_nil_of_le (by omega)]

/-! The way from a directory to a path. -/

/-- Segments that lead somewhere. -/
def AreNames (segments : List String) : Prop :=
  ∀ segment ∈ segments, isVoid segment = false ∧ '/' ∉ segment.toList

theorem not_mem_of_mem_segments {path segment : String} (member : segment ∈ segments path) :
    '/' ∉ segment.toList := by
  rw [segments] at member
  split at member <;>
  · obtain ⟨piece, inside, rfl⟩ := List.mem_map.mp member
    rw [String.toList_ofList]
    intro found
    simpa using (Text.forall_mem_pieces inside '/' found).2

/-- The segments that count have no slash. -/
theorem areNames_segments (path : String) : AreNames ((segments path).filter (!isVoid ·)) := by
  intro segment member
  obtain ⟨inside, counted⟩ := List.mem_filter.mp member
  exact ⟨by simpa using counted, not_mem_of_mem_segments inside⟩

theorem steps_of_areNames {segments : List String} (named : AreNames segments) :
    steps segments = segments.map ofSegment := by
  rw [steps, List.filter_eq_self.mpr]
  intro segment member
  rw [(named segment member).1]
  rfl

/-- Only a path from the root goes through the root. -/
theorem isRooted_of_location {path : String} {segments : List String}
    (names : location path = segments.map ofSegment) : isRooted path = false := by
  by_contra rooted
  rw [location_eq, if_pos (Bool.of_not_eq_false rooted)] at names
  obtain ⟨segment, -, same⟩ := List.mem_map.mp (names ▸ List.mem_append_left _ (.head _))
  rcases ofSegment_cases segment with ⟨-, up⟩ | down
  · rw [up] at same
    cases same
  · rw [down] at same
    cases same

/-- A path that is made absolute starts at the root. -/
theorem absolute?_eq_some {current path : String} (rooted : isRooted current = true)
    {found : List Component} (absolute : absolute? current path = some found) :
    ∃ names, AreNames names ∧ found = .root :: names.map ofSegment := by
  have present : path ≠ "" := by
    intro empty
    rw [absolute?, empty] at absolute
    cases absolute
  rw [absolute?_eq current present, Option.some_inj] at absolute
  subst absolute
  cases start : isRooted path with
  | true =>
    refine ⟨(segments path).filter (!isVoid ·), areNames_segments path, ?_⟩
    rw [location_eq, start]
    rfl
  | false =>
    refine ⟨(segments current).filter (!isVoid ·) ++ (segments path).filter (!isVoid ·), ?_, ?_⟩
    · intro segment member
      exact (List.mem_append.mp member).elim (areNames_segments current segment)
        (areNames_segments path segment)
    · rw [location_eq, start, components, rooted, List.map_append]
      rfl

/-- Names as a path of their own. -/
theorem ofComponents_names (names : List String) :
    ofComponents (names.map ofSegment) = names.foldl join "" := by
  rw [ofComponents, List.foldl_map]
  congr 1
  funext path segment
  rcases ofSegment_cases segment with ⟨same, up⟩ | down
  · rw [up, same]
  · rw [down]

/-- The path that is made of names leads along them. -/
theorem location_ofComponents {names : List String} (named : AreNames names) :
    location (ofComponents (names.map ofSegment)) = names.map ofSegment := by
  rw [ofComponents_names, location_foldl_join "" fun name member => (named name member).2,
    steps_of_areNames named]
  rfl

/-- The place to which a path leads from the current directory. -/
def place? (current path : String) : Option (List String) :=
  (absolute? current path).map (follow [])

/-- The components of a relative path that is joined to a directory follow those of the
directory. -/
theorem absolute?_join {current base path : String} {origin : List Component}
    (absolute : absolute? current base = some origin) (relative : isRooted path = false) :
    absolute? current (join base path) = some (origin ++ location path) := by
  have present : base ≠ "" := by
    intro empty
    rw [absolute?, empty] at absolute
    cases absolute
  obtain ⟨-, -, -, rooted⟩ := segments_join present relative
  rw [absolute?_eq current present, Option.some_inj] at absolute
  rw [absolute?_eq current (join_ne_empty present relative), location_join base relative, rooted,
    ← absolute, location_eq path, relative, List.append_assoc]
  rfl

theorem take_commonLength (first second : List Component) :
    first.take (commonLength first second) = second.take (commonLength first second) := by
  induction first generalizing second with
  | nil => simp [commonLength]
  | cons component rest ih =>
    cases second with
    | nil => rfl
    | cons other others =>
      rw [commonLength]
      split
      · rename_i same
        rw [same, List.take_succ_cons, List.take_succ_cons, ih]
      · rfl

section Way

variable {current base target : String} {origin destination : List Component}
  (rooted : isRooted current = true) (absoluteBase : absolute? current base = some origin)
  (absoluteTarget : absolute? current target = some destination)

include rooted absoluteBase absoluteTarget

/-- Behind the components at which a directory and a path agree, both have names, and the way
between them goes up as many times as the directory has names. -/
theorem relative_eq :
    ∃ above below : List String, AreNames below ∧
      origin.drop (commonLength origin destination) = above.map ofSegment ∧
      destination.drop (commonLength origin destination) = below.map ofSegment ∧
      relative current base target =
        ofComponents ((List.replicate above.length ".." ++ below).map ofSegment) := by
  obtain ⟨baseNames, -, originEq⟩ := absolute?_eq_some rooted absoluteBase
  obtain ⟨targetNames, named, destinationEq⟩ := absolute?_eq_some rooted absoluteTarget
  obtain ⟨shared, common⟩ : ∃ shared, commonLength origin destination = shared + 1 := by
    rw [originEq, destinationEq, commonLength, if_pos rfl]
    exact ⟨_, rfl⟩
  have above : origin.drop (shared + 1) = (baseNames.drop shared).map ofSegment := by
    rw [originEq, List.drop_succ_cons, List.map_drop]
  have below : destination.drop (shared + 1) = (targetNames.drop shared).map ofSegment := by
    rw [destinationEq, List.drop_succ_cons, List.map_drop]
  have ups : origin.length - (shared + 1) = (baseNames.drop shared).length := by
    rw [← List.length_drop, above, List.length_map]
  refine ⟨baseNames.drop shared, targetNames.drop shared,
    fun name member => named name (List.mem_of_mem_drop member), ?_, ?_, ?_⟩
  · rw [common, above]
  · rw [common, below]
  · simp only [relative, absoluteBase, absoluteTarget, common]
    rw [List.map_append, List.map_replicate, ← below, ← ups]
    rfl

/-- What the way from a directory to a path misses: two names of the place up to which both agree,
for every parent that the directory goes through after it. -/
theorem place?_join_relative :
    let common := commonLength origin destination
    place? current (join base (relative current base target)) =
      some (follow ((follow [] (destination.take common)).drop
        (2 * (origin.drop common).count .parent)) (destination.drop common)) := by
  intro common
  obtain ⟨above, below, named, originRest, destinationRest, hint⟩ :=
    relative_eq rooted absoluteBase absoluteTarget
  have hintNamed : AreNames (List.replicate above.length ".." ++ below) := by
    intro name member
    rcases List.mem_append.mp member with up | down
    · rw [List.eq_of_mem_replicate up]
      exact ⟨rfl, by decide⟩
    · exact named name down
  have led := location_ofComponents hintNamed
  rw [← hint, List.map_append, List.map_replicate, ← destinationRest] at led
  have front : origin = destination.take common ++ above.map ofSegment := by
    rw [← originRest, ← take_commonLength, List.take_append_drop]
  have back : follow (follow [] origin) (List.replicate above.length .parent) =
      (follow [] (destination.take common)).drop (2 * (above.map ofSegment).count .parent) := by
    rw [follow_parents, front, follow_append, drop_follow]
  have free := isRooted_of_location (location_ofComponents hintNamed)
  rw [← hint] at free
  have parent : ofSegment ".." = .parent := rfl
  rw [place?, absolute?_join absoluteBase free, Option.map_some, led, follow_append, follow_append,
    parent, back, originRest]

/-- The way from a directory to a path leads to the path exactly if the directory goes through no
parent after the place up to which both agree, or if the path climbs from there to the root. -/
theorem relative_leads_iff :
    place? current (join base (relative current base target)) = place? current target ↔
      .parent ∉ origin.drop (commonLength origin destination) ∨
        (follow [] (destination.take (commonLength origin destination))).length ≤
          climb (destination.drop (commonLength origin destination)) := by
  obtain ⟨-, below, -, -, destinationRest, -⟩ := relative_eq rooted absoluteBase absoluteTarget
  have missed := place?_join_relative rooted absoluteBase absoluteTarget
  generalize commonLength origin destination = common at *
  have whole : place? current target =
      some (follow (follow [] (destination.take common)) (destination.drop common)) := by
    rw [place?, absoluteTarget, Option.map_some, ← follow_append, List.take_append_drop]
  have twice : 2 * (origin.drop common).count .parent = 0 ↔ .parent ∉ origin.drop common := by
    rw [← List.count_eq_zero]
    omega
  rw [missed, whole, Option.some_inj, destinationRest, follow_drop_iff, twice]

end Way

/-- The way to a path that goes through the same parent leads to the path. -/
theorem relative_leads_iff_beside : ∃ origin destination,
    absolute? "/w/a" "../out/bin" = some origin ∧
    absolute? "/w/a" "./../out//lib/Dep.dll" = some destination ∧
    relative "/w/a" "../out/bin" "./../out//lib/Dep.dll" = "../lib/Dep.dll" ∧
    place? "/w/a" (join "../out/bin" "../lib/Dep.dll") = place? "/w/a" "./../out//lib/Dep.dll" := by
  have hint : relative "/w/a" "../out/bin" "./../out//lib/Dep.dll" = "../lib/Dep.dll" := by
    decide +kernel
  refine ⟨_, _, rfl, rfl, hint, ?_⟩
  rw [← hint]
  exact (relative_leads_iff (by decide) rfl rfl).mpr (.inl (by decide +kernel))

/-- The way from a directory next to the current one leads past a file below the current one. -/
theorem relative_misses : relative "/w/a" "../out" "lib/Dep.dll" = "../../lib/Dep.dll" ∧
    place? "/w/a" (join "../out" (relative "/w/a" "../out" "lib/Dep.dll")) =
      some ["Dep.dll", "lib"] ∧
    place? "/w/a" "lib/Dep.dll" = some ["Dep.dll", "lib", "a", "w"] := by
  decide +kernel

end ClrDecompiler.Path
