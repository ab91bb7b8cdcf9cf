/-
This file relates the last name of a path to the components of the path, of its parent, and of the
path with another extension.
-/

import ClrDecompiler.Proofs.Path.Lexical

namespace ClrDecompiler.Path

/-! The components of segments. -/

/-- The component with which a path starts before its first name. -/
def start (rooted : Bool) (first : Option String) : List Component :=
  if rooted then [.root] else if first = some "." then [.current] else []

/-- The components that segments lead through, from the root on or not. -/
def componentsAlong (rooted : Bool) (segments : List String) : List Component :=
  start rooted segments.head? ++ steps segments

/-- The components of a path are those of its segments. -/
theorem components_eq_along (path : String) :
    components path = componentsAlong (isRooted path) (segments path) := by
  rw [components, componentsAlong, start]
  simp only [beq_iff_eq]
  split_ifs <;> rfl

theorem steps_name {segment : String} (named : isVoid segment = false) :
    steps [segment] = [ofSegment segment] := by
  rw [steps, List.filter_cons_of_pos (by rw [named]; rfl)]
  rfl

theorem steps_void {segment : String} (void : isVoid segment = true) : steps [segment] = [] := by
  rw [steps, List.filter_cons_of_neg (by rw [void]; decide)]
  rfl

theorem along_append_name (rooted : Bool) (front : List String) {segment : String}
    (named : isVoid segment = false) :
    componentsAlong rooted (front ++ [segment]) =
      componentsAlong rooted front ++ [ofSegment segment] := by
  have point : segment ≠ "." := by
    rintro rfl
    cases named
  have same : start rooted (front ++ [segment]).head? = start rooted front.head? := by
    cases front with
    | nil => simp [start, point]
    | cons => rfl
  rw [componentsAlong, same, steps_append, steps_name named, ← List.append_assoc]
  rfl

theorem along_append_void (rooted : Bool) {front : List String} (present : front ≠ [])
    {segment : String} (void : isVoid segment = true) :
    componentsAlong rooted (front ++ [segment]) = componentsAlong rooted front := by
  rw [componentsAlong, List.head?_append_of_ne_nil _ present, steps_append, steps_void void,
    List.append_nil]
  rfl

theorem along_append_empty (rooted : Bool) (front : List String) :
    componentsAlong rooted (front ++ [""]) = componentsAlong rooted front := by
  by_cases present : front = []
  · rw [present]
    cases rooted <;> rfl
  · exact along_append_void rooted present rfl

/-! The segments up to the last that counts. -/

theorem along_drop (path : String) (reversed : List String) :
    componentsAlong (isRooted path) (significantReversed.drop path reversed).reverse =
      componentsAlong (isRooted path) reversed.reverse := by
  fun_induction significantReversed.drop path reversed with
  | case1 => rfl
  | case2 segment void =>
    rcases Bool.or_eq_true_iff.mp void with empty | point
    · rw [String.isEmpty_iff.mp empty]
      cases isRooted path <;> rfl
    · obtain ⟨rooted, same⟩ := Bool.and_eq_true_iff.mp point
      rw [beq_iff_eq.mp same, rooted]
      rfl
  | case3 => rfl
  | case4 segment rest present void ih =>
    have more : rest.reverse ≠ [] := mt List.reverse_eq_nil_iff.mp (by simpa using present)
    rw [ih, List.reverse_cons, along_append_void _ more void]
  | case5 => rfl

theorem drop_suffix (path : String) (reversed : List String) :
    significantReversed.drop path reversed <:+ reversed := by
  fun_induction significantReversed.drop path reversed with
  | case1 => exact List.suffix_rfl
  | case2 => exact List.nil_suffix
  | case3 => exact List.suffix_rfl
  | case4 segment rest _ _ ih => exact ih.trans (List.suffix_cons segment rest)
  | case5 => exact List.suffix_rfl

/-- The last segment that counts is a name, or the point of a path that has nothing else. -/
theorem drop_eq_cons {path segment : String} {reversed rest : List String}
    (same : significantReversed.drop path reversed = segment :: rest) :
    isVoid segment = false ∨ isRooted path = false ∧ segment = "." ∧ rest = [] := by
  fun_induction significantReversed.drop path reversed with
  | case1 => cases same
  | case2 => cases same
  | case3 only counts =>
    cases same
    by_cases point : segment = "."
    · refine .inr ⟨?_, point, rfl⟩
      simpa [point] using counts
    · refine .inl ?_
      simp_all [isVoid]
  | case4 _ _ _ _ ih => exact ih same
  | case5 first others _ named =>
    cases same
    exact .inl (Bool.eq_false_iff.mpr named)

/-- The segments that are kept have the components of the path. -/
theorem along_significant (path : String) :
    componentsAlong (isRooted path) (significantReversed path).reverse = components path := by
  rw [significantReversed, along_drop, List.reverse_reverse, components_eq_along]

/-- Different segments are different components. -/
theorem ofSegment_injective {first second : String} (same : ofSegment first = ofSegment second) :
    first = second := by
  rcases ofSegment_cases first with ⟨up, first'⟩ | first' <;>
    rcases ofSegment_cases second with ⟨up', second'⟩ | second' <;>
    rw [first', second'] at same
  · rw [up, up']
  · cases same
  · cases same
  · exact Component.normal.inj same

/-- The segments in front of a component at the end of a path, which is a name or a parent. -/
theorem significantReversed_of_components {path segment : String} {front : List Component}
    (shape : components path = front ++ [ofSegment segment]) :
    ∃ rest, significantReversed path = segment :: rest ∧ isVoid segment = false ∧
      componentsAlong (isRooted path) rest.reverse = front := by
  have apart : ofSegment segment ≠ .root ∧ ofSegment segment ≠ .current := by
    rcases ofSegment_cases segment with ⟨-, up⟩ | down
    · rw [up]
      decide
    · rw [down]
      exact ⟨Component.noConfusion, Component.noConfusion⟩
  have last : ofSegment segment ∈ components path := by
    rw [shape]
    exact List.mem_append_right _ (List.mem_singleton_self _)
  rw [← along_significant] at shape last
  cases same : significantReversed path with
  | nil =>
    rw [same] at last
    cases rooted : isRooted path <;> rw [rooted] at last
    · cases last
    · exact absurd (List.mem_singleton.mp last) apart.1
  | cons name rest =>
    rw [same, List.reverse_cons] at shape last
    rcases drop_eq_cons same with named | ⟨rooted, point, alone⟩
    · rw [along_append_name _ _ named] at shape
      obtain ⟨before, names⟩ := List.append_inj' shape rfl
      obtain rfl := ofSegment_injective (List.singleton_inj.mp names)
      exact ⟨rest, rfl, named, before⟩
    · rw [rooted, point, alone] at last
      exact absurd (List.mem_singleton.mp last) apart.2

/-! Paths that are put together from segments. -/

/-- Segments that are read again from the path that is put together from them. -/
structure AreSegments (rooted : Bool) (segments : List String) : Prop where
  whole : ∀ segment ∈ segments, '/' ∉ segment.toList
  filled : rooted = false → segments.head? ≠ some ""

/-- Segments in front are segments. -/
theorem AreSegments.front {rooted : Bool} {front segments : List String}
    (areSegments : AreSegments rooted segments) (inside : front <+: segments) :
    AreSegments rooted front where
  whole segment member := areSegments.whole segment (inside.subset member)
  filled relative first := by
    obtain ⟨rest, rfl⟩ := inside
    refine areSegments.filled relative ?_
    rw [List.head?_append, first, Option.some_or]

/-- The last segment may be replaced by one that counts. -/
theorem AreSegments.replace_last {rooted : Bool} {front : List String} {last changed : String}
    (areSegments : AreSegments rooted (front ++ [last])) (whole : '/' ∉ changed.toList)
    (counts : isVoid changed = false) : AreSegments rooted (front ++ [changed]) where
  whole segment member := by
    rcases List.mem_append.mp member with inside | only
    · exact areSegments.whole segment (List.mem_append_left _ inside)
    · rw [List.mem_singleton.mp only]
      exact whole
  filled relative := by
    cases front with
    | nil =>
      rintro ⟨⟩
      cases counts
    | cons => exact areSegments.filled relative

theorem head?_segments_ne_empty {path : String} (relative : isRooted path = false)
    (present : path ≠ "") : (segments path).head? ≠ some "" := by
  rw [segments_of_not_rooted relative]
  rw [isRooted] at relative
  rw [Text.split]
  cases same : path.toList with
  | nil => exact absurd (String.toList_eq_nil_iff.mp same) present
  | cons c rest =>
    rw [same] at relative
    have apart : (c == '/') = false := by simpa using relative
    rw [Text.pieces, if_neg (Bool.eq_false_iff.mp apart)]
    split <;> simp

theorem areSegments_significant (path : String) :
    AreSegments (isRooted path) (significantReversed path).reverse := by
  by_cases present : path = ""
  · subst present
    exact ⟨fun _ member => absurd member List.not_mem_nil, fun _ first => by cases first⟩
  · have all : AreSegments (isRooted path) (segments path) :=
      ⟨fun _ => not_mem_of_mem_segments, fun relative => head?_segments_ne_empty relative present⟩
    refine all.front ?_
    rw [← List.reverse_suffix, List.reverse_reverse]
    exact drop_suffix path (segments path).reverse

theorem isRooted_append {front : String} (present : front ≠ "") (rest : String) :
    isRooted (front ++ rest) = isRooted front := by
  rw [isRooted, String.toList_append,
    List.head?_append_of_ne_nil _ (mt String.toList_eq_nil_iff.mp present)]
  rfl

theorem isRooted_intercalate {segments : List String}
    (areSegments : AreSegments false segments) :
    isRooted ("/".intercalate segments) = false := by
  match segments, areSegments with
  | [], _ => rfl
  | [only], ⟨whole, _⟩ =>
    rw [String.intercalate_singleton]
    exact isRooted_of_not_mem (whole only List.mem_cons_self)
  | first :: next :: rest, ⟨whole, filled⟩ =>
    rw [String.intercalate_cons_cons, String.append_assoc]
    rw [isRooted_append fun empty => filled rfl (congrArg some empty)]
    exact isRooted_of_not_mem (whole first List.mem_cons_self)

/-- A path that is made of segments has their components. -/
theorem ofSegments_spec {rooted : Bool} {segments : List String}
    (areSegments : AreSegments rooted segments) :
    isRooted (ofSegments rooted segments) = rooted ∧
      components (ofSegments rooted segments) = componentsAlong rooted segments := by
  by_cases present : segments = []
  · subst present
    cases rooted <;> exact ⟨rfl, rfl⟩
  · have pieces := Text.split_intercalate present areSegments.whole
    cases rooted with
    | false =>
      have relative := isRooted_intercalate areSegments
      have whole : ofSegments false segments = "/".intercalate segments := String.empty_append
      rw [whole, components_eq_along, relative, segments_of_not_rooted relative]
      exact ⟨rfl, congrArg (componentsAlong false) pieces⟩
    | true =>
      have whole : ofSegments true segments =
          String.ofList ('/' :: ("/".intercalate segments).toList) := by
        apply String.toList_injective
        rw [String.toList_ofList]
        exact String.toList_append
      rw [whole, components_eq_along, isRooted_ofList, segments_ofList_cons, String.ofList_toList]
      exact ⟨rfl, congrArg (componentsAlong true) pieces⟩

/-! The parent and the last name of a path. -/

/-- The parent of a path leaves out its last segment. -/
theorem parent?_of_components {path segment : String} {front : List Component}
    (shape : components path = front ++ [ofSegment segment]) :
    ∃ parent, parent? path = some parent ∧ components parent = front := by
  obtain ⟨rest, same, -, before⟩ := significantReversed_of_components shape
  have inside : AreSegments (isRooted path) rest.reverse := by
    refine (areSegments_significant path).front ?_
    rw [same, List.reverse_cons]
    exact List.prefix_append _ _
  obtain ⟨rooted, along⟩ := ofSegments_spec inside
  -- The segments in front of the last are cut a second time, without loss of a component.
  have shorter := areSegments_significant (ofSegments (isRooted path) rest.reverse)
  have counted := along_significant (ofSegments (isRooted path) rest.reverse)
  rw [rooted] at shorter counted
  refine ⟨_, by rw [parent?, same], ?_⟩
  rw [(ofSegments_spec shorter).2, counted, along, before]

/-- A segment that stands for a name of its own. -/
structure IsName (name : String) : Prop where
  whole : '/' ∉ name.toList
  counts : isVoid name = false
  notParent : name ≠ ".."

theorem ofSegment_of_isName {name : String} (named : IsName name) :
    ofSegment name = .normal name := by
  rw [ofSegment, if_neg (mt beq_iff_eq.mp named.notParent)]

/-- A name may be extended by an ending without a slash or a point at its end. -/
theorem isName_append {front ending : String} (last : Char)
    (whole : '/' ∉ (front ++ ending).toList) (closed : ending.toList.getLast? = some last)
    (notPoint : last ≠ '.') : IsName (front ++ ending) where
  whole := whole
  counts := by
    rw [isVoid, Bool.or_eq_false_iff, beq_eq_false_iff_ne, Bool.eq_false_iff, Ne,
      String.isEmpty_iff]
    exact ⟨append_ne_points closed notPoint (by decide),
      append_ne_points closed notPoint (by decide)⟩
  notParent := append_ne_points closed notPoint (by decide)

/-- The segments of a path that is joined to another follow segments with the components of the
other. -/
theorem along_of_join {base path : String} (present : base ≠ "")
    (relative : isRooted path = false) :
    ∃ shared, components (join base path) =
        componentsAlong (isRooted base) (shared ++ segments path) ∧
      componentsAlong (isRooted base) shared = components base := by
  obtain ⟨shared, longer, shorter, rooted⟩ := segments_join present relative
  refine ⟨shared, by rw [components_eq_along, longer, rooted], ?_⟩
  rcases shorter with same | same
  · rw [components_eq_along, same]
  · rw [components_eq_along, same, along_append_empty]

/-- A name that is joined to a path is the last component after those of the path. -/
theorem components_join {name : String} (base : String) (named : IsName name) :
    components (join base name) = components base ++ [.normal name] := by
  have relative := isRooted_of_not_mem named.whole
  have alone : segments name = [name] := by
    rw [segments_of_not_rooted relative, Text.split_eq_singleton named.whole]
  rw [← ofSegment_of_isName named]
  by_cases present : base = ""
  · rw [present, join_empty relative, components_eq_along, relative, alone]
    exact along_append_name false [] named.counts
  · obtain ⟨shared, joined, before⟩ := along_of_join present relative
    rw [joined, alone, along_append_name _ _ named.counts, before]

theorem components_join_empty (base : String) : components (join base "") = components base := by
  by_cases present : base = ""
  · rw [present]
    rfl
  · have relative : isRooted "" = false := rfl
    obtain ⟨shared, joined, before⟩ := along_of_join present relative
    rw [joined, ← before]
    exact along_append_empty (isRooted base) shared

/-- A path that ends where a name can be written behind it. -/
def IsOpen (path : String) : Prop :=
  path = "" ∨ path.toList.getLast? = some '/'

theorem isOpen_append (front : String) {path : String} (closed : path.toList.getLast? = some '/') :
    IsOpen (front ++ path) := by
  right
  rw [String.toList_append, List.getLast?_append, closed, Option.some_or]

/-- A relative path is appended to an open base as it is. -/
theorem join_of_isOpen {base path : String} (isOpen : IsOpen base)
    (relative : isRooted path = false) : join base path = base ++ path := by
  rw [join, if_neg (Bool.eq_false_iff.mp relative), if_pos]
  rw [Bool.or_eq_true_iff, String.isEmpty_iff, beq_iff_eq]
  exact isOpen

theorem isOpen_join (base : String) {way : String} (isOpen : IsOpen way) :
    IsOpen (join base way) := by
  rcases isOpen with empty | closed
  · subst empty
    by_cases already : IsOpen base
    · rw [join_of_isOpen already rfl, String.append_empty]
      exact already
    · rw [join, if_neg (by decide), if_neg, String.append_empty]
      · exact isOpen_append base rfl
      · rw [Bool.or_eq_true_iff, String.isEmpty_iff, beq_iff_eq]
        exact already
  · rw [join]
    split_ifs
    · exact .inr closed
    · exact isOpen_append base closed
    · exact isOpen_append (base ++ "/") closed

/-- A name at the end of a way is joined to a path after the way. -/
theorem join_append (base : String) {way name : String} (isOpen : IsOpen way)
    (whole : '/' ∉ name.toList) : join base (way ++ name) = join (join base way) name := by
  have relative := isRooted_of_not_mem whole
  have rooted : isRooted (way ++ name) = isRooted way := by
    by_cases empty : way = ""
    · rw [empty, String.empty_append, relative]
      rfl
    · exact isRooted_append empty name
  have behind : join base (way ++ name) = join base way ++ name := by
    rw [join, join, rooted]
    split_ifs <;> simp only [String.append_assoc]
  rw [behind, join_of_isOpen (isOpen_join base isOpen) relative]

/-- A name among the components of a path is one of its segments. -/
theorem ofSegment_of_mem_location {path name : String} (member : .normal name ∈ location path) :
    ofSegment name = .normal name ∧ '/' ∉ name.toList := by
  rw [location_eq, List.mem_append] at member
  rcases member with root | step
  · split at root <;> simp at root
  · obtain ⟨segment, inside, same⟩ := List.mem_map.mp step
    rcases ofSegment_cases segment with ⟨-, up⟩ | down
    · rw [up] at same
      cases same
    · obtain rfl := Component.normal.inj (down.symm.trans same)
      exact ⟨down, not_mem_of_mem_segments (List.mem_filter.mp inside).1⟩

/-- A path with a last name leads through its parent to the name. -/
theorem components_of_fileName? {path name : String} (found : fileName? path = some name) :
    IsName name ∧ ∃ parent, parent? path = some parent ∧
      components path = components parent ++ [.normal name] := by
  obtain ⟨front, shape⟩ : ∃ front, components path = front ++ [.normal name] := by
    rw [← List.getLast?_eq_some_iff]
    rw [fileName?] at found
    split at found
    case h_1 last same => rw [same, Option.some_inj.mp found]
    case h_2 => cases found
  have member : .normal name ∈ location path := by
    rw [location, shape, List.mem_filter]
    exact ⟨List.mem_append_right _ (List.mem_singleton_self _), rfl⟩
  obtain ⟨itself, whole⟩ := ofSegment_of_mem_location member
  rw [← itself] at shape ⊢
  obtain ⟨rest, -, named, -⟩ := significantReversed_of_components shape
  obtain ⟨parent, above, before⟩ := parent?_of_components shape
  refine ⟨⟨whole, named, ?_⟩, parent, above, by rw [before, shape]⟩
  rintro rfl
  cases itself

/-! Extensions. -/

/-- The end of a name that an extension makes. -/
def ending : Option String → String
  | none => ""
  | some extension => "." ++ extension

/-- A name is its stem and its extension, which has no points of its own. -/
theorem splitExtension_spec (name : String) :
    (splitExtension name).1 ++ ending (splitExtension name).2 = name ∧
      ∀ extension, (splitExtension name).2 = some extension → '.' ∉ extension.toList := by
  have unsplit : name ++ ending none = name ∧
      ∀ extension, (none : Option String) = some extension → '.' ∉ extension.toList :=
    ⟨String.append_empty, fun _ none => nomatch none⟩
  rw [splitExtension]
  rcases Text.splitLast?_cases '.' name.toList with
    ⟨-, unmarked⟩ | ⟨before, after, same, plain, cut⟩
  · rw [unmarked]
    exact unsplit
  · rw [cut]
    dsimp only
    split
    · exact unsplit
    · refine ⟨?_, ?_⟩
      · apply String.toList_injective
        rw [same]
        simp [ending]
      · rintro _ ⟨⟩
        rw [String.toList_ofList]
        exact plain

/-- A text behind the stem makes the name again exactly if it is the extension of the name. -/
theorem stem_append_eq_iff {name suffix : String} :
    (splitExtension name).1 ++ suffix = name ↔ suffix = ending (splitExtension name).2 := by
  nth_rewrite 2 [← (splitExtension_spec name).1]
  exact String.append_right_inj _

/-- The stem of a name has no character that the name has not. -/
theorem not_mem_stem {name : String} {c : Char} (whole : c ∉ name.toList) :
    c ∉ (splitExtension name).1.toList := by
  rw [← (splitExtension_spec name).1, String.toList_append, List.mem_append] at whole
  exact (not_or.mp whole).1

theorem eq_ending_iff {text extension : String} {found : Option String}
    (pointed : text = "." ++ extension) : text = ending found ↔ found = some extension := by
  cases found with
  | none => simp [pointed, ending]
  | some other => simp [pointed, ending, eq_comm]

/-- With another extension, a path has the same parent. -/
theorem components_withExtension {path name extension : String}
    (found : fileName? path = some name)
    (extended : IsName ((splitExtension name).1 ++ "." ++ extension)) :
    ∃ parent, parent? path = some parent ∧
      components (withExtension path extension) = components parent ++
        [ofSegment (if leavesParent path name then ".."
          else (splitExtension name).1 ++ "." ++ extension)] := by
  obtain ⟨isName, parent, above, shape⟩ := components_of_fileName? found
  rw [← ofSegment_of_isName isName] at shape
  obtain ⟨rest, same, -, before⟩ := significantReversed_of_components shape
  have old := areSegments_significant path
  rw [same, List.reverse_cons] at old
  refine ⟨parent, above, ?_⟩
  simp only [withExtension, found, same, List.reverse_cons]
  have replaced {changed : String} (whole : '/' ∉ changed.toList)
      (counts : isVoid changed = false) :
      components (ofSegments (isRooted path) (rest.reverse ++ [changed])) =
        components parent ++ [ofSegment changed] := by
    rw [(ofSegments_spec (old.replace_last whole counts)).2, along_append_name _ _ counts, before]
  split
  · exact replaced (by decide) rfl
  · exact replaced extended.whole extended.counts

end ClrDecompiler.Path
