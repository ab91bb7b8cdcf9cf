/-
This file says when the results of a command lie in the directory that is chosen for them, and when
they take the place of the input.
-/

import ClrDecompiler.Command.Mode
import ClrDecompiler.Metadata.TypeName
import ClrDecompiler.Proofs.Path.Components

namespace ClrDecompiler.Command.Route

open ClrDecompiler.Path

/-- The file of a route, if it has one, lies right in a directory. -/
def LiesIn (directory : String) (route : Route) : Prop :=
  ∀ path, route = .file path →
    ∃ parent, parent? path = some parent ∧ components parent = components directory

/-- The results take the place of a file. Paths are the same if their components are. -/
def Replaces (input : String) : Route → Prop
  | .console => False
  | .file path => components path = components input
  | .directory path => components path = components input

/-- The way to a name up to its last separator of paths, and the name after it. -/
def cut (name : String) : String × String :=
  match Text.splitLast? (· == '/') name.toList with
  | some (way, last) => (String.ofList (way ++ ['/']), String.ofList last)
  | none => ("", name)

/-- A name is cut behind its last slash. -/
theorem cut_spec (name : String) :
    (cut name).1 ++ (cut name).2 = name ∧ IsOpen (cut name).1 ∧ '/' ∉ (cut name).2.toList := by
  rw [cut]
  rcases Text.splitLast?_cases '/' name.toList with
    ⟨whole, unmarked⟩ | ⟨way, last, same, whole, found⟩
  · rw [unmarked]
    exact ⟨String.empty_append, .inl rfl, whole⟩
  · rw [found]
    refine ⟨?_, .inr ?_, ?_⟩
    · apply String.toList_injective
      simp [same]
    · simp
    · rw [String.toList_ofList]
      exact whole

theorem cut_of_not_mem {name : String} (whole : '/' ∉ name.toList) : cut name = ("", name) := by
  rw [cut]
  rcases Text.splitLast?_cases '/' name.toList with ⟨-, unmarked⟩ | ⟨way, last, same, -⟩
  · rw [unmarked]
  · exact absurd (same ▸ List.mem_append_right way List.mem_cons_self) whole

/-! A name that is joined to a directory. -/

/-- A file lies in a directory exactly if its base leads there. -/
theorem liesIn_join_iff {directory base name : String} (named : IsName name) :
    LiesIn directory (.file (join base name)) ↔ components base = components directory := by
  have shape := components_join base named
  rw [← ofSegment_of_isName named] at shape
  obtain ⟨parent, above, before⟩ := parent?_of_components shape
  constructor
  · intro lies
    obtain ⟨other, same, there⟩ := lies _ rfl
    rw [above, Option.some_inj] at same
    rw [← before, same, there]
  · rintro there _ ⟨⟩
    exact ⟨parent, above, before.trans there⟩

/-- A file that is called after a type. -/
theorem resolve_type (input base : String) {type : String} (present : type ≠ "") :
    resolve input (some base) .decompile (some type) =
        .file (join (join base (cut type).1) ((cut type).2 ++ ".decompiled.cs")) ∧
      IsName ((cut type).2 ++ ".decompiled.cs") := by
  obtain ⟨same, isOpen, whole⟩ := cut_spec type
  have wholeFile : '/' ∉ ((cut type).2 ++ ".decompiled.cs").toList := by
    rw [String.toList_append, List.mem_append]
    exact not_or.mpr ⟨whole, by decide⟩
  have called : fileName input .decompile (some type) = type ++ ".decompiled.cs" := by
    rw [fileName, if_neg (mt String.isEmpty_iff.mp present)]
    rfl
  refine ⟨?_, isName_append 's' wholeFile rfl (by decide)⟩
  rw [← join_append base isOpen wholeFile, ← String.append_assoc, same, ← called]
  rfl

theorem suffix_closed {mode : Mode} (isFile : mode ≠ .project ∧ mode ≠ .version) :
    '/' ∉ mode.suffix.toList ∧
      ∃ last, mode.suffix.toList.getLast? = some last ∧ last ≠ '.' := by
  cases mode with
  | project => exact absurd rfl isFile.1
  | version => exact absurd rfl isFile.2
  | entityList | listing | symbols | decompile => exact ⟨by decide, _, rfl, by decide⟩

/-- An extension has no points of its own. -/
theorem suffix_ne_ending {name suffix extension : String} (pointed : suffix = "." ++ extension)
    (more : '.' ∈ extension.toList) : suffix ≠ ending (splitExtension name).2 := by
  rw [Ne, eq_ending_iff pointed]
  exact fun same => (splitExtension_spec name).2 extension same more

section Input

variable {input name own : String} (found : fileName? input = some name)
  (above : parent? input = some own) (shape : components input = components own ++ [.normal name])

include shape in
/-- A file replaces the input exactly if it has the same directory and the same name. -/
theorem replaces_join_iff {base last : String} (named : IsName last) :
    Replaces input (.file (join base last)) ↔
      components base = components own ∧ last = name := by
  rw [Replaces, components_join base named, shape]
  constructor
  · intro same
    obtain ⟨before, names⟩ := List.append_inj' same rfl
    exact ⟨before, Component.normal.inj (List.singleton_inj.mp names)⟩
  · rintro ⟨before, rfl⟩
    rw [before]

include found in
theorem stem_eq : stem input = (splitExtension name).1 := by
  rw [stem, fileStem?, found]
  rfl

theorem isName_stem {suffix : String} (last : Char) (whole : '/' ∉ name.toList)
    (wholeSuffix : '/' ∉ suffix.toList) (closed : suffix.toList.getLast? = some last)
    (notPoint : last ≠ '.') : IsName ((splitExtension name).1 ++ suffix) := by
  refine isName_append last ?_ closed notPoint
  rw [String.toList_append, List.mem_append]
  exact not_or.mpr ⟨not_mem_stem whole, wholeSuffix⟩

include shape in
/-- A project without a directory of its own is written next to the input, under its stem. -/
theorem replaces_project_iff (isName : IsName name) :
    Replaces input (.directory (join own (splitExtension name).1)) ↔
      (splitExtension name).2 = none := by
  have whole := not_mem_stem isName.whole
  have relative := isRooted_of_not_mem whole
  have itself := (splitExtension_spec name).1
  rw [Replaces]
  constructor
  · intro same
    have there : location (join own (splitExtension name).1) =
        location own ++ [.normal name] := by
      rw [location, same, shape, List.filter_append]
      rfl
    rw [location_join own relative, List.append_cancel_left_eq,
      segments_of_not_rooted relative, Text.split_eq_singleton whole] at there
    cases counts : isVoid (splitExtension name).1 with
    | true =>
      rw [steps_void counts] at there
      cases there
    | false =>
      rw [steps_name counts, ← ofSegment_of_isName isName] at there
      have same := ofSegment_injective (List.singleton_inj.mp there)
      rw [← String.append_empty (s := (splitExtension name).1), stem_append_eq_iff] at same
      cases extension : (splitExtension name).2 with
      | none => rfl
      | some _ => simp [extension, ending] at same
  · intro plain
    rw [plain, ending, String.append_empty] at itself
    rw [itself, components_join own isName, shape]

include found above shape in
/-- The symbols lie beside the input, and replace it only if it is named as they are. -/
theorem symbols_beside (isName : IsName name) :
    LiesIn own (.file (withExtension input "pdb")) ∧
      (Replaces input (.file (withExtension input "pdb")) ↔
        (splitExtension name).2 = some "pdb" ∧ leavesParent input name = false) := by
  have extended : IsName ((splitExtension name).1 ++ ("." ++ "pdb")) :=
    isName_stem 'b' isName.whole (by decide) rfl (by decide)
  rw [← String.append_assoc] at extended
  obtain ⟨parent, above', written⟩ := components_withExtension found extended
  obtain rfl := Option.some_inj.mp (above.symm.trans above')
  constructor
  · obtain ⟨parent, there, before⟩ := parent?_of_components written
    rintro _ ⟨⟩
    exact ⟨parent, there, before⟩
  · rw [Replaces, written, shape, List.append_cancel_left_eq, List.singleton_inj,
      ← ofSegment_of_isName isName]
    cases leavesParent input name with
    | true =>
      simp only [if_true, Bool.true_eq_false, and_false, iff_false]
      exact fun same => isName.notParent (ofSegment_injective same).symm
    | false =>
      rw [if_neg Bool.false_ne_true, and_iff_left rfl, ← eq_ending_iff rfl,
        ← stem_append_eq_iff, ← String.append_assoc]
      exact ⟨ofSegment_injective, congrArg ofSegment⟩

include found shape in
/-- A file that is called after the input lies right in its directory. -/
theorem resolve_stem (isName : IsName name) (base : String) (mode : Mode)
    {typeName : Option String} (isFile : mode ≠ .project ∧ mode ≠ .version)
    (untyped : mode = .decompile → ∀ type ∈ typeName, type = "") :
    LiesIn base (resolve input (some base) mode typeName) ∧
      (Replaces input (resolve input (some base) mode typeName) ↔
        components base = components own ∧ mode.suffix = ending (splitExtension name).2) := by
  have called : resolve input (some base) mode typeName =
      .file (join base ((splitExtension name).1 ++ mode.suffix)) := by
    rw [← stem_eq found]
    cases mode with
    | project => exact absurd rfl isFile.1
    | version => exact absurd rfl isFile.2
    | decompile =>
      cases typeName with
      | none => rfl
      | some type =>
        rw [untyped rfl type rfl]
        rfl
    | entityList | listing | symbols => rfl
  have named : IsName ((splitExtension name).1 ++ mode.suffix) := by
    obtain ⟨whole, last, closed, notPoint⟩ := suffix_closed isFile
    exact isName_stem last isName.whole whole closed notPoint
  rw [called, liesIn_join_iff named, replaces_join_iff shape named, stem_append_eq_iff]
  exact ⟨rfl, Iff.rfl⟩

include found shape in
/-- A file that is called after a type lies where the name of the type leads from the directory. -/
theorem resolve_decompile (isName : IsName name) (base : String) (typeName : Option String) :
    (LiesIn base (resolve input (some base) .decompile typeName) ↔
        ∀ type ∈ typeName, '/' ∈ type.toList →
          components (join base (cut type).1) = components base) ∧
      (Replaces input (resolve input (some base) .decompile typeName) ↔
        ∃ type ∈ typeName, type ≠ "" ∧ components (join base (cut type).1) = components own ∧
          (cut type).2 ++ ".decompiled.cs" = name) := by
  by_cases typed : ∃ type ∈ typeName, type ≠ ""
  · obtain ⟨type, rfl, present⟩ := typed
    obtain ⟨called, named⟩ := resolve_type input base present
    have plain (whole : '/' ∉ type.toList) :
        components (join base (cut type).1) = components base := by
      rw [cut_of_not_mem whole]
      exact components_join_empty base
    rw [called, liesIn_join_iff named, replaces_join_iff shape named]
    simp only [Option.mem_some_iff, forall_eq', exists_eq_left', ne_eq, present,
      not_false_eq_true, true_and, and_true]
    exact ⟨fun same _ => same, fun same => (em _).elim same plain⟩
  · push Not at typed
    obtain ⟨lies, replaces⟩ :=
      resolve_stem found shape isName base .decompile ⟨nofun, nofun⟩ fun _ => typed
    refine ⟨iff_of_true lies fun type given separated => ?_, replaces.trans (iff_of_false ?_ ?_)⟩
    · rw [typed type given] at separated
      cases separated
    · have suffix : Mode.decompile.suffix = "." ++ "decompiled.cs" := by decide
      exact fun both => suffix_ne_ending suffix (by decide) both.2
    · rintro ⟨type, given, present, -⟩
      exact present (typed type given)

end Input

/-- A file lies right in its directory, unless it is called after a type whose name leads out of the
directory. The results take the place of the input exactly in the cases below. -/
theorem liesIn_and_replaces_iff {input name : String} (found : fileName? input = some name)
    (directory : Option String) (mode : Mode) (typeName : Option String) :
    ∃ own, parent? input = some own ∧
      (LiesIn (directory.getD own) (resolve input directory mode typeName) ↔
        (mode = .decompile → ∀ base ∈ directory, ∀ type ∈ typeName, '/' ∈ type.toList →
          components (join base (cut type).1) = components base)) ∧
      (Replaces input (resolve input directory mode typeName) ↔
        match mode, directory with
        | .project, some base => components base = components input
        | .project, none => (splitExtension name).2 = none
        | .symbols, none => (splitExtension name).2 = some "pdb" ∧ leavesParent input name = false
        | .symbols, some base =>
          components base = components own ∧ (splitExtension name).2 = some "pdb"
        | .listing, some base =>
          components base = components own ∧ (splitExtension name).2 = some "il"
        | .decompile, some base => ∃ type ∈ typeName, type ≠ "" ∧
          components (join base (cut type).1) = components own ∧
          (cut type).2 ++ ".decompiled.cs" = name
        | _, _ => False) := by
  obtain ⟨isName, own, above, shape⟩ := components_of_fileName? found
  have onConsole {directory : String} : LiesIn directory .console := nofun
  have inside {directory path : String} : LiesIn directory (.directory path) := nofun
  refine ⟨own, above, ?_⟩
  cases directory with
  | none =>
    have free : mode = .decompile → ∀ base ∈ (none : Option String), ∀ type ∈ typeName,
        '/' ∈ type.toList → components (join base (cut type).1) = components base := nofun
    cases mode with
    | project =>
      refine ⟨iff_of_true inside free, ?_⟩
      rw [resolve, above, Option.getD_some, stem_eq found]
      exact replaces_project_iff shape isName
    | symbols =>
      obtain ⟨lies, replaces⟩ := symbols_beside found above shape isName
      exact ⟨iff_of_true lies free, replaces⟩
    | entityList | listing | version | decompile => exact ⟨iff_of_true onConsole free, Iff.rfl⟩
  | some base =>
    cases mode with
    | project => exact ⟨iff_of_true inside nofun, Iff.rfl⟩
    | version => exact ⟨iff_of_true onConsole nofun, Iff.rfl⟩
    | entityList =>
      obtain ⟨lies, replaces⟩ :=
        resolve_stem found shape isName base .entityList ⟨nofun, nofun⟩ nofun
      have suffix : Mode.entityList.suffix = "." ++ "list.txt" := by decide
      refine ⟨iff_of_true lies nofun, replaces.trans (iff_of_false ?_ id)⟩
      exact fun both => suffix_ne_ending suffix (by decide) both.2
    | listing =>
      obtain ⟨lies, replaces⟩ :=
        resolve_stem found shape isName base .listing ⟨nofun, nofun⟩ nofun
      exact ⟨iff_of_true lies nofun, replaces.trans (and_congr_right' (eq_ending_iff (by decide)))⟩
    | symbols =>
      obtain ⟨lies, replaces⟩ :=
        resolve_stem found shape isName base .symbols ⟨nofun, nofun⟩ nofun
      exact ⟨iff_of_true lies nofun, replaces.trans (and_congr_right' (eq_ending_iff (by decide)))⟩
    | decompile =>
      obtain ⟨lies, replaces⟩ := resolve_decompile found shape isName base typeName
      refine ⟨lies.trans ⟨fun given _ other same => ?_, fun given => given rfl base rfl⟩, replaces⟩
      cases same
      exact given

/-- A nested type that is asked for by a plus sign gets a file in the directory. -/
theorem liesIn_and_replaces_iff_nested : fileName? "/in/My.Lib.dll" = some "My.Lib.dll" ∧
    LiesIn "/out"
      (resolve "/in/My.Lib.dll" (some "/out") .decompile (some "Sample.Outer+Inner")) ∧
    ¬Replaces "/in/My.Lib.dll"
      (resolve "/in/My.Lib.dll" (some "/out") .decompile (some "Sample.Outer+Inner")) := by
  have found : fileName? "/in/My.Lib.dll" = some "My.Lib.dll" := by decide +kernel
  obtain ⟨own, -, lies, replaces⟩ :=
    liesIn_and_replaces_iff found (some "/out") .decompile (some "Sample.Outer+Inner")
  refine ⟨found, lies.mpr ?_, mt replaces.mp ?_⟩
  · rintro - _ ⟨⟩ _ ⟨⟩ separated
    exact absurd separated (by decide)
  · rintro ⟨_, ⟨⟩, -, -, same⟩
    exact absurd same (by decide +kernel)

/-- The same type that is asked for by a slash gets a file in another directory. Symbols without a
directory take the place of an input that is called like symbols, and a project takes the place of
an input without an extension. -/
theorem resolve_leaves_directory :
    (Metadata.TypeQuery.ofText "Sample.Outer/Inner").text = "Sample.Outer/Inner" ∧
    (Metadata.TypeQuery.ofText "Sample.Outer/Inner").accepts "Sample.Outer+Inner" = true ∧
    resolve "/in/My.Lib.dll" (some "/out") .decompile (some "Sample.Outer/Inner") =
      .file "/out/Sample.Outer/Inner.decompiled.cs" ∧
    parent? "/out/Sample.Outer/Inner.decompiled.cs" = some "/out/Sample.Outer" ∧
    components "/out/Sample.Outer" ≠ components "/out" ∧
    fileName? "/in/My.pdb" = some "My.pdb" ∧
    resolve "/in/My.pdb" none .symbols none = .file "/in/My.pdb" ∧
    fileName? "Plain" = some "Plain" ∧
    resolve "Plain" none .project none = .directory "Plain" := by
  decide +kernel

end ClrDecompiler.Command.Route
