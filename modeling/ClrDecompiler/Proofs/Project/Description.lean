/-
This file reads the description of an assembly by the grammar of C# and shows when it says how the
assembly or the module is called.
-/

import ClrDecompiler.Project.Files
import ClrDecompiler.Proofs.Module.Resolution
import ClrDecompiler.Proofs.Source.Lexical
import ClrDecompiler.Proofs.Text.SingleLine

namespace ClrDecompiler.Project

open Metadata Source

/-- What a description says: title and version of an assembly, or a comment. -/
inductive Description where
  | attributes (title version : List UInt16)
  | comment (text : List Char)
  deriving DecidableEq, Repr

namespace Description

/-- The end of the line of the title, and the version in the last line. -/
def readVersion? (title : List UInt16) (text : List Char) : Option Description := do
  let (version, rest) ← readString? (← Text.after? ")]\n[assembly: AssemblyVersion(".toList text)
  if rest = ")]\n".toList then some (.attributes title version) else none

def readAttributes? (text : List Char) : Option Description := do
  let (title, rest) ← readString? (← Text.after? "[assembly: AssemblyTitle(".toList text)
  readVersion? title rest

/-- A comment in the last line. -/
def readNote? (text : List Char) : Option Description := do
  let (words, rest) ← readComment? text
  if rest = ['\n'] then some (.comment words) else none

/-- A directive and an empty line, and behind them an attribute for the title and one for the
version, or a comment. -/
def read? (text : String) : Option Description := do
  let rest ← Text.after? "using System.Reflection;\n\n".toList text.toList
  (readNote? rest).or (readAttributes? rest)

/-- What the description of a module has to say. -/
def ofModule (module : Module) : Description :=
  match module.identity with
  | some identity => .attributes (Utf16.encode identity.name) (Utf16.encode identity.version.text)
  | none => .comment (" " ++ module.fileName ++ " has no assembly manifest").toList

/-- What follows the title, from its closing quote on. -/
def behindTitle (version : List Char) : List Char :=
  ")]".toList ++ '\n' :: ("[assembly: AssemblyVersion(\"".toList ++
    (version ++ '"' :: (")]".toList ++ ['\n'])))

theorem readVersion?_behindTitle {version : List Char} (plain : ∀ c ∈ version, StandsForItself c)
    (title : List UInt16) : readVersion? title (behindTitle version) =
      some (.attributes title (version.flatMap Utf16.encodeChar)) := by
  have version : Text.after? ")]\n[assembly: AssemblyVersion(".toList (behindTitle version) =
      some ('"' :: (version ++ '"' :: (")]".toList ++ ['\n']))) :=
    Text.after?_append ")]\n[assembly: AssemblyVersion(".toList _
  rw [readVersion?, version, Option.bind_eq_bind, Option.bind_some, readString?,
    readBody_plain plain]
  rfl

/-- The attributes are read back exactly if all characters of the name stand for themselves. -/
theorem readAttributes?_eq_some_iff {name version : List Char}
    (plain : ∀ c ∈ version, StandsForItself c) :
    readAttributes? ("[assembly: AssemblyTitle(\"".toList ++ (name ++ '"' :: behindTitle version)) =
        some (.attributes (name.flatMap Utf16.encodeChar) (version.flatMap Utf16.encodeChar)) ↔
      ∀ c ∈ name, StandsForItself c := by
  have opened : readAttributes?
      ("[assembly: AssemblyTitle(\"".toList ++ (name ++ '"' :: behindTitle version)) =
      (readBody (name ++ '"' :: behindTitle version)).bind fun (title, rest) =>
        readVersion? title rest := rfl
  rw [opened]
  constructor
  · intro read
    obtain ⟨⟨title, rest⟩, body, later⟩ := Option.bind_eq_some_iff.mp read
    have same : title = name.flatMap Utf16.encodeChar := by
      unfold readVersion? at later
      simp only [Option.bind_eq_bind, Option.bind_eq_some_iff, Option.ite_none_right_eq_some,
        Option.some_inj, Description.attributes.injEq] at later
      obtain ⟨_, -, _, -, -, same, -⟩ := later
      exact same
    rw [same] at body
    exact standForThemselves_of_readBody (by decide) (by decide) body
  · intro itself
    rw [readBody_plain itself, Option.bind_some]
    exact readVersion?_behindTitle plain _

theorem readNote?_attribute (rest : List Char) :
    readNote? ("[assembly: AssemblyTitle(\"".toList ++ rest) = none := rfl

theorem readAttributes?_comment (rest : List Char) :
    readAttributes? ("// ".toList ++ rest) = none := rfl

/-- The note is read back exactly if no line ends in the name. -/
theorem readNote?_eq_some_iff (name : List Char) :
    readNote? ("// ".toList ++ (name ++ (" has no assembly manifest".toList ++ ['\n']))) =
        some (.comment (' ' :: (name ++ " has no assembly manifest".toList))) ↔
      ∀ c ∈ name, isLineEnd c = false := by
  have shape : "// ".toList ++ (name ++ (" has no assembly manifest".toList ++ ['\n'])) =
      '/' :: '/' :: (' ' :: (name ++ " has no assembly manifest".toList) ++ ['\n']) := by
    rw [List.cons_append, List.append_assoc]
    rfl
  have others : ∀ c ∈ " has no assembly manifest".toList, isLineEnd c = false :=
    List.all_iff_forall_prop.mp (by decide)
  have found (words : List Char) : readNote? ('/' :: '/' :: (words ++ ['\n'])) =
      some (.comment words) ↔ ∀ c ∈ words, isLineEnd c = false := by
    rw [← @readComment?_eq_some_iff words [] '\n' (by decide), readNote?]
    simp only [Option.bind_eq_bind, Option.bind_eq_some_iff, Option.ite_none_right_eq_some,
      Option.some_inj, Description.comment.injEq, Prod.exists]
    constructor
    · rintro ⟨_, _, read, rfl, rfl⟩
      exact read
    · exact fun read => ⟨_, _, read, rfl, rfl⟩
  rw [shape, found, List.forall_mem_cons, List.forall_mem_append]
  exact ⟨fun single => single.2.1, fun single => ⟨by decide, single, others⟩⟩

/-- With an identity the file consists of attributes. -/
theorem toList_assemblyInfo_of_some {module : Module} {identity : AssemblyIdentity}
    (known : module.identity = some identity) : (assemblyInfo module).toList =
      "using System.Reflection;\n\n".toList ++ ("[assembly: AssemblyTitle(\"".toList ++
        (identity.name.toList ++ '"' :: behindTitle identity.version.text.toList)) := by
  have closed : "\")]\n".toList = '"' :: (")]".toList ++ ['\n']) := rfl
  unfold assemblyInfo behindTitle
  simp only [known, String.toList_append, closed, List.append_assoc, List.cons_append,
    List.nil_append]

/-- Without one it consists of a note. -/
theorem toList_assemblyInfo_of_none {module : Module} (unknown : module.identity = none) :
    (assemblyInfo module).toList = "using System.Reflection;\n\n".toList ++ ("// ".toList ++
      (module.fileName.toList ++ (" has no assembly manifest".toList ++ ['\n']))) := by
  have closed : " has no assembly manifest\n".toList =
      " has no assembly manifest".toList ++ ['\n'] := rfl
  unfold assemblyInfo
  simp only [unknown, String.toList_append, closed, List.append_assoc]

theorem standForThemselves_version (version : Version) :
    ∀ c ∈ version.text.toList, StandsForItself c := by
  have digit (value : Nat) : StandsForItself (Nat.digitChar value) := by
    match value with
    | 0 | 1 | 2 | 3 | 4 | 5 | 6 | 7 | 8 | 9 | 10 | 11 | 12 | 13 | 14 | 15 => decide
    | rest + 16 =>
      rw [Nat.digitChar_eq_star.mpr (Nat.le_add_left 16 rest)]
      decide
  have number (value : UInt16) : ∀ c ∈ (toString value).toList, StandsForItself c := by
    intro c member
    change c ∈ (toString value.toNat).toList at member
    rw [Nat.toString_eq_repr, Nat.toList_repr] at member
    obtain ⟨value, rfl⟩ := Text.exists_digitChar_of_mem member
    exact digit value
  have point : ∀ c ∈ ".".toList, StandsForItself c :=
    List.all_iff_forall_prop.mp (by decide)
  rw [Version.text]
  simp only [String.toList_append, List.forall_mem_append]
  exact ⟨⟨⟨⟨⟨⟨number _, point⟩, number _⟩, point⟩, number _⟩, point⟩, number _⟩

theorem countP_attributes (name version : List Char) :
    ("using System.Reflection;\n\n".toList ++ ("[assembly: AssemblyTitle(\"".toList ++
      (name ++ '"' :: behindTitle version))).countP isLineEnd =
      4 + name.countP isLineEnd + version.countP isLineEnd := by
  have directive : "using System.Reflection;\n\n".toList.countP isLineEnd = 2 := by decide
  have title : "[assembly: AssemblyTitle(\"".toList.countP isLineEnd = 0 := by decide
  have next : ('"' :: (")]".toList ++ '\n' :: "[assembly: AssemblyVersion(\"".toList)).countP
      isLineEnd = 1 := by decide
  have last : ('"' :: (")]".toList ++ ['\n'])).countP isLineEnd = 1 := by decide
  have behind : '"' :: behindTitle version =
      '"' :: (")]".toList ++ '\n' :: "[assembly: AssemblyVersion(\"".toList) ++
        (version ++ '"' :: (")]".toList ++ ['\n'])) := by
    simp only [behindTitle, List.cons_append, List.append_assoc]
  rw [behind]
  simp only [List.countP_append, directive, title, next, last]
  omega

theorem countP_comment (name : List Char) :
    ("using System.Reflection;\n\n".toList ++ ("// ".toList ++
      (name ++ (" has no assembly manifest".toList ++ ['\n'])))).countP isLineEnd =
      3 + name.countP isLineEnd := by
  have directive : "using System.Reflection;\n\n".toList.countP isLineEnd = 2 := by decide
  have slashes : "// ".toList.countP isLineEnd = 0 := by decide
  have last : (" has no assembly manifest".toList ++ ['\n']).countP isLineEnd = 1 := by decide
  rw [List.countP_append, List.countP_append, List.countP_append, directive, slashes, last]
  omega

/-- The description says how the assembly or the module is called exactly if all characters of the
assembly name stand for themselves in a string literal, or, for a module without a manifest, if its
file name has no line end. It has a fixed number of line ends and those of the name. -/
theorem read?_assemblyInfo_iff (module : Module) :
    (read? (assemblyInfo module) = some (ofModule module) ↔ match module.identity with
      | some identity => ∀ c ∈ identity.name.toList, StandsForItself c
      | none => ∀ c ∈ module.fileName.toList, isLineEnd c = false) ∧
    (assemblyInfo module).toList.countP isLineEnd = match module.identity with
      | some identity => 4 + identity.name.toList.countP isLineEnd
      | none => 3 + module.fileName.toList.countP isLineEnd := by
  rw [ofModule]
  cases known : module.identity with
  | some identity =>
    have written := toList_assemblyInfo_of_some known
    have plain := standForThemselves_version identity.version
    dsimp only
    constructor
    · rw [read?, written, Text.after?_append, Option.bind_eq_bind, Option.bind_some,
        readNote?_attribute, Option.none_or]
      exact readAttributes?_eq_some_iff plain
    · have version : identity.version.text.toList.countP isLineEnd = 0 := by
        rw [List.countP_eq_zero]
        exact fun c member => Bool.eq_false_iff.mp (plain c member).2.2
      rw [written, countP_attributes, version, Nat.add_zero]
  | none =>
    have written := toList_assemblyInfo_of_none known
    dsimp only
    constructor
    · rw [read?, written, Text.after?_append, Option.bind_eq_bind, Option.bind_some,
        readAttributes?_comment, Option.or_none, ← readNote?_eq_some_iff,
        String.toList_append, String.toList_append, List.append_assoc]
      rfl
    · rw [written, countP_comment]

/-- A module with an assembly name. -/
def namedModule (name : String) : Module :=
  { Module.ofNames [] with identity := some ⟨name, ⟨1, 0, 0, 0⟩, none, none⟩ }

/-- A quote in the name of an assembly ends the literal of its title, and a line feed in the file
name of a module ends the comment. -/
theorem names_break_description :
    (assemblyInfo (namedModule "a\"b") = "using System.Reflection;\n\n" ++
      "[assembly: AssemblyTitle(\"a\"b\")]\n[assembly: AssemblyVersion(\"1.0.0.0\")]\n" ∧
      read? (assemblyInfo (namedModule "a\"b")) = none) ∧
    assemblyInfo { Module.ofNames [] with path := "a\nb.dll" } =
      "using System.Reflection;\n\n// a\nb.dll has no assembly manifest\n" ∧
    read? (assemblyInfo { Module.ofNames [] with path := "a\nb.dll" }) = none := by
  decide +kernel

end Description

end ClrDecompiler.Project
