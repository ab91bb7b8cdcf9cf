/-
This file says what the lines of a listing start with, so that lines of one kind can be told from
those of another.
-/

import ClrDecompiler.Listing.Module
import Mathlib.Data.List.Infix

namespace ClrDecompiler.Listing

open Metadata Signature Source Symbols

/-- Whether a line starts, after its indentation, with one of some texts. A blank line starts with
its end. -/
def startsWith (starts : List String) (line : Line) : Bool :=
  starts.any fun start => start.toList.isPrefixOf (line.content.toList ++ ['\n'])

/-- No text of one list is the start of a text of the other. -/
def apart (first second : List String) : Bool :=
  first.all fun left => second.all fun right =>
    !left.toList.isPrefixOf right.toList && !right.toList.isPrefixOf left.toList

variable {starts first second : List String}

/-- A line is compared with its end, so that a start can ask for a blank line. -/
theorem startsWith_iff (line : Line) : startsWith starts line = true ↔
    ∃ start ∈ starts, start.toList <+: line.content.toList ++ ['\n'] := by
  simp only [startsWith, List.any_eq_true, List.isPrefixOf_iff_prefix]

/-- More starts let through more lines. -/
theorem startsWith_mono (within : first ⊆ second) {line : Line}
    (starting : startsWith first line = true) : startsWith second line = true := by
  obtain ⟨start, member, begins⟩ := (startsWith_iff line).mp starting
  exact (startsWith_iff line).mpr ⟨start, within member, begins⟩

/-- A line starts with what the text at its front starts with. -/
theorem startsWith_append {text : String}
    (begins : (starts.any fun start => start.toList.isPrefixOf text.toList) = true)
    (rest : String) : startsWith starts (Line.plain (text ++ rest)) = true := by
  obtain ⟨start, member, starting⟩ := List.any_eq_true.mp begins
  refine (startsWith_iff _).mpr ⟨start, member, ?_⟩
  show start.toList <+: (text ++ rest).toList ++ ['\n']
  rw [String.toList_append, List.append_assoc]
  exact (List.isPrefixOf_iff_prefix.mp starting).trans (List.prefix_append _ _)

/-- Words start with the first of them. -/
theorem startsWith_words {word : String}
    (begins : (starts.any fun start => start.toList.isPrefixOf word.toList) = true)
    (more : List String) : startsWith starts (Line.plain (words (word :: more))) = true := by
  have begun : ∃ rest, words (word :: more) = word ++ rest := by
    by_cases last : more = []
    · exact ⟨"", by rw [words, last, String.intercalate_singleton, String.append_empty]⟩
    · exact ⟨" " ++ " ".intercalate more,
        by rw [words, String.intercalate_cons_of_ne_nil last, String.append_assoc]⟩
  obtain ⟨rest, same⟩ := begun
  rw [same]
  exact startsWith_append begins rest

/-- A line has only one start among texts that are apart. -/
theorem startsWith_eq_false (different : apart first second = true) {line : Line}
    (starting : startsWith first line = true) : startsWith second line = false := by
  rw [Bool.eq_false_iff, Ne, startsWith_iff]
  rintro ⟨right, rightMember, rightBegins⟩
  obtain ⟨left, leftMember, leftBegins⟩ := (startsWith_iff line).mp starting
  have neither := List.all_eq_true.mp (List.all_eq_true.mp different left leftMember) right
    rightMember
  simp only [Bool.and_eq_true, Bool.not_eq_true', Bool.eq_false_iff, Ne,
    List.isPrefixOf_iff_prefix] at neither
  rcases List.prefix_or_prefix_of_prefix leftBegins rightBegins with shorter | longer
  · exact neither.1 shorter
  · exact neither.2 longer

/-! The kinds of lines. -/

theorem typeHeader_startsWith (definition : TypeDefinition) :
    startsWith [".class"] (Line.plain (typeHeader definition)) = true := by
  simp only [typeHeader, List.append_assoc, List.cons_append]
  exact startsWith_words (by decide) _

theorem baseLines_startsWith (module : Module) (definition : TypeDefinition) :
    ∀ line ∈ baseLines module definition, startsWith ["\t"] line = true := by
  intro line member
  rcases List.mem_append.mp member with extended | implemented
  · obtain ⟨base, -, rfl⟩ := List.mem_map.mp extended
    exact startsWith_append (by decide) _
  · split at implemented
    · cases implemented
    · cases List.mem_singleton.mp implemented
      exact startsWith_append (by decide) _

theorem fieldLine_startsWith (module : Module) (definition : TypeDefinition)
    (field : FieldDefinition) :
    startsWith [".field"] (fieldLine module definition field) = true := by
  simp only [fieldLine, List.append_assoc, List.cons_append]
  exact startsWith_words (by decide) _

theorem methodHeader_startsWith (module : Module) (definition : TypeDefinition)
    (method : MethodDefinition) :
    startsWith [".method"] (Line.plain (methodHeader module definition method)) = true := by
  simp only [methodHeader, List.append_assoc, List.cons_append]
  exact startsWith_words (by decide) _

/-- Local variables are listed between brackets. -/
theorem localLines_startsWith (module : Module) (names : Module.GenericNames)
    (body : Cil.MethodBody) :
    ∀ line ∈ localLines module names body, startsWith [".locals", "\t", ")"] line = true := by
  rw [localLines]
  cases module.locals? ⟨body.localsToken⟩ with
  | none => exact fun _ member => absurd member List.not_mem_nil
  | some locals =>
    have indented : ∀ text ∈ locals.mapIdx fun index type =>
        "\t[" ++ toString index ++ "] " ++ spell module names type,
        ∃ rest, text = "\t" ++ rest := by
      intro text member
      obtain ⟨index, inside, rfl⟩ := List.mem_mapIdx.mp member
      exact ⟨"[" ++ (toString index ++ ("] " ++ spell module names locals[index])),
        by simp only [← String.append_assoc]; rfl⟩
    simp only [List.forall_mem_map, List.forall_mem_append, List.forall_mem_cons]
    refine ⟨⟨⟨startsWith_words (by decide) _, ?_⟩, ?_⟩, by decide, List.forall_mem_nil _⟩
    · intro text member
      obtain ⟨rest, rfl⟩ := indented text (List.mem_of_mem_dropLast member)
      rw [String.append_assoc]
      exact startsWith_append (by decide) _
    · intro text member
      obtain ⟨rest, rfl⟩ := indented text (List.mem_of_getLast? (Option.mem_toList.mp member))
      exact startsWith_append (by decide) _

theorem pointText_startsWith (symbols : DebugInfo) (point : SequencePoint) :
    startsWith ["// sequence point: "] (Line.plain (pointText symbols point)) = true := by
  rw [pointText]
  split
  · decide
  · simp only [String.append_assoc]
    exact startsWith_append (by decide) _

theorem instructionText_startsWith (module : Module) (definition : TypeDefinition)
    (method : MethodDefinition) (instruction : Cil.Instruction) :
    startsWith ["IL_"] (Line.plain (instructionText module definition method instruction)) =
      true := by
  rw [instructionText]
  split <;>
  · simp only [Cil.label, String.append_assoc]
    exact startsWith_append (by decide) _

theorem pointLines_startsWith (options : Options) (method : MethodDefinition) (offset : Nat) :
    ∀ line ∈ pointLines options method offset, startsWith ["// sequence point: "] line = true := by
  rw [pointLines]
  split
  · exact List.forall_mem_nil _
  · exact List.forall_mem_map.mpr fun point _ => pointText_startsWith _ point

theorem clauseLine_startsWith (module : Module) (names : Module.GenericNames)
    (clause : Cil.ExceptionClause) :
    startsWith [".try"] (clauseLine module names clause) = true :=
  startsWith_words (by decide) _

/-- The lines at the head of a method body. -/
def bodyHead (module : Module) (names : Module.GenericNames) (method : MethodDefinition)
    (body : Cil.MethodBody) : List Line :=
  ["// Method begins at RVA 0x" ++ Hex.lower 1 method.address.toNat,
    "// Code size " ++ toString body.code.size ++ " (0x" ++ Hex.lower 1 body.code.size ++ ")",
    ".maxstack " ++ toString body.maxStack].map Line.plain ++ localLines module names body ++
    [Line.blank]

/-- The output of a body is its head and the output of its code. -/
theorem bodyOutput_eq (module : Module) (options : Options) (definition : TypeDefinition)
    (method : MethodDefinition) (body : Cil.MethodBody) :
    bodyOutput module options definition method body =
      namesOutput module (localTokens module body) ++
        Output.ofLines (bodyHead module (.ofMethod definition method) method body) ++
        match Cil.decode body.code with
        | .error fault => Output.failed fault
        | .ok instructions =>
          namesOutput module (codeTokens module body instructions) ++ Output.ofLines (
            instructions.flatMap (instructionLines module options definition method) ++
            body.clauses.map (clauseLine module (.ofMethod definition method))) := rfl

/-- What the lines at the head of a method body start with. -/
def bodyStarts : List String :=
  ["// Method begins at ", "// Code size ", ".maxstack ", ".locals", "\t", ")", "\n"]

theorem bodyHead_startsWith (module : Module) (names : Module.GenericNames)
    (method : MethodDefinition) (body : Cil.MethodBody) :
    ∀ line ∈ bodyHead module names method body, startsWith bodyStarts line = true := by
  simp only [bodyHead, List.map_cons, List.map_nil, List.forall_mem_append, List.forall_mem_cons,
    String.append_assoc]
  refine ⟨⟨⟨startsWith_append (by decide) _, startsWith_append (by decide) _,
    startsWith_append (by decide) _, List.forall_mem_nil _⟩, ?_⟩, by decide, List.forall_mem_nil _⟩
  exact fun line member =>
    startsWith_mono (by decide) (localLines_startsWith module names body line member)

theorem methodEnd_startsWith (definition : TypeDefinition) (method : MethodDefinition) :
    startsWith ["\x7d // end of method "] (Line.plain
      ("\x7d // end of method " ++ definition.displayName ++ "::" ++ method.name)) = true := by
  simp only [String.append_assoc]
  exact startsWith_append (by decide) _

/-- The lines of the fields of a type and the blank line between them and the methods. -/
def fieldLines (module : Module) (definition : TypeDefinition) : List Line :=
  let fields := definition.fields.map (fieldLine module definition)
  fields ++ if fields.isEmpty || definition.methods.isEmpty then [] else [Line.blank]

/-- The output of members is that of the fields and that of the methods. -/
theorem memberOutput_eq (module : Module) (options : Options) (definition : TypeDefinition) :
    memberOutput module options definition =
      namesOutput module (definition.fields.flatMap (·.type.tokens)) ++
        Output.ofLines (fieldLines module definition) ++
        separated (definition.methods.map (methodOutput module options definition)) := rfl

theorem fieldLines_startsWith (module : Module) (definition : TypeDefinition) :
    ∀ line ∈ fieldLines module definition, startsWith [".field", "\n"] line = true := by
  simp only [fieldLines, List.forall_mem_append, List.forall_mem_map]
  refine ⟨fun field _ => startsWith_mono (by decide) (fieldLine_startsWith module definition field),
    ?_⟩
  split <;> decide

theorem typeEnd_startsWith (definition : TypeDefinition) :
    startsWith ["\x7d // end of class "] (Line.plain
      ("\x7d // end of class " ++ typeName definition)) = true :=
  startsWith_append (by decide) _

/-- What the lines before the types start with, but the line that names the symbols. -/
def manifestStarts : List String :=
  [".assembly ", "\x7b\n", "\t", "\x7d\n", ".module ", "// MVID: ", ".imagebase ", "\n"]

theorem referenceLines_startsWith (reference : AssemblyIdentity) :
    ∀ line ∈ referenceLines reference, startsWith manifestStarts line = true := by
  simp only [referenceLines, List.forall_mem_map, List.forall_mem_append, List.forall_mem_cons,
    String.append_assoc]
  exact ⟨⟨⟨startsWith_append (by decide) _, by decide, List.forall_mem_nil _⟩,
    fun _ _ => startsWith_append (by decide) _⟩,
    startsWith_append (by decide) _, by decide, List.forall_mem_nil _⟩

theorem identityLines_startsWith (identity : AssemblyIdentity) :
    ∀ line ∈ identityLines identity, startsWith manifestStarts line = true := by
  simp only [identityLines, List.forall_mem_map, List.forall_mem_cons]
  exact ⟨startsWith_append (by decide) _, by decide, startsWith_append (by decide) _, by decide,
    List.forall_mem_nil _⟩

/-- The lines before the types, up to the one that names the symbols. -/
def manifestFront (module : Module) : List Line :=
  module.references.flatMap referenceLines ++ module.identity.toList.flatMap identityLines ++
    ([".module " ++ module.name] ++
      module.mvid.toList.map (fun mvid => "// MVID: " ++ identifierText mvid) ++
      [".imagebase 0x" ++ Hex.lower 8 module.image.header.imageBase]).map Line.plain

/-- The symbols are described in one line of the manifest. -/
theorem manifestLines_eq (module : Module) (options : Options) :
    manifestLines module options = manifestFront module ++
      (options.symbols.toList.map fun symbols =>
        Line.plain ("// Symbols: " ++ symbols.description)) ++ [Line.blank] := by
  simp only [manifestLines, manifestFront, List.map_append, List.append_assoc, List.map_map]
  rfl

theorem manifestFront_startsWith (module : Module) :
    ∀ line ∈ manifestFront module, startsWith manifestStarts line = true := by
  simp only [manifestFront, List.forall_mem_append, List.forall_mem_flatMap, List.forall_mem_map,
    List.forall_mem_cons]
  exact ⟨⟨fun reference _ => referenceLines_startsWith reference,
      fun identity _ => identityLines_startsWith identity⟩,
    ⟨⟨startsWith_append (by decide) _, List.forall_mem_nil _⟩,
      fun _ _ => startsWith_append (by decide) _⟩,
    startsWith_append (by decide) _, List.forall_mem_nil _⟩

end ClrDecompiler.Listing
