/-
This file compares the listing that shows the sequence points of symbols with the listing without
them.
-/

import ClrDecompiler.Proofs.Listing.LineStart
import ClrDecompiler.Proofs.Listing.Output
import ClrDecompiler.Proofs.Outcome
import ClrDecompiler.Proofs.Source.LineText
import ClrDecompiler.Proofs.Text.SingleLine
import ClrDecompiler.Symbols.Builder

namespace ClrDecompiler.Listing

open Metadata Source Symbols

/-! Lines that symbols add. -/

/-- What the lines that show something of the symbols start with. -/
def noteStarts : List String :=
  ["// Symbols: ", "// sequence point: "]

/-- Whether a line names the symbols or shows a sequence point of theirs. -/
def isNote (symbols : DebugInfo) (line : Line) : Bool :=
  line.content == "// Symbols: " ++ symbols.description ||
    symbols.methods.toList.any fun points =>
      points.any fun point => line.content == pointText symbols point

theorem isNote_iff (symbols : DebugInfo) (line : Line) : isNote symbols line = true ↔
    line.content = "// Symbols: " ++ symbols.description ∨
      ∃ points ∈ symbols.methods.toList, ∃ point ∈ points,
        line.content = pointText symbols point := by
  simp only [isNote, Bool.or_eq_true, beq_iff_eq, List.any_eq_true]

/-- A note starts as no other line does. -/
theorem isNote_startsWith {symbols : DebugInfo} {line : Line} (note : isNote symbols line = true) :
    startsWith noteStarts line = true := by
  have sameStart (other : Line) (same : line.content = other.content) :
      startsWith noteStarts line = startsWith noteStarts other := by
    rw [startsWith, startsWith, same]
  rcases (isNote_iff symbols line).mp note with named | ⟨points, -, point, -, shown⟩
  · rw [sameStart (Line.plain _) named]
    exact startsWith_append (by decide) _
  · rw [sameStart (Line.plain _) shown]
    exact startsWith_mono (by decide) (pointText_startsWith symbols point)

/-- A line is kept without the symbols. -/
def isOwn (symbols : DebugInfo) (line : Line) : Bool :=
  !isNote symbols line

variable {symbols : DebugInfo} {module : Module} {definition : TypeDefinition}
  {method : MethodDefinition}

/-- A line that starts otherwise is no note. -/
theorem isOwn_of_startsWith {starts : List String} (different : apart starts noteStarts = true)
    {line : Line} (starting : startsWith starts line = true) : isOwn symbols line = true := by
  rw [isOwn, Bool.not_eq_true', Bool.eq_false_iff]
  intro note
  have found := isNote_startsWith note
  rw [startsWith_eq_false different starting] at found
  cases found

/-- Lines that start otherwise are all kept. -/
theorem keep_own {starts : List String} {lines : List Line}
    (starting : ∀ line ∈ lines, startsWith starts line = true)
    (different : apart starts noteStarts = true) :
    (Output.ofLines lines).keep (isOwn symbols) = Output.ofLines lines := by
  rw [Output.keep_ofLines, List.filter_eq_self.mpr]
  exact fun line member => isOwn_of_startsWith different (starting line member)

theorem keep_own_line {line : Line} (own : isOwn symbols line = true) :
    (Output.ofLines [line]).keep (isOwn symbols) = Output.ofLines [line] := by
  rw [Output.keep_ofLines, List.filter_cons_of_pos own]
  rfl

/-- The lines of sequence points are notes. -/
theorem filter_pointLines (symbols : DebugInfo) (cancelled : Bool) (method : MethodDefinition)
    (offset : Nat) :
    (pointLines ⟨some symbols, cancelled⟩ method offset).filter (isOwn symbols) = [] := by
  rw [List.filter_eq_nil_iff]
  intro line member
  obtain ⟨point, inside, rfl⟩ := List.mem_map.mp member
  have listed := (List.mem_filter.mp inside).1
  rw [DebugInfo.pointsOf] at listed
  split at listed
  · cases listed
  · rename_i index _
    cases found : symbols.methods[index]? with
    | none =>
      rw [found] at listed
      cases listed
    | some points =>
      rw [found] at listed
      have note : isNote symbols (Line.plain (pointText symbols point)) = true :=
        (isNote_iff symbols _).mpr (.inr ⟨points,
          Array.mem_toList_iff.mpr (Array.mem_of_getElem? found), point, listed, rfl⟩)
      rw [isOwn, note]
      exact Bool.false_ne_true

/-- The lines of an instruction without those of its sequence points. -/
theorem filter_instructionLines (module : Module) (symbols : DebugInfo) (cancelled : Bool)
    (definition : TypeDefinition) (method : MethodDefinition) (instruction : Cil.Instruction) :
    (instructionLines module ⟨some symbols, cancelled⟩ definition method instruction).filter
        (isOwn symbols) =
      instructionLines module ⟨none, cancelled⟩ definition method instruction := by
  have own : isOwn symbols (Line.plain (instructionText module definition method instruction)) =
      true :=
    isOwn_of_startsWith (by decide)
      (instructionText_startsWith module definition method instruction)
  rw [instructionLines, List.filter_append, filter_pointLines, List.filter_cons_of_pos own]
  rfl

/-- Without its notes a body is listed as without symbols. -/
theorem keep_bodyOutput (module : Module) (symbols : DebugInfo) (cancelled : Bool)
    (definition : TypeDefinition) (method : MethodDefinition) (body : Cil.MethodBody) :
    (bodyOutput module ⟨some symbols, cancelled⟩ definition method body).keep (isOwn symbols) =
      bodyOutput module ⟨none, cancelled⟩ definition method body := by
  have head := bodyHead_startsWith module (.ofMethod definition method) method body
  rw [bodyOutput_eq, bodyOutput_eq, Output.keep_append, Output.keep_append, keep_namesOutput,
    keep_own head (by decide)]
  congr 1
  cases Cil.decode body.code with
  | error fault => rfl
  | ok instructions =>
    have clauses : (body.clauses.map (clauseLine module (.ofMethod definition method))).filter
        (isOwn symbols) = body.clauses.map (clauseLine module (.ofMethod definition method)) :=
      List.filter_eq_self.mpr (List.forall_mem_map.mpr fun clause _ =>
        isOwn_of_startsWith (by decide) (clauseLine_startsWith module _ clause))
    simp only [Output.keep_append, keep_namesOutput, Output.keep_ofLines, List.filter_append,
      List.filter_flatMap, filter_instructionLines, clauses]

theorem isOwn_indent (line : Line) : isOwn symbols line.indent = isOwn symbols line := rfl

/-- Without its notes a method is listed as without symbols. -/
theorem keep_methodOutput (module : Module) (symbols : DebugInfo) (cancelled : Bool)
    (definition : TypeDefinition) (method : MethodDefinition) :
    (methodOutput module ⟨some symbols, cancelled⟩ definition method).keep (isOwn symbols) =
      methodOutput module ⟨none, cancelled⟩ definition method := by
  have entry : ∀ line ∈ (wordsIf (module.entryPoint == some method.token) [".entrypoint"]).map
      Line.plain, startsWith [".entrypoint"] line = true := by
    cases module.entryPoint == some method.token <;> decide
  have head : ∀ line ∈ [Line.declaring method.token (methodHeader module definition method),
      Line.plain "\x7b"], startsWith [".method", "\x7b"] line = true :=
    List.forall_mem_cons.mpr ⟨startsWith_mono (by decide)
      (methodHeader_startsWith module definition method), by decide⟩
  have tail : isOwn symbols (Line.plain _) = true :=
    isOwn_of_startsWith (by decide) (methodEnd_startsWith definition method)
  cases cancelled with
  | true => rfl
  | false =>
    simp only [methodOutput, Bool.false_eq_true, if_false, Output.keep_append, keep_namesOutput,
      Output.keep_indent isOwn_indent, keep_own entry (by decide), keep_own head (by decide),
      keep_own_line tail]
    cases method.body with
    | none => rfl
    | some body => simp only [keep_bodyOutput]

theorem isOwn_blank : isOwn symbols Line.blank = true :=
  isOwn_of_startsWith (by decide : apart ["\n"] noteStarts = true) (by decide)

/-- Without their notes the members are listed as without symbols. -/
theorem keep_memberOutput (module : Module) (symbols : DebugInfo) (cancelled : Bool)
    (definition : TypeDefinition) :
    (memberOutput module ⟨some symbols, cancelled⟩ definition).keep (isOwn symbols) =
      memberOutput module ⟨none, cancelled⟩ definition := by
  rw [memberOutput_eq, memberOutput_eq, Output.keep_append, Output.keep_append, keep_namesOutput,
    keep_own (fieldLines_startsWith module definition) (by decide),
    Output.keep_separated isOwn_blank, List.map_map]
  congr 2
  exact List.map_congr_left fun method _ =>
    keep_methodOutput module symbols cancelled definition method

/-- Without its notes a type is listed as without symbols. -/
theorem keep_typeOutput (module : Module) (symbols : DebugInfo) (cancelled : Bool) (bound : Nat)
    (definition : TypeDefinition) :
    (typeOutput module ⟨some symbols, cancelled⟩ bound definition).keep (isOwn symbols) =
      typeOutput module ⟨none, cancelled⟩ bound definition := by
  induction bound generalizing definition with
  | zero => rfl
  | succ bound ih =>
    have head : ∀ line ∈ Line.plain (typeHeader definition) :: baseLines module definition ++
        [Line.plain "\x7b"], startsWith [".class", "\t", "\x7b"] line = true := by
      simp only [List.forall_mem_append, List.forall_mem_cons]
      exact ⟨⟨startsWith_mono (by decide) (typeHeader_startsWith definition),
        fun line member => startsWith_mono (by decide)
          (baseLines_startsWith module definition line member)⟩, by decide, List.forall_mem_nil _⟩
    have tail : isOwn symbols (Line.plain _) = true :=
      isOwn_of_startsWith (by decide) (typeEnd_startsWith definition)
    cases cancelled with
    | true => rfl
    | false =>
      simp only [typeOutput, Bool.false_eq_true, if_false, Output.keep_append, keep_namesOutput,
        Output.keep_indent isOwn_indent, Output.keep_concat, List.map_map, Function.comp_def, ih,
        keep_own_line isOwn_blank, keep_memberOutput, keep_own head (by decide),
        keep_own_line tail]

/-- The description of the symbols is the only note of the manifest. -/
theorem filter_manifestLines (module : Module) (symbols : DebugInfo) (cancelled : Bool) :
    (manifestLines module ⟨some symbols, cancelled⟩).filter (isOwn symbols) =
      manifestLines module ⟨none, cancelled⟩ := by
  have front : (manifestFront module).filter (isOwn symbols) = manifestFront module :=
    List.filter_eq_self.mpr fun line member =>
      isOwn_of_startsWith (by decide) (manifestFront_startsWith module line member)
  have named : isOwn symbols (Line.plain ("// Symbols: " ++ symbols.description)) = false := by
    rw [isOwn, (isNote_iff symbols _).mpr (.inl rfl), Bool.not_true]
  simp [manifestLines_eq, front, isOwn_blank, named]

/-- The listing without the lines that the symbols add is the listing without symbols. -/
theorem keep_ofModule (module : Module) (symbols : DebugInfo) (cancelled : Bool) :
    (ofModule module ⟨some symbols, cancelled⟩).keep (isOwn symbols) =
      ofModule module ⟨none, cancelled⟩ := by
  simp only [ofModule, Output.keep_append, Output.keep_concat, List.map_map, Function.comp_def,
    keep_typeOutput, keep_own_line isOwn_blank]
  rw [Output.keep_ofLines, filter_manifestLines]

/-! The text of a listing, line by line. -/

/-- A line of text is a comment if it starts with two slashes after its tabs. -/
def isComment (text : String) : Bool :=
  ['/', '/'].isPrefixOf (text.toList.dropWhile (· == '\t'))

/-- The second text has all lines of the first and otherwise comments. The texts end alike, so that
every comment is a whole line. -/
inductive AddsComments : List String → List String → Prop
  | last (line : String) : AddsComments [line] [line]
  | kept (line : String) {plain shown : List String} :
    AddsComments plain shown → AddsComments (line :: plain) (line :: shown)
  | added {line : String} {plain shown : List String} :
    isComment line = true → AddsComments plain shown → AddsComments plain (line :: shown)

namespace AddsComments

variable {plain shown : List String}

/-- Lines in front of both texts leave the difference as it is. -/
theorem append_kept (adds : AddsComments plain shown) :
    ∀ lines : List String, AddsComments (lines ++ plain) (lines ++ shown)
  | [] => adds
  | line :: rest => .kept line (append_kept adds rest)

/-- So do comments in front of the second one. -/
theorem append_added (adds : AddsComments plain shown) :
    ∀ {lines : List String}, (∀ line ∈ lines, isComment line = true) →
      AddsComments plain (lines ++ shown)
  | [], _ => adds
  | _ :: _, comments =>
    .added (comments _ List.mem_cons_self)
      (append_added adds fun line member => comments line (List.mem_cons_of_mem _ member))

/-- Lines that are no comments are neither lost nor added. -/
theorem countP_eq (adds : AddsComments plain shown) :
    plain.countP (!isComment ·) = shown.countP (!isComment ·) := by
  induction adds with
  | last line => rfl
  | kept line _ ih => rw [List.countP_cons, List.countP_cons, ih]
  | added comment _ ih =>
    rw [ih, List.countP_cons_of_neg]
    rw [comment]
    exact Bool.false_ne_true

end AddsComments

theorem isComment_indented (depth : Nat) (text : List Char) :
    isComment (String.ofList (List.replicate depth '\t' ++ text)) =
      isComment (String.ofList text) := by
  have tabs : ∀ c ∈ List.replicate depth '\t', (c == '\t') = true := by
    intro c member
    rw [List.eq_of_mem_replicate member]
    rfl
  rw [isComment, isComment, String.toList_ofList, String.toList_ofList,
    List.dropWhile_append_of_pos tabs]

/-- Indentation does not matter to comments. -/
theorem comments_written_iff (line : Line) :
    (∀ part ∈ Text.split '\n' (written line), isComment part = true) ↔
      ∀ part ∈ Text.split '\n' line.content, isComment part = true := by
  rw [written]
  split
  · rename_i blank
    rw [String.isEmpty_iff.mp blank]
  · have tabs : ∀ c ∈ List.replicate line.depth '\t', (c == '\n') = false := by
      intro c member
      rw [List.eq_of_mem_replicate member]
      rfl
    rw [Text.split, Text.split, String.toList_ofList, Text.pieces_append_of_plain tabs]
    cases Text.pieces (· == '\n') line.content.toList with
    | nil => rfl
    | cons first rest =>
      simp only [List.modifyHead_cons, List.map_cons, List.forall_mem_cons, isComment_indented]

/-- Taking lines out of a text takes out comments only, if all parts of these lines are comments. -/
theorem addsComments_filter_iff (p : Line → Bool) (lines : List Line) :
    AddsComments (Text.split '\n' (Line.text (lines.filter fun line => !p line)))
        (Text.split '\n' (Line.text lines)) ↔
      ∀ line ∈ lines, p line = true → ∀ part ∈ Text.split '\n' line.content,
        isComment part = true := by
  rw [split_text, split_text]
  constructor
  · intro adds line member taken
    have counted := adds.countP_eq
    have whole := ((List.filter_append_perm p lines).flatMap_right
      fun line => Text.split '\n' (written line)).countP_eq (!isComment ·)
    rw [List.flatMap_append, List.countP_append] at whole
    rw [List.countP_append, List.countP_append, ← whole] at counted
    have none : ((lines.filter p).flatMap fun line => Text.split '\n' (written line)).countP
        (!isComment ·) = 0 := by omega
    rw [List.countP_eq_zero] at none
    refine (comments_written_iff line).mp fun part inside => ?_
    have comment := none part (List.mem_flatMap.mpr
      ⟨line, List.mem_filter.mpr ⟨member, taken⟩, inside⟩)
    simpa using comment
  · intro comments
    induction lines with
    | nil => exact .last ""
    | cons line rest ih =>
      obtain ⟨first, others⟩ := List.forall_mem_cons.mp comments
      rw [List.flatMap_cons, List.append_assoc]
      cases taken : p line with
      | false =>
        rw [List.filter_cons_of_pos (by rw [taken, Bool.not_false]), List.flatMap_cons,
          List.append_assoc]
        exact (ih others).append_kept _
      | true =>
        rw [List.filter_cons_of_neg (by rw [taken]; exact Bool.false_ne_true)]
        exact (ih others).append_added ((comments_written_iff line).mpr (first taken))

theorem isComment_slashes (rest : String) : isComment ("//" ++ rest) = true := by
  rw [isComment, String.toList_append]
  rfl

section Plain

variable (path : '\n' ∉ symbols.path.toList)
  (names : ∀ name ∈ symbols.documents, '\n' ∉ name.toList)

include path in
theorem description_plain : '\n' ∉ symbols.description.toList := by
  simp only [DebugInfo.description, String.toList_append, List.mem_append, not_or]
  refine ⟨⟨?_, by decide⟩, path⟩
  split <;> decide

include names in
theorem documentName_plain (document : Nat) :
    '\n' ∉ ((symbols.documentName? document).getD "?").toList := by
  cases found : symbols.documentName? document with
  | none => decide
  | some name =>
    cases document with
    | zero => cases found
    | succ index => exact names name (List.mem_of_getElem? found)

include names in
theorem pointText_plain (point : SequencePoint) : ∃ rest,
    pointText symbols point = "//" ++ rest ∧ '\n' ∉ rest.toList := by
  rw [pointText]
  split
  · exact ⟨" sequence point: hidden", by decide, by decide⟩
  · refine ⟨" sequence point: (line " ++ (toString point.startLine ++ (", col " ++
      (toString point.startColumn ++ (") " ++ ("to (line " ++ (toString point.endLine ++
      (", col " ++ (toString point.endColumn ++ (") in " ++
      (symbols.documentName? point.document).getD "?"))))))))), ?_, ?_⟩
    · simp only [← String.append_assoc]
      rfl
    · have number (value : Nat) : '\n' ∉ (toString value).toList := Text.isSingleLine_toString value
      simp only [String.toList_append, List.mem_append, not_or, number, not_false_eq_true, true_and]
      exact ⟨by decide, by decide, by decide, by decide, by decide, by decide,
        documentName_plain names _⟩

include path names in
/-- A note is one comment if the texts of the symbols have no line ends. -/
theorem isComment_of_isNote {line : Line} (note : isNote symbols line = true) :
    ∀ part ∈ Text.split '\n' line.content, isComment part = true := by
  have single (rest : String) (same : line.content = "//" ++ rest) (plain : '\n' ∉ rest.toList) :
      ∀ part ∈ Text.split '\n' line.content, isComment part = true := by
    have whole : '\n' ∉ ("//" ++ rest).toList := by
      simp only [String.toList_append, List.mem_append, not_or]
      exact ⟨by decide, plain⟩
    rw [same, Text.split_eq_singleton whole, List.forall_mem_singleton]
    exact isComment_slashes rest
  rcases (isNote_iff symbols line).mp note with named | ⟨points, -, point, -, shown⟩
  · refine single (" Symbols: " ++ symbols.description) ?_ ?_
    · rw [named, ← String.append_assoc]
      rfl
    · simp only [String.toList_append, List.mem_append, not_or]
      exact ⟨by decide, description_plain path⟩
  · obtain ⟨rest, same, plain⟩ := pointText_plain names point
    exact single rest (shown.trans same) plain

end Plain

/-- The listing differs by comments exactly if no note has an end of a line inside. -/
theorem addsComments_ofModule_iff (module : Module) (symbols : DebugInfo) :
    AddsComments (Text.split '\n' (ofModule module {}).text)
        (Text.split '\n' (ofModule module { symbols := some symbols }).text) ↔
      ∀ line ∈ (ofModule module { symbols := some symbols }).lines, isNote symbols line = true →
        ∀ part ∈ Text.split '\n' line.content, isComment part = true := by
  rw [← addsComments_filter_iff]
  have plain := keep_ofModule module symbols false
  rw [← plain]
  rfl

/-- Symbols do not change whether a module can be listed, and the lines that they add are those that
name them or show their sequence points. The text has comments more than without symbols exactly if
all that these lines write are comments, as they are when the names of the documents and the path of
the symbols have no line ends. -/
theorem ofModule_comments_iff (module : Module) (symbols : DebugInfo) :
    let plain := ofModule module {}
    let shown := ofModule module { symbols := some symbols }
    shown.fault = plain.fault ∧ shown.lines.filter (isOwn symbols) = plain.lines ∧
      (AddsComments (Text.split '\n' plain.text) (Text.split '\n' shown.text) ↔
        ∀ line ∈ shown.lines, isNote symbols line = true →
          ∀ part ∈ Text.split '\n' line.content, isComment part = true) ∧
      ('\n' ∉ symbols.path.toList → (∀ name ∈ symbols.documents, '\n' ∉ name.toList) →
        AddsComments (Text.split '\n' plain.text) (Text.split '\n' shown.text)) := by
  intro plain shown
  have same : shown.keep (isOwn symbols) = plain := keep_ofModule module symbols false
  have fault : shown.fault = plain.fault := by
    rw [← same, Output.fault_keep]
  have adds := addsComments_ofModule_iff module symbols
  exact ⟨fault, congrArg Output.lines same, adds, fun path names =>
    adds.mpr fun line _ note => isComment_of_isNote path names note⟩

/-- A module with a type that has a method, the code of which is to return. -/
def returningModule : Module where
  image := ⟨#[], 0, 0, ⟨0, 0, []⟩, []⟩
  path := "a"
  name := "a"
  mvid := none
  runtimeVersion := ""
  identity := none
  references := []
  framework := ⟨.netCore, [8, 0]⟩
  debugEntries := []
  entryPoint := none
  tableRows := [(.methodDef, 1)]
  types := #[⟨⟨0x02000001⟩, 0, "", "C", .classType, none, [], [], [],
    [⟨⟨0x06000001⟩, "M", 0, 0, 0, ⟨false, false, false, 0, ⟨false, .void⟩, []⟩, [], [],
      some ⟨1, #[0x2A], 8, 0, false, false, []⟩⟩], none, []⟩]
  typeRefs := #[]
  typeSpecs := #[]
  memberRefs := #[]
  methodSpecs := #[]
  localSignatures := #[]
  fieldConstants := []
  userStrings := #[]

/-- Symbols with one document, in which the first method stands. -/
def symbolsNaming (document : String) : Except Fault Bytes := do
  let (name, blobs) ← DocumentName.add {} document
  let (_, tables) ← TableBuilder.addRow {} .document [UInt32.ofNat name, 0, 0, 0]
  let (points, blobs) ← blobs.add (← declarationPoints 1 1 2)
  let (_, tables) ← tables.addRow .methodDebugInformation [1, UInt32.ofNat points]
  let tables ← tables.build #[0] #[] blobs.data [] 0
  Root.build formatVersion [("#Pdb", headerStream (Array.replicate 20 7) 0 []), ("#~", tables),
    ("#Blob", blobs.data)]

theorem ofModule_comments_iff_named : ∃ image symbols, symbolsNaming "a.cs" = .ok image ∧
    DebugInfo.ofBytes "a.pdb" image = .ok symbols ∧
    (ofModule returningModule { symbols := some symbols }).lines.countP (isNote symbols) = 2 ∧
    AddsComments (Text.split '\n' (ofModule returningModule {}).text)
      (Text.split '\n' (ofModule returningModule { symbols := some symbols }).text) := by
  have read : ((symbolsNaming "a.cs").bind (DebugInfo.ofBytes "a.pdb")).toOption.any (fun symbols =>
      decide ((ofModule returningModule { symbols := some symbols }).lines.countP
        (isNote symbols) = 2 ∧ '\n' ∉ symbols.path.toList ∧
        ∀ name ∈ symbols.documents, '\n' ∉ name.toList)) = true := by decide +kernel
  obtain ⟨symbols, accepted, holds⟩ := Outcome.ok_of_any read
  obtain ⟨notes, path, names⟩ := of_decide_eq_true holds
  obtain ⟨image, built, opened⟩ := Outcome.of_bind_eq_ok accepted
  exact ⟨image, symbols, built, opened, notes,
    (ofModule_comments_iff returningModule symbols).2.2.2 path names⟩

/-- A line end in the name of a document continues the name in a line that is no comment. -/
theorem symbolsNaming_break : ∃ image symbols, symbolsNaming "a\nb" = .ok image ∧
    DebugInfo.ofBytes "a.pdb" image = .ok symbols ∧
    ¬ AddsComments (Text.split '\n' (ofModule returningModule {}).text)
      (Text.split '\n' (ofModule returningModule { symbols := some symbols }).text) := by
  have read : ((symbolsNaming "a\nb").bind (DebugInfo.ofBytes "a.pdb")).toOption.any (fun symbols =>
      (ofModule returningModule { symbols := some symbols }).lines.any fun line =>
        isNote symbols line && !(Text.split '\n' line.content).all isComment) = true := by
    decide +kernel
  obtain ⟨symbols, accepted, holds⟩ := Outcome.ok_of_any read
  obtain ⟨image, built, opened⟩ := Outcome.of_bind_eq_ok accepted
  refine ⟨image, symbols, built, opened, fun adds => ?_⟩
  obtain ⟨line, member, broken⟩ := List.any_eq_true.mp holds
  obtain ⟨note, other⟩ := Bool.and_eq_true_iff.mp broken
  have comments := (addsComments_ofModule_iff returningModule symbols).mp adds line member note
  rw [List.all_eq_true.mpr comments] at other
  cases other

end ClrDecompiler.Listing
