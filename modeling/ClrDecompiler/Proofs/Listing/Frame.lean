/-
This file shows that a listing has the lines around every type and at the head of every method
exactly once, one inside the other as the types are nested.
-/

import ClrDecompiler.Proofs.Listing.LineStart
import ClrDecompiler.Proofs.Listing.Output
import ClrDecompiler.Proofs.Module.TypeForest

namespace ClrDecompiler.Listing

open Metadata Source ClrDecompiler.Module TypeTree

/-- What the lines that begin or end a type or begin a method start with. -/
def frameStarts : List String :=
  [".class", ".method", "\x7d // end of class "]

/-- Whether a line begins or ends a type or begins a method. -/
def isFrame (line : Line) : Bool :=
  startsWith frameStarts line

theorem isFrame_indent (line : Line) : isFrame line.indent = isFrame line := rfl

/-- Lines that start otherwise are not part of the frame. -/
theorem filter_isFrame_eq_nil {starts : List String} {lines : List Line}
    (starting : ∀ line ∈ lines, startsWith starts line = true)
    (different : apart starts frameStarts = true) : lines.filter isFrame = [] :=
  List.filter_eq_nil_iff.mpr fun line member =>
    Bool.eq_false_iff.mp (startsWith_eq_false different (starting line member))

def declaration (module : Module) (definition : TypeDefinition) (method : MethodDefinition) :
    Line :=
  Line.declaring method.token (methodHeader module definition method)

mutual

/-- The first and the last line of a type, and between them those of the types nested in it and
those that begin its methods. -/
def frame (module : Module) : TypeTree → List Line
  | .node definition inner => Line.plain (typeHeader definition) ::
      (framesOf module inner ++ definition.methods.map (declaration module definition)).map
        Line.indent ++ [Line.plain ("\x7d // end of class " ++ typeName definition)]

def framesOf (module : Module) : List TypeTree → List Line
  | [] => []
  | first :: rest => frame module first ++ framesOf module rest

end

theorem framesOf_eq (module : Module) (trees : List TypeTree) :
    framesOf module trees = trees.flatMap (frame module) := by
  induction trees with
  | nil => rfl
  | cons first rest ih => rw [framesOf, ih, List.flatMap_cons]

/-- The code of all methods of a type can be decoded. -/
def Decodes (definition : TypeDefinition) : Prop :=
  ∀ method ∈ definition.methods, ∀ body ∈ method.body, (Cil.decode body.code).isOk = true

/-- All names in the listing of a type come to an end: those of its bases, its fields, the types of
its methods and of their local variables, and those in the code that can be decoded. -/
structure NamesEnd (module : Module) (definition : TypeDefinition) : Prop where
  head : ∀ token ∈ headTokens definition, module.NameEnds token
  fields : ∀ field ∈ definition.fields, ∀ token ∈ field.type.tokens, module.NameEnds token
  methods : ∀ method ∈ definition.methods,
    (∀ token ∈ method.signature.tokens, module.NameEnds token) ∧
      ∀ body ∈ method.body, (∀ token ∈ localTokens module body, module.NameEnds token) ∧
        ∀ instructions, Cil.decode body.code = .ok instructions →
          ∀ token ∈ codeTokens module body instructions, module.NameEnds token

/-- A fault that is not that of a name is the fault of code that cannot be decoded. -/
def IsOwnFault (definitions : List TypeDefinition) (fault : Fault) : Prop :=
  fault = .endlessName ∨ ∃ definition ∈ definitions, ∃ method ∈ definition.methods,
    ∃ body ∈ method.body, Cil.decode body.code = .error fault

theorem IsOwnFault.mono {definitions others : List TypeDefinition} (within : definitions ⊆ others)
    (fault : Fault) : IsOwnFault definitions fault → IsOwnFault others fault :=
  Or.imp_right fun ⟨definition, member, own⟩ => ⟨definition, within member, own⟩

section Members

variable (module : Module) (options : Options) (definition : TypeDefinition)
  (method : MethodDefinition)

/-- A body is listed whole exactly if its code is decoded and its names come to an end. -/
theorem fault_bodyOutput_eq_none_iff (body : Cil.MethodBody) :
    (bodyOutput module options definition method body).fault = none ↔
      (Cil.decode body.code).isOk = true ∧
        (∀ token ∈ localTokens module body, module.NameEnds token) ∧
        ∀ instructions, Cil.decode body.code = .ok instructions →
          ∀ token ∈ codeTokens module body instructions, module.NameEnds token := by
  rw [bodyOutput_eq, Output.fault_append_eq_none_iff, Output.fault_append_eq_none_iff,
    fault_namesOutput_eq_none_iff]
  cases Cil.decode body.code with
  | error fault => simp [Output.failed, Except.isOk, Except.toBool]
  | ok instructions =>
    rw [Output.fault_append_eq_none_iff, fault_namesOutput_eq_none_iff]
    simp [Except.isOk, Except.toBool]

/-- A body fails for a name without an end or for its code. -/
theorem faultIs_bodyOutput (body : Cil.MethodBody) :
    (bodyOutput module options definition method body).FaultIs fun fault =>
      fault = .endlessName ∨ Cil.decode body.code = .error fault := by
  rw [bodyOutput_eq]
  refine ((faultIs_namesOutput.mono fun _ => .inl).append (Output.faultIs_ofLines _)).append ?_
  cases Cil.decode body.code with
  | error fault =>
    rintro other ⟨⟩
    exact .inr rfl
  | ok instructions =>
    exact (faultIs_namesOutput.mono fun _ => .inl).append (Output.faultIs_ofLines _)

/-- No line of a body starts as those of the frame do. -/
theorem bodyOutput_startsWith (body : Cil.MethodBody) :
    ∀ line ∈ (bodyOutput module options definition method body).lines,
      startsWith (bodyStarts ++ ["// sequence point: ", "IL_", ".try"]) line = true := by
  have names (tokens : List Token) : ∀ line ∈ (namesOutput module tokens).lines,
      startsWith (bodyStarts ++ ["// sequence point: ", "IL_", ".try"]) line = true := by
    rw [lines_namesOutput]
    exact List.forall_mem_nil _
  have head : ∀ line ∈ bodyHead module (.ofMethod definition method) method body,
      startsWith (bodyStarts ++ ["// sequence point: ", "IL_", ".try"]) line = true :=
    fun line member => startsWith_mono (List.subset_append_left _ _)
      (bodyHead_startsWith module _ method body line member)
  rw [bodyOutput_eq]
  refine Output.forall_lines_append (Output.forall_lines_append (names _) head) ?_
  cases Cil.decode body.code with
  | error fault => exact List.forall_mem_nil _
  | ok instructions =>
    refine Output.forall_lines_append (names _) ?_
    simp only [Output.lines_ofLines, List.forall_mem_append, List.forall_mem_flatMap,
      List.forall_mem_map, instructionLines, List.forall_mem_singleton]
    refine ⟨fun instruction _ => ⟨fun line member => ?_, ?_⟩, fun clause _ => ?_⟩
    · exact startsWith_mono (by decide) (pointLines_startsWith options method _ line member)
    · exact startsWith_mono (by decide)
        (instructionText_startsWith module definition method instruction)
    · exact startsWith_mono (by decide) (clauseLine_startsWith module _ clause)

/-- Of a method only the line that begins it is part of the frame. -/
theorem filter_methodOutput (uncancelled : options.cancelled = false)
    (ends : ∀ token ∈ method.signature.tokens, module.NameEnds token) :
    (methodOutput module options definition method).lines.filter isFrame =
      [declaration module definition method] := by
  have begins : isFrame (declaration module definition method) = true :=
    startsWith_mono (by decide) (methodHeader_startsWith module definition method)
  have head : [Line.declaring method.token (methodHeader module definition method),
      Line.plain "\x7b"].filter isFrame = [declaration module definition method] :=
    List.filter_cons_of_pos begins
  have entry : ((wordsIf (module.entryPoint == some method.token) [".entrypoint"]).map
      Line.plain).filter isFrame = [] := by
    cases module.entryPoint == some method.token <;> decide
  have tail : [Line.plain ("\x7d // end of method " ++ definition.displayName ++ "::" ++
      method.name)].filter isFrame = [] :=
    filter_isFrame_eq_nil (by simpa using methodEnd_startsWith definition method) (by decide)
  rw [← Output.lines_keep]
  simp only [methodOutput, uncancelled, Bool.false_eq_true, if_false, namesOutput_eq_nil ends,
    Output.keep_append, Output.keep_indent isFrame_indent, Output.keep_ofLines, head, entry, tail,
    Output.append_nil, Output.nil_append]
  rw [Output.lines_append (Output.fault_ofLines _), Output.lines_indent, Output.lines_keep]
  cases method.body with
  | none => rfl
  | some body =>
    have inner := filter_isFrame_eq_nil
      (bodyOutput_startsWith module options definition method body) (by decide)
    exact congrArg (fun kept => [declaration module definition method] ++ kept.map Line.indent)
      inner

/-- A method is listed whole exactly if its own names and its body are. -/
theorem fault_methodOutput_eq_none_iff (uncancelled : options.cancelled = false) :
    (methodOutput module options definition method).fault = none ↔
      (∀ token ∈ method.signature.tokens, module.NameEnds token) ∧
        ∀ body ∈ method.body, (Cil.decode body.code).isOk = true ∧
          (∀ token ∈ localTokens module body, module.NameEnds token) ∧
          ∀ instructions, Cil.decode body.code = .ok instructions →
            ∀ token ∈ codeTokens module body instructions, module.NameEnds token := by
  simp only [methodOutput, uncancelled, Bool.false_eq_true, if_false,
    Output.fault_append_eq_none_iff, Output.fault_ofLines, Output.fault_indent,
    fault_namesOutput_eq_none_iff, and_true, true_and]
  cases method.body with
  | none => simp
  | some body => simp only [fault_bodyOutput_eq_none_iff, Option.mem_def, Option.some.injEq,
      forall_eq']

/-- A method fails for a name without an end or for its code. -/
theorem faultIs_methodOutput (uncancelled : options.cancelled = false) :
    (methodOutput module options definition method).FaultIs fun fault =>
      fault = .endlessName ∨ ∃ body ∈ method.body, Cil.decode body.code = .error fault := by
  simp only [methodOutput, uncancelled, Bool.false_eq_true, if_false]
  refine (((faultIs_namesOutput.mono fun _ => .inl).append (Output.faultIs_ofLines _)).append
    ((Output.faultIs_ofLines _).append ?_).indent).append (Output.faultIs_ofLines _)
  cases method.body with
  | none => exact Output.faultIs_ofLines []
  | some body =>
    exact (faultIs_bodyOutput module options definition method body).mono
      fun fault => Or.imp_right fun decoded => ⟨body, rfl, decoded⟩

end Members

section Types

variable {module : Module} {options : Options} (uncancelled : options.cancelled = false)

/-- A type is listed whole if its code can be decoded and its names come to an end. -/
def IsListed (module : Module) (definition : TypeDefinition) : Prop :=
  Decodes definition ∧ NamesEnd module definition

include uncancelled

/-- The head of a type is listed apart from its members. -/
theorem fault_memberOutput_eq_none_iff (definition : TypeDefinition) :
    (namesOutput module (headTokens definition)).fault = none ∧
        (memberOutput module options definition).fault = none ↔
      IsListed module definition := by
  rw [memberOutput_eq, Output.fault_append_eq_none_iff, Output.fault_append_eq_none_iff,
    Output.fault_separated_eq_none_iff, List.forall_mem_map, fault_namesOutput_eq_none_iff,
    fault_namesOutput_eq_none_iff, List.forall_mem_flatMap]
  simp only [Output.fault_ofLines, and_true, fault_methodOutput_eq_none_iff _ _ _ _ uncancelled]
  constructor
  · rintro ⟨head, fields, methods⟩
    exact ⟨fun method member body found => ((methods method member).2 body found).1, head, fields,
      fun method member => ⟨(methods method member).1,
        fun body found => ((methods method member).2 body found).2⟩⟩
  · rintro ⟨decodes, names⟩
    exact ⟨names.head, names.fields, fun method member => ⟨(names.methods method member).1,
      fun body found => ⟨decodes method member body found,
        (names.methods method member).2 body found⟩⟩⟩

/-- The members of a type fail only for a fault of its own. -/
theorem faultIs_memberOutput (definition : TypeDefinition) :
    (memberOutput module options definition).FaultIs (IsOwnFault [definition]) := by
  rw [memberOutput_eq]
  refine (Output.FaultIs.append ?_ (Output.faultIs_ofLines _)).append
    (Output.faultIs_separated (List.forall_mem_map.mpr fun method member => ?_))
  · exact faultIs_namesOutput.mono fun _ => .inl
  · exact (faultIs_methodOutput module options definition method uncancelled).mono
      fun fault => Or.imp_right fun decoded =>
        ⟨definition, List.mem_singleton_self _, method, member, decoded⟩

/-- The frame of the members of a type is made of the headers of its methods. -/
theorem filter_memberOutput {definition : TypeDefinition} (listed : IsListed module definition) :
    (memberOutput module options definition).lines.filter isFrame =
      definition.methods.map (declaration module definition) := by
  have fields : (fieldLines module definition).filter isFrame = [] :=
    filter_isFrame_eq_nil (fieldLines_startsWith module definition) (by decide)
  have names : namesOutput module (definition.fields.flatMap (·.type.tokens)) =
      Output.ofLines [] :=
    namesOutput_eq_nil (List.forall_mem_flatMap.mpr listed.2.fields)
  have clean : ∀ output ∈ definition.methods.map
      (Output.keep isFrame ∘ methodOutput module options definition), output.fault = none := by
    refine List.forall_mem_map.mpr fun method member => ?_
    have own := listed.2.methods method member
    exact (fault_methodOutput_eq_none_iff _ _ _ _ uncancelled).mpr ⟨own.1, fun body found =>
      ⟨listed.1 method member body found, own.2 body found⟩⟩
  rw [← Output.lines_keep, memberOutput_eq, names, Output.nil_append, Output.keep_append,
    Output.keep_ofLines, fields, Output.nil_append,
    Output.keep_separated_of_dropped (by decide), List.map_map, Output.lines_concat clean,
    List.flatMap_map, List.map_eq_flatMap]
  exact List.flatMap_congr fun method member =>
    filter_methodOutput module options definition method uncancelled
      (listed.2.methods method member).1

/-- How a type is listed when the bound on the depth of the nesting is not reached. -/
theorem typeOutput_succ (bound : Nat) (definition : TypeDefinition) :
    typeOutput module options (bound + 1) definition =
      namesOutput module (headTokens definition) ++
        Output.ofLines (Line.plain (typeHeader definition) :: baseLines module definition ++
          [Line.plain "\x7b"]) ++
        (Output.concat ((module.nestedTypes definition).map fun inner =>
            typeOutput module options bound inner ++ Output.ofLines [Line.blank]) ++
          memberOutput module options definition).indent ++
        Output.ofLines [Line.plain ("\x7d // end of class " ++ typeName definition)] := by
  simp only [typeOutput, uncancelled, Bool.false_eq_true, if_false]

omit uncancelled in
theorem length_definitions_le {inner : List TypeTree} {tree : TypeTree} (member : tree ∈ inner) :
    tree.definitions.length ≤ (definitionsOf inner).length := by
  rw [definitionsOf_eq, List.flatMap]
  exact (List.sublist_flatten_of_mem (List.mem_map_of_mem member)).length_le

/-- A type is listed without fault exactly if all types below it can be listed. -/
theorem fault_typeOutput_eq_none_iff {tree : TypeTree} (nests : Nests module tree) {bound : Nat}
    (enough : tree.definitions.length ≤ bound) :
    (typeOutput module options bound tree.root).fault = none ↔
      ∀ definition ∈ tree.definitions, IsListed module definition := by
  induction nests generalizing bound with
  | @node definition inner roots _ _ ih =>
    rw [definitions, List.length_cons] at enough
    obtain ⟨bound, rfl⟩ : ∃ rest, bound = rest + 1 := ⟨bound - 1, by omega⟩
    have below : ∀ tree ∈ inner, tree.definitions.length ≤ bound := fun tree member =>
      (length_definitions_le member).trans (by omega)
    rw [root, typeOutput_succ uncancelled, ← roots, definitions, definitionsOf_eq,
      List.forall_mem_cons, List.forall_mem_flatMap,
      ← fault_memberOutput_eq_none_iff uncancelled definition]
    simp only [Output.fault_append_eq_none_iff, Output.fault_ofLines, Output.fault_indent,
      Output.fault_concat_eq_none_iff, List.forall_mem_map, and_true]
    rw [and_assoc, and_comm (a := (memberOutput module options definition).fault = none)]
    exact and_congr_right fun _ => and_congr_left fun _ =>
      forall₂_congr fun tree member => ih tree member (below tree member)

/-- A type fails only for a fault of its own or of a type below it. -/
theorem faultIs_typeOutput {tree : TypeTree} (nests : Nests module tree) {bound : Nat} :
    (typeOutput module options bound tree.root).FaultIs (IsOwnFault tree.definitions) := by
  induction nests generalizing bound with
  | @node definition inner roots _ _ ih =>
    cases bound with
    | zero => exact Output.faultIs_ofLines []
    | succ bound =>
      have own : [definition] ⊆ (node definition inner).definitions :=
        List.cons_subset.mpr ⟨List.mem_cons_self, List.nil_subset _⟩
      have below (tree : TypeTree) (member : tree ∈ inner) :
          tree.definitions ⊆ (node definition inner).definitions := by
        intro other inside
        rw [definitions, definitionsOf_eq]
        exact List.mem_cons_of_mem _ (List.mem_flatMap.mpr ⟨tree, member, inside⟩)
      rw [root, typeOutput_succ uncancelled, ← roots, List.map_map]
      refine (((faultIs_namesOutput.mono fun _ => .inl).append (Output.faultIs_ofLines _)).append
        ((Output.faultIs_concat ?_).append ?_).indent).append (Output.faultIs_ofLines _)
      · exact List.forall_mem_map.mpr fun tree member =>
          ((ih tree member).mono (IsOwnFault.mono (below tree member))).append
            (Output.faultIs_ofLines _)
      · exact (faultIs_memberOutput uncancelled definition).mono (IsOwnFault.mono own)

omit uncancelled in
/-- The frame of the head of a type is its first line. -/
theorem filter_typeHead (definition : TypeDefinition) :
    (Line.plain (typeHeader definition) :: baseLines module definition ++
      [Line.plain "\x7b"]).filter isFrame = [Line.plain (typeHeader definition)] := by
  have begins : isFrame (Line.plain (typeHeader definition)) = true :=
    startsWith_mono (by decide) (typeHeader_startsWith definition)
  have base : (baseLines module definition).filter isFrame = [] :=
    filter_isFrame_eq_nil (baseLines_startsWith module definition) (by decide)
  rw [List.cons_append, List.filter_cons_of_pos begins, List.filter_append, base]
  rfl

/-- Of a type the frame of its tree is listed. -/
theorem filter_typeOutput {tree : TypeTree} (nests : Nests module tree) {bound : Nat}
    (enough : tree.definitions.length ≤ bound)
    (listed : ∀ definition ∈ tree.definitions, IsListed module definition) :
    (typeOutput module options bound tree.root).lines.filter isFrame = frame module tree := by
  induction nests generalizing bound with
  | @node definition inner roots _ nests ih =>
    rw [definitions, List.length_cons] at enough
    obtain ⟨bound, rfl⟩ : ∃ rest, bound = rest + 1 := ⟨bound - 1, by omega⟩
    have below : ∀ tree ∈ inner, tree.definitions.length ≤ bound := fun tree member =>
      (length_definitions_le member).trans (by omega)
    rw [definitions, definitionsOf_eq, List.forall_mem_cons, List.forall_mem_flatMap] at listed
    obtain ⟨own, others⟩ := listed
    let nestedOutput (tree : TypeTree) : Output :=
      typeOutput module options bound tree.root ++ Output.ofLines [Line.blank]
    have clean : ∀ output ∈ inner.map nestedOutput, output.fault = none := by
      rw [List.forall_mem_map]
      intro tree member
      rw [Output.fault_append_eq_none_iff]
      exact ⟨(fault_typeOutput_eq_none_iff uncancelled (nests tree member) (below tree member)).mpr
        (others tree member), rfl⟩
    have frames : (Output.concat (inner.map nestedOutput)).lines.filter isFrame =
        framesOf module inner := by
      rw [Output.lines_concat clean, List.flatMap_map, List.filter_flatMap, framesOf_eq]
      refine List.flatMap_congr fun tree member => ?_
      rw [Output.lines_append, List.filter_append,
        ih tree member (below tree member) (others tree member)]
      · exact List.append_nil _
      · exact (fault_typeOutput_eq_none_iff uncancelled (nests tree member)
          (below tree member)).mpr (others tree member)
    have members : (memberOutput module options definition).fault = none :=
      ((fault_memberOutput_eq_none_iff uncancelled definition).mpr own).2
    have concatenated := (Output.fault_concat_eq_none_iff _).mpr clean
    have ends : isFrame (Line.plain ("\x7d // end of class " ++ typeName definition)) = true :=
      startsWith_mono (by decide) (typeEnd_startsWith definition)
    have same : isFrame ∘ Line.indent = isFrame := rfl
    rw [root, typeOutput_succ uncancelled, namesOutput_eq_nil own.2.head, Output.nil_append,
      ← roots, List.map_map]
    change (_ ++ (Output.concat (inner.map nestedOutput) ++ _).indent ++ _).lines.filter _ = _
    rw [Output.lines_append, Output.lines_append, Output.lines_indent, Output.lines_append,
      List.filter_append, List.filter_append, List.filter_map, same, List.filter_append, frames,
      filter_memberOutput uncancelled own, Output.lines_ofLines, filter_typeHead,
      Output.lines_ofLines, List.filter_cons_of_pos ends, frame]
    · rfl
    · exact concatenated
    · rfl
    · rw [Output.fault_append_eq_none_iff, Output.fault_indent, Output.fault_append_eq_none_iff]
      exact ⟨rfl, concatenated, members⟩

omit uncancelled in
/-- The manifest is not part of the frame. -/
theorem filter_manifestLines_frame :
    (manifestLines module options).filter isFrame = [] := by
  have front : (manifestFront module).filter isFrame = [] :=
    filter_isFrame_eq_nil (manifestFront_startsWith module) (by decide)
  have naming : ∀ line ∈ options.symbols.toList.map fun symbols =>
      Line.plain ("// Symbols: " ++ symbols.description),
      startsWith ["// Symbols: "] line = true :=
    List.forall_mem_map.mpr fun _ _ => startsWith_append (by decide) _
  have named := filter_isFrame_eq_nil naming (by decide)
  rw [manifestLines_eq, List.filter_append, List.filter_append, front, named]
  rfl

/-- A module whose types are nested in one another without cycles is listed as its trees say: every
type of the trees has its first and its last line once, with those of the types nested in it and the
first lines of its methods between them. The trees hold no type twice, and they hold every type
exactly if every link leads to a declared type. The listing is whole exactly if all code in the
trees can be decoded and all names in it come to an end. Otherwise it stops at such a name or fails
with the fault of code that cannot be decoded. -/
theorem ofModule_frames (links : module.LinksAgree) : ∃ forest : List TypeTree,
    forest.map root = module.topLevelTypes ∧ (∀ tree ∈ forest, Nests module tree) ∧
    (forest.flatMap definitions).Nodup ∧
    ((forest.flatMap definitions).Perm module.types.toList ↔
      ∀ inner ∈ module.types, ∀ token, inner.enclosing = some token →
        ∃ outer ∈ module.types, outer.token = token) ∧
    ((ofModule module options).fault = none ↔
      ∀ definition ∈ forest.flatMap definitions, Decodes definition ∧ NamesEnd module definition) ∧
    (∀ fault, (ofModule module options).fault = some fault → fault = .endlessName ∨
      ∃ definition ∈ forest.flatMap definitions, ∃ method ∈ definition.methods,
        ∃ body ∈ method.body, Cil.decode body.code = .error fault) ∧
    ((ofModule module options).fault = none →
      (ofModule module options).lines.filter isFrame = forest.flatMap (frame module)) := by
  obtain ⟨forest, roots, nests⟩ := links.exists_roots
  have few : (forest.flatMap definitions).length ≤ module.types.size := by
    rw [← Array.length_toList]
    exact (links.definitions_nodup roots nests).length_le_of_subset fun definition member =>
      Array.mem_toList_iff.mpr (links.declared_of_mem roots nests member)
  have enough : ∀ tree ∈ forest, tree.definitions.length ≤ module.types.size :=
    fun tree member => (length_definitions_le member).trans (definitionsOf_eq forest ▸ few)
  let typeListing (tree : TypeTree) : Output :=
    typeOutput module options module.types.size tree.root ++ Output.ofLines [Line.blank]
  have listing : ofModule module options = Output.ofLines (manifestLines module options) ++
      Output.concat (forest.map typeListing) := by
    rw [ofModule, ← roots, List.map_map]
    rfl
  have clean_iff : (ofModule module options).fault = none ↔
      ∀ definition ∈ forest.flatMap definitions, IsListed module definition := by
    rw [listing, List.forall_mem_flatMap]
    simp only [Output.fault_append_eq_none_iff, Output.fault_ofLines, true_and, and_true,
      Output.fault_concat_eq_none_iff, List.forall_mem_map, typeListing]
    exact forall₂_congr fun tree member =>
      fault_typeOutput_eq_none_iff uncancelled (nests tree member) (enough tree member)
  have faults : (ofModule module options).FaultIs (IsOwnFault (forest.flatMap definitions)) := by
    rw [listing]
    refine (Output.faultIs_ofLines _).append (Output.faultIs_concat ?_)
    refine List.forall_mem_map.mpr fun tree member => Output.FaultIs.append ?_
      (Output.faultIs_ofLines _)
    exact (faultIs_typeOutput uncancelled (nests tree member)).mono (IsOwnFault.mono
      fun definition inside => List.mem_flatMap.mpr ⟨tree, member, inside⟩)
  refine ⟨forest, roots, nests, links.definitions_nodup roots nests,
    links.definitions_perm_iff roots nests, clean_iff, faults, fun clean => ?_⟩
  have listed := List.forall_mem_flatMap.mp (clean_iff.mp clean)
  rw [listing, Output.fault_append_eq_none_iff, Output.fault_concat_eq_none_iff] at clean
  rw [listing, Output.lines_append (Output.fault_ofLines _), List.filter_append,
    Output.lines_ofLines, filter_manifestLines_frame, Output.lines_concat clean.2,
    List.flatMap_map, List.filter_flatMap, List.nil_append]
  refine List.flatMap_congr fun tree member => ?_
  have typeClean := (fault_typeOutput_eq_none_iff uncancelled (nests tree member)
    (enough tree member)).mpr (listed tree member)
  rw [Output.lines_append typeClean, List.filter_append,
    filter_typeOutput uncancelled (nests tree member) (enough tree member) (listed tree member)]
  exact List.append_nil _

end Types

/-- The second type is nested in the first. -/
theorem ofModule_frames_nested : ∃ module, ofBytes "" (sampleImage 2 [(2, 1)]) = .ok module ∧
    ∃ forest : List TypeTree, (forest.flatMap definitions).Perm module.types.toList ∧
      (ofModule module {}).lines.filter isFrame = forest.flatMap (frame module) := by
  have read : (ofBytes "" (sampleImage 2 [(2, 1)])).toOption.any (fun module =>
      decide (module.IsOrdered ∧ (ofModule module {}).fault.isNone = true ∧
        ∀ inner ∈ module.types.toList, ∀ token, inner.enclosing = some token →
          ∃ outer ∈ module.types.toList, outer.token = token)) = true := by decide +kernel
  obtain ⟨module, loaded, holds⟩ := Outcome.ok_of_any read
  obtain ⟨ordered, clean, known⟩ := of_decide_eq_true holds
  obtain ⟨forest, -, -, -, whole, -, -, frames⟩ :=
    ofModule_frames (rfl : ({} : Options).cancelled = false) ordered.linksAgree
  refine ⟨module, loaded, forest, whole.mpr fun inner declared token link => ?_,
    frames (Option.isNone_iff_eq_none.mp clean)⟩
  obtain ⟨outer, member, same⟩ := known inner (Array.mem_toList_iff.mpr declared) token link
  exact ⟨outer, Array.mem_toList_iff.mp member, same⟩

/-- A link that leads to no type takes its type out of the listing, which does not fail. -/
theorem looseType_not_listed : ∃ module, ofBytes "" (sampleImage 2 [(2, 3)]) = .ok module ∧
    module.LinksAgree ∧ module.types.size = 2 ∧ (ofModule module {}).fault = none ∧
    (ofModule module {}).lines.countP (startsWith [".class"]) = 1 := by
  have read : (ofBytes "" (sampleImage 2 [(2, 3)])).toOption.any (fun module =>
      decide (module.IsOrdered ∧ module.types.size = 2 ∧
        (ofModule module {}).fault.isNone = true ∧
        (ofModule module {}).lines.countP (startsWith [".class"]) = 1)) = true := by
    decide +kernel
  obtain ⟨module, loaded, holds⟩ := Outcome.ok_of_any read
  obtain ⟨ordered, two, clean, once⟩ := of_decide_eq_true holds
  exact ⟨module, loaded, ordered.linksAgree, two, Option.isNone_iff_eq_none.mp clean, once⟩

end ClrDecompiler.Listing
