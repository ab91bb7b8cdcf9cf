/-
This file shows that the lines of source have no line ends inside them if the names of the module
have none.
-/

import ClrDecompiler.Proofs.Module.SingleLine
import ClrDecompiler.Proofs.Source.Blocks

namespace ClrDecompiler.Source

open Metadata Signature Text ClrDecompiler.Module

/-! Literals. -/

theorem lineEnd_not_mem_unitEscape (unit : Nat) : '\n' ∉ unitEscape unit := by
  have digits := lineEnd_not_mem_upper 4 unit
  rw [unitEscape, List.mem_cons, List.mem_cons, Hex.upper, String.toList_ofList]
  simpa using digits

theorem lineEnd_not_mem_escape (quote c : Char) : '\n' ∉ escape quote c := by
  unfold escape
  split
  case h_6 ordinary _ _ _ =>
    have other : '\n' ≠ c := fun same => ordinary same.symm
    split
    · simpa using other
    · split
      · exact lineEnd_not_mem_unitEscape _
      · simpa using other
  all_goals decide

/-- A quoted text has its line ends escaped. -/
theorem isSingleLine_quoted {quote : Char} (plain : '\n' ≠ quote) (text : List Char) :
    IsSingleLine (quoted quote text) := by
  rw [quoted, isSingleLine_ofList]
  simp only [List.cons_append, List.mem_cons, List.mem_append, List.mem_flatMap, List.not_mem_nil,
    or_false, not_or, not_exists, not_and]
  exact ⟨plain, fun c _ => lineEnd_not_mem_escape quote c, plain⟩

theorem isSingleLine_charLiteral (unit : UInt16) : IsSingleLine (charLiteral unit) := by
  rw [charLiteral]
  split
  · rw [isSingleLine_ofList, List.mem_append, List.mem_cons, not_or, not_or]
    exact ⟨⟨by decide, lineEnd_not_mem_unitEscape _⟩, by decide⟩
  · exact isSingleLine_quoted (by decide) _

theorem isSingleLine_specialValue {type constant : String} (single : IsSingleLine type)
    {value : Decimal.Binary} (found : specialValue type value = some constant) :
    IsSingleLine constant := by
  unfold specialValue at found
  split at found
  case h_4 => cases found
  all_goals
    cases found
    rw [isSingleLine_append]
    exact ⟨single, by decide⟩

theorem isSingleLine_singleLiteral (bits : UInt32) : IsSingleLine (singleLiteral bits) := by
  rw [singleLiteral]
  split
  · next constant found => exact isSingleLine_specialValue (by decide) found
  · rw [isSingleLine_append]
    exact ⟨isSingleLine_decimal _ _, by decide⟩

theorem isSingleLine_doubleLiteral (bits : UInt64) : IsSingleLine (doubleLiteral bits) := by
  rw [doubleLiteral]
  split
  · next constant found => exact isSingleLine_specialValue (by decide) found
  · refine isSingleLine_signed _ ?_
    rw [isSingleLine_append]
    exact ⟨isSingleLine_toString _, by decide⟩
  · exact isSingleLine_decimal _ _

/-- The literal of a constant is one line. -/
theorem isSingleLine_literal (value : ConstantValue) : IsSingleLine (literal value) := by
  cases value with
  | boolean value => cases value <;> decide
  | char unit => exact isSingleLine_charLiteral unit
  | signed value _ => exact isSingleLine_toString_int value
  | unsigned value elementType =>
    rw [literal, isSingleLine_append, unsignedSuffix]
    refine ⟨isSingleLine_toString value, ?_⟩
    split <;> decide
  | float32 bits => exact isSingleLine_singleLiteral bits
  | float64 bits => exact isSingleLine_doubleLiteral bits
  | string text => exact isSingleLine_quoted (by decide) _
  | null => decide

/-! Members. -/

/-- Words that have no line end make up one line. -/
theorem isSingleLine_words {parts : List String} (single : ∀ part ∈ parts, IsSingleLine part) :
    IsSingleLine (words parts) :=
  isSingleLine_intercalate (by decide) single

theorem forall_mem_wordsIf {condition : Bool} {parts : List String}
    (single : ∀ part ∈ parts, IsSingleLine part) :
    ∀ part ∈ wordsIf condition parts, IsSingleLine part := by
  rw [wordsIf]
  split
  · exact single
  · exact List.forall_mem_nil _

theorem isSingleLine_accessWord (access : Access) : IsSingleLine (accessWord access) := by
  cases access <;> decide

theorem isSingleLine_genericList {letter : String} (plain : IsSingleLine letter)
    {names : List String} (single : ∀ name ∈ names, IsSingleLine name) :
    IsSingleLine (genericList letter names) := by
  have spelled : ∀ name ∈ names.mapIdx fun index name =>
      if name.isEmpty then letter ++ toString index else name, IsSingleLine name := by
    intro name member
    obtain ⟨index, inside, rfl⟩ := List.mem_mapIdx.mp member
    split
    · rw [isSingleLine_append]
      exact ⟨plain, isSingleLine_toString index⟩
    · exact single _ (List.getElem_mem inside)
  unfold genericList
  split
  · decide
  · simp only [isSingleLine_append]
    exact ⟨⟨by decide, isSingleLine_intercalate (by decide) spelled⟩, by decide⟩

section Names

variable {module : Module} (single : module.HasSingleLineNames) {definition : TypeDefinition}
  (own : definition.HasSingleLineNames) {method : MethodDefinition}
  (named : method.HasSingleLineNames)

include own in
theorem areSingleLine_ofType : (GenericNames.ofType definition).AreSingleLine :=
  ⟨own.generics, List.forall_mem_nil _⟩

include own named in
theorem areSingleLine_ofMethod : (GenericNames.ofMethod definition method).AreSingleLine :=
  ⟨own.generics, named.generics⟩

include single in
/-- A type is spelled in one line if all names are single lines. -/
theorem isSingleLine_spell {names : GenericNames} (known : names.AreSingleLine) (type : TypeSig) :
    IsSingleLine (spell module names type) :=
  (single.speller known).type type

include single in
theorem isSingleLine_returnWord {names : GenericNames} (known : names.AreSingleLine)
    (signature : MethodSig) : IsSingleLine (returnWord module names signature) :=
  (single.speller known).parameter signature.returns

include named in
theorem isSingleLine_paramName (index : Nat) : IsSingleLine (method.paramName index) := by
  have numbered : IsSingleLine s!"P_{index}" := by
    rw [isSingleLine_append]
    exact ⟨by decide, isSingleLine_toString index⟩
  rw [MethodDefinition.paramName]
  split
  · next param found =>
    split
    · exact numbered
    · exact named.params param (List.mem_of_find?_eq_some found)
  · exact numbered

include single named in
theorem isSingleLine_paramText {names : GenericNames} (known : names.AreSingleLine) (index : Nat)
    (param : Parameter TypeSig) :
    IsSingleLine (paramText module names method index param) := by
  refine isSingleLine_words ?_
  rw [List.forall_mem_append, List.forall_mem_cons, List.forall_mem_singleton]
  refine ⟨forall_mem_wordsIf ?_, isSingleLine_spell single known _,
    isSingleLine_paramName named index⟩
  split <;> decide

include single own named in
/-- A list of parameters is one line. -/
theorem isSingleLine_paramList : IsSingleLine (paramList module definition method) := by
  refine isSingleLine_intercalate (by decide) ?_
  rw [List.forall_mem_append]
  refine ⟨fun text member => ?_, forall_mem_wordsIf (by decide)⟩
  obtain ⟨index, inside, rfl⟩ := List.mem_mapIdx.mp member
  exact isSingleLine_paramText single named (areSingleLine_ofMethod own named) index _

include single own in
/-- A field is declared in one line. -/
theorem isSingleLine_fieldLine {field : FieldDefinition} (plain : IsSingleLine field.name) :
    IsSingleLine (fieldLine module definition field).content := by
  show IsSingleLine (words _ ++ ";")
  rw [isSingleLine_append]
  refine ⟨isSingleLine_words ?_, by decide⟩
  simp only [List.forall_mem_append, List.forall_mem_cons]
  refine ⟨⟨⟨forall_mem_wordsIf ?_, ?_⟩,
    isSingleLine_spell single (areSingleLine_ofType own) _, plain, List.forall_mem_nil _⟩, ?_⟩
  · exact List.forall_mem_singleton.mpr (isSingleLine_accessWord _)
  · split
    · decide
    · rw [List.forall_mem_append]
      exact ⟨forall_mem_wordsIf (by decide), forall_mem_wordsIf (by decide)⟩
  · split
    · next value _ =>
      rw [List.forall_mem_cons, List.forall_mem_singleton]
      exact ⟨by decide, isSingleLine_literal value⟩
    · exact List.forall_mem_nil _

theorem isSingleLine_scopeWords (definition : TypeDefinition) (method : MethodDefinition) :
    ∀ word ∈ scopeWords definition method, IsSingleLine word := by
  rw [scopeWords]
  split
  · decide
  · rw [List.forall_mem_append]
    exact ⟨forall_mem_wordsIf (List.forall_mem_singleton.mpr (isSingleLine_accessWord _)),
      forall_mem_wordsIf (by decide)⟩

theorem isSingleLine_overridingWords (method : MethodDefinition) :
    ∀ word ∈ overridingWords method, IsSingleLine word := by
  rw [overridingWords]
  split
  · decide
  · split
    · split <;> decide
    · decide

include single own named in
theorem isSingleLine_methodWords :
    ∀ word ∈ methodWords module definition method, IsSingleLine word := by
  rw [methodWords]
  split
  · exact List.forall_mem_singleton.mpr (isSingleLine_displayName own)
  · rw [List.forall_mem_cons, List.forall_mem_singleton, isSingleLine_append]
    exact ⟨isSingleLine_returnWord single (areSingleLine_ofMethod own named) _, named.name,
      isSingleLine_genericList (by decide) named.generics⟩

include single own named in
/-- A method is declared in one line. -/
theorem isSingleLine_methodText : IsSingleLine (methodText module definition method) := by
  have head : IsSingleLine (words (scopeWords definition method ++
      wordsIf (definition.kind != .interface) (overridingWords method) ++
      wordsIf (isExtern definition method) ["extern"] ++
      methodWords module definition method)) := by
    refine isSingleLine_words ?_
    simp only [List.forall_mem_append]
    exact ⟨⟨⟨isSingleLine_scopeWords definition method,
      forall_mem_wordsIf (isSingleLine_overridingWords method)⟩, forall_mem_wordsIf (by decide)⟩,
      isSingleLine_methodWords single own named⟩
  have params := isSingleLine_paramList single own named
  rw [methodText]
  simp only [isSingleLine_append, head, params]
  decide

/-! Lines. -/

/-- Lines without line ends inside them. -/
def AreSingle (lines : List Line) : Prop :=
  ∀ line ∈ lines, IsSingleLine line.content

theorem areSingle_plain {text : String} (plain : IsSingleLine text) :
    AreSingle [Line.plain text] :=
  List.forall_mem_singleton.mpr plain

/-- A block of single lines behind a single line consists of single lines. -/
theorem areSingle_block {head : Line} (front : IsSingleLine head.content) {body : List Line}
    (inner : AreSingle body) : AreSingle (Line.block head body) := by
  have indented : AreSingle (body.map Line.indent) := List.forall_mem_map.mpr inner
  rw [AreSingle, Line.block, List.cons_append, List.cons_append, List.forall_mem_cons,
    List.forall_mem_cons, List.forall_mem_append]
  exact ⟨front, by decide, indented, by decide⟩

/-- So do groups of single lines with blank lines between them. -/
theorem areSingle_separated : ∀ {groups : List (List Line)}, (∀ group ∈ groups, AreSingle group) →
    AreSingle (Line.separated groups)
  | [], _ => List.forall_mem_nil _
  | [group], each => by simpa [Line.separated] using each
  | first :: second :: rest, each => by
    obtain ⟨head, tail⟩ := List.forall_mem_cons.mp each
    rw [Line.separated_cons_cons, AreSingle, List.forall_mem_append, List.forall_mem_cons]
    exact ⟨head, by decide, areSingle_separated tail⟩

include single own named in
/-- All lines of a method are single. -/
theorem areSingle_methodLines : AreSingle (methodLines module definition method) := by
  have text := isSingleLine_methodText single own named
  rw [methodLines]
  split
  · refine areSingle_block ?_ ?_
    · exact text
    · split
      · exact List.forall_mem_nil _
      · exact areSingle_plain (by decide)
  · refine List.forall_mem_singleton.mpr ?_
    show IsSingleLine (_ ++ ";")
    rw [isSingleLine_append]
    exact ⟨text, by decide⟩

include single own in
/-- All lines of the members of a type are single. -/
theorem areSingle_memberGroups : ∀ group ∈ memberGroups module definition, AreSingle group := by
  rw [memberGroups, List.forall_mem_append, List.forall_mem_map]
  refine ⟨?_, fun method member => areSingle_methodLines single own (own.methods method member)⟩
  split
  · exact List.forall_mem_nil _
  · exact List.forall_mem_singleton.mpr (List.forall_mem_map.mpr fun field member =>
      isSingleLine_fieldLine single own (own.fields field member))

/-! Types. -/

theorem isSingleLine_visibilityWord (visibility : Visibility) :
    IsSingleLine (visibilityWord visibility) := by
  unfold visibilityWord
  split
  · decide
  · decide
  · exact isSingleLine_accessWord _

include own in
theorem isSingleLine_typeName : IsSingleLine (typeName definition) := by
  rw [typeName, isSingleLine_append]
  exact ⟨isSingleLine_displayName own, isSingleLine_genericList (by decide) own.generics⟩

include single own in
theorem isSingleLine_bases : ∀ name ∈ bases module definition, IsSingleLine name := by
  have spelled (type : TypeSig) := isSingleLine_spell single (areSingleLine_ofType own) type
  have interfaces : ∀ name ∈ definition.interfaces.map
      (spell module (.ofType definition)), IsSingleLine name :=
    List.forall_mem_map.mpr fun type _ => spelled type
  have named (base : Option TypeSig) (p : String → Bool) :
      ∀ name ∈ (base.map (spell module (.ofType definition))).toList.filter p,
        IsSingleLine name := by
    intro name member
    obtain ⟨type, -, rfl⟩ := Option.map_eq_some_iff.mp
      (Option.mem_toList.mp (List.mem_filter.mp member).1)
    exact spelled type
  unfold bases
  dsimp only
  split
  · exact List.forall_mem_append.mpr ⟨named _ _, interfaces⟩
  · exact named _ _
  · exact interfaces

theorem isSingleLine_classWords (language : Language) (definition : TypeDefinition) :
    ∀ word ∈ classWords language definition, IsSingleLine word := by
  rw [classWords]
  split
  · exact List.forall_mem_nil _
  · split
    · split <;> decide
    · split
      · decide
      · exact forall_mem_wordsIf (by decide)

theorem isSingleLine_kindWord (kind : TypeKind) : IsSingleLine (kindWord kind) := by
  cases kind <;> decide

include single own in
/-- A type is declared in one line. -/
theorem isSingleLine_typeText (language : Language) :
    IsSingleLine (typeText module language definition) := by
  have head : IsSingleLine (words ([visibilityWord (Visibility.ofFlags definition.flags)] ++
      classWords language definition ++ [kindWord definition.kind, typeName definition])) := by
    refine isSingleLine_words ?_
    simp only [List.forall_mem_append, List.forall_mem_cons]
    exact ⟨⟨⟨isSingleLine_visibilityWord _, List.forall_mem_nil _⟩,
      isSingleLine_classWords language definition⟩, isSingleLine_kindWord _,
      isSingleLine_typeName own, List.forall_mem_nil _⟩
  rw [typeText]
  split
  · exact head
  · simp only [isSingleLine_append]
    exact ⟨⟨head, by decide⟩, isSingleLine_intercalate (by decide) (isSingleLine_bases single own)⟩

include own in
theorem areSingle_enumLines : AreSingle (enumLines module definition) := by
  have members : ∀ text ∈ (definition.fields.filter (!·.isEnumValue)).map (enumMember module),
      IsSingleLine text := by
    rw [List.forall_mem_map]
    intro field member
    have plain := own.fields field (List.mem_filter.mp member).1
    rw [enumMember]
    split
    · simp only [isSingleLine_append]
      exact ⟨⟨plain, by decide⟩, isSingleLine_literal _⟩
    · exact plain
  refine List.forall_mem_map.mpr ?_
  rw [List.forall_mem_append, List.forall_mem_map]
  refine ⟨fun text member => ?_, fun text member => ?_⟩
  · show IsSingleLine (text ++ ",")
    rw [isSingleLine_append]
    exact ⟨members text ((List.dropLast_sublist _).subset member), by decide⟩
  · exact members text (List.mem_of_getLast? (Option.mem_toList.mp member))

include single own in
/-- A delegate is declared in one line. -/
theorem isSingleLine_delegateLine : IsSingleLine (delegateLine module definition).content := by
  have visibility := isSingleLine_visibilityWord (Visibility.ofFlags definition.flags)
  have name := isSingleLine_typeName own
  rw [delegateLine]
  cases found : definition.methods.find? (·.name == "Invoke") with
  | none =>
    show IsSingleLine (_ ++ "();")
    simp only [isSingleLine_append, visibility, name]
    decide
  | some invoke =>
    have named := own.methods invoke (List.mem_of_find?_eq_some found)
    have returns := isSingleLine_returnWord single (areSingleLine_ofType own) invoke.signature
    have params := isSingleLine_paramList single own named
    show IsSingleLine (_ ++ ");")
    simp only [isSingleLine_append, visibility, name, returns, params]
    decide

end Names

/-! Documents. -/

section Documents

variable {module : Module} (single : module.HasSingleLineNames) (language : Language)

include single

/-- All lines of a type are single, those of the types nested in it too. -/
theorem areSingle_typeLines (bound : Nat) {definition : TypeDefinition}
    (own : definition.HasSingleLineNames) :
    AreSingle (typeLines module language bound definition) := by
  induction bound generalizing definition with
  | zero => exact List.forall_mem_nil _
  | succ bound ih =>
    have head := isSingleLine_typeText single own language
    rw [typeLines]
    split
    · exact List.forall_mem_singleton.mpr (isSingleLine_delegateLine single own)
    · exact areSingle_block head (areSingle_enumLines own)
    · refine areSingle_block head (areSingle_separated ?_)
      rw [List.forall_mem_append, List.forall_mem_map]
      exact ⟨areSingle_memberGroups single own,
        fun inner member => ih (single.types inner (mem_of_nestedTypes member))⟩

theorem isSingleLine_namespaceOf {definition : TypeDefinition}
    (own : definition.HasSingleLineNames) : IsSingleLine (namespaceOf module definition) := by
  have chain := single.enclosingChain own maxEnclosing
  rw [namespaceOf]
  split
  · next outermost _ same =>
    rw [same, List.forall_mem_cons] at chain
    exact chain.1.space
  · exact own.space

/-- The lines above the types are single. -/
theorem areSingle_headerLines : AreSingle (headerLines module) := by
  have plain (front text : String) (begins : IsSingleLine front) (rest : IsSingleLine text) :
      IsSingleLine (Line.plain (front ++ text)).content :=
    (isSingleLine_append front text).mpr ⟨begins, rest⟩
  simp only [AreSingle, headerLines, List.forall_mem_append, List.forall_mem_cons,
    List.forall_mem_map]
  refine ⟨⟨⟨plain _ _ (by decide) single.name, List.forall_mem_nil _⟩, fun identity member => ?_⟩,
    plain _ _ (by decide) (isSingleLine_moniker _), by decide, List.forall_mem_nil _⟩
  obtain ⟨name, culture⟩ := single.identity identity (Option.mem_toList.mp member)
  exact plain _ _ (by decide) (isSingleLine_identity name culture)

/-- Names without line ends make lines without line ends. -/
theorem areSingle_sourceLines {types : List TypeDefinition}
    (declared : ∀ definition ∈ types, definition ∈ module.types) :
    AreSingle (sourceLines module language types) := by
  have owns : ∀ definition ∈ types, definition.HasSingleLineNames :=
    fun definition member => single.types definition (declared definition member)
  rw [AreSingle, sourceLines, List.forall_mem_append]
  refine ⟨areSingle_headerLines single, areSingle_separated (List.forall_mem_map.mpr ?_)⟩
  intro name member
  have lines : AreSingle (Line.separated ((types.filter fun definition =>
      namespaceOf module definition == name).map
        (typeLines module language module.types.size))) := by
    refine areSingle_separated (List.forall_mem_map.mpr fun definition inside => ?_)
    exact areSingle_typeLines single language _ (owns definition (List.mem_filter.mp inside).1)
  rw [namespaceLines]
  split
  · exact lines
  · refine areSingle_block ?_ lines
    obtain ⟨definition, inside, rfl⟩ := List.mem_map.mp (List.mem_eraseDups.mp member)
    show IsSingleLine ("namespace " ++ _)
    rw [isSingleLine_append]
    exact ⟨by decide, isSingleLine_namespaceOf single (owns definition inside)⟩

end Documents

end ClrDecompiler.Source
