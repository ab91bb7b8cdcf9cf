/-
This file compares the documents of symbols with the source files of the project of the same
module. Both are renderings of the same types, but the symbols look each type up by its name.
-/

import ClrDecompiler.Proofs.Project.SourcePath
import ClrDecompiler.Proofs.Symbols.RoundTrip

namespace ClrDecompiler

open Metadata Source

namespace Project

/-- The source files of a project with the declarations in them. -/
def renderings (module : Module) (language : Language) : List (String × Document) :=
  (sourcePaths module).map fun (path, definition) => (path, ofTypes module language [definition])

/-- The source files stand behind the project and the description of the assembly. -/
theorem drop_files {module : Module} {options : Options} {found : List File}
    (filed : files module options = .ok found) :
    found.drop 2 = (renderings module options.language).map fun (path, source) =>
      ⟨path, source.text⟩ := by
  obtain ⟨project, -, rfl⟩ := files_eq_ok filed
  rw [renderings, List.map_map]
  rfl

end Project

namespace Symbols

/-- The type that is found by the name of a definition looks like the definition. -/
def IsFoundAs {γ : Type} (view : Document → γ) (module : Module) (language : Language)
    (definition : TypeDefinition) : Prop :=
  ∃ found, module.findType? (TypeQuery.ofText (module.reflectionName definition)) = some found ∧
    view (ofTypes module language [found]) = view (ofTypes module language [definition])

/-- The symbols map the method of a declaration to the place of the declaration. -/
def IsMapped (module : Module) (sources : List Document) (declared : Nat × Span) : Prop :=
  declared.2.method.row ≠ 0 ∧ declared.2.method.row.toNat ≤ module.rowCount .methodDef ∧
    expectedPoints sources declared.2.method.row = [pointOf declared]

/-- No method of the module is declared in two places, and nothing else is declared. -/
structure DeclaresOnce (module : Module) (sources : List Document) : Prop where
  known : ∀ declared ∈ declarations sources, declared.2.method.row ≠ 0 ∧
    declared.2.method.row.toNat ≤ module.rowCount .methodDef
  once : ∀ first ∈ declarations sources, ∀ second ∈ declarations sources,
    first.2.method.row = second.2.method.row → pointOf first = pointOf second

/-- A type that is shown was found by its name. -/
theorem ofType_eq_ok {module : Module} {language : Language} {query : TypeQuery}
    {source : Document} (shown : ofType module language query = .ok source) :
    ∃ found, module.findType? query = some found ∧ ofTypes module language [found] = source := by
  rw [ofType] at shown
  split at shown
  case h_1 found listed => exact ⟨found, listed, (decompile_eq_ok_iff.mp shown).2⟩
  case h_2 => cases shown

/-- Every declaration is mapped to itself exactly if no method is declared twice. -/
theorem forall_isMapped_iff (module : Module) (sources : List Document) :
    (∀ declared ∈ declarations sources, IsMapped module sources declared) ↔
      DeclaresOnce module sources := by
  constructor
  · intro mapped
    refine ⟨fun declared member => ⟨(mapped declared member).1, (mapped declared member).2.1⟩, ?_⟩
    intro first firstMember second secondMember same
    have points := (mapped first firstMember).2.2
    rw [same, (mapped second secondMember).2.2] at points
    exact (List.singleton_inj.mp points).symm
  · intro declares declared member
    obtain ⟨positive, inside⟩ := declares.known declared member
    refine ⟨positive, inside, ?_⟩
    cases last : declaration? sources declared.2.method.row with
    | none =>
      have missed := List.find?_eq_none.mp last declared (List.mem_reverse.mpr member)
      exact absurd (beq_self_eq_true _) missed
    | some found =>
      have matched := List.find?_some last
      have same : found.2.method.row = declared.2.method.row := beq_iff_eq.mp matched
      have point := declares.once found (mem_declarations_of_declaration? last) declared member same
      rw [expectedPoints, last, Option.map_some, point]
      rfl

section Lookup

variable {module : Module} {language : Language} {types : List (String × TypeDefinition)}
  {entries : List (String × Document)}
  (rendered : List.Forall₂ (Draft.IsRendered (ofType module language) module) types entries)

include rendered

/-- The sources of symbols look like those of the project exactly if every type is found. -/
theorem views_eq_iff {γ : Type} (view : Document → γ) :
    entries.map (fun entry => view entry.2) =
        types.map (fun type => view (ofTypes module language [type.2])) ↔
      ∀ type ∈ types, IsFoundAs view module language type.2 := by
  induction rendered with
  | nil => simp
  | @cons type entry types entries head tail ih =>
    obtain ⟨found, listed, shown⟩ := ofType_eq_ok head.2
    have first : view entry.2 = view (ofTypes module language [type.2]) ↔
        IsFoundAs view module language type.2 := by
      rw [IsFoundAs, listed, ← shown]
      simp
    rw [List.map_cons, List.map_cons, List.cons.injEq, List.forall_mem_cons, ih, first]

end Lookup

/-- The symbols of a module have one document for each source file of its project, in the same
order and of the same path. The text of a document is that of the file exactly if the lookup of
every type by its name finds a type with that text. The sources as a whole agree, and every
declaration in a source file is mapped to its place, exactly if the lookups find types that are
rendered in the same way and the source files declare every method once. -/
theorem build_agrees_iff {module : Module} {options : Project.Options} {files : List Project.File}
    {image : Bytes} (filed : Project.files module options = .ok files)
    (built : build module (ofType module options.language) = .ok image) :
    ∃ header entries, IsMadeFrom image header module entries ∧
      entries.map Prod.fst = (files.drop 2).map Project.File.path ∧
      (entries.map (fun entry => entry.2.text) = (files.drop 2).map Project.File.content ↔
        ∀ definition ∈ renderedTypes module,
          IsFoundAs Document.text module options.language definition) ∧
      (entries = Project.renderings module options.language ∧
          (∀ declared ∈ declarations ((Project.renderings module options.language).map Prod.snd),
            IsMapped module (entries.map Prod.snd) declared) ↔
        (∀ definition ∈ renderedTypes module, IsFoundAs id module options.language definition) ∧
          DeclaresOnce module ((Project.renderings module options.language).map Prod.snd)) := by
  obtain ⟨_, entries, -, rendered, made⟩ := build_eq_ok built
  have named := paths_of_rendered rendered
  have types {holds : TypeDefinition → Prop} : (∀ type ∈ Project.sourcePaths module, holds type.2) ↔
      ∀ definition ∈ renderedTypes module, holds definition := by
    rw [← Project.assignPaths_types [] (renderedTypes module), List.forall_mem_map]
    rfl
  refine ⟨_, entries, made, ?_, ?_, ?_⟩
  · rw [Project.drop_files filed, named, Project.renderings, List.map_map, List.map_map]
    rfl
  · rw [Project.drop_files filed, Project.renderings, List.map_map, List.map_map, ← types]
    exact views_eq_iff rendered Document.text
  · have whole : entries = Project.renderings module options.language ↔
        ∀ definition ∈ renderedTypes module,
          IsFoundAs id module options.language definition := by
      rw [← types, ← views_eq_iff rendered id]
      constructor
      · rintro rfl
        rw [Project.renderings, List.map_map]
        rfl
      · intro sources
        rw [List.zip_of_prod named sources, Project.renderings, List.zip_map']
        rfl
    rw [← whole, ← forall_isMapped_iff]
    apply and_congr_right
    intro same
    rw [same]

/-- A project in the current directory, in the newest version of the language. -/
def plainOptions : Project.Options where
  directory := ""
  currentDirectory := ""
  language := .latest
  requireReferences := false
  resolve _ := none

/-- The only type of a module is found by its name. -/
theorem build_agrees_sole : ∃ files image header entries,
    Project.files soleModule plainOptions = .ok files ∧
    build soleModule (ofType soleModule .latest) = .ok image ∧
    IsMadeFrom image header soleModule entries ∧
    entries = Project.renderings soleModule .latest ∧
    ∀ declared ∈ declarations ((Project.renderings soleModule .latest).map Prod.snd),
      IsMapped soleModule (entries.map Prod.snd) declared := by
  have accepted : (build soleModule (ofType soleModule .latest)).toOption.isSome = true := by
    decide +kernel
  cases built : build soleModule (ofType soleModule .latest) with
  | error fault =>
    rw [built] at accepted
    cases accepted
  | ok image =>
    cases filed : Project.files soleModule plainOptions with
    | error fault => cases filed
    | ok files =>
      obtain ⟨header, entries, made, -, -, agrees⟩ := build_agrees_iff filed built
      refine ⟨files, image, header, entries, rfl, rfl, made, agrees.mpr ⟨?_, ?_, ?_⟩⟩
      · intro definition member
        cases List.mem_singleton.mp member
        exact ⟨_, List.find?_cons_of_pos (by decide +kernel), rfl⟩
      · decide +kernel
      · decide +kernel

/-- Two types that differ only in their numbers of type parameters. -/
def twinModule : Module := { soleModule with
  types := #[
    ⟨⟨0x02000001⟩, 1, "", String.ofList ['C', arityMark, '1'], .classType, none, [], ["T"], [],
      [{ soleMethod with token := ⟨0x06000001⟩ }], none, []⟩,
    ⟨⟨0x02000002⟩, 1, "", "C", .classType, none, [], [], [], [soleMethod], none, []⟩] }

/-- The name of the second type finds the first one. The symbols describe the first type twice
and do not know the declaration of the second one. -/
theorem twins_disagree : ∃ files image header entries,
    Project.files twinModule plainOptions = .ok files ∧
    build twinModule (ofType twinModule .latest) = .ok image ∧
    IsMadeFrom image header twinModule entries ∧
    List.Forall₂ (Draft.IsRendered (ofType twinModule .latest) twinModule)
      (Project.sourcePaths twinModule) entries ∧
    entries.map (fun entry => entry.2.text) ≠ (files.drop 2).map Project.File.content ∧
    ∃ declared ∈ declarations ((Project.renderings twinModule .latest).map Prod.snd),
      expectedPoints (entries.map Prod.snd) declared.2.method.row = [] := by
  have accepted : (build twinModule (ofType twinModule .latest)).toOption.isSome = true := by
    decide +kernel
  cases built : build twinModule (ofType twinModule .latest) with
  | error fault =>
    rw [built] at accepted
    cases accepted
  | ok image =>
    cases filed : Project.files twinModule plainOptions with
    | error fault => cases filed
    | ok files =>
      obtain ⟨_, entries, -, rendered, made⟩ := build_eq_ok built
      have sources : entries.map Prod.snd = List.replicate 2
          (ofTypes twinModule .latest (twinModule.types.toList.take 1)) := by
        apply List.map_injective_iff.mpr (Option.some_injective _)
        rw [sources_of_rendered rendered]
        decide +kernel
      refine ⟨files, image, _, entries, rfl, rfl, made, rendered, ?_, ?_⟩
      · have texts : entries.map (fun entry => entry.2.text) =
            (entries.map Prod.snd).map Document.text := by
          rw [List.map_map]
          rfl
        rw [Project.drop_files filed, texts, sources]
        decide +kernel
      · rw [sources]
        decide +kernel

end Symbols

end ClrDecompiler
