/-
This file follows the builder of symbols through the types and the methods of a module: what its
heap, its tables and its points hold after each of them.
-/

import ClrDecompiler.Proofs.Metadata.TableRoundTrip
import ClrDecompiler.Proofs.Symbols.DocumentName
import ClrDecompiler.Proofs.Symbols.SequencePoint

namespace ClrDecompiler.Symbols

open Metadata Source

/-- The declarations in the order in which they are processed, each with the number of its
source, counted from one. -/
def declarations (sources : List Document) : List (Nat × Span) :=
  (sources.zipIdx 1).flatMap fun (source, document) => source.spans.map (document, ·)

/-- The last declaration of the method in a row. -/
def declaration? (sources : List Document) (row : UInt32) : Option (Nat × Span) :=
  (declarations sources).reverse.find? fun declared => declared.2.method.row == row

theorem declarations_append (sources : List Document) (source : Document) :
    declarations (sources ++ [source]) =
      declarations sources ++ source.spans.map (sources.length + 1, ·) := by
  rw [declarations, List.zipIdx_append, List.flatMap_append, Nat.add_comm]
  exact congrArg (_ ++ ·) (List.append_nil _)

/-- A declaration belongs to one of the sources. -/
theorem mem_declarations {sources : List Document} {document : Nat} {span : Span}
    (member : (document, span) ∈ declarations sources) :
    document ≠ 0 ∧ document ≤ sources.length := by
  obtain ⟨⟨source, number⟩, listed, inside⟩ := List.mem_flatMap.mp member
  obtain ⟨other, -, same⟩ := List.mem_map.mp inside
  cases same
  obtain ⟨low, high, -⟩ := List.mem_zipIdx listed
  omega

theorem mem_declarations_of_declaration? {sources : List Document} {row : UInt32}
    {declared : Nat × Span} (last : declaration? sources row = some declared) :
    declared ∈ declarations sources :=
  List.mem_reverse.mp (List.mem_of_find?_eq_some last)

/-- A row of a document refers to its name and its digest. -/
def StoresDocument (data : List UInt8) (raws : List UInt32) (entry : String × Document) : Prop :=
  ∃ name hash, raws = [UInt32.ofNat name, Draft.digestIndex, UInt32.ofNat hash,
      Draft.languageIndex] ∧ DocumentName.StoresName data name entry.1 ∧
    StoresBlob data hash (Digest.Sha256.hash (Utf8.encode entry.2.text))

/-- The row of a method refers to the points of its last declaration. -/
inductive StoresMethod (data : List UInt8) (sources : List Document) :
    List UInt32 → Nat → Prop where
  | absent {row : Nat} (none : declaration? sources (UInt32.ofNat row) = none) :
    StoresMethod data sources [0, 0] row
  | present {row document index : Nat} {span : Span} {points : Bytes}
    (last : declaration? sources (UInt32.ofNat row) = some (document, span))
    (written : declarationPoints span.line span.startColumn span.endColumn = .ok points)
    (stores : StoresBlob data index points) (nonzero : index ≠ 0) :
    StoresMethod data sources [UInt32.ofNat document, UInt32.ofNat index] row

/-- A draft keeps the points of a declaration under the row of its method. -/
structure IsDeclared (point : UInt32 × Nat × Bytes) (declared : Nat × Span) : Prop where
  row : point.1 = declared.2.method.row
  document : point.2.1 = declared.1
  written : declarationPoints declared.2.line declared.2.startColumn declared.2.endColumn =
    .ok point.2.2

/-- What a draft holds after some sources, each with its path, and some rows of methods. -/
structure Draft.Holds (draft : Draft) (entries : List (String × Document)) (rows : List Nat) :
    Prop where
  sound : draft.blobs.Sound
  documents : List.Forall₂ (StoresDocument draft.blobs.data.toList)
    (draft.tables.rowsOf .document) entries
  methods : List.Forall₂ (StoresMethod draft.blobs.data.toList (entries.map Prod.snd))
    (draft.tables.rowsOf .methodDebugInformation) rows
  others : ∀ table, table ≠ .document → table ≠ .methodDebugInformation →
    draft.tables.rowsOf table = []
  points : List.Forall₂ IsDeclared draft.points (declarations (entries.map Prod.snd)).reverse

theorem StoresDocument.append {data : List UInt8} {raws : List UInt32} {entry : String × Document}
    (stores : StoresDocument data raws entry) (more : List UInt8) :
    StoresDocument (data ++ more) raws entry := by
  obtain ⟨name, hash, rfl, named, hashed⟩ := stores
  exact ⟨name, hash, rfl, named.append more, hashed.append more⟩

theorem StoresMethod.append {data : List UInt8} {sources : List Document} {raws : List UInt32}
    {row : Nat} (stores : StoresMethod data sources raws row) (more : List UInt8) :
    StoresMethod (data ++ more) sources raws row := by
  cases stores with
  | absent none => exact .absent none
  | present last written stores nonzero =>
    exact .present last written (stores.append more) nonzero

/-- The rows of a draft still refer to the same blobs when the heap has grown. -/
theorem Draft.Holds.append {draft : Draft} {entries : List (String × Document)} {rows : List Nat}
    (holds : draft.Holds entries rows) (more : List UInt8) :
    List.Forall₂ (StoresDocument (draft.blobs.data.toList ++ more))
        (draft.tables.rowsOf .document) entries ∧
      List.Forall₂ (StoresMethod (draft.blobs.data.toList ++ more) (entries.map Prod.snd))
        (draft.tables.rowsOf .methodDebugInformation) rows := by
  constructor
  · exact holds.documents.imp fun _ _ stores => stores.append more
  · exact holds.methods.imp fun _ _ stores => stores.append more

namespace Draft

theorem holds_start : Holds {} [] [] :=
  ⟨BlobHeapBuilder.sound_start, .nil, .nil, fun _ _ _ => rfl, .nil⟩

/-- The declarations of a source are put in front of the points so far. -/
theorem foldlM_addSpan_eq_ok {draft after : Draft} {document : Nat} {spans : List Span}
    (run : spans.foldlM (fun draft span => draft.addSpan document span) draft = .ok after) :
    after.blobs = draft.blobs ∧ after.tables = draft.tables ∧
      ∃ points, after.points = points ++ draft.points ∧
        List.Forall₂ IsDeclared points (spans.map (document, ·)).reverse := by
  refine Outcome.foldlM_induction (motive := fun done after =>
    after.blobs = draft.blobs ∧ after.tables = draft.tables ∧
      ∃ points, after.points = points ++ draft.points ∧
        List.Forall₂ IsDeclared points (done.map (document, ·)).reverse) ?_ ?_ run
  · rintro done middle span next ⟨blobs, tables, points, whole, declared⟩ step
    obtain ⟨blob, written, finished⟩ := Outcome.of_bind_eq_ok step
    cases finished
    refine ⟨blobs, tables, (span.method.row, document, blob) :: points, ?_, ?_⟩
    · rw [List.cons_append, ← whole]
    · rw [List.map_append, List.reverse_append]
      exact .cons ⟨rfl, rfl, written⟩ declared
  · exact ⟨rfl, rfl, [], rfl, .nil⟩

/-- A document is added with its name behind those before it. -/
theorem addDocument_holds {draft after : Draft} {path : String} {source : Document}
    {entries : List (String × Document)} (holds : draft.Holds entries [])
    (added : draft.addDocument path source = .ok after) :
    after.Holds (entries ++ [(path, source)]) [] := by
  obtain ⟨⟨name, named⟩, stored, added⟩ := Outcome.of_bind_eq_ok added
  obtain ⟨⟨hash, hashed⟩, digested, added⟩ := Outcome.of_bind_eq_ok added
  obtain ⟨⟨document, tables⟩, numbered, added⟩ := Outcome.of_bind_eq_ok added
  obtain ⟨first, nameStored⟩ := DocumentName.add_stores holds.sound stored
  obtain ⟨second, hashStored, -⟩ := BlobHeapBuilder.add_stores first.sound digested
  obtain ⟨more, grown⟩ := (first.trans second).grows
  obtain ⟨hashBytes, later⟩ := second.grows
  obtain ⟨blobs, same, points, whole, declared⟩ := foldlM_addSpan_eq_ok added
  dsimp only at blobs same whole
  have size : draft.tables.rowCount .document = entries.length := holds.documents.length_eq
  have number : document = (entries.map Prod.snd).length + 1 := by
    rw [(TableBuilder.addRow_eq_ok numbered).2.1, size, List.length_map]
  refine ⟨?_, ?_, ?_, ?_, ?_⟩
  · rw [blobs]
    exact second.sound
  · rw [blobs, same, TableBuilder.rowsOf_addRow numbered, if_pos rfl]
    apply List.rel_append
    · rw [grown]
      exact (holds.append more).1
    · refine .cons ⟨name, hash, rfl, ?_, hashStored⟩ .nil
      rw [later]
      exact nameStored.append hashBytes
  · rw [same, TableBuilder.rowsOf_addRow numbered, if_neg (by decide), List.append_nil,
      List.forall₂_nil_right_iff.mp holds.methods]
    exact .nil
  · intro table other another
    rw [same, TableBuilder.rowsOf_addRow numbered, if_neg (Ne.symm other), List.append_nil]
    exact holds.others table other another
  · rw [whole, List.map_append, List.map_singleton, declarations_append, List.reverse_append,
      ← number]
    exact List.rel_append declared holds.points

/-- Every type is rendered by its name. -/
def IsRendered (render : TypeQuery → Except Fault Document) (module : Module)
    (type : String × TypeDefinition) (entry : String × Document) : Prop :=
  entry.1 = type.1 ∧ render (TypeQuery.ofText (module.reflectionName type.2)) = .ok entry.2

/-- The types of a module are added in the order of their paths. -/
theorem addTypes_holds {render : TypeQuery → Except Fault Document} {module : Module}
    {after : Draft} (added : addTypes render module {} = .ok after) :
    ∃ entries, List.Forall₂ (IsRendered render module) (Project.sourcePaths module) entries ∧
      after.Holds entries [] := by
  refine Outcome.foldlM_induction (motive := fun done after => ∃ entries,
    List.Forall₂ (IsRendered render module) done entries ∧ after.Holds entries []) ?_ ?_ added
  · rintro done draft ⟨path, definition⟩ next ⟨entries, rendered, holds⟩ step
    obtain ⟨source, shown, added⟩ := Outcome.of_bind_eq_ok step
    refine ⟨entries ++ [(path, source)], ?_, addDocument_holds holds added⟩
    exact List.rel_append rendered (.cons ⟨rfl, shown⟩ .nil)
  · exact ⟨[], .nil, holds_start⟩

/-- A draft finds the last declaration of a method. -/
theorem lookup_points {points : List (UInt32 × Nat × Bytes)} {declared : List (Nat × Span)}
    (all : List.Forall₂ IsDeclared points declared) (row : UInt32) :
    match points.lookup row with
    | some point => ∃ span, IsDeclared (row, point) (point.1, span) ∧
        declared.find? (fun declared => declared.2.method.row == row) = some (point.1, span)
    | none => declared.find? (fun declared => declared.2.method.row == row) = none := by
  induction all with
  | nil => rfl
  | @cons point first points declared head tail ih =>
    obtain ⟨place, document, blob⟩ := point
    obtain ⟨number, span⟩ := first
    obtain ⟨same, rfl, written⟩ := head
    dsimp only at same written
    by_cases here : span.method.row = row
    · have found : ((row == place) : Bool) = true := beq_iff_eq.mpr (by rw [same, here])
      rw [List.lookup_cons, found]
      exact ⟨span, ⟨here.symm, rfl, written⟩, List.find?_cons_of_pos (beq_iff_eq.mpr here)⟩
    · have missed : ((row == place) : Bool) = false :=
        beq_false_of_ne fun found => here (by rw [found, same])
      have passed : (span.method.row == row) = false := beq_false_of_ne here
      rw [List.lookup_cons, missed]
      simp only [List.find?_cons, passed]
      exact ih

theorem addRow_holds {draft : Draft} {blobs : BlobHeapBuilder} {tables : TableBuilder}
    {entries : List (String × Document)} {rows : List Nat} {values : List UInt32} {row number : Nat}
    (holds : draft.Holds entries rows) (extension : draft.blobs.Extends blobs)
    (added : draft.tables.addRow .methodDebugInformation values = .ok (number, tables))
    (stores : StoresMethod blobs.data.toList (entries.map Prod.snd) values row) :
    Holds { draft with blobs, tables } entries (rows ++ [row]) := by
  obtain ⟨more, grown⟩ := extension.grows
  obtain ⟨documents, methods⟩ := holds.append more
  rw [← grown] at documents methods
  refine ⟨extension.sound, ?_, ?_, ?_, holds.points⟩
  · rw [TableBuilder.rowsOf_addRow added, if_neg (by decide), List.append_nil]
    exact documents
  · rw [TableBuilder.rowsOf_addRow added, if_pos rfl]
    exact List.rel_append methods (.cons stores .nil)
  · intro table other another
    rw [TableBuilder.rowsOf_addRow added, if_neg (Ne.symm another), List.append_nil]
    exact holds.others table other another

/-- A method is added with the points of its declaration, if it has one. -/
theorem addMethod_holds {draft after : Draft} {entries : List (String × Document)}
    {rows : List Nat} {row : Nat} (holds : draft.Holds entries rows)
    (added : draft.addMethod row = .ok after) : after.Holds entries (rows ++ [row]) := by
  have place := lookup_points holds.points (UInt32.ofNat row)
  rw [addMethod] at added
  cases found : draft.points.lookup (UInt32.ofNat row) with
  | none =>
    rw [found] at added place
    obtain ⟨⟨number, tables⟩, numbered, finished⟩ := Outcome.of_bind_eq_ok added
    cases finished
    exact addRow_holds holds (BlobHeapBuilder.extends_refl holds.sound) numbered (.absent place)
  | some point =>
    obtain ⟨document, points⟩ := point
    rw [found] at added place
    obtain ⟨span, declared, last⟩ := place
    obtain ⟨⟨index, blobs⟩, stored, added⟩ := Outcome.of_bind_eq_ok added
    obtain ⟨⟨number, tables⟩, numbered, finished⟩ := Outcome.of_bind_eq_ok added
    cases finished
    obtain ⟨extension, has, empty⟩ := BlobHeapBuilder.add_stores holds.sound stored
    have nonzero : index ≠ 0 := fun zero =>
      declarationPoints_ne_empty declared.written (empty zero)
    exact addRow_holds holds extension numbered (.present last declared.written has nonzero)

/-- The rows of the methods are counted from one. -/
theorem addMethods_holds {module : Module} {draft after : Draft}
    {entries : List (String × Document)} (holds : draft.Holds entries [])
    (added : addMethods module draft = .ok after) :
    after.Holds entries ((List.range (module.rowCount .methodDef)).map (· + 1)) := by
  refine Outcome.foldlM_induction (motive := fun done after =>
    after.Holds entries (done.map (· + 1))) ?_ holds added
  intro done draft index next holds step
  rw [List.map_append]
  exact addMethod_holds holds step

end Draft

end ClrDecompiler.Symbols
