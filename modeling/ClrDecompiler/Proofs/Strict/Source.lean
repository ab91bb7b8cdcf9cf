/-
This file reads the references and the signatures of a module with accesses that are made without
asking, and shows that they stay in range. A signature that cannot be read is refused or left out,
whatever its blob holds.
-/

import ClrDecompiler.Proofs.Metadata.Limits
import ClrDecompiler.Proofs.Strict.Heap
import ClrDecompiler.Proofs.Strict.Signature
import ClrDecompiler.Proofs.Strict.Tables

namespace ClrDecompiler.Strict

open Metadata Signature ClrDecompiler.Module

structure Source where
  image : Image.Assembly
  root : Root
  header : CliHeader
  heaps : Heaps
  tables : Tables

def cliOf (image : Image.Assembly) : Run Extent :=
  match image.directory? Image.Container.cliIndex with
  | some found => .ok found
  | none => .error (.refused (.malformed .cliDirectoryMissing))

/-- A blob of eight bytes is copied into the token. -/
def keyToken? (flags : UInt32) (key : Bytes) : Run (Option Bytes) :=
  if key.isEmpty then .ok none
  else if flags &&& 1 ≠ 0 ∨ key.size ≠ 8 then .ok (some (AssemblyIdentity.tokenOfKey key))
  else do return some (← copy 8 key)

def parseMember (blob : Bytes) : Run MemberSig :=
  if blob[0]? = some 0x06 then .field <$> parseField.runFrom blob 0
  else .method <$> parseMethod.runFrom blob 0

namespace Source

def ofImage (image : Image.Assembly) : Run Source := do
  let cli ← cliOf image
  let header ← readCliHeader
    (← sliceOrRefuse image.data (← offsetOf image cli.address.toNat) cli.size.toNat)
  let offset ← offsetOf image header.metadata.address.toNat
  let data ← sliceOrRefuse image.data offset header.metadata.size.toNat
  let root ← readRoot data
  let heaps ← readHeaps root data
  match ← tablesData? root data with
  | none => throw (.refused (.malformed .tablesMissing))
  | some tables => return { image, root, header, heaps, tables := ← readTables tables }

variable (source : Source)

def rows (ρ : Type) [Row ρ] [ReadsColumns ρ] : Run (List (Nat × ρ)) :=
  source.tables.rows ρ

def identity (name : UInt32) (version : Version) (culture flags key : UInt32) :
    Run AssemblyIdentity := do
  let name ← string source.heaps name
  let culture ← string source.heaps culture
  let key ← blob source.heaps key
  return { AssemblyIdentity.ofRow name version culture flags key with
           keyToken := ← keyToken? flags key }

def ownIdentity : Run (Option AssemblyIdentity) := do
  match ← source.rows AssemblyRow with
  | [] => return none
  | (_, row) :: _ =>
    return some (← source.identity row.name row.version row.culture row.flags row.key)

def references : Run (List AssemblyIdentity) := do
  (← source.rows AssemblyRefRow).mapM fun (_, row) =>
    source.identity row.name row.version row.culture row.flags row.key

def typeRefs : Run (List TypeReference) := do
  (← source.rows TypeRefRow).mapM fun (number, row) => do
    let namespaceName ← string source.heaps row.namespaceName
    let name ← string source.heaps row.name
    return { token := Token.ofRow .typeRef number, scope := row.scope, namespaceName, name }

def typeSpecs : Run (List TypeSig) := do
  (← source.rows TypeSpecRow).mapM fun (_, row) => do
    let blob ← blob source.heaps row.signature
    return (← attempt (parseTypeSpec.runFrom blob 0)).getD .unknown

def memberRefs : Run (List MemberReference) := do
  (← source.rows MemberRefRow).mapM fun (number, row) => do
    let signature ← parseMember (← blob source.heaps row.signature)
    let name ← string source.heaps row.name
    return { token := Token.ofRow .memberRef number, parent := row.parent, name, signature }

def methodSpecs : Run (List MethodSpecification) := do
  (← source.rows MethodSpecRow).mapM fun (number, row) => do
    let arguments ← parseMethodSpec.runFrom (← blob source.heaps row.instantiation) 0
    return { token := Token.ofRow .methodSpec number, method := row.method.token, arguments }

def localSignatures : Run (List (Option (List TypeSig))) := do
  (← source.rows StandAloneSigRow).mapM fun (_, row) => do
    let blob ← blob source.heaps row.signature
    if blob[0]? = some 0x07 then attempt (parseLocals.runFrom blob 0) else return none

def genericParams : Run (List (Token × UInt16 × String)) := do
  let params ← (← source.rows GenericParamRow).mapM fun (_, row) => do
    return (row.owner.token, row.number, ← string source.heaps row.name)
  return params.mergeSort fun first second => first.2.1 ≤ second.2.1

/-- The sources have the same parts, and all of them lie in memory. -/
inductive Represents : Source → Module.Source → Prop where
  | mk {image : Image.Assembly} {root : Root} {header : CliHeader} {heaps : Heaps}
    {tables : Tables} {stream : TableStream} (same : tables.Represents stream)
    (mapped : IsMapped image) (blobs : HasAddressableBlobs heaps)
    (rows : IsAddressable stream.data) :
    Represents ⟨image, root, header, heaps, tables⟩ ⟨image, root, header, heaps, stream⟩

end Source

/-- The header of managed code is found in an image as in the model. -/
theorem settles_cliOf (image : Image.Assembly) : Settles (cliOf image) image.cli := by
  rw [cliOf, Image.Assembly.cli]
  cases image.directory? Image.Container.cliIndex with
  | none => exact .refused _
  | some found => exact .value found

/-- Only a key of eight bytes is copied, and it is its own token. -/
theorem keyToken?_eq_ok (flags : UInt32) (key : Bytes) :
    keyToken? flags key = .ok (AssemblyIdentity.keyToken? flags key) := by
  rw [keyToken?, AssemblyIdentity.keyToken?]
  split
  · rfl
  split
  · rfl
  · next token =>
    have size : key.size = 8 := Decidable.not_not.mp (not_or.mp token).2
    rw [copy_eq_ok size]
    rfl

/-- The first byte tells fields from methods in both. -/
theorem settles_parseMember {blob : Bytes} (addressable : IsAddressable blob) :
    Settles (parseMember blob) (Module.Source.memberSig blob) :=
  .ite Iff.rfl (fun _ => (Follows.ofBlob .parseField addressable).map _)
    fun _ => (Follows.ofBlob .parseMethod addressable).map _

theorem IsAddressable.of_le {data part : Bytes} (addressable : IsAddressable data)
    (le : part.size ≤ data.size) : IsAddressable part :=
  Nat.lt_of_le_of_lt le addressable

/-- The heap of the blobs is a part of the metadata. -/
theorem hasAddressableBlobs_ofRoot {root : Root} {data : Bytes} {heaps : Heaps}
    (addressable : IsAddressable data) (run : Heaps.ofRoot root data = .ok heaps) :
    HasAddressableBlobs heaps := by
  obtain ⟨strings, -, run⟩ := Outcome.of_bind_eq_ok run
  obtain ⟨blobs, found, run⟩ := Outcome.of_bind_eq_ok run
  obtain ⟨guids, -, run⟩ := Outcome.of_bind_eq_ok run
  cases run
  intro heap member
  cases part : root.streamData? data "#Blob" with
  | none =>
    rw [part] at found
    cases found
    cases member
  | some bytes =>
    rw [part] at found
    obtain ⟨opened, start, rfl⟩ := Outcome.of_map_eq_ok found
    cases member
    rw [BlobHeap.ofBytes] at start
    split at start
    · cases start
      exact addressable.of_le (Root.streamData?_size_le part)
    · cases start

theorem IsAddressable.of_blob {heaps : Heaps} (blobs : HasAddressableBlobs heaps) {index : UInt32}
    {found : Bytes} (run : heaps.blob index = .ok found) : IsAddressable found := by
  rw [Heaps.blob] at run
  split at run
  · cases run
    exact (by decide : IsAddressable #[])
  · cases heap : heaps.blobs with
    | none =>
      rw [heap] at run
      cases run
    | some opened =>
      rw [heap] at run
      simp only [BlobHeap.get] at run
      split at run
      · cases run
      · have whole : BlobHeap.readBlob.runAt opened.data index.toNat = (.ok found, _) :=
          Prod.ext run rfl
        obtain ⟨length, middle, -, run⟩ := Read.of_runAt_bind whole
        have cut := Read.runAt_bytes length opened.data middle
        rw [run] at cut
        exact (blobs opened heap).of_slice? cut.symm

/-- The strict loader finds the same tables and heaps in an image. -/
theorem agree_sourceOfImage {image : Image.Assembly} (mapped : IsMapped image) :
    Agree Source.Represents (Source.ofImage image) (Module.Source.ofImage image) := by
  refine Settles.bind (settles_cliOf image) fun cli _ => ?_
  refine Settles.bind (settles_offsetOf mapped _) fun place _ => ?_
  refine Settles.bind (settles_sliceOrRefuse mapped.data _ _) fun headerData cut => ?_
  refine Settles.bind (settles_readCliHeader (mapped.data.of_slice? cut)) fun header _ => ?_
  refine Settles.bind (settles_offsetOf mapped _) fun offset _ => ?_
  refine Settles.bind (settles_sliceOrRefuse mapped.data _ _) fun data cut => ?_
  have addressable : IsAddressable data := mapped.data.of_slice? cut
  refine Settles.bind (settles_readRoot addressable) fun root _ => ?_
  refine Settles.bind (settles_readHeaps root data) fun heaps run => ?_
  have blobs := hasAddressableBlobs_ofRoot addressable run
  refine .access ((settles_tablesData? root data).eq_ok rfl) ?_
  cases found : root.tablesData? data with
  | none => exact .refused _
  | some part =>
    have rows := addressable.of_le (Root.tablesData?_size_le found)
    refine (agree_readTables rows).bind fun tables stream run same => .ok ?_
    exact .mk same mapped blobs (TableStream.data_of_read run ▸ rows)

namespace Source.Represents

variable {strict : Strict.Source} {source : Module.Source} (represents : strict.Represents source)
include represents

/-- The rows of every type are read as in the model. -/
theorem rows (ρ : Type) [Row ρ] [ReadsColumns ρ] : Settles (strict.rows ρ) (source.rows ρ) := by
  obtain ⟨same, mapped, blobs, rows⟩ := represents
  exact same.rows ρ rows

/-- Texts are found alike. -/
theorem string (index : UInt32) :
    Settles (Strict.string strict.heaps index) (source.heaps.string index) := by
  obtain ⟨same, mapped, blobs, rows⟩ := represents
  exact settles_string _ index

/-- So are blobs. -/
theorem blob (index : UInt32) :
    Settles (Strict.blob strict.heaps index) (source.heaps.blob index) := by
  obtain ⟨same, mapped, blobs, rows⟩ := represents
  exact settles_blob blobs index

/-- So are identifiers. -/
theorem guid? (index : UInt32) :
    Strict.guid? strict.heaps index = .ok (source.heaps.guid? index) := by
  obtain ⟨same, mapped, blobs, rows⟩ := represents
  exact guid?_eq_ok _ index

/-- Both count the same rows. -/
theorem summary : strict.tables.summary = .ok source.tables.summary := by
  obtain ⟨same, mapped, blobs, rows⟩ := represents
  exact same.summary

/-- The blobs of a source can be addressed. -/
theorem addressable_blob {index : UInt32} {found : Bytes}
    (run : source.heaps.blob index = .ok found) : IsAddressable found := by
  obtain ⟨same, mapped, blobs, rows⟩ := represents
  exact .of_blob blobs run

/-- The identity of an assembly is made of its row as in the model. -/
theorem identity (name : UInt32) (version : Version) (culture flags key : UInt32) :
    Settles (strict.identity name version culture flags key)
      (source.identity name version culture flags key) := by
  refine (represents.string name).bind fun name _ => ?_
  refine (represents.string culture).bind fun culture _ => ?_
  refine (represents.blob key).bind fun key _ => ?_
  exact .access (keyToken?_eq_ok flags key) (.value _)

/-- The identity of the assembly is loaded alike. -/
theorem ownIdentity : Settles strict.ownIdentity source.ownIdentity := by
  refine (represents.rows AssemblyRow).bind fun found _ => ?_
  cases found with
  | nil => exact .value none
  | cons first rest => exact (represents.identity _ _ _ _ _).bind fun identity _ => .value _

/-- The references to other assemblies are read as in the model. -/
theorem references : Settles strict.references source.references :=
  (represents.rows AssemblyRefRow).bind fun _ _ => Settles.mapM fun _ _ =>
    represents.identity _ _ _ _ _

/-- So are the references to types. -/
theorem typeRefs : Settles strict.typeRefs source.typeRefs :=
  (represents.rows TypeRefRow).bind fun _ _ => Settles.mapM fun _ _ =>
    (represents.string _).bind fun _ _ => (represents.string _).bind fun _ _ => .value _

/-- So are the signatures of types. -/
theorem typeSpecs : Settles strict.typeSpecs source.typeSpecs :=
  (represents.rows TypeSpecRow).bind fun _ _ => Settles.mapM fun _ _ =>
    (represents.blob _).bind fun _ run => .access
      (Follows.ofBlob .parseTypeSpec (represents.addressable_blob run)).attempt (.value _)

/-- So are the references to members. -/
theorem memberRefs : Settles strict.memberRefs source.memberRefs :=
  (represents.rows MemberRefRow).bind fun _ _ => Settles.mapM fun _ _ =>
    (represents.blob _).bind fun _ run =>
      (settles_parseMember (represents.addressable_blob run)).bind fun _ _ =>
        (represents.string _).bind fun _ _ => .value _

/-- So are the methods with type arguments. -/
theorem methodSpecs : Settles strict.methodSpecs source.methodSpecs :=
  (represents.rows MethodSpecRow).bind fun _ _ => Settles.mapM fun _ _ =>
    (represents.blob _).bind fun _ run =>
      (Follows.ofBlob .parseMethodSpec (represents.addressable_blob run)).bind fun _ _ => .value _

/-- So are the signatures of local variables. -/
theorem localSignatures : Settles strict.localSignatures source.localSignatures := by
  refine (represents.rows StandAloneSigRow).bind fun _ _ => Settles.mapM fun _ _ => ?_
  refine (represents.blob _).bind fun found run => ?_
  have read := (Follows.ofBlob .parseLocals (represents.addressable_blob run)).attempt
  split
  · rw [read]
    exact .value _
  · exact .value none

/-- So are the type parameters. -/
theorem genericParams : Settles strict.genericParams source.genericParams :=
  (represents.rows GenericParamRow).bind fun _ _ =>
    (Settles.mapM fun _ _ => (represents.string _).bind fun _ _ => .value _).bind fun _ _ =>
      .value _

end Source.Represents

end ClrDecompiler.Strict
