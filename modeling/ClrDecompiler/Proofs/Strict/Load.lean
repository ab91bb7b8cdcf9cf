/-
This file loads modules with accesses that are made without asking, and shows that they stay in
range and come to their end for every image, whatever its metadata holds.
-/

import ClrDecompiler.Proofs.Strict.Types

namespace ClrDecompiler.Strict

open Metadata Signature ClrDecompiler.Module

/-- A single byte at the end is not part of a pair. -/
def pairs : List UInt8 → List Bytes
  | low :: high :: rest => #[low, high] :: pairs rest
  | _ => []

def unitOf (pair : Bytes) : Run UInt16 := do
  return UInt16.ofNat ((← item pair 0).toNat + (← item pair 1).toNat * 0x100)

def scanSigned (width : Nat) (elementType : UInt8) : Scan ConstantValue := do
  return .signed (← Scan.signed width) elementType

def scanUnsigned (width : Nat) (elementType : UInt8) : Scan ConstantValue := do
  return .unsigned (← Scan.number width) elementType

/-- The constants other than text. -/
def scanConstant (elementType : UInt8) : Scan ConstantValue :=
  match elementType with
  | 0x02 => (fun value => .boolean (value ≠ 0)) <$> Scan.word8
  | 0x03 => .char <$> Scan.word16
  | 0x04 => scanSigned 1 elementType
  | 0x05 => scanUnsigned 1 elementType
  | 0x06 => scanSigned 2 elementType
  | 0x07 => scanUnsigned 2 elementType
  | 0x08 => scanSigned 4 elementType
  | 0x09 => scanUnsigned 4 elementType
  | 0x0A => scanSigned 8 elementType
  | 0x0B => scanUnsigned 8 elementType
  | 0x0C => .float32 <$> Scan.word32
  | 0x0D => .float64 <$> Scan.word64
  | 0x12 => return .null
  | _ => throw (.refused (.malformed (.constantType elementType)))

def constant (elementType : UInt8) (data : Bytes) : Run ConstantValue :=
  if elementType = 0x0E then do
    let units ← (pairs data.toList).mapM unitOf
    return .string (String.ofList (Utf16.decode units))
  else (scanConstant elementType).runFrom data 0

def scanAttributeText (row : Nat) : Scan (Option String) := do
  if (← Scan.word16) ≠ 1 then throw (.refused (.malformed (.attributeProlog row)))
  Scan.serializedText

namespace Source

variable (source : Source)

def fieldConstants : Run (List (Token × ConstantValue)) := do
  let found ← (← source.rows ConstantRow).mapM fun (_, row) => do
    if row.parent.table = .field then
      let blob ← blob source.heaps row.value
      return (← attempt (constant row.elementType blob)).map (row.parent.token, ·)
    else return none
  return found.filterMap id

def frameworkOf (typeRefs : Array TypeReference) (memberRefs : Array MemberReference) :
    List (Nat × CustomAttributeRow) → Run (Option TargetFramework)
  | [] => .ok none
  | (number, row) :: rest => do
    if Module.Source.namesFramework typeRefs memberRefs row then
      match ← (scanAttributeText number).runFrom (← blob source.heaps row.value) 0 with
      | some text => return TargetFramework.ofAttribute? text
      | none => frameworkOf typeRefs memberRefs rest
    else frameworkOf typeRefs memberRefs rest

end Source

def load (path : String) (image : Image.Assembly) : Run Module := do
  let debugEntries := (← attempt (debugEntries image)).getD []
  let source ← Source.ofImage image
  let (name, mvid) ← match ← source.rows ModuleRow with
    | [] => throw (.refused (.malformed .moduleMissing))
    | (_, row) :: _ => do
      pure (← string source.heaps row.name, ← guid? source.heaps row.mvid)
  let identity ← source.ownIdentity
  let references ← source.references
  let typeRefs := (← source.typeRefs).toArray
  let typeSpecs := (← source.typeSpecs).toArray
  let memberRefs := (← source.memberRefs).toArray
  let methodSpecs := (← source.methodSpecs).toArray
  let localSignatures := (← source.localSignatures).toArray
  let types ← source.types typeRefs typeSpecs
  let fieldConstants ← source.fieldConstants
  let named ← source.frameworkOf typeRefs memberRefs (← source.rows CustomAttributeRow)
  let entryPoint := source.header.entryPoint?.filter fun token => token.pointsInto .methodDef
  return {
    image, path, name, mvid, identity, references, debugEntries, entryPoint, types, typeRefs
    typeSpecs, memberRefs, methodSpecs, localSignatures, fieldConstants
    runtimeVersion := source.root.version
    framework := named.getD (TargetFramework.ofRuntimeVersion source.root.version)
    tableRows := ← source.tables.summary
    userStrings := source.heaps.userStrings }

/-- The bytes of a text are taken two by two. -/
theorem units_eq_ok (bytes : List UInt8) :
    (pairs bytes).mapM unitOf = .ok (Utf16.units bytes) := by
  fun_induction pairs bytes with
  | case1 low high rest ih =>
    rw [List.mapM_cons, ih]
    rfl
  | case2 bytes single =>
    cases bytes with
    | nil => rfl
    | cons low rest =>
      cases rest with
      | nil => rfl
      | cons high rest => exact absurd rfl (single low high rest)

/-- A signed constant is read alike. -/
theorem Follows.scanSigned {depth : Nat} (width : Nat) (elementType : UInt8) :
    Follows depth (scanSigned width elementType) (Module.Source.signedConstant width elementType) :=
  (signed width).bind fun _ => value _

/-- So is an unsigned one. -/
theorem Follows.scanUnsigned {depth : Nat} (width : Nat) (elementType : UInt8) :
    Follows depth (scanUnsigned width elementType)
      (Module.Source.unsignedConstant width elementType) :=
  (number width).bind fun _ => value _

/-- Constants other than texts are read as in the model. -/
theorem Follows.scanConstant {depth : Nat} {elementType : UInt8} (other : elementType ≠ 0x0E) :
    Follows depth (scanConstant elementType) (Module.Source.readConstant elementType) := by
  unfold Strict.scanConstant Module.Source.readConstant
  split
  · exact word8.map _
  · exact word16.map _
  · exact scanSigned 1 _
  · exact scanUnsigned 1 _
  · exact scanSigned 2 _
  · exact scanUnsigned 2 _
  · exact scanSigned 4 _
  · exact scanUnsigned 4 _
  · exact scanSigned 8 _
  · exact scanUnsigned 8 _
  · exact word32.map _
  · exact word64.map _
  · exact value _
  · split <;> first | exact refusal _ | exact absurd rfl (by assumption)

/-- The strict reader of constants gives what the reader gives. -/
theorem settles_constant {data : Bytes} (addressable : IsAddressable data) (elementType : UInt8) :
    Settles (constant elementType data) ((Module.Source.readConstant elementType).runOn data) := by
  rw [constant]
  by_cases text : elementType = 0x0E
  · subst text
    rw [if_pos rfl]
    have whole : (Read.bytes data.size).runAt data 0 = (.ok data, data.size) := by
      simp only [Read.bytes, Read.runAt_bind, Read.runAt_get, Read.runAt_read, Bytes.slice?,
        Nat.zero_add, Nat.le_refl, if_true, Read.runAt_set, Read.runAt_pure, Array.extract_size]
    have read : (Module.Source.readConstant 0x0E).runOn data =
        .ok (.string (String.ofList (Utf16.decode (Utf16.units data.toList)))) := by
      simp only [Module.Source.readConstant, Read.runOn, Read.size, Read.runAt_bind,
        Read.runAt_read, Read.runAt_pure, whole]
    rw [read]
    exact .access (units_eq_ok data.toList) (.value _)
  · rw [if_neg text]
    exact (Follows.scanConstant text).settles addressable 0

/-- So is the text of an attribute. -/
theorem Follows.scanAttributeText {depth : Nat} (row : Nat) :
    Follows depth (scanAttributeText row) (Module.Source.readAttributeText row) :=
  word16.bind fun _ => guard serializedText

namespace Source.Represents

variable {strict : Strict.Source} {source : Module.Source} (represents : strict.Represents source)
include represents

/-- The constants of all fields are read as in the model. -/
theorem fieldConstants : Settles strict.fieldConstants source.fieldConstants := by
  refine (represents.rows ConstantRow).bind fun found _ => ?_
  refine (Settles.mapM fun entry _ => ?_).bind fun constants _ => .value _
  refine .ite Iff.rfl (fun _ => ?_) fun _ => .value none
  refine (represents.blob _).bind fun blob run => ?_
  exact .access (settles_constant (represents.addressable_blob run) _).attempt (.value _)

/-- The framework that an attribute names is found as in the model. -/
theorem frameworkOf (typeRefs : Array TypeReference) (memberRefs : Array MemberReference)
    (attributes : List (Nat × CustomAttributeRow)) :
    Settles (strict.frameworkOf typeRefs memberRefs attributes)
      (source.frameworkOf typeRefs memberRefs attributes) := by
  induction attributes with
  | nil => exact .value none
  | cons first rest ih =>
    refine .ite Iff.rfl (fun _ => ?_) fun _ => ih
    refine (represents.blob _).bind fun blob run => ?_
    refine ((Follows.scanAttributeText _).settles (represents.addressable_blob run) 0).bind
      fun text _ => ?_
    cases text with
    | none => exact ih
    | some text => exact .value _

end Source.Represents

/-- The accesses are made in the order of the loader, and they have its outcome. -/
theorem settles_load (path : String) {image : Image.Assembly} (mapped : IsMapped image) :
    Settles (load path image) (Module.load path image) := by
  refine .access (settles_debugEntries mapped).attempt ?_
  refine (agree_sourceOfImage mapped).bind fun strict source _ represents => ?_
  refine (represents.rows ModuleRow).bind fun modules _ => ?_
  cases modules with
  | nil => exact .refused _
  | cons first rest =>
    refine (represents.string _).bind fun name _ => ?_
    refine .access (represents.guid? _) ?_
    refine represents.ownIdentity.bind fun identity _ => ?_
    refine represents.references.bind fun references _ => ?_
    refine represents.typeRefs.bind fun typeRefs _ => ?_
    refine represents.typeSpecs.bind fun typeSpecs _ => ?_
    refine represents.memberRefs.bind fun memberRefs _ => ?_
    refine represents.methodSpecs.bind fun methodSpecs _ => ?_
    refine represents.localSignatures.bind fun localSignatures _ => ?_
    refine (represents.types _ _).bind fun types _ => ?_
    refine represents.fieldConstants.bind fun fieldConstants _ => ?_
    refine (represents.rows CustomAttributeRow).bind fun attributes _ => ?_
    refine (represents.frameworkOf _ _ attributes).bind fun named _ => ?_
    refine .access represents.summary ?_
    obtain ⟨same, mapped, blobs, rows⟩ := represents
    exact .value _

end ClrDecompiler.Strict
