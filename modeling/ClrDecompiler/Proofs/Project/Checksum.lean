/-
This file shows that the bytes of which a checksum is the digest determine its entries, that its
text determines the digest, and that the checksum can be asked for at any time.
-/

import ClrDecompiler.Project.Checksum
import ClrDecompiler.Proofs.Bytes.LittleEndian
import ClrDecompiler.Proofs.Digest.Running
import ClrDecompiler.Proofs.Project.Containment
import ClrDecompiler.Proofs.Text.Utf8

namespace ClrDecompiler.Project

/-! The text of a digest. -/

def upperDigit (value : Nat) : Char :=
  "0123456789ABCDEF".toList.getD value '0'

/-- The digits of the upper and the lower half of a byte. -/
def upperDigits (byte : UInt8) : List Char :=
  [upperDigit (byte.toNat / 16), upperDigit (byte.toNat % 16)]

/-- A byte is written as the digits of its halves. -/
theorem toList_upper (byte : UInt8) : (Hex.upper 2 byte.toNat).toList = upperDigits byte := by
  have all : ∀ value : Fin 256, (Hex.digits 2 value).map Char.toUpper =
      [upperDigit (value / 16), upperDigit (value % 16)] := by decide +kernel
  rw [Hex.upper, String.toList_ofList]
  exact all byte.toFin

/-- The text has two upper-case digits for every byte. -/
theorem toList_digestText (digest : Bytes) :
    (digestText digest).toList = digest.toList.flatMap upperDigits := by
  rw [digestText, String.toList_join, List.flatMap_map]
  exact List.flatMap_congr fun byte _ => toList_upper byte

/-- Different bytes have different digits. -/
theorem upperDigits_inj {byte other : UInt8} (same : upperDigits byte = upperDigits other) :
    byte = other := by
  have digit_inj : ∀ value other : Fin 16, upperDigit value = upperDigit other → value = other := by
    decide +kernel
  have half_inj {value other : Nat} (small : value < 16) (otherSmall : other < 16)
      (same : upperDigit value = upperDigit other) : value = other :=
    Fin.val_eq_of_eq (digit_inj ⟨value, small⟩ ⟨other, otherSmall⟩ same)
  obtain ⟨upper, rest⟩ := List.cons.inj same
  have lower := (List.cons.inj rest).1
  have byteSmall := byte.toNat_lt
  have otherSmall := other.toNat_lt
  have upperHalf := half_inj (by omega) (by omega) upper
  have lowerHalf := half_inj (by omega) (by omega) lower
  exact UInt8.toNat_inj.mp (by omega)

/-- The text stands for one digest only. -/
theorem digestText_inj_iff {digest other : Bytes} :
    digestText digest = digestText other ↔ digest = other := by
  have digits_inj (bytes others : List UInt8)
      (same : bytes.flatMap upperDigits = others.flatMap upperDigits) : bytes = others := by
    induction bytes generalizing others with
    | nil =>
      cases others with
      | nil => rfl
      | cons other others => cases same
    | cons byte bytes ih =>
      cases others with
      | nil => cases same
      | cons other others =>
        obtain ⟨first, later⟩ := List.append_inj same rfl
        rw [upperDigits_inj first, ih others later]
  constructor
  · intro same
    have texts := congrArg String.toList same
    rw [toList_digestText, toList_digestText] at texts
    exact Array.toList_inj.mp (digits_inj _ _ texts)
  · rintro rfl
    rfl

namespace Checksum

/-- The bytes of an entry: its pieces one after the other. -/
def entryBytes (entry : String × Bytes) : List UInt8 :=
  (pieces entry.1 entry.2).flatMap Array.toList

def stream (entries : List (String × Bytes)) : Bytes :=
  (entries.flatMap entryBytes).toArray

/-! The name ends at the first zero byte, and the size tells where the data end. -/

/-- The entries whose bytes can be told apart. -/
structure IsFramed (entry : String × Bytes) : Prop where
  name : '\x00' ∉ entry.1.toList
  size : entry.2.size < 2 ^ 64

theorem entryBytes_eq (entry : String × Bytes) : entryBytes entry =
    (Utf8.encode entry.1).toList ++ 0 :: (Bytes.littleEndian 8 entry.2.size ++ entry.2.toList) := by
  simp [entryBytes, pieces]

/-- Texts without zero are told apart by the first zero behind them. -/
theorem append_zero_inj {front other rest otherRest : List UInt8} (plain : 0 ∉ front)
    (otherPlain : 0 ∉ other) (same : front ++ 0 :: rest = other ++ 0 :: otherRest) :
    front = other ∧ rest = otherRest := by
  have first (bytes more : List UInt8) (plain : 0 ∉ bytes) :
      (bytes ++ 0 :: more).takeWhile (· != 0) = bytes := by
    have kept : ∀ byte ∈ bytes, (byte != 0) = true := by
      intro byte member
      rw [bne_iff_ne]
      rintro rfl
      exact plain member
    rw [List.takeWhile_append_of_pos kept]
    exact List.append_nil bytes
  have named := congrArg (List.takeWhile (· != 0)) same
  rw [first _ _ plain, first _ _ otherPlain] at named
  subst named
  exact ⟨rfl, (List.cons.inj (List.append_cancel_left same)).2⟩

/-- An entry is the only one whose bytes stand in front. -/
theorem entryBytes_append_inj {entry other : String × Bytes} (framed : IsFramed entry)
    (otherFramed : IsFramed other) {rest otherRest : List UInt8}
    (same : entryBytes entry ++ rest = entryBytes other ++ otherRest) :
    entry = other ∧ rest = otherRest := by
  obtain ⟨name, data⟩ := entry
  obtain ⟨otherName, otherData⟩ := other
  simp only [entryBytes_eq, List.append_assoc, List.cons_append] at same
  obtain ⟨sameName, same⟩ := append_zero_inj (Utf8.zero_not_mem_encode framed.name)
    (Utf8.zero_not_mem_encode otherFramed.name) same
  obtain ⟨sameSize, same⟩ := List.append_inj same (by simp only [Bytes.littleEndian_length])
  have sizes := congrArg Bytes.ofLittleEndian sameSize
  rw [Bytes.ofLittleEndian_littleEndian_of_lt framed.size,
    Bytes.ofLittleEndian_littleEndian_of_lt otherFramed.size] at sizes
  obtain ⟨sameData, same⟩ := List.append_inj same sizes
  have names := congrArg Utf8.decode sameName
  rw [Utf8.decode_encode, Utf8.decode_encode] at names
  exact ⟨Prod.ext (Except.ok.inj names) (Array.toList_inj.mp sameData), same⟩

/-- Entries are told apart one by one. -/
theorem flatMap_entryBytes_inj {entries others : List (String × Bytes)}
    (framed : ∀ entry ∈ entries, IsFramed entry) (othersFramed : ∀ entry ∈ others, IsFramed entry)
    (same : entries.flatMap entryBytes = others.flatMap entryBytes) : entries = others := by
  have filled (entry : String × Bytes) (rest : List UInt8) : entryBytes entry ++ rest ≠ [] := by
    simp [entryBytes_eq]
  induction entries generalizing others with
  | nil =>
    cases others with
    | nil => rfl
    | cons other rest => exact absurd same.symm (filled other _)
  | cons entry entries ih =>
    cases others with
    | nil => exact absurd same (filled entry _)
    | cons other others =>
      rw [List.forall_mem_cons] at framed othersFramed
      obtain ⟨rfl, later⟩ := entryBytes_append_inj framed.1 othersFramed.1 same
      rw [ih framed.2 othersFramed.2 later]

/-- The stream can be taken apart in one way only. -/
theorem stream_inj_iff {entries others : List (String × Bytes)}
    (framed : ∀ entry ∈ entries, IsFramed entry)
    (othersFramed : ∀ entry ∈ others, IsFramed entry) :
    stream entries = stream others ↔ entries = others := by
  constructor
  · intro same
    exact flatMap_entryBytes_inj framed othersFramed (congrArg Array.toList same)
  · rintro rfl
    rfl

/-! A checksum is the digest of the stream of its entries. -/

/-- The digest of a checksum has absorbed the stream of these entries. -/
def HasFed (checksum : Checksum) (entries : List (String × Bytes)) : Prop :=
  checksum.running = ({} : Digest.Running checksum.algorithm.scheme).absorb (stream entries)

theorem hasFed_start (algorithm : Algorithm) : HasFed { algorithm } [] := by
  rw [HasFed, Digest.Running.absorb_start]
  rfl

/-- An entry adds its bytes to those that were absorbed. -/
theorem HasFed.add {checksum : Checksum} {entries : List (String × Bytes)}
    (fed : checksum.HasFed entries) (name : String) (data : Bytes) :
    (checksum.add name data).HasFed (entries ++ [(name, data)]) := by
  have whole : stream entries ++ (entryBytes (name, data)).toArray =
      stream (entries ++ [(name, data)]) := by
    simp [stream]
  have taken : (checksum.add name data).running =
      checksum.running.absorb (entryBytes (name, data)).toArray :=
    checksum.running.foldl_absorb _ _
  rw [HasFed, taken, fed, Digest.Running.absorb_absorb, whole]
  rfl

/-- The total is the digest of what was absorbed. -/
theorem HasFed.total_eq {checksum : Checksum} {entries : List (String × Bytes)}
    (fed : checksum.HasFed entries) :
    checksum.total = checksum.algorithm.hashText (stream entries) := by
  rw [total, fed, Digest.Running.finish_absorb, Algorithm.hashText]

/-! The checksum is asked for between the entries. -/

inductive Request where
  | update (name : String) (data : Bytes)
  | total

/-- The answers to the requests and the checksum behind them. -/
def serve (checksum : Checksum) : List Request → List String × Checksum
  | [] => ([], checksum)
  | .update name data :: rest => serve (checksum.add name data) rest
  | .total :: rest =>
    let (answers, last) := serve checksum rest
    (checksum.total :: answers, last)

def entriesOf (requests : List Request) : List (String × Bytes) :=
  requests.filterMap fun
    | .update name data => some (name, data)
    | .total => none

/-- Requests are served one after the other. -/
theorem serve_append (checksum : Checksum) (before after : List Request) :
    serve checksum (before ++ after) =
      ((serve checksum before).1 ++ (serve (serve checksum before).2 after).1,
        (serve (serve checksum before).2 after).2) := by
  induction before generalizing checksum with
  | nil => rfl
  | cons request before ih =>
    cases request with
    | update name data => exact ih (checksum.add name data)
    | total =>
      rw [List.cons_append, serve, serve, ih]
      rfl

/-- What a request adds to the digest are its bytes, and an answer adds nothing. -/
theorem HasFed.serve {checksum : Checksum} {entries : List (String × Bytes)}
    (fed : checksum.HasFed entries) (requests : List Request) :
    (serve checksum requests).2.algorithm = checksum.algorithm ∧
      (serve checksum requests).2.HasFed (entries ++ entriesOf requests) := by
  induction requests generalizing checksum entries with
  | nil =>
    rw [entriesOf, List.filterMap_nil, List.append_nil]
    exact ⟨rfl, fed⟩
  | cons request requests ih =>
    cases request with
    | update name data =>
      have later := ih (fed.add name data)
      rw [List.append_assoc] at later
      exact later
    | total => exact ih fed

theorem total_serve (algorithm : Algorithm) (requests : List Request) :
    (serve { algorithm } requests).2.total =
      algorithm.hashText (stream (entriesOf requests)) := by
  obtain ⟨same, fed⟩ := (hasFed_start algorithm).serve requests
  rw [fed.total_eq, same, List.nil_append]

/-- Every answer is the digest of what was fed before. -/
theorem answer_serve (algorithm : Algorithm) (before after : List Request) :
    (serve { algorithm } (before ++ .total :: after)).1[(serve { algorithm } before).1.length]? =
      some (algorithm.hashText (stream (entriesOf before))) := by
  rw [serve_append, List.getElem?_append_right (Nat.le_refl _), Nat.sub_self, serve,
    ← total_serve]
  rfl

end Checksum

/-! The paths of a project have no zero character. -/

theorem zero_not_mem_of_allowed {text : String}
    (allowed : ∀ c ∈ text.toList, isForbidden c = false) : '\x00' ∉ text.toList := by
  intro member
  have zero := allowed _ member
  revert zero
  decide

theorem zero_not_mem_candidatePath (definition : TypeDefinition) (attempt : Nat) :
    '\x00' ∉ (candidatePath (basePath definition) attempt).toList := by
  have file : '\x00' ∉ (fileName definition attempt).toList :=
    zero_not_mem_of_allowed fun _ => isForbidden_of_mem_fileName
  have directory : '\x00' ∉ (cleanFileName definition.namespaceName).toList :=
    zero_not_mem_of_allowed fun _ => isForbidden_of_mem_cleanFileName
  rw [candidatePath_eq, basePath]
  split
  · exact file
  · rw [show cleanFileName definition.namespaceName ++ "/" ++
      cleanFileName definition.displayName ++ numberText attempt ++ ".cs" =
        cleanFileName definition.namespaceName ++ "/" ++ fileName definition attempt by
          simp only [fileName, String.append_assoc]]
    simp only [String.toList_append, List.mem_append, not_or]
    exact ⟨⟨directory, by decide⟩, file⟩

/-- No path of a project has a zero character. -/
theorem zero_not_mem_path {module : Module} {options : Options} {found : List File}
    (filed : files module options = .ok found) : ∀ file ∈ found, '\x00' ∉ file.path.toList := by
  intro file member
  have listed := List.mem_map_of_mem (f := File.path) member
  rw [paths_of_files filed, List.mem_cons, List.mem_cons] at listed
  rcases listed with same | same | source
  · rw [same, projectPath, String.toList_append, List.mem_append, not_or]
    exact ⟨zero_not_mem_of_allowed fun _ => isForbidden_of_mem_cleanFileName, by decide⟩
  · rw [same]
    decide
  · obtain ⟨⟨path, definition⟩, assigned, same⟩ := List.mem_map.mp source
    obtain ⟨attempt, made⟩ := path_of_mem_assignPaths assigned
    rw [← same, made]
    exact zero_not_mem_candidatePath definition attempt

/-- The bytes of a checksum stand for one list of entries only, and every answer is their digest,
in a text with two upper-case digits for every byte of it. The files of a project are such entries
as far as their names go. -/
theorem Checksum.stream_unambiguous (algorithm : Algorithm) :
    (∀ entries others : List (String × Bytes), (∀ entry ∈ entries, IsFramed entry) →
      (∀ entry ∈ others, IsFramed entry) → (stream entries = stream others ↔ entries = others)) ∧
    (∀ requests, (serve { algorithm } requests).2.algorithm = algorithm ∧
      (serve { algorithm } requests).2.HasFed (entriesOf requests) ∧
      (serve { algorithm } requests).2.total =
        algorithm.hashText (stream (entriesOf requests))) ∧
    (∀ before after,
      (serve { algorithm } (before ++ .total :: after)).1[(serve { algorithm } before).1.length]? =
        some (algorithm.hashText (stream (entriesOf before)))) ∧
    (∀ data, (algorithm.hashText data).toList =
      (algorithm.scheme.hash data).toList.flatMap upperDigits) ∧
    (∀ data other, algorithm.hashText data = algorithm.hashText other ↔
      algorithm.scheme.hash data = algorithm.scheme.hash other) ∧
    ∀ module options found, files module options = .ok found →
      ∀ file ∈ found, '\x00' ∉ file.path.toList :=
  ⟨fun _ _ => stream_inj_iff,
    fun requests => ⟨((hasFed_start algorithm).serve requests).1,
      ((hasFed_start algorithm).serve requests).2, total_serve algorithm requests⟩,
    answer_serve algorithm, fun _ => toList_digestText _, fun _ _ => digestText_inj_iff,
    fun _ _ _ => zero_not_mem_path⟩

instance (entry : String × Bytes) : Decidable (Checksum.IsFramed entry) :=
  decidable_of_iff ('\x00' ∉ entry.1.toList ∧ entry.2.size < 2 ^ 64)
    ⟨fun ⟨name, size⟩ => ⟨name, size⟩, fun framed => ⟨framed.name, framed.size⟩⟩

/-- Content that is moved from one entry to the next changes the bytes. -/
theorem Checksum.stream_unambiguous_moved :
    stream [("A.cs", #[65, 66]), ("B.cs", #[])] ≠ stream [("A.cs", #[65]), ("B.cs", #[66])] ∧
    ∃ found, files (Module.ofNames [("A", "C")]) plainOptions = .ok found ∧
      ∀ file ∈ found, '\x00' ∉ file.path.toList := by
  obtain ⟨apart, -, -, -, -, plain⟩ := stream_unambiguous .sha256
  refine ⟨mt (apart _ _ (by decide) (by decide)).mp (by decide), ?_⟩
  cases filed : files (Module.ofNames [("A", "C")]) plainOptions with
  | error fault => cases filed
  | ok found => exact ⟨found, rfl, plain _ _ _ filed⟩

end ClrDecompiler.Project
