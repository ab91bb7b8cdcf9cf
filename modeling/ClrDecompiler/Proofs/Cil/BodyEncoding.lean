/-
This file lays out method bodies as bytes, apart from their reader: the tiny and the fat header,
the code, and the chain of sections that hold the exception clauses.
-/

import ClrDecompiler.Cil.MethodBody
import ClrDecompiler.Proofs.Bytes.Recognition

namespace ClrDecompiler.Cil

open Bytes

/-- The flags that stand for a kind. -/
def ClauseKind.flags : ClauseKind → UInt16
  | .catchHandler => 0
  | .filter => 1
  | .finallyHandler => 2
  | .faultHandler => 4

namespace ExceptionClause

/-- The flags are those of one of the four kinds. -/
def HasKind (clause : ExceptionClause) : Prop :=
  ∃ kind : ClauseKind, clause.flags = kind.flags

/-- The flags of a kind tell it apart from the others. -/
theorem hasKind_iff {clause : ExceptionClause} :
    clause.HasKind ↔ clause.flags = clause.kind.flags := by
  constructor
  · rintro ⟨kind, same⟩
    rw [ExceptionClause.kind, same]
    cases kind <;> rfl
  · exact fun same => ⟨_, same⟩

instance (clause : ExceptionClause) : Decidable clause.HasKind :=
  decidable_of_iff _ hasKind_iff.symm

/-- The flags of a clause of a known kind are kept. -/
theorem HasKind.knownFlags_eq {clause : ExceptionClause} (hasKind : clause.HasKind) :
    knownFlags clause.flags = clause.flags := by
  obtain ⟨kind, same⟩ := hasKind
  rw [same]
  cases kind <;> rfl

/-- The offsets and lengths of the clause fit into the fields of a small section. -/
structure IsNarrow (clause : ExceptionClause) : Prop where
  tryOffset : clause.tryOffset.toNat < 256 ^ 2
  tryLength : clause.tryLength.toNat < 256 ^ 1
  handlerOffset : clause.handlerOffset.toNat < 256 ^ 2
  handlerLength : clause.handlerLength.toNat < 256 ^ 1

instance (clause : ExceptionClause) : Decidable clause.IsNarrow :=
  decidable_of_iff (_ ∧ _ ∧ _ ∧ _)
    ⟨fun ⟨tryOffset, tryLength, handlerOffset, handlerLength⟩ =>
      ⟨tryOffset, tryLength, handlerOffset, handlerLength⟩,
    fun narrow => ⟨narrow.tryOffset, narrow.tryLength, narrow.handlerOffset,
      narrow.handlerLength⟩⟩

def encodeFat (clause : ExceptionClause) : List UInt8 :=
  littleEndian 4 clause.flags.toNat ++ (littleEndian 4 clause.tryOffset.toNat ++
    (littleEndian 4 clause.tryLength.toNat ++ (littleEndian 4 clause.handlerOffset.toNat ++
      (littleEndian 4 clause.handlerLength.toNat ++
        littleEndian 4 clause.classOrFilter.toNat))))

def encodeSmall (clause : ExceptionClause) : List UInt8 :=
  littleEndian 2 clause.flags.toNat ++ (littleEndian 2 clause.tryOffset.toNat ++
    (littleEndian 1 clause.tryLength.toNat ++ (littleEndian 2 clause.handlerOffset.toNat ++
      (littleEndian 1 clause.handlerLength.toNat ++
        littleEndian 4 clause.classOrFilter.toNat))))

/-- The bytes of the clause in a fat or a small section. -/
def encode (isFat : Bool) (clause : ExceptionClause) : List UInt8 :=
  if isFat then clause.encodeFat else clause.encodeSmall

/-- The size of every clause in a fat or a small section. -/
def width (isFat : Bool) : Nat :=
  if isFat then 24 else 12

theorem width_pos (isFat : Bool) : 0 < width isFat := by
  cases isFat <;> decide

@[simp] theorem encode_length (isFat : Bool) (clause : ExceptionClause) :
    (clause.encode isFat).length = width isFat := by
  cases isFat <;> simp [encode, encodeFat, encodeSmall, width]

end ExceptionClause

/-- The exception clauses of one section after the code. The section is fat or small. -/
structure HandlerTable where
  isFat : Bool
  clauses : List ExceptionClause
  deriving DecidableEq, Repr

namespace HandlerTable

/-- The size includes the header of four bytes. -/
def size (table : HandlerTable) : Nat :=
  4 + table.clauses.length * ExceptionClause.width table.isFat

/-- The first byte says that clauses follow, in which format, and whether a section follows
them. -/
def kindByte (isFat more : Bool) : UInt8 :=
  0x01 ||| (if isFat then 0x40 else 0) ||| (if more then 0x80 else 0)

/-- A fat section has three bytes for its size. A small one has one, and two that are unused. -/
def header (table : HandlerTable) (more : Bool) : List UInt8 :=
  kindByte table.isFat more ::
    (if table.isFat then littleEndian 3 table.size else littleEndian 1 table.size ++ [0, 0])

def encode (table : HandlerTable) (more : Bool) : List UInt8 :=
  table.header more ++ table.clauses.flatMap (ExceptionClause.encode table.isFat)

/-- Every section except the last one says that another one follows, and is padded up to it. -/
def encodeAll : List HandlerTable → List UInt8
  | [] => []
  | [last] => last.encode false
  | first :: second :: rest => padded (first.encode true) ++ encodeAll (second :: rest)

/-- The clauses are of the four kinds and, with their number, fit into the format. -/
structure IsWellFormed (table : HandlerTable) : Prop where
  kinds : ∀ clause ∈ table.clauses, clause.HasKind
  narrow : table.isFat = false → ∀ clause ∈ table.clauses, clause.IsNarrow
  sized : if table.isFat then table.size < 2 ^ 24 else table.clauses.length ≤ 20

instance (table : HandlerTable) : Decidable table.IsWellFormed :=
  decidable_of_iff (_ ∧ _ ∧ _)
    ⟨fun ⟨kinds, narrow, sized⟩ => ⟨kinds, narrow, sized⟩,
    fun formed => ⟨formed.kinds, formed.narrow, formed.sized⟩⟩

@[simp] theorem header_length (table : HandlerTable) (more : Bool) :
    (table.header more).length = 4 := by
  rw [header]
  split <;> simp

@[simp] theorem encode_length (table : HandlerTable) (more : Bool) :
    (table.encode more).length = table.size := by
  rw [encode, List.length_append, header_length,
    flatMap_length (ExceptionClause.encode_length table.isFat), size]

/-- The clauses of both formats take whole words, so that a section ends where the next one
starts. -/
theorem size_mod_four (table : HandlerTable) : table.size % 4 = 0 := by
  rw [size, ExceptionClause.width]
  split <;> omega

theorem padded_encode (table : HandlerTable) (more : Bool) :
    padded (table.encode more) = table.encode more :=
  padded_of_aligned (by rw [encode_length, size_mod_four])

/-- Every section takes a byte at least. -/
theorem length_le_encodeAll_length (tables : List HandlerTable) :
    tables.length ≤ (encodeAll tables).length := by
  induction tables using encodeAll.induct with
  | case1 => exact Nat.le_refl _
  | case2 last =>
    rw [encodeAll, encode_length, size, List.length_singleton]
    omega
  | case3 first second rest ih =>
    rw [encodeAll, padded_encode, List.length_append, encode_length, size, List.length_cons]
    omega

end HandlerTable

/-- A method body as it is written. -/
inductive BodyLayout where
  | tiny (code : Bytes)
  | fat (flags maxStack : UInt16) (localsToken : UInt32) (code : Bytes)
      (tables : List HandlerTable)
  deriving DecidableEq, Repr

namespace BodyLayout

/-- The first word of a fat header: the flags, of which two are fixed and one says whether
sections follow the code, and the size of the header in words of four bytes. -/
def fatWord (flags : UInt16) (more : Bool) : UInt16 :=
  flags &&& 0x0FF4 ||| (if more then 0x300B else 0x3003)

def fatHeader (flags maxStack : UInt16) (localsToken : UInt32) (code : Bytes) (more : Bool) :
    List UInt8 :=
  littleEndian 2 (fatWord flags more).toNat ++ (littleEndian 2 maxStack.toNat ++
    (littleEndian 4 code.size ++ littleEndian 4 localsToken.toNat))

@[simp] theorem fatHeader_length (flags maxStack : UInt16) (localsToken : UInt32) (code : Bytes)
    (more : Bool) : (fatHeader flags maxStack localsToken code more).length = 12 := by
  simp [fatHeader]

/-- The bytes of a body. The sections start at a multiple of four. -/
def encode : BodyLayout → List UInt8
  | .tiny code => UInt8.ofNat (4 * code.size + 2) :: code.toList
  | .fat flags maxStack localsToken code [] =>
    fatHeader flags maxStack localsToken code false ++ code.toList
  | .fat flags maxStack localsToken code tables =>
    padded (fatHeader flags maxStack localsToken code true ++ code.toList) ++
      HandlerTable.encodeAll tables

/-- The size of the code fits into the header, and the sections are well formed. -/
def IsWellFormed : BodyLayout → Prop
  | .tiny code => code.size < 64
  | .fat _ _ _ code tables => code.size < UInt32.size ∧ ∀ table ∈ tables, table.IsWellFormed

instance (layout : BodyLayout) : Decidable layout.IsWellFormed :=
  match layout with
  | .tiny _ => inferInstanceAs (Decidable (_ < _))
  | .fat .. => inferInstanceAs (Decidable (_ ∧ _))

/-- What the layout says about the method. -/
def body : BodyLayout → MethodBody
  | .tiny code =>
    { headerSize := 1, code, localsToken := 0, maxStack := 8, isFat := false,
      initLocals := false, clauses := [] }
  | .fat flags maxStack localsToken code tables =>
    { headerSize := 12, code, localsToken, maxStack := maxStack.toNat, isFat := true,
      initLocals := flags &&& 0x10 != 0, clauses := tables.flatMap HandlerTable.clauses }

end BodyLayout

end ClrDecompiler.Cil
