/-
This file describes the records of sequence points apart from their reader: the numbers of a
record, and the point that a record gives in the state that the records before it leave behind.
The reader takes a record exactly if its numbers stand there and it gives a point in that state.
-/

import ClrDecompiler.Proofs.Bytes.CompressedNumber
import ClrDecompiler.Symbols.SequencePoint

namespace ClrDecompiler.Symbols.SequencePoint

open Compressed Read

/-- Where a visible point starts. Only the first one is independent of the others. -/
inductive Start where
  | absolute (line column : Nat)
  | relative (lines columns : Int)
  deriving DecidableEq, Repr

inductive Shape where
  | hidden
  | visible (lines : Nat) (columns : Int) (start : Start)
  deriving DecidableEq, Repr

inductive Record where
  | document (row : Nat)
  | point (advance : Nat) (shape : Shape)
  deriving DecidableEq, Repr

def Start.numbers : Start → List Number
  | .absolute line column => [.unsigned line, .unsigned column]
  | .relative lines columns => [.signed lines, .signed columns]

/-- A place on one line has a width, which is not negative. -/
def extentNumbers (lines : Nat) (columns : Int) : List Number :=
  [.unsigned lines, if lines = 0 then .unsigned columns.toNat else .signed columns]

def Shape.numbers : Shape → List Number
  | .hidden => extentNumbers 0 0
  | .visible lines columns start => extentNumbers lines columns ++ start.numbers

def Record.numbers : Record → List Number
  | .document row => [.unsigned 0, .unsigned row]
  | .point advance shape => .unsigned advance :: shape.numbers

/-- The line and the column of a start, seen from the start of the visible point before. -/
inductive Start.Leads : Option (Nat × Nat) → Start → Nat → Nat → Prop where
  | absolute {line column : Nat} (lineFits : line < UInt32.size)
      (columnFits : column < UInt32.size) : Leads none (.absolute line column) line column
  | relative {lineBefore columnBefore line column : Nat} {lines columns : Int}
      (down : lineBefore + lines = line) (along : columnBefore + columns = column)
      (lineFits : line < UInt32.size) (columnFits : column < UInt32.size) :
      Leads (some (lineBefore, columnBefore)) (.relative lines columns) line column

/-- The visible point of an extent. The line where it ends has 32 bits at most. -/
inductive Start.Shows (progress : Progress) (offset lines : Nat) (columns : Int) :
    Start → SequencePoint → Progress → Prop where
  | visible {start : Start} {line column endColumn : Nat}
      (leads : start.Leads progress.place line column) (ends : column + columns = endColumn)
      (endFits : endColumn < UInt32.size) :
      Shows progress offset lines columns start
        ⟨offset, progress.document, line, column, min (line + lines) (UInt32.size - 1), endColumn⟩
        { progress with offset, place := some (line, column), begun := true }

/-- A hidden point leaves the start of the last visible one as it is. -/
inductive Shape.Shows (progress : Progress) (offset : Nat) :
    Shape → SequencePoint → Progress → Prop where
  | hidden : Shows progress offset .hidden (SequencePoint.hidden offset progress.document)
      { progress with offset, begun := true }
  | visible {lines : Nat} {columns : Int} {start : Start} {point : SequencePoint}
      {after : Progress} (wide : lines = 0 → 0 < columns)
      (shows : start.Shows progress offset lines columns point after) :
      Shows progress offset (.visible lines columns start) point after

/-- Behind the first point a record that does not advance can only change the document. -/
inductive Record.Gives (progress : Progress) :
    Record → Option SequencePoint → Progress → Prop where
  | document {row : Nat} (begun : progress.begun = true) :
      Gives progress (.document row) none { progress with document := row }
  | point {advance : Nat} {shape : Shape} {point : SequencePoint} {after : Progress}
      (moves : progress.begun = true → advance ≠ 0)
      (near : progress.offset + advance < UInt32.size)
      (shows : shape.Shows progress (progress.offset + advance) point after) :
      Gives progress (.point advance shape) (some point) after

/-- The points that records give, one after the other. -/
inductive Traces : Progress → List Record → List SequencePoint → Prop where
  | nil {progress : Progress} : Traces progress [] []
  | cons {progress after : Progress} {record : Record} {records : List Record}
      {shown : Option SequencePoint} {points : List SequencePoint}
      (gives : record.Gives progress shown after) (later : Traces after records points) :
      Traces progress (record :: records) (shown.toList ++ points)

/-- The numbers of a blob. The first document is named in the blob or by the row of the method. -/
def blobNumbers (row signature document : Nat) (records : List Record) : List Number :=
  .unsigned signature ::
    ((if row = 0 then [.unsigned document] else []) ++ records.flatMap Record.numbers)

theorem Record.exists_numbers_eq (record : Record) :
    ∃ advance others, record.numbers = .unsigned advance :: others := by
  cases record <;> exact ⟨_, _, rfl⟩

/-- No record is empty. -/
theorem Record.length_pos {record : Record} {encoding : List UInt8}
    (written : Sequence Number.Form record.numbers encoding) : 0 < encoding.length := by
  obtain ⟨advance, others, same⟩ := record.exists_numbers_eq
  rw [same, sequence_cons_iff] at written
  obtain ⟨head, tail, rfl, form, -⟩ := written
  rw [List.length_append]
  exact Nat.add_pos_left form.length_pos _

section Recognition

/-- A line or a column is any number of 32 bits. -/
theorem recognizes_ranged (value : Int) (fault : Fault) :
    (liftM (if 0 ≤ value ∧ value < UInt32.size then .ok value.toNat else .error fault :
      Except Fault Nat) : Read Nat).Recognizes fun _ found encoding =>
        (value = found ∧ found < UInt32.size) ∧ encoding = [] := by
  refine (recognizes_liftM _).congr fun place found encoding => and_congr_left' ?_
  split
  · next inside =>
    rw [Except.ok.injEq]
    omega
  · next outside =>
    simp only [reduceCtorEq, false_iff]
    omega

theorem recognizes_lineOf (line : Int) :
    (liftM (lineOf line) : Read Nat).Recognizes fun _ found encoding =>
      (line = found ∧ found < UInt32.size) ∧ encoding = [] :=
  recognizes_ranged line _

theorem recognizes_columnOf (column : Int) :
    (liftM (columnOf column) : Read Nat).Recognizes fun _ found encoding =>
      (column = found ∧ found < UInt32.size) ∧ encoding = [] :=
  recognizes_ranged column _

/-- What is read as a start leads from the place before to the new one. -/
theorem recognizes_readStart (place : Option (Nat × Nat)) :
    (readStart place).Recognizes fun _ found encoding => ∃ start : Start,
      start.Leads place found.1 found.2 ∧ Sequence Number.Form start.numbers encoding := by
  cases place with
  | none =>
    refine (recognizes_compressedUnsigned.bind _ fun line =>
      recognizes_compressedUnsigned.bind _ fun column => recognizes_pure (line, column)).congr
      fun place found encoding => ?_
    constructor
    · rintro ⟨line, head, _, rfl, first, column, tail, _, rfl, second, rfl, rfl⟩
      have room : 0x20000000 ≤ UInt32.size := by decide
      have leads : (Start.absolute line column).Leads none line column :=
        .absolute (Nat.lt_of_lt_of_le first.lt room) (Nat.lt_of_lt_of_le second.lt room)
      refine ⟨_, leads, ?_⟩
      exact .cons (first : Number.Form (.unsigned line) head)
        (.cons (second : Number.Form (.unsigned column) tail) .nil)
    · obtain ⟨line, column⟩ := found
      rintro ⟨_, leads, written⟩
      cases leads
      simp only [Start.numbers, sequence_cons_iff, sequence_nil_iff] at written
      obtain ⟨head, _, rfl, first, tail, _, rfl, second, rfl⟩ := written
      exact ⟨line, head, _, rfl, first, column, tail, [], rfl, second, rfl, rfl⟩
  | some before =>
    obtain ⟨lineBefore, columnBefore⟩ := before
    refine (recognizes_compressedSigned.bind _ fun lines =>
      recognizes_compressedSigned.bind _ fun columns =>
        (recognizes_lineOf (lineBefore + lines)).bind _ fun line =>
          (recognizes_columnOf (columnBefore + columns)).bind _ fun column =>
            recognizes_pure (line, column)).congr fun place found encoding => ?_
    constructor
    · rintro ⟨lines, head, _, rfl, first, columns, tail, _, rfl, second, line, _, _, rfl,
        ⟨⟨down, lineFits⟩, rfl⟩, column, _, _, rfl, ⟨⟨along, columnFits⟩, rfl⟩, rfl, rfl⟩
      refine ⟨.relative lines columns, .relative down along lineFits columnFits, ?_⟩
      exact .cons (first : Number.Form (.signed lines) head)
        (.cons (second : Number.Form (.signed columns) tail) .nil)
    · obtain ⟨line, column⟩ := found
      rintro ⟨_, leads, written⟩
      cases leads with
      | @relative _ _ _ _ lines columns down along lineFits columnFits =>
        simp only [Start.numbers, sequence_cons_iff, sequence_nil_iff] at written
        obtain ⟨head, _, rfl, first, tail, _, rfl, second, rfl⟩ := written
        exact ⟨lines, head, _, rfl, first, columns, tail, [], rfl, second, line, [], [], rfl,
          ⟨⟨down, lineFits⟩, rfl⟩, column, [], [], rfl, ⟨⟨along, columnFits⟩, rfl⟩, rfl, rfl⟩

theorem recognizes_readExtent :
    readExtent.Recognizes fun _ found encoding => (found.1 = 0 → 0 ≤ found.2) ∧
      Sequence Number.Form (extentNumbers found.1 found.2) encoding := by
  refine (recognizes_compressedUnsigned.bind (fun lines _ found encoding =>
    found.1 = lines ∧ (lines = 0 → 0 ≤ found.2) ∧ Number.Form
      (if lines = 0 then .unsigned found.2.toNat else .signed found.2) encoding)
    fun lines => ?_).congr fun place found encoding => ?_
  · split
    · next none =>
      refine (recognizes_compressedUnsigned.bind _ fun width =>
        recognizes_pure (lines, (width : Int))).congr fun place found encoding => ?_
      constructor
      · rintro ⟨width, head, _, rfl, form, rfl, rfl⟩
        rw [List.append_nil]
        exact ⟨rfl, fun _ => Int.natCast_nonneg width, form⟩
      · obtain ⟨_, columns⟩ := found
        rintro ⟨rfl, positive, form⟩
        refine ⟨columns.toNat, encoding, [], (List.append_nil _).symm, form, ?_, rfl⟩
        exact congrArg _ (Int.toNat_of_nonneg (positive none))
    · next some =>
      refine (recognizes_compressedSigned.bind _ fun columns =>
        recognizes_pure (lines, columns)).congr fun place found encoding => ?_
      constructor
      · rintro ⟨columns, head, _, rfl, form, rfl, rfl⟩
        rw [List.append_nil]
        exact ⟨rfl, fun none => absurd none some, form⟩
      · obtain ⟨_, columns⟩ := found
        rintro ⟨rfl, -, form⟩
        exact ⟨columns, encoding, [], (List.append_nil _).symm, form, rfl, rfl⟩
  · obtain ⟨lines, columns⟩ := found
    simp only [extentNumbers, sequence_cons_iff, sequence_nil_iff]
    constructor
    · rintro ⟨_, head, tail, rfl, first, rfl, positive, second⟩
      exact ⟨positive, head, tail, rfl, first, tail, [], (List.append_nil _).symm, second, rfl⟩
    · rintro ⟨positive, head, _, rfl, first, tail, _, rfl, second, rfl⟩
      rw [List.append_nil]
      exact ⟨lines, head, tail, rfl, first, rfl, positive, second⟩

/-- What is read of a visible point behind its extent. -/
def readPlace (progress : Progress) (offset lines : Nat) (columns : Int) :
    Read (SequencePoint × Progress) := do
  let (line, column) ← readStart progress.place
  let endColumn ← columnOf (column + columns)
  return (
    ⟨offset, progress.document, line, column, min (line + lines) (UInt32.size - 1), endColumn⟩,
    { progress with offset, place := some (line, column), begun := true })

theorem recognizes_readPlace (progress : Progress) (offset lines : Nat) (columns : Int) :
    (readPlace progress offset lines columns).Recognizes fun _ found encoding =>
      ∃ start : Start, start.Shows progress offset lines columns found.1 found.2 ∧
        Sequence Number.Form start.numbers encoding := by
  refine ((recognizes_readStart progress.place).bind _ fun before =>
    (recognizes_columnOf (before.2 + columns)).bind _ fun endColumn => recognizes_pure _).congr
    fun place found encoding => ?_
  constructor
  · rintro ⟨⟨line, column⟩, head, _, rfl, ⟨start, leads, written⟩, endColumn, _, _, rfl,
      ⟨⟨ends, endFits⟩, rfl⟩, rfl, rfl⟩
    rw [List.append_nil, List.append_nil]
    exact ⟨start, .visible leads ends endFits, written⟩
  · obtain ⟨point, after⟩ := found
    rintro ⟨start, ⟨leads, ends, endFits⟩, written⟩
    refine ⟨(_, _), encoding, [], (List.append_nil _).symm, ⟨start, leads, written⟩, ?_⟩
    exact ⟨_, [], [], rfl, ⟨⟨ends, endFits⟩, rfl⟩, rfl, rfl⟩

/-- A point without lines and columns is hidden. -/
theorem recognizes_readPoint (progress : Progress) (advance : Nat) :
    (readPoint progress advance).Recognizes fun _ found encoding =>
      progress.offset + advance < UInt32.size ∧ ∃ shape : Shape,
        shape.Shows progress (progress.offset + advance) found.1 found.2 ∧
          Sequence Number.Form shape.numbers encoding := by
  rw [readPoint]
  generalize progress.offset + advance = offset
  have behind (extent : Nat × Int) : (if extent.1 = 0 ∧ extent.2 = 0 then
      (pure (SequencePoint.hidden offset progress.document,
        { progress with offset, begun := true }) : Read (SequencePoint × Progress))
      else readPlace progress offset extent.1 extent.2).Recognizes fun _ found encoding =>
        if extent.1 = 0 ∧ extent.2 = 0 then
          (SequencePoint.hidden offset progress.document,
            { progress with offset, begun := true }) = found ∧ encoding = []
        else ∃ start : Start, start.Shows progress offset extent.1 extent.2 found.1 found.2 ∧
          Sequence Number.Form start.numbers encoding := by
    split
    · exact recognizes_pure _
    · exact recognizes_readPlace progress offset extent.1 extent.2
  refine (recognizes_readExtent.bind _ behind).guard.congr
    fun place found encoding => and_congr Nat.not_le ?_
  constructor
  · rintro ⟨⟨lines, columns⟩, head, tail, rfl, ⟨positive, first⟩, later⟩
    split at later
    · next empty =>
      obtain ⟨rfl, rfl⟩ := empty
      obtain ⟨rfl, rfl⟩ := later
      rw [List.append_nil]
      exact ⟨.hidden, .hidden, first⟩
    · next some =>
      obtain ⟨start, shows, second⟩ := later
      have wide : lines = 0 → 0 < columns := by
        dsimp only at some positive
        omega
      refine ⟨.visible lines columns start, .visible wide shows, ?_⟩
      exact sequence_append_iff.mpr ⟨head, tail, rfl, first, second⟩
  · obtain ⟨point, after⟩ := found
    rintro ⟨shape, shows, written⟩
    cases shows with
    | hidden =>
      refine ⟨(0, 0), encoding, [], (List.append_nil _).symm, ⟨fun _ => Int.le_refl 0, written⟩, ?_⟩
      exact ⟨rfl, rfl⟩
    | @visible lines columns start _ _ wide shows =>
      obtain ⟨head, tail, rfl, first, second⟩ := sequence_append_iff.mp written
      have positive : lines = 0 → 0 ≤ columns := fun none => Int.le_of_lt (wide none)
      have some : ¬ (lines = 0 ∧ columns = 0) := by omega
      refine ⟨(lines, columns), head, tail, rfl, ⟨positive, first⟩, ?_⟩
      exact (if_neg some).mpr ⟨start, shows, second⟩

/-- One turn of the loop: the point that a record gives, if any, and what it leaves behind. -/
def readRecord (progress : Progress) : Read (Option SequencePoint × Progress) := do
  let advance ← Read.compressedUnsigned
  if advance = 0 ∧ progress.begun then
    let document ← Read.compressedUnsigned
    return (none, { progress with document })
  else
    let (point, after) ← readPoint progress advance
    return (some point, after)

theorem readRecords_succ (bound : Nat) (progress : Progress) :
    readRecords (bound + 1) progress = (do
      if !(← Read.hasMore) then return []
      let found ← readRecord progress
      return found.1.toList ++ (← readRecords bound found.2)) := by
  rw [readRecords]
  refine congrArg _ (funext fun more => ?_)
  simp only [readRecord, bind_assoc]
  split
  · rfl
  · refine congrArg _ (funext fun advance => ?_)
    split
    · simp
    · simp

/-- What is read as a record gives the point that is shown. -/
theorem recognizes_readRecord (progress : Progress) :
    (readRecord progress).Recognizes fun _ found encoding => ∃ record : Record,
      record.Gives progress found.1 found.2 ∧ Sequence Number.Form record.numbers encoding := by
  have behind (advance : Nat) : (if advance = 0 ∧ progress.begun then do
      let document ← Read.compressedUnsigned
      return (none, { progress with document })
    else do
      let (point, after) ← readPoint progress advance
      return (some point, after) : Read (Option SequencePoint × Progress)).Recognizes
      fun _ found encoding => ∃ (record : Record) (others : List Number),
        record.numbers = .unsigned advance :: others ∧ record.Gives progress found.1 found.2 ∧
          Sequence Number.Form others encoding := by
    split
    · next stays =>
      obtain ⟨rfl, begun⟩ := stays
      refine (recognizes_compressedUnsigned.bind _ fun document =>
        recognizes_pure (none, { progress with document })).congr fun place found encoding => ?_
      constructor
      · rintro ⟨row, head, _, rfl, form, rfl, rfl⟩
        refine ⟨.document row, _, rfl, .document begun, ?_⟩
        exact .cons (form : Number.Form (.unsigned row) head) .nil
      · obtain ⟨shown, after⟩ := found
        rintro ⟨record, others, same, gives, written⟩
        cases gives with
        | @document row =>
          cases same
          obtain ⟨head, tail, rfl, form, rest⟩ := sequence_cons_iff.mp written
          exact ⟨row, head, tail, rfl, form, rfl, sequence_nil_iff.mp rest⟩
        | point moves =>
          cases same
          exact absurd rfl (moves begun)
    · next advances =>
      refine ((recognizes_readPoint progress advance).bind _ fun point =>
        recognizes_pure (some point.1, point.2)).congr fun place found encoding => ?_
      constructor
      · rintro ⟨⟨point, after⟩, head, _, rfl, ⟨near, shape, shows, written⟩, rfl, rfl⟩
        rw [List.append_nil]
        have moves (begun : progress.begun = true) : advance ≠ 0 := fun zero =>
          advances ⟨zero, begun⟩
        exact ⟨.point advance shape, _, rfl, .point moves near shows, written⟩
      · obtain ⟨shown, after⟩ := found
        rintro ⟨record, others, same, gives, written⟩
        cases gives with
        | document begun =>
          cases same
          exact absurd ⟨rfl, begun⟩ advances
        | @point _ shape point _ moves near shows =>
          cases same
          exact ⟨(point, after), encoding, [], (List.append_nil _).symm,
            ⟨near, shape, shows, written⟩, rfl, rfl⟩
  refine (recognizes_compressedUnsigned.bind _ behind).congr fun place found encoding => ?_
  constructor
  · rintro ⟨advance, head, tail, rfl, form, record, others, same, gives, written⟩
    refine ⟨record, gives, ?_⟩
    rw [same]
    exact .cons (form : Number.Form (.unsigned advance) head) written
  · rintro ⟨record, gives, written⟩
    obtain ⟨advance, others, same⟩ := record.exists_numbers_eq
    rw [same, sequence_cons_iff] at written
    obtain ⟨head, tail, rfl, form, rest⟩ := written
    exact ⟨advance, head, tail, rfl, form, record, others, same, gives, rest⟩

end Recognition

end ClrDecompiler.Symbols.SequencePoint
