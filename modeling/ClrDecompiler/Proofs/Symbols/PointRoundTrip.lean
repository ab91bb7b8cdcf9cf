/-
This file writes sequence points as records and shows that they are decoded from every encoding of
these records. A start is written relative to the last visible point, which need not be the last
one.
-/

import ClrDecompiler.Proofs.Symbols.PointDecoding

namespace ClrDecompiler.Symbols.SequencePoint

open Compressed Read

/-- A visible place has lines in order and a width if it is on one line. -/
def IsVisible (point : SequencePoint) : Prop :=
  point.startLine ≤ point.endLine ∧
    (point.startLine = point.endLine → point.startColumn < point.endColumn)

instance : DecidablePred IsVisible :=
  fun _ => inferInstanceAs (Decidable (_ ∧ _))

/-- The point is the hidden one at its offset or visible, and its numbers have 32 bits. -/
structure IsWellFormed (point : SequencePoint) : Prop where
  placed : point = hidden point.offset point.document ∨ point.IsVisible
  offset : point.offset < UInt32.size
  startLine : point.startLine < UInt32.size
  startColumn : point.startColumn < UInt32.size
  endLine : point.endLine < UInt32.size
  endColumn : point.endColumn < UInt32.size

instance (point : SequencePoint) : Decidable point.IsWellFormed :=
  decidable_of_iff
    ((point = hidden point.offset point.document ∨ point.IsVisible) ∧
      point.offset < UInt32.size ∧ point.startLine < UInt32.size ∧
      point.startColumn < UInt32.size ∧ point.endLine < UInt32.size ∧
      point.endColumn < UInt32.size)
    ⟨fun ⟨placed, offset, startLine, startColumn, endLine, endColumn⟩ =>
      ⟨placed, offset, startLine, startColumn, endLine, endColumn⟩,
    fun ⟨placed, offset, startLine, startColumn, endLine, endColumn⟩ =>
      ⟨placed, offset, startLine, startColumn, endLine, endColumn⟩⟩

/-- The start of a point, relative to that of the last visible one. -/
def startAfter (seen : Option SequencePoint) (point : SequencePoint) : Start :=
  match seen with
  | none => .absolute point.startLine point.startColumn
  | some before =>
    .relative ((point.startLine : Int) - before.startLine)
      ((point.startColumn : Int) - before.startColumn)

def shapeAfter (seen : Option SequencePoint) (point : SequencePoint) : Shape :=
  if point = hidden point.offset point.document then .hidden
  else .visible (point.endLine - point.startLine) ((point.endColumn : Int) - point.startColumn)
    (startAfter seen point)

/-- The last visible point once a point is written. -/
def seenAfter (seen : Option SequencePoint) (point : SequencePoint) : Option SequencePoint :=
  if point = hidden point.offset point.document then seen else some point

/-- The records of points behind an offset in a document. -/
def recordsFrom (document offset : Nat) (seen : Option SequencePoint) :
    List SequencePoint → List Record
  | [] => []
  | point :: rest =>
    (if point.document = document then [] else [.document point.document]) ++
      .point (point.offset - offset) (shapeAfter seen point) ::
        recordsFrom point.document point.offset (seenAfter seen point) rest

/-- What the writer has behind it agrees with what the reader has. -/
structure Agrees (document offset : Nat) (seen : Option SequencePoint) (progress : Progress) :
    Prop where
  document : progress.document = document
  offset : progress.offset = offset
  place : progress.place = seen.map fun point => (point.startLine, point.startColumn)

section

variable {document offset : Nat} {seen : Option SequencePoint} {progress : Progress}
  {point : SequencePoint}

/-- The start that is written leads to the place of the point. -/
theorem leads_startAfter (agrees : Agrees document offset seen progress)
    (formed : point.IsWellFormed) :
    (startAfter seen point).Leads progress.place point.startLine point.startColumn := by
  rw [agrees.place]
  cases seen with
  | none => exact .absolute formed.startLine formed.startColumn
  | some before =>
    refine .relative ?_ ?_ formed.startLine formed.startColumn
    · omega
    · omega

/-- The shape that is written of a point shows this point. -/
theorem shows_shapeAfter (agrees : Agrees document offset seen progress)
    (same : point.document = document) (formed : point.IsWellFormed) :
    ∃ after, (shapeAfter seen point).Shows progress point.offset point after ∧
      after.begun = true ∧ Agrees point.document point.offset (seenAfter seen point) after := by
  have here : progress.document = point.document := agrees.document.trans same.symm
  by_cases hides : point = hidden point.offset point.document
  · have shows : Shape.hidden.Shows progress point.offset
        (hidden point.offset progress.document) _ := .hidden
    rw [here, ← hides] at shows
    rw [shapeAfter, if_pos hides, seenAfter, if_pos hides]
    exact ⟨_, shows, rfl, rfl, rfl, agrees.place⟩
  · obtain ⟨lines, wide⟩ := formed.placed.resolve_left hides
    have leads := leads_startAfter agrees formed
    have ends : (point.startColumn : Int) + (point.endColumn - point.startColumn) =
        point.endColumn := by omega
    have last : min (point.startLine + (point.endLine - point.startLine)) (UInt32.size - 1) =
        point.endLine := by
      rw [Nat.add_sub_of_le lines]
      exact Nat.min_eq_left (Nat.le_sub_one_of_lt formed.endLine)
    have shows : (startAfter seen point).Shows progress point.offset
        (point.endLine - point.startLine) (point.endColumn - point.startColumn) _ _ :=
      .visible leads ends formed.endColumn
    rw [last, here] at shows
    rw [shapeAfter, if_neg hides, seenAfter, if_neg hides]
    exact ⟨_, .visible (by omega) shows, rfl, rfl, rfl, rfl⟩

/-- A point in the document of the reader is given by the record that is written of it. -/
theorem gives_point (agrees : Agrees document offset seen progress)
    (same : point.document = document) (formed : point.IsWellFormed)
    (reaches : offset ≤ point.offset) (moves : progress.begun = true → offset < point.offset) :
    ∃ after, (Record.point (point.offset - offset) (shapeAfter seen point)).Gives progress
        (some point) after ∧
      after.begun = true ∧ Agrees point.document point.offset (seenAfter seen point) after := by
  obtain ⟨after, shows, begun, follows⟩ := shows_shapeAfter agrees same formed
  have here : progress.offset + (point.offset - offset) = point.offset := by
    rw [agrees.offset]
    exact Nat.add_sub_of_le reaches
  refine ⟨after, .point (fun started => ?_) ?_ ?_, begun, follows⟩
  · exact Nat.sub_ne_zero_of_lt (moves started)
  · rw [here]
    exact formed.offset
  · rw [here]
    exact shows

/-- Behind a point every other one moves on, and may stand in another document. -/
theorem traces_recordsFrom {points : List SequencePoint}
    (agrees : Agrees document offset seen progress) (begun : progress.begun = true)
    (formed : ∀ point ∈ points, point.IsWellFormed)
    (ordered : points.Pairwise fun earlier later => earlier.offset < later.offset)
    (beyond : ∀ point ∈ points, offset < point.offset) :
    Traces progress (recordsFrom document offset seen points) points := by
  induction points generalizing document offset seen progress with
  | nil => exact .nil
  | cons point rest ih =>
    obtain ⟨past, ordered⟩ := List.pairwise_cons.mp ordered
    obtain ⟨moves, -⟩ := List.forall_mem_cons.mp beyond
    obtain ⟨form, others⟩ := List.forall_mem_cons.mp formed
    have told (progress : Progress) (begun : progress.begun = true)
        (agrees : Agrees point.document offset seen progress) :
        Traces progress (.point (point.offset - offset) (shapeAfter seen point) ::
          recordsFrom point.document point.offset (seenAfter seen point) rest) (point :: rest) := by
      obtain ⟨after, gives, started, follows⟩ :=
        gives_point agrees rfl form (Nat.le_of_lt moves) fun _ => moves
      exact .cons gives (ih follows started others ordered past)
    rw [recordsFrom]
    by_cases same : point.document = document
    · rw [if_pos same]
      refine told progress begun ?_
      rw [same]
      exact agrees
    · rw [if_neg same]
      have change : (Record.document point.document).Gives progress none
          { progress with document := point.document } := .document begun
      exact .cons change (told _ begun ⟨rfl, agrees.offset, agrees.place⟩)

/-- The records that are written trace the points. -/
theorem traces_recordsFrom_start {points : List SequencePoint}
    (first : ∀ point ∈ points.head?, point.document = document)
    (formed : ∀ point ∈ points, point.IsWellFormed)
    (ordered : points.Pairwise fun earlier later => earlier.offset < later.offset) :
    Traces { document } (recordsFrom document 0 none points) points := by
  cases points with
  | nil => exact .nil
  | cons point rest =>
    have same : point.document = document := first point rfl
    obtain ⟨past, ordered⟩ := List.pairwise_cons.mp ordered
    obtain ⟨form, others⟩ := List.forall_mem_cons.mp formed
    have agrees : Agrees document 0 none { document } := ⟨rfl, rfl, rfl⟩
    obtain ⟨after, gives, begun, follows⟩ :=
      gives_point agrees same form (Nat.zero_le _) fun started => absurd started Bool.false_ne_true
    rw [recordsFrom, if_pos same]
    exact .cons gives (traces_recordsFrom follows begun others ordered past)

end

/-- The numbers of the blob of points whose first one is in the given document. -/
def encodingNumbers (row signature document : Nat) (points : List SequencePoint) : List Number :=
  blobNumbers row signature document (recordsFrom document 0 none points)

/-- Points in the order of the code whose advances, deltas and other numbers have compressed forms
are encoded, and every encoding of them is decoded to them. The document of the first point is
named by the row of the method or, where the row names none, in the blob. -/
theorem decode_inverts_encoding {points : List SequencePoint} {row signature document : Nat}
    (named : row = 0 ∨ row = document)
    (first : ∀ point ∈ points.head?, point.document = document)
    (formed : ∀ point ∈ points, point.IsWellFormed)
    (ordered : points.Pairwise fun earlier later => earlier.offset < later.offset)
    (fits : ∀ number ∈ encodingNumbers row signature document points, number.Fits) :
    (∃ blob : Bytes,
      Sequence Number.Form (encodingNumbers row signature document points) blob.toList) ∧
    ∀ blob : Bytes, Sequence Number.Form (encodingNumbers row signature document points)
      blob.toList → decode blob row = .ok points := by
  constructor
  · have forms : ∀ number ∈ encodingNumbers row signature document points,
        ∃ encoding, number.Form encoding := fun number member =>
      Number.exists_form_iff.mpr (fits number member)
    obtain ⟨encoding, written⟩ := exists_sequence_iff.mpr forms
    exact ⟨encoding.toArray, written⟩
  · intro blob written
    have traces := traces_recordsFrom_start first formed ordered
    exact decode_eq_ok_iff.mpr ⟨signature, document, _, named, written, traces⟩

/-- A hidden point, a visible one in another document, another hidden one there, and a visible one
that starts on an earlier line and ends in an earlier column of a later line. -/
def samplePoints : List SequencePoint :=
  [hidden 0 2, ⟨4, 1, 300, 20, 300, 35⟩, hidden 6 1, ⟨9, 1, 299, 24, 302, 5⟩]

theorem decode_inverts_encoding_sample :
    (∃ blob : Bytes, Sequence Number.Form (encodingNumbers 0 17 2 samplePoints) blob.toList ∧
      decode blob 0 = .ok samplePoints) ∧
    ∃ blob : Bytes, Sequence Number.Form (encodingNumbers 2 17 2 samplePoints) blob.toList ∧
      decode blob 2 = .ok samplePoints := by
  have first : ∀ point ∈ samplePoints.head?, point.document = 2 := by decide
  have formed : ∀ point ∈ samplePoints, point.IsWellFormed := by decide
  have ordered : samplePoints.Pairwise fun earlier later => earlier.offset < later.offset := by
    decide
  constructor
  · obtain ⟨⟨blob, written⟩, decoded⟩ :=
      @decode_inverts_encoding samplePoints 0 17 2 (.inl rfl) first formed ordered (by decide)
    exact ⟨blob, written, decoded blob written⟩
  · obtain ⟨⟨blob, written⟩, decoded⟩ :=
      @decode_inverts_encoding samplePoints 2 17 2 (.inr rfl) first formed ordered (by decide)
    exact ⟨blob, written, decoded blob written⟩

end ClrDecompiler.Symbols.SequencePoint
