/-
This file shows that the sections after the code of a method body are read without a failure,
whatever the data hold. The chain of sections ends, since every section takes four bytes at
least, and every clause that a section announces lies inside of it.
-/

import ClrDecompiler.Proofs.Bytes.FixedWidth
import ClrDecompiler.Proofs.Cil.BodyEncoding
import Mathlib.Algebra.GroupWithZero.Nat
import Mathlib.Data.List.Forall2

namespace ClrDecompiler

namespace Bytes

variable {data : Bytes} {offset width : Nat}

theorem exists_numberAt? (inside : offset + width ≤ data.size) :
    ∃ value, data.numberAt? offset width = some value := by
  rw [numberAt?, slice?, if_pos inside]
  exact ⟨_, rfl⟩

/-- The first byte of a number is its lowest one. -/
theorem numberAt?_succ {byte : UInt8} {rest : Nat} (lead : data.byteAt? offset = some byte)
    (later : data.numberAt? (offset + 1) width = some rest) :
    data.numberAt? offset (width + 1) = some (byte.toNat + 0x100 * rest) := by
  obtain ⟨part, cut, rfl⟩ := Option.map_eq_some_iff.mp later
  obtain ⟨below, found⟩ := Array.getElem?_eq_some_iff.mp lead
  have fits : offset + 1 + width ≤ data.size := (slice?_eq_some cut).1
  rw [slice?, if_pos fits] at cut
  cases cut
  have split : (data.extract offset (offset + (width + 1))).toList =
      byte :: (data.extract (offset + 1) (offset + 1 + width)).toList := by
    have drop := List.drop_eq_getElem_cons (l := data.toList) below
    rw [Array.getElem_toList, found] at drop
    simp only [Array.toList_extract, List.extract, drop, Nat.add_sub_cancel_left,
      List.take_succ_cons]
  rw [numberAt?, slice?, if_pos (by omega), Option.map_some, split]
  rfl

end Bytes

namespace Cil

open Read

namespace ExceptionClause

/-- A clause of a fat or a small section. -/
def reader (isFat : Bool) : Read ExceptionClause :=
  if isFat then readFat else readSmall

theorem takes_reader (isFat : Bool) : (reader isFat).Takes (width isFat) := by
  cases isFat
  case true =>
    exact takes_word32.bind fun _ => takes_word32.bind fun _ => takes_word32.bind fun _ =>
      takes_word32.bind fun _ => takes_word32.bind fun _ => takes_word32.bind fun _ =>
      takes_pure _
  case false =>
    exact takes_word16.bind fun _ => takes_word16.bind fun _ => takes_word8.bind fun _ =>
      takes_word16.bind fun _ => takes_word8.bind fun _ => takes_word32.bind fun _ =>
      takes_pure _

/-- Steps of the same width stand one after the other. -/
theorem readMany_eq_ok {step : Read ExceptionClause} {width : Nat} (takes : step.Takes width)
    {data : Bytes} {position count : Nat} (inside : position + count * width ≤ data.size) :
    ∃ clauses, (readMany step count).runAt data position =
        (.ok clauses, position + count * width) ∧
      clauses.length = count ∧
      ∀ index (below : index < clauses.length), step.runAt data (position + index * width) =
        (.ok clauses[index], position + (index + 1) * width) := by
  induction count generalizing position with
  | zero => exact ⟨[], by rw [Nat.zero_mul]; rfl, rfl, fun _ below => absurd below (by simp)⟩
  | succ count ih =>
    rw [Nat.succ_mul] at inside
    obtain ⟨first, head⟩ := takes data position (by omega)
    obtain ⟨others, tail, length, each⟩ := @ih (position + width) (by omega)
    refine ⟨first :: others, ?_, congrArg Nat.succ length, fun index below => ?_⟩
    · rw [readMany, runAt_bind, head]
      simp only [runAt_bind, tail, runAt_pure]
      rw [Nat.succ_mul]
      congr 1
      omega
    · cases index with
      | zero =>
        rw [Nat.zero_mul, Nat.zero_add, Nat.one_mul]
        exact head
      | succ index =>
        have later := each index (Nat.lt_of_succ_lt_succ below)
        -- Seen from the first step, all others are one width further.
        rw [show position + width + index * width = position + (index + 1) * width by
          rw [Nat.succ_mul]; omega] at later
        rw [List.getElem_cons_succ, later, Nat.succ_mul (index + 1)]
        congr 1
        rw [Nat.succ_mul]
        omega

end ExceptionClause

/-- What the first four bytes of a section after the code say: its format, whether another
section follows, and its size with these bytes. -/
structure SectionHeader where
  start : Nat
  isFat : Bool
  hasNext : Bool
  size : Nat
  deriving DecidableEq, Repr

namespace SectionHeader

/-- The section at a place of the data. There is none if too few bytes are left, if it holds no
clauses or if it does not fit. The size of a fat section has three bytes and that of a small one
has one. -/
def at? (data : Bytes) (cursor : Nat) : Option SectionHeader := do
  let flags ← data.byteAt? cursor
  let isFat := flags &&& 0x40 != 0
  let size ← data.numberAt? (cursor + 1) (if isFat then 3 else 1)
  if cursor + 4 < data.size ∧ ¬ flags &&& 0x01 == 0 ∧ 4 ≤ size ∧ cursor + size ≤ data.size then
    some { start := cursor, isFat, hasNext := ¬ flags &&& 0x80 == 0, size }
  else none

def stop (header : SectionHeader) : Nat :=
  header.start + header.size

/-- The next section starts at a multiple of four. -/
def next (header : SectionHeader) : Nat :=
  Bytes.alignUp 4 header.stop

/-- The number of clauses for which the announced size has room. -/
def clauseCount (header : SectionHeader) : Nat :=
  (header.size - 4) / ExceptionClause.width header.isFat

def clauseStart (header : SectionHeader) (index : Nat) : Nat :=
  header.start + 4 + index * ExceptionClause.width header.isFat

/-- The clauses are read one after the other, from the fifth byte of the section on and inside of
it, and the section is inside the data. -/
structure Holds (header : SectionHeader) (data : Bytes) (clauses : List ExceptionClause) :
    Prop where
  count : clauses.length = header.clauseCount
  reads : ∀ index (below : index < clauses.length),
    (ExceptionClause.reader header.isFat).runAt data (header.clauseStart index) =
      (.ok clauses[index], header.clauseStart (index + 1))
  inside : ∀ index < clauses.length, header.clauseStart (index + 1) ≤ header.stop
  stop_le : header.stop ≤ data.size

end SectionHeader

/-- The sections from a place of the data on. A section is the last one if it says so or if there
is none behind it. -/
inductive SectionChain (data : Bytes) : Nat → List SectionHeader → Prop where
  | ended {cursor : Nat} (missing : SectionHeader.at? data cursor = none) :
    SectionChain data cursor []
  | last {cursor : Nat} {header : SectionHeader}
    (found : SectionHeader.at? data cursor = some header) (final : header.hasNext = false) :
    SectionChain data cursor [header]
  | next {cursor : Nat} {header : SectionHeader} {rest : List SectionHeader}
    (found : SectionHeader.at? data cursor = some header) (more : header.hasNext = true)
    (later : SectionChain data header.next rest) : SectionChain data cursor (header :: rest)

namespace SectionHeader

variable {data : Bytes} {cursor : Nat} {header : SectionHeader}

/-- A section that is found lies within the data. -/
theorem at?_eq_some (found : at? data cursor = some header) :
    cursor + 4 < data.size ∧ header.start = cursor ∧ 4 ≤ header.size ∧
      header.stop ≤ data.size := by
  obtain ⟨flags, -, found⟩ := Option.bind_eq_some_iff.mp found
  obtain ⟨size, -, found⟩ := Option.bind_eq_some_iff.mp found
  split at found
  case isFalse => cases found
  case isTrue fits =>
    cases found
    exact ⟨fits.1, rfl, fits.2.2⟩

/-- A fat section has its size in the word that starts with the flags. -/
theorem exists_size (room : cursor + 4 < data.size) {flags : UInt8}
    (lead : data.byteAt? cursor = some flags) (isFat : Bool) :
    ∃ size, data.numberAt? (cursor + 1) (if isFat then 3 else 1) = some size ∧
      (isFat → ∃ word, data.numberAt? cursor 4 = some word ∧ word / 0x100 = size) := by
  have inside : cursor + 1 + (if isFat then 3 else 1) ≤ data.size := by split <;> omega
  obtain ⟨size, found⟩ := Bytes.exists_numberAt? inside
  refine ⟨size, found, fun fat => ⟨flags.toNat + 0x100 * size, ?_, ?_⟩⟩
  · rw [if_pos fat] at found
    exact Bytes.numberAt?_succ lead found
  · have low := flags.toNat_lt
    omega

theorem at?_of_size {flags : UInt8} {size : Nat} (lead : data.byteAt? cursor = some flags)
    (found : data.numberAt? (cursor + 1) (if flags &&& 0x40 != 0 then 3 else 1) = some size) :
    at? data cursor =
      if cursor + 4 < data.size ∧ ¬ flags &&& 0x01 == 0 ∧ 4 ≤ size ∧ cursor + size ≤ data.size then
        some { start := cursor, isFat := flags &&& 0x40 != 0,
               hasNext := ¬ flags &&& 0x80 == 0, size }
      else none := by
  rw [at?, lead]
  exact congrArg (Option.bind · _) found

/-- What follows the reading of the size gets it in both formats. -/
theorem bind_size {α : Type} {isFat : Bool} {size : Nat}
    (found : data.numberAt? (cursor + 1) (if isFat then 3 else 1) = some size)
    (fat : isFat → ∃ word, data.numberAt? cursor 4 = some word ∧ word / 0x100 = size)
    (rest : Nat → Except Fault α) :
    (if isFat then
        Bytes.orOutOfBounds (data.numberAt? cursor 4) >>= fun word => pure (word / 0x100) >>= rest
      else Bytes.orOutOfBounds (data.numberAt? (cursor + 1) 1) >>= rest) = rest size := by
  cases isFat with
  | true =>
    obtain ⟨word, read, rfl⟩ := fat rfl
    rw [read]
    rfl
  | false =>
    have read : data.numberAt? (cursor + 1) 1 = some size := found
    rw [read]
    rfl

/-- One pass of the reader: it stops where there is no section, and else reads the clauses of the
section and goes on behind it. -/
theorem readSections_succ (data : Bytes) (cursor bound : Nat) :
    MethodBody.readSections (bound + 1) data cursor =
      match at? data cursor with
      | none => .ok []
      | some header => do
        let clauses ← ((ExceptionClause.readMany (ExceptionClause.reader header.isFat)
          header.clauseCount).runAt data (cursor + 4)).1
        if header.hasNext then
          return clauses ++ (← MethodBody.readSections bound data header.next)
        else return clauses := by
  rw [MethodBody.readSections]
  by_cases room : cursor + 4 < data.size
  case neg =>
    rw [if_pos (Nat.le_of_not_lt room)]
    cases found : at? data cursor with
    | none => rfl
    | some header => exact absurd (at?_eq_some found).1 room
  case pos =>
    have lead : data.byteAt? cursor = some data[cursor] := Array.getElem?_eq_getElem (by omega)
    generalize data[cursor] = flags at lead
    obtain ⟨size, found, fat⟩ := exists_size room lead (flags &&& 0x40 != 0)
    have flagged : Bytes.orOutOfBounds (data.byteAt? cursor) = pure flags :=
      congrArg Bytes.orOutOfBounds lead
    rw [if_neg (Nat.not_le_of_lt room), flagged, pure_bind, at?_of_size lead found]
    -- The rest of the pass takes the size from either format.
    extract_lets isFat step rest
    by_cases empty : flags &&& 0x01 == 0
    case pos =>
      rw [if_pos empty, if_neg fun fits => fits.2.1 empty]
      rfl
    case neg =>
      rw [if_neg empty]
      refine (bind_size found fat rest).trans ?_
      dsimp only [rest]
      by_cases misfit : size < 4 ∨ data.size < cursor + size
      case pos =>
        rw [if_pos misfit, if_neg fun fits => by omega]
        rfl
      case neg =>
        have fits : cursor + 4 < data.size ∧ ¬ flags &&& 0x01 == 0 ∧ 4 ≤ size ∧
          cursor + size ≤ data.size := ⟨room, empty, by omega, by omega⟩
        rw [if_neg misfit, if_pos fits]
        refine bind_congr fun clauses => ?_
        dsimp only
        by_cases final : flags &&& 0x80 == 0
        · rw [if_pos final, if_neg (by simp [final])]
        · rw [if_neg final, if_pos (by simp [final])]
          rfl

/-- The chain goes on behind the first four bytes of the section at least. -/
theorem add_four_le_next (found : at? data cursor = some header) :
    header.start + 4 ≤ header.next := by
  obtain ⟨-, -, large, -⟩ := at?_eq_some found
  rw [next, Bytes.alignUp, stop]
  omega

/-- No clause of a section that was found can fail, since the size of the section is checked
before and there are no more clauses than it has room for. -/
theorem exists_holds (found : at? data cursor = some header) :
    ∃ clauses, ((ExceptionClause.readMany (ExceptionClause.reader header.isFat)
        header.clauseCount).runAt data (cursor + 4)).1 = .ok clauses ∧
      header.Holds data clauses := by
  obtain ⟨-, rfl, large, fits⟩ := at?_eq_some found
  have room : header.clauseCount * ExceptionClause.width header.isFat ≤ header.size - 4 :=
    Nat.div_mul_le_self _ _
  have inside : header.start + 4 + header.clauseCount * ExceptionClause.width header.isFat ≤
      header.stop := by
    rw [stop]
    omega
  obtain ⟨clauses, all, count, reads⟩ := ExceptionClause.readMany_eq_ok
    (ExceptionClause.takes_reader header.isFat) (Nat.le_trans inside fits)
  refine ⟨clauses, congrArg Prod.fst all, count, reads, fun index below => ?_, fits⟩
  refine Nat.le_trans (Nat.add_le_add_left (Nat.mul_le_mul_right _ ?_) _) inside
  rw [← count]
  exact below

theorem length_flatten {headers : List SectionHeader} {contents : List (List ExceptionClause)}
    (holds : List.Forall₂ (fun header clauses => header.Holds data clauses) headers contents) :
    contents.flatten.length = (headers.map clauseCount).sum := by
  induction holds with
  | nil => rfl
  | cons first _ ih =>
    rw [List.flatten_cons, List.length_append, ih, first.count, List.map_cons, List.sum_cons]

end SectionHeader

namespace SectionChain

variable {data : Bytes} {cursor : Nat} {sections : List SectionHeader}

/-- What is left of the data gets smaller with every section. -/
theorem exists_chain (data : Bytes) (cursor : Nat) :
    ∃ sections, SectionChain data cursor sections := by
  induction left : data.size - cursor using Nat.strongRecOn generalizing cursor with
  | ind left ih =>
    subst left
    cases found : SectionHeader.at? data cursor with
    | none => exact ⟨[], .ended found⟩
    | some header =>
      cases more : header.hasNext with
      | false => exact ⟨[header], .last found more⟩
      | true =>
        have later := SectionHeader.add_four_le_next found
        obtain ⟨room, rfl, -⟩ := SectionHeader.at?_eq_some found
        obtain ⟨rest, chain⟩ := ih (data.size - header.next) (by omega) header.next rfl
        exact ⟨header :: rest, .next found more chain⟩

/-- What stands at a place decides whether the chain ends there and where it goes on. -/
theorem unique {others : List SectionHeader} (chain : SectionChain data cursor sections)
    (other : SectionChain data cursor others) : others = sections := by
  induction chain generalizing others with
  | ended missing =>
    cases other with
    | ended _ => rfl
    | last found _ | next found _ _ => rw [missing] at found; cases found
  | last found final =>
    cases other with
    | ended missing => rw [missing] at found; cases found
    | last again _ => rw [Option.some.inj (found.symm.trans again)]
    | next again more _ =>
      rw [← Option.some.inj (found.symm.trans again), final] at more
      cases more
  | next found more later ih =>
    cases other with
    | ended missing => rw [missing] at found; cases found
    | last again final =>
      rw [← Option.some.inj (found.symm.trans again), more] at final
      cases final
    | next again _ rest =>
      obtain rfl := Option.some.inj (found.symm.trans again)
      rw [ih rest]

/-- Each section lies four bytes further at least. -/
theorem add_four_le_next (chain : SectionChain data cursor sections) :
    ∀ header ∈ sections, header.start + 4 ≤ header.next := by
  induction chain with
  | ended => exact fun _ member => absurd member List.not_mem_nil
  | last found => exact List.forall_mem_singleton.mpr (SectionHeader.add_four_le_next found)
  | next found _ _ ih =>
    exact List.forall_mem_cons.mpr ⟨SectionHeader.add_four_le_next found, ih⟩

/-- There are no more sections than a quarter of the bytes. -/
theorem four_mul_length_le (chain : SectionChain data cursor sections) :
    4 * sections.length ≤ data.size - cursor := by
  induction chain with
  | ended => exact Nat.zero_le _
  | last found =>
    have room := (SectionHeader.at?_eq_some found).1
    rw [List.length_singleton]
    omega
  | next found _ _ ih =>
    have later := SectionHeader.add_four_le_next found
    obtain ⟨room, rfl, -⟩ := SectionHeader.at?_eq_some found
    rw [List.length_cons]
    omega

/-- The reader goes along the chain. It takes one pass for every section, so that every bound
that allows these passes gives the same clauses. -/
theorem readSections_eq (chain : SectionChain data cursor sections) :
    ∃ contents, List.Forall₂ (fun header clauses => header.Holds data clauses) sections contents ∧
      ∀ bound, sections.length ≤ bound →
        MethodBody.readSections bound data cursor = .ok contents.flatten := by
  induction chain with
  | @ended cursor missing =>
    refine ⟨[], .nil, fun bound _ => ?_⟩
    cases bound with
    | zero => rfl
    | succ bound => rw [SectionHeader.readSections_succ, missing]; rfl
  | @last cursor header found final =>
    obtain ⟨clauses, reads, holds⟩ := SectionHeader.exists_holds found
    refine ⟨[clauses], .cons holds .nil, fun bound enough => ?_⟩
    obtain ⟨bound, rfl⟩ : ∃ fewer, bound = fewer + 1 := Nat.exists_eq_add_of_le' enough
    rw [SectionHeader.readSections_succ, found]
    dsimp only
    rw [reads, final, List.flatten_singleton]
    rfl
  | @next cursor header rest found more _ ih =>
    obtain ⟨clauses, reads, holds⟩ := SectionHeader.exists_holds found
    obtain ⟨contents, allHold, later⟩ := ih
    refine ⟨clauses :: contents, .cons holds allHold, fun bound enough => ?_⟩
    obtain ⟨bound, rfl⟩ := Nat.exists_eq_add_of_le' (Nat.le_trans (Nat.succ_pos _) enough)
    rw [SectionHeader.readSections_succ, found]
    dsimp only
    rw [reads, more, later bound (Nat.le_of_succ_le_succ enough), List.flatten_cons]
    rfl

end SectionChain

/-- The sections behind the code are always read without a failure. There is exactly one chain of
them from a place of the data on; each pass of the reader goes on by four bytes at least and reads
the clauses of one section, all of them inside of the size that the section announces and inside
of the data; and the clauses of the body are those of all sections in their order, as many as the
sizes announce. -/
theorem MethodBody.readSections_total (data : Bytes) (cursor : Nat) :
    ∃ visited contents,
      (∀ sections, SectionChain data cursor sections ↔ sections = visited) ∧
      (∀ header ∈ visited, header.start + 4 ≤ header.next) ∧
      4 * visited.length ≤ data.size - cursor ∧
      List.Forall₂ (fun header clauses => header.Holds data clauses) visited contents ∧
      (∀ bound, data.size ≤ bound →
        MethodBody.readSections bound data cursor = .ok contents.flatten) ∧
      contents.flatten.length = (visited.map SectionHeader.clauseCount).sum := by
  obtain ⟨visited, chain⟩ := SectionChain.exists_chain data cursor
  obtain ⟨contents, holds, reads⟩ := chain.readSections_eq
  have passes := chain.four_mul_length_le
  refine ⟨visited, contents, fun sections => ⟨chain.unique, ?_⟩, chain.add_four_le_next, passes,
    holds, fun bound large => reads bound (by omega), SectionHeader.length_flatten holds⟩
  rintro rfl
  exact chain

end Cil

end ClrDecompiler
