/-
This file reads the stream of the tables and its rows with accesses that are made without asking.
The places of the tables are kept in an array by the numbers of the tables.
-/

import ClrDecompiler.Proofs.Metadata.Mask
import ClrDecompiler.Proofs.Strict.Columns

namespace ClrDecompiler.Strict

open Metadata

/-- The tables that are present have places. -/
structure Tables where
  data : Bytes
  majorVersion : UInt8
  minorVersion : UInt8
  valid : UInt64
  sorted : UInt64
  info : TableInfo
  offsets : Array (Option Nat)

def scanCounts (valid : UInt64) : List Nat → Array Nat → Scan (Array Nat)
  | [], counts => return counts
  | slot :: rest, counts =>
    if valid.toNat.testBit slot then do
      let count ← Scan.number 4
      scanCounts valid rest (← store counts slot count)
    else scanCounts valid rest counts

/-- The numbers of rows and the place behind the header. -/
def scanHeader (valid : UInt64) (heapFlags : UInt8) : Scan (Array Nat × Nat) := do
  let counts ← scanCounts valid (List.range TableId.slots) (Array.replicate TableId.slots 0)
  if heapFlags &&& 0x40 ≠ 0 then
    let _ ← Scan.word32
  return (counts, (← get).position)

def layOut (info : TableInfo) (valid : UInt64) (size : Nat) :
    List Nat → Nat → Option Nat → Array (Option Nat) → Run (Array (Option Nat))
  | [], _, _, offsets => .ok offsets
  | slot :: rest, offset, unknown, offsets =>
    if valid.toNat.testBit slot then
      match TableId.ofNumber? slot, unknown with
      | none, _ => layOut info valid size rest offset (unknown <|> some slot) offsets
      | some _, some before => .error (.refused (.malformed (.unknownTable slot before)))
      | some table, none => do
        let count ← item info.rowCounts slot
        let needed ← checked (count * (← info.rowSize table)) .outOfBounds
        let stop ← checked (offset + needed) .outOfBounds
        if size < stop then throw (.refused .outOfBounds)
        layOut info valid size rest stop none (← store offsets slot (some offset))
    else layOut info valid size rest offset unknown offsets

def readTables (data : Bytes) : Run Tables := do
  if data.size < 24 then throw (.refused .outOfBounds)
  let heapFlags ← byteFrom data 6
  let valid ← word64From data 8
  if valid = 0 then throw (.refused (.malformed .noTables))
  let (counts, start) ← (scanHeader valid heapFlags).runFrom data 24
  let info ← TableInfo.ofCounts counts heapFlags
  let offsets ← layOut info valid data.size (List.range TableId.slots) start none
    (Array.replicate TableId.slots none)
  return {
    majorVersion := ← byteFrom data 4
    minorVersion := ← byteFrom data 5
    sorted := ← word64From data 16
    data, valid, info, offsets }

namespace Tables

variable (tables : Tables)

def readRow (ρ : Type) [Row ρ] [ReadsColumns ρ] (data : Bytes) (count size number : Nat) :
    Run ρ := do
  if number = 0 ∨ count < number then throw (.refused .outOfBounds)
  let offset ← product (← difference number 1) size
  ReadsColumns.ofValues <$> (tables.info.scanValues (Row.table ρ).columns).runFrom data offset

def rows (ρ : Type) [Row ρ] [ReadsColumns ρ] : Run (List (Nat × ρ)) := do
  match ← item tables.offsets (Row.table ρ).number with
  | none => return []
  | some offset =>
    let rest ← tail tables.data offset
    let count ← tables.info.rowCount (Row.table ρ)
    let size ← tables.info.rowSize (Row.table ρ)
    let needed ← checked (count * size) .outOfBounds
    if rest.size < needed then throw (.refused .outOfBounds)
    let data ← slice rest 0 needed
    (List.range count).mapM fun index => do
      return (index + 1, ← tables.readRow ρ data count size (index + 1))

def summary : Run (List (TableId × Nat)) :=
  (TableId.all.filter fun table => tables.valid.toNat.testBit table.number).mapM fun table => do
    return (table, ← tables.info.rowCount table)

end Tables

section Header

variable {depth : Nat} (valid : UInt64)

/-- Storing the numbers of rows one by one is the same as collecting them first. -/
theorem follows_scanCounts (slots : List Nat) {counts : Array Nat}
    (inside : ∀ slot ∈ slots, slot < counts.size) :
    Follows depth (scanCounts valid slots counts)
      ((fun pairs =>
          pairs.foldl (fun found (slot, count) => found.setIfInBounds slot count) counts) <$>
        TableStream.readCounts (slots.filter fun slot => valid.toNat.testBit slot)) := by
  induction slots generalizing counts with
  | nil => exact .value counts
  | cons slot rest ih =>
    rw [List.forall_mem_cons] at inside
    rw [scanCounts]
    split
    · next present =>
      rw [List.filter_cons_of_pos present, TableStream.readCounts, map_bind]
      refine (Follows.number 4).bind fun count => .access (store_eq_ok inside.1 count) ?_
      have same : (counts.setIfInBounds slot count).size = counts.size :=
        Array.size_setIfInBounds
      have later := ih (same ▸ inside.2)
      rw [map_eq_pure_bind] at later
      simp only [map_bind, map_pure]
      exact later
    · next absent =>
      rw [List.filter_cons_of_neg absent]
      exact ih inside.2

/-- The strict reader of the header takes the same counts and stops at the same place. -/
theorem follows_scanHeader (heapFlags : UInt8) :
    Follows depth (scanHeader valid heapFlags) (do
      let counts ← TableStream.readHeader valid heapFlags
      return (counts, ← Read.position)) := by
  have inside : ∀ slot ∈ List.range TableId.slots,
      slot < (Array.replicate TableId.slots 0).size := by
    intro slot member
    rw [Array.size_replicate]
    exact List.mem_range.mp member
  have position (counts : Array Nat) :
      Follows depth (do return (counts, (← get).position)) (do return (counts, ← Read.position)) :=
    fun _ place _ => .ok (counts, place) place
  have counts : Follows depth _ _ := follows_scanCounts valid (List.range TableId.slots) inside
  by_cases extra : heapFlags &&& 0x40 ≠ 0
  · have whole := counts.bind fun stored => Follows.word32.bind fun _ => position stored
    simp only [scanHeader, TableStream.readHeader, if_pos extra, bind_assoc, pure_bind]
    rw [map_eq_pure_bind, bind_assoc] at whole
    simp only [pure_bind] at whole
    exact whole
  · have whole := counts.bind position
    simp only [scanHeader, TableStream.readHeader, if_neg extra, bind_assoc, pure_bind]
    rw [map_eq_pure_bind, bind_assoc] at whole
    simp only [pure_bind] at whole
    exact whole

/-- Every count that is read fits 32 bits. -/
theorem counts_of_readCounts {slots : List Nat} {data : Bytes} {position after : Nat}
    {pairs : List (Nat × Nat)}
    (run : (TableStream.readCounts slots).runAt data position = (.ok pairs, after)) :
    ∀ pair ∈ pairs, pair.2 < 2 ^ 32 := by
  induction slots generalizing position pairs with
  | nil =>
    cases run
    exact fun _ member => absurd member List.not_mem_nil
  | cons slot rest ih =>
    obtain ⟨count, middle, first, run⟩ := Read.of_runAt_bind run
    obtain ⟨others, last, later, run⟩ := Read.of_runAt_bind run
    cases run
    have outcome := Read.runAt_number 4 data position
    rw [first] at outcome
    rw [List.forall_mem_cons]
    exact ⟨Bytes.lt_of_numberAt? outcome.symm, ih later⟩

/-- Counts that fit 32 bits still do when some of them are set. -/
theorem foldl_setIfInBounds_small {pairs : List (Nat × Nat)} {counts : Array Nat}
    (small : ∀ pair ∈ pairs, pair.2 < 2 ^ 32)
    (start : ∀ slot : Nat, counts[slot]?.getD 0 < 2 ^ 32) :
    let result := pairs.foldl (fun found (slot, count) => found.setIfInBounds slot count) counts
    result.size = counts.size ∧ ∀ slot : Nat, result[slot]?.getD 0 < 2 ^ 32 := by
  induction pairs generalizing counts with
  | nil => exact ⟨rfl, start⟩
  | cons pair rest ih =>
    rw [List.forall_mem_cons] at small
    have stored (slot : Nat) : (counts.setIfInBounds pair.1 pair.2)[slot]?.getD 0 < 2 ^ 32 := by
      rw [Array.getElem?_setIfInBounds]
      split
      · split
        · exact small.1
        · decide
      · exact start slot
    obtain ⟨size, later⟩ := ih small.2 stored
    exact ⟨size.trans Array.size_setIfInBounds, later⟩

/-- All counts of a header fit 32 bits. -/
theorem countArray_small {pairs : List (Nat × Nat)} (small : ∀ pair ∈ pairs, pair.2 < 2 ^ 32) :
    (TableStream.countArray pairs).size = TableId.slots ∧
      ∀ slot : Nat, (TableStream.countArray pairs)[slot]?.getD 0 < 2 ^ 32 := by
  have start (slot : Nat) : (Array.replicate TableId.slots 0)[slot]?.getD 0 < 2 ^ 32 := by
    rw [Array.getElem?_replicate]
    split <;> decide
  have stored := foldl_setIfInBounds_small small start
  exact ⟨stored.1.trans Array.size_replicate, stored.2⟩

/-- The numbers of rows that are read are numbers of 32 bits. -/
theorem counts_of_readHeader {valid : UInt64} {heapFlags : UInt8} {data : Bytes}
    {position after : Nat} {counts : Array Nat}
    (run : (TableStream.readHeader valid heapFlags).runAt data position = (.ok counts, after)) :
    counts.size = TableId.slots ∧
      ∀ table, (TableSizes.ofCounts counts heapFlags).rowCount table < 2 ^ 32 := by
  obtain ⟨pairs, middle, first, run⟩ := Read.of_runAt_bind run
  have small := countArray_small (counts_of_readCounts first)
  split at run
  · obtain ⟨_, _, _, run⟩ := Read.of_runAt_bind run
    cases run
    exact ⟨small.1, fun table => small.2 table.number⟩
  · cases run
    exact ⟨small.1, fun table => small.2 table.number⟩

end Header

/-- The places of the tables with numbers among the slots have been stored, and the rows of each
of these tables are within the data. -/
structure Laid (sizes : TableSizes) (size : Nat) (slots : List Nat)
    (before after : Array (Option Nat)) (places : List (TableId × Nat)) : Prop where
  found : ∀ table : TableId, after[table.number]? =
    match places.find? fun place => place.1 == table with
    | some place => some (some place.2)
    | none => before[table.number]?
  among : ∀ place ∈ places, place.1.number ∈ slots
  within : ∀ place ∈ places,
    place.2 + sizes.rowCount place.1 * sizes.rowSize place.1 ≤ size

section Layout

variable {sizes : TableSizes} {size : Nat}

/-- A slot without a table leaves the places as they are. -/
theorem Laid.skip {slot : Nat} {slots : List Nat} {before after : Array (Option Nat)}
    {places : List (TableId × Nat)} (laid : Laid sizes size slots before after places) :
    Laid sizes size (slot :: slots) before after places where
  found := laid.found
  among place member := List.mem_cons_of_mem slot (laid.among place member)
  within := laid.within

/-- A table that is placed first is not among the others. -/
theorem Laid.cons {table : TableId} {slots : List Nat} {before after : Array (Option Nat)}
    {places : List (TableId × Nat)} {offset : Nat} (fresh : table.number ∉ slots)
    (inside : table.number < before.size)
    (fits : offset + sizes.rowCount table * sizes.rowSize table ≤ size)
    (laid : Laid sizes size slots (before.setIfInBounds table.number (some offset)) after places) :
    Laid sizes size (table.number :: slots) before after ((table, offset) :: places) where
  found other := by
    rw [laid.found other]
    by_cases same : table = other
    · subst same
      have absent : (places.find? fun place => place.1 == table) = none := by
        rw [List.find?_eq_none]
        intro place member here
        rw [beq_iff_eq] at here
        exact fresh (here ▸ laid.among place member)
      have first : ((table, offset) :: places).find? (fun place => place.1 == table) =
          some (table, offset) :=
        List.find?_cons_of_pos (beq_self_eq_true table)
      rw [absent, first]
      exact Array.getElem?_setIfInBounds_self_of_lt inside
    · have later : ((table, offset) :: places).find? (fun place => place.1 == other) =
          places.find? fun place => place.1 == other :=
        List.find?_cons_of_neg (mt beq_iff_eq.mp same)
      rw [later, Array.getElem?_setIfInBounds_ne (TableId.number_injective.ne same)]
  among place member := by
    rcases List.mem_cons.mp member with rfl | member
    · exact List.mem_cons_self
    · exact List.mem_cons_of_mem _ (laid.among place member)
  within place member := by
    rcases List.mem_cons.mp member with rfl | member
    · exact fits
    · exact laid.within place member

variable {info : TableInfo} (represents : info.Represents sizes) (word : size < wordLimit)
include represents word

/-- The places of the tables are the same, found slot by slot. -/
theorem agree_layOut (valid : UInt64) {slots : List Nat} (distinct : slots.Nodup) (offset : Nat)
    (unknown : Option Nat) {before : Array (Option Nat)}
    (sized : ∀ slot ∈ slots, slot < before.size) :
    Agree (Laid sizes size slots before) (layOut info valid size slots offset unknown before)
      (TableStream.layOut sizes size (slots.filter fun slot => valid.toNat.testBit slot) offset
        unknown) := by
  induction slots generalizing offset unknown before with
  | nil => exact .ok ⟨fun _ => rfl, fun _ => nofun, fun _ => nofun⟩
  | cons slot rest ih =>
    obtain ⟨fresh, others⟩ := List.nodup_cons.mp distinct
    rw [List.forall_mem_cons] at sized
    have skipped (offset : Nat) (unknown : Option Nat) :
        Agree (Laid sizes size (slot :: rest) before)
          (layOut info valid size rest offset unknown before)
          (TableStream.layOut sizes size (rest.filter fun slot => valid.toNat.testBit slot) offset
            unknown) :=
      (ih others offset unknown sized.2).mono fun _ _ => Laid.skip
    by_cases present : valid.toNat.testBit slot = true
    · rw [List.filter_cons_of_pos present]
      cases known : TableId.ofNumber? slot with
      | none =>
        simp only [layOut, TableStream.layOut, if_pos present, known]
        exact skipped offset (unknown <|> some slot)
      | some table =>
        obtain rfl : table.number = slot :=
          beq_iff_eq.mp (List.find?_some (p := fun table : TableId => table.number == slot) known)
        cases unknown with
        | some before =>
          simp only [layOut, TableStream.layOut, if_pos present, known]
          exact .refused _
        | none =>
          simp only [layOut, TableStream.layOut, if_pos present, known]
          refine .access (represents.rowCount table) (.access (represents.rowSize table) ?_)
          refine .checked word (fun beyond => if_pos (by omega)) ?_
          refine .checked word (fun beyond => if_pos beyond) ?_
          refine .ite Iff.rfl (fun _ => .refused _) fun within => ?_
          refine .access (store_eq_ok sized.1 (some offset)) ?_
          have size_eq : (before.setIfInBounds table.number (some offset)).size = before.size :=
            Array.size_setIfInBounds
          refine (ih others _ none (size_eq ▸ sized.2)).continued fun after places laid => ?_
          exact laid.cons fresh sized.1 (Nat.le_of_not_lt within)
    · have passed : layOut info valid size (slot :: rest) offset unknown before =
          layOut info valid size rest offset unknown before :=
        if_neg present
      rw [List.filter_cons_of_neg present, passed]
      exact skipped offset unknown

end Layout

/-- The tables are those of the stream, with their places kept by number. -/
structure Tables.Represents (tables : Tables) (stream : TableStream) : Prop where
  data : tables.data = stream.data
  valid : tables.valid = stream.valid
  info : tables.info.Represents stream.sizes
  found : ∀ table : TableId, item tables.offsets table.number =
    .ok ((stream.offsets.find? fun place => place.1 == table).map (·.2))
  within : ∀ place ∈ stream.offsets,
    place.2 + stream.sizes.rowCount place.1 * stream.sizes.rowSize place.1 ≤ stream.data.size

/-- The header of the tables is read alike. -/
theorem settles_scanHeader {data : Bytes} (addressable : IsAddressable data) (valid : UInt64)
    (heapFlags : UInt8) :
    Settles ((scanHeader valid heapFlags).runFrom data 24)
      ((·, ((TableStream.readHeader valid heapFlags).runAt data 24).2) <$>
        ((TableStream.readHeader valid heapFlags).runAt data 24).1) := by
  have settles := (follows_scanHeader valid heapFlags).settles addressable 24
  rw [Read.runAt_bind] at settles
  revert settles
  rcases (TableStream.readHeader valid heapFlags).runAt data 24 with ⟨fault | counts, start⟩ <;>
    exact id

/-- The place of a table is found under its number. -/
theorem item_offsets {sizes : TableSizes} {size : Nat} {offsets : Array (Option Nat)}
    {places : List (TableId × Nat)}
    (laid : Laid sizes size (List.range TableId.slots) (Array.replicate TableId.slots none) offsets
      places) (table : TableId) :
    item offsets table.number =
      .ok ((places.find? fun place => place.1 == table).map (·.2)) := by
  refine item_eq_ok ?_
  rw [laid.found table]
  cases places.find? fun place => place.1 == table with
  | some place => rfl
  | none =>
    change (Array.replicate TableId.slots none)[table.number]? = some none
    rw [Array.getElem?_replicate, if_pos table.number_lt]

/-- The strict reader of the tables gives what the reader gives. -/
theorem agree_readTables {data : Bytes} (addressable : IsAddressable data) :
    Agree Tables.Represents (readTables data) (TableStream.read data) := by
  have limit : data.size < 2 ^ 63 := addressable
  refine .guard Iff.rfl fun long => ?_
  have byte (offset : Nat) (inside : offset < 24) :
      ∃ value, Bytes.orOutOfBounds (data.byteAt? offset) = .ok value := by
    rw [Bytes.numberAt?_one]
    exact Bytes.exists_number _ data offset 1 (by omega)
  have word (offset : Nat) (inside : offset ≤ 16) :
      ∃ value, Bytes.orOutOfBounds (data.word64At? offset) = .ok value :=
    Bytes.exists_number _ data offset 8 (by omega)
  obtain ⟨major, foundMajor⟩ := byte 4 (by decide)
  obtain ⟨minor, foundMinor⟩ := byte 5 (by decide)
  obtain ⟨sorted, foundSorted⟩ := word 16 (by decide)
  refine .known foundMajor (.known foundMinor ?_)
  refine Settles.bind (settles_byteFrom addressable (by omega)) fun heapFlags _ => ?_
  refine Settles.bind (settles_word64From addressable (by omega)) fun valid _ => ?_
  refine .known foundSorted (.guard Iff.rfl fun _ => ?_)
  have header := settles_scanHeader addressable valid heapFlags
  generalize run : (TableStream.readHeader valid heapFlags).runAt data 24 = ended at header ⊢
  obtain ⟨fault | counts, start⟩ := ended
  · rw [header.eq_error rfl]
    exact .refused fault
  · refine .access (header.eq_ok rfl) ?_
    obtain ⟨size, fits⟩ := counts_of_readHeader run
    obtain ⟨info, built, -, represents⟩ := ofCounts_represents size fits
    refine .access built ?_
    have sized : ∀ slot ∈ List.range TableId.slots,
        slot < (Array.replicate TableId.slots (none : Option Nat)).size := by
      intro slot member
      rw [Array.size_replicate]
      exact List.mem_range.mp member
    refine (agree_layOut represents (by rw [wordLimit]; omega) valid List.nodup_range start none
      sized).bind fun offsets places _ laid => ?_
    refine .access ((settles_byteFrom addressable (by omega)).eq_ok foundMajor) ?_
    refine .access ((settles_byteFrom addressable (by omega)).eq_ok foundMinor) ?_
    refine .access ((settles_word64From addressable (by omega)).eq_ok foundSorted) ?_
    exact .ok ⟨rfl, rfl, represents, item_offsets laid, laid.within⟩

namespace Tables.Represents

variable {tables : Tables} {stream : TableStream} (represents : tables.Represents stream)
include represents

/-- A row inside its table is read without leaving the data. -/
theorem readRow (ρ : Type) [Row ρ] [ReadsColumns ρ] {data : Bytes}
    (addressable : IsAddressable data) {count number : Nat}
    (fits : count * stream.sizes.rowSize (Row.table ρ) ≤ data.size) :
    Settles (tables.readRow ρ data count (stream.sizes.rowSize (Row.table ρ)) number)
      (Table.row ρ { data, rowCount := count, sizes := stream.sizes } number) := by
  have limit : data.size < 2 ^ 63 := addressable
  refine .ite Iff.rfl (fun _ => .refused _) fun inside => ?_
  have positive : number ≠ 0 := fun zero => inside (.inl zero)
  have le : number ≤ count := Nat.le_of_not_lt fun beyond => inside (.inr beyond)
  have before : (number - 1) * stream.sizes.rowSize (Row.table ρ) ≤ data.size :=
    le_trans (Nat.mul_le_mul_right _ (Nat.le_trans (Nat.sub_le number 1) le)) fits
  refine .access (difference_eq_ok (Nat.one_le_iff_ne_zero.mpr positive)) ?_
  refine .access (product_eq_ok (by rw [wordLimit]; omega)) ?_
  rw [(ReadsColumns.agrees stream.sizes).outcome, Read.runAt_map]
  exact ((represents.info.scanValues (Row.table ρ).columns).settles addressable _).map
    ReadsColumns.ofValues

/-- All rows of a type are read as in the model. -/
theorem rows (ρ : Type) [Row ρ] [ReadsColumns ρ] (addressable : IsAddressable stream.data) :
    Settles (tables.rows ρ) (stream.rows ρ) := by
  have limit : stream.data.size < 2 ^ 63 := addressable
  have word : stream.data.size < wordLimit := Nat.lt_trans limit (by decide)
  have found := represents.found (Row.table ρ)
  rw [Tables.rows, represents.data, TableStream.rows, TableStream.table?]
  cases placed : stream.offsets.find? fun place => place.1 == Row.table ρ with
  | none =>
    rw [placed] at found
    exact .access found (.value [])
  | some place =>
    obtain ⟨table, offset⟩ := place
    have named : table = Row.table ρ :=
      beq_iff_eq.mp
        (List.find?_some (p := fun place : TableId × Nat => place.1 == Row.table ρ) placed)
    have fits : offset + stream.sizes.rowCount (Row.table ρ) * stream.sizes.rowSize (Row.table ρ) ≤
        stream.data.size :=
      named ▸ represents.within _ (List.mem_of_find?_eq_some placed)
    have inside : offset ≤ stream.data.size := Nat.le_of_add_right_le fits
    have rest : (stream.data.extract offset stream.data.size).size = stream.data.size - offset := by
      rw [Array.size_extract, Nat.min_self]
    have part : ((stream.data.extract offset stream.data.size).extract 0
        (stream.sizes.rowCount (Row.table ρ) * stream.sizes.rowSize (Row.table ρ))).size =
          stream.sizes.rowCount (Row.table ρ) * stream.sizes.rowSize (Row.table ρ) := by
      rw [Array.size_extract]
      omega
    have cut : stream.data.slice? offset
        (stream.sizes.rowCount (Row.table ρ) * stream.sizes.rowSize (Row.table ρ)) =
          some ((stream.data.extract offset stream.data.size).extract 0
            (stream.sizes.rowCount (Row.table ρ) * stream.sizes.rowSize (Row.table ρ))) := by
      rw [Bytes.slice?, if_pos fits, Array.extract_extract, Nat.add_zero, Nat.min_eq_left fits]
    replace found : item tables.offsets (Row.table ρ).number = .ok (some offset) := by
      rw [found, placed, Option.map_some]
    refine .access found (.access (tail_eq_ok inside) ?_)
    refine .access (represents.info.rowCount _) (.access (represents.info.rowSize _) ?_)
    refine .checked word (by omega) ?_
    rw [if_neg (by omega)]
    refine .access (slice_eq_ok (Nat.zero_le _) (by omega)) ?_
    simp only [TableStream.rowCount, cut]
    refine Settles.mapM fun index _ => ?_
    have data := (addressable.extract offset stream.data.size).extract 0
      (stream.sizes.rowCount (Row.table ρ) * stream.sizes.rowSize (Row.table ρ))
    exact (represents.readRow ρ data part.ge).bind fun row _ => .value (index + 1, row)

/-- Both sum the rows up alike. -/
theorem summary : tables.summary = .ok stream.summary := by
  have present : (fun table : TableId => tables.valid.toNat.testBit table.number) = stream.has := by
    funext table
    rw [represents.valid]
    rfl
  rw [Tables.summary, TableStream.summary, present]
  refine mapM_eq_ok fun table _ => ?_
  rw [represents.info.rowCount]
  rfl

end Tables.Represents

end ClrDecompiler.Strict
