/-
This file shows what earlier signatures have to do with the ones that are read after them from the
same blob: only the number of those that were refused for their nesting counts.
-/

import ClrDecompiler.Proofs.Signature.Levels
import ClrDecompiler.Proofs.Signature.Locality

namespace ClrDecompiler.Signature

open Read

inductive Kind where
  | typeSpec
  | method
  | field
  | locals
  | methodSpec
  deriving DecidableEq, Repr

inductive Value where
  | type (type : TypeSig)
  | method (shape : MethodSig)
  | types (types : List TypeSig)

def Kind.read : Kind → Nat → Read Value
  | .typeSpec, levels => .type <$> readTypeSpec levels
  | .method, levels => .method <$> readMethod levels
  | .field, levels => .type <$> readField levels
  | .locals, levels => .types <$> readLocals levels
  | .methodSpec, levels => .types <$> readMethodSpec levels

/-- Signatures are read one after the other, also after one that failed. -/
def Place.readAll (data : Bytes) : Place → List Kind → List (Except Fault Value) × Place
  | place, [] => ([], place)
  | place, kind :: kinds =>
    let (outcome, next) := place.read kind.read data
    let (outcomes, last) := next.readAll data kinds
    (outcome :: outcomes, last)

/-- The outcome of one more signature, and the number of bytes that it takes. -/
def Place.next (place : Place) (kind : Kind) (data : Bytes) : Except Fault Value × Nat :=
  let (outcome, after) := place.read kind.read data
  (outcome, after.position - place.position)

def Place.remaining (place : Place) (data : Bytes) : Bytes :=
  (data.toList.drop place.position).toArray

/-- What holds of the reader of types holds of the reader of every kind of signature. -/
theorem Congruent.read {relation : ∀ {α : Type}, Read α → Read α → Prop}
    (congruent : Congruent relation) {levels other : Nat}
    (inner : relation (readType levels) (readType other)) (kind : Kind) :
    relation (kind.read levels) (kind.read other) := by
  cases kind
  case typeSpec => exact congruent.map _ (congruent.readTypeSpec inner)
  case method => exact congruent.map _ (congruent.readMethod inner)
  case field => exact congruent.map _ (congruent.readField inner)
  case locals => exact congruent.map _ (congruent.readLocals inner)
  case methodSpec => exact congruent.map _ (congruent.readMethodSpec inner)

/-- A signature is read from the bytes behind its place only. -/
theorem local_read (kind : Kind) (levels : Nat) : (kind.read levels).Local :=
  @Congruent.read _ congruent_local levels levels (local_readType levels) kind

/-- A signature that is read with fewer levels is read in the same way with more. -/
theorem read_approximates {fewer more : Nat} (le : fewer ≤ more) (kind : Kind) :
    Approximates (kind.read fewer) (kind.read more) :=
  congruent_approximates.read (readType_approximates le) kind

/-- No place has more levels than the start. -/
theorem Place.levels_le_start (place : Place) : place.levels ≤ Place.start.levels :=
  Nat.sub_le _ _

section Place

variable (place : Place) (data : Bytes)

/-- A reading costs a level exactly if it was refused for its depth. -/
theorem Place.read_eq (kind : Kind) :
    place.read kind.read data =
      let (outcome, position) := (kind.read place.levels).runAt data place.position
      (outcome, ⟨position, place.lostLevels + if isRefused outcome then 1 else 0⟩) := by
  rcases run : (kind.read place.levels).runAt data place.position with ⟨fault | value, position⟩
  · simp only [Place.read, run]
    cases fault <;> rfl
  · simp only [Place.read, run]
    rfl

variable {place data} in
/-- A reading does not leave the data. -/
theorem Place.read_position_le (inside : place.position ≤ data.size) (kind : Kind) :
    (place.read kind.read data).2.position ≤ data.size := by
  obtain ⟨outcome, used, within, here, -⟩ := (local_read kind place.levels).runAt_drop inside
  rw [Place.read_eq, here]
  exact within

variable {place data} in
/-- A signature depends on the bytes in front of it and on the levels that are left. -/
theorem Place.next_eq_alone (inside : place.position ≤ data.size) (kind : Kind) :
    place.next kind data = (⟨0, place.lostLevels⟩ : Place).next kind (place.remaining data) := by
  obtain ⟨outcome, used, -, here, alone⟩ := (local_read kind place.levels).runAt_drop inside
  have there : (kind.read (Place.levels ⟨0, place.lostLevels⟩)).runAt (place.remaining data) 0 =
    (outcome, used) := alone
  simp only [Place.next, Place.read_eq, here, there, Nat.add_sub_cancel_left, Nat.sub_zero]

/-- A level is lost for each signature that is refused for its depth. -/
theorem Place.read_lostLevels (kind : Kind) :
    (place.read kind.read data).2.lostLevels =
      place.lostLevels + if isRefused (place.read kind.read data).1 then 1 else 0 := by
  rw [Place.read_eq]

/-- Readings follow one another at the places that they leave. -/
theorem Place.readAll_cons (kind : Kind) (kinds : List Kind) :
    place.readAll data (kind :: kinds) =
      ((place.read kind.read data).1 :: ((place.read kind.read data).2.readAll data kinds).1,
        ((place.read kind.read data).2.readAll data kinds).2) := rfl

/-- The levels that are lost are as many as the refusals. -/
theorem Place.readAll_lostLevels (kinds : List Kind) :
    (place.readAll data kinds).2.lostLevels =
      place.lostLevels + (place.readAll data kinds).1.countP isRefused := by
  induction kinds generalizing place with
  | nil => rfl
  | cons kind kinds ih =>
    rw [Place.readAll_cons]
    dsimp only
    rw [ih, Place.read_lostLevels, List.countP_cons]
    omega

variable {place data} in
/-- No run of readings leaves the data. -/
theorem Place.readAll_position_le (inside : place.position ≤ data.size) (kinds : List Kind) :
    (place.readAll data kinds).2.position ≤ data.size := by
  induction kinds generalizing place with
  | nil => exact inside
  | cons kind kinds ih => exact ih (Place.read_position_le inside kind)

end Place

/-- Every level that is lost can only turn the outcome into a refusal. -/
theorem Place.next_approximates {fewer more : Place} (levels : fewer.levels ≤ more.levels)
    (same : fewer.position = more.position) (kind : Kind) (data : Bytes) :
    fewer.next kind data = more.next kind data ∨ isRefused (fewer.next kind data).1 = true := by
  simp only [Place.next, Place.read_eq]
  rcases read_approximates levels kind data fewer.position with equal | refused
  · left
    rw [equal, same]
  · exact .inr refused

/-- A signature whose type is nested as deeply as possible. -/
def Kind.deepest (kind : Kind) : Bytes :=
  let start : List UInt8 := match kind with
    | .typeSpec => []
    | .method => [0x00, 0x00]
    | .field => [0x06]
    | .locals => [0x07, 0x01]
    | .methodSpec => [0x0A, 0x01]
  (start ++ List.replicate 48 0x1D ++ [0x08]).toArray

/-- The deepest signature of each kind is accepted by a parser without losses. -/
theorem Kind.deepest_accepted (kind : Kind) :
    isRefused (Place.start.next kind kind.deepest).1 = false := by
  cases kind <;> decide +kernel

/-- After a loss it is refused. -/
theorem Kind.deepest_refused (kind : Kind) {lost : Nat} (some : 0 < lost) :
    isRefused (Place.next ⟨0, lost⟩ kind kind.deepest).1 = true := by
  have levels : Place.levels ⟨0, lost⟩ ≤ Place.levels ⟨0, 1⟩ := Nat.sub_le_sub_left some 49
  have once : isRefused (Place.next ⟨0, 1⟩ kind kind.deepest).1 = true := by
    cases kind <;> decide +kernel
  rcases Place.next_approximates levels rfl kind kind.deepest with same | refused
  · rw [same]
    exact once
  · exact refused

/-- The state of a parser after any calls is the number of the calls that were refused for the
nesting. What it reads next follows from that number and from the bytes that remain; it is what a
new parser reads from them, or else a refusal; and parsers of every kind are as good as new
exactly as long as no call was refused. -/
theorem Place.readAll_next_eq_start_iff (data : Bytes) (kinds : List Kind) :
    let run := Place.start.readAll data kinds
    let last := run.2
    last.lostLevels = run.1.countP isRefused ∧
    last.position ≤ data.size ∧
    ∀ kind,
      ((last.read kind.read data).2.lostLevels = last.lostLevels ↔
        isRefused (last.next kind data).1 = false) ∧
      last.next kind data = (⟨0, last.lostLevels⟩ : Place).next kind (last.remaining data) ∧
      (last.next kind data = Place.start.next kind (last.remaining data) ∨
        isRefused (last.next kind data).1 = true) ∧
      ((∀ rest, (⟨0, last.lostLevels⟩ : Place).next kind rest = Place.start.next kind rest) ↔
        ∀ outcome ∈ run.1, isRefused outcome = false) := by
  intro run last
  have lost : last.lostLevels = run.1.countP isRefused := by
    rw [Place.readAll_lostLevels]
    exact Nat.zero_add _
  have inside : last.position ≤ data.size :=
    Place.readAll_position_le (Nat.zero_le _) kinds
  refine ⟨lost, inside, fun kind => ⟨?_, Place.next_eq_alone inside kind, ?_, ?_⟩⟩
  · rw [Place.read_lostLevels]
    change (_ ↔ isRefused (last.read kind.read data).1 = false)
    cases isRefused (last.read kind.read data).1 <;> simp
  · rw [Place.next_eq_alone inside kind]
    exact @Place.next_approximates ⟨0, last.lostLevels⟩ Place.start (Place.levels_le_start _) rfl
      kind _
  · constructor
    · intro fresh
      have none : last.lostLevels = 0 := by
        by_contra some
        have refused := kind.deepest_refused (Nat.pos_of_ne_zero some)
        rw [fresh, kind.deepest_accepted] at refused
        cases refused
      rw [lost, List.countP_eq_zero] at none
      exact fun outcome member => Bool.eq_false_iff.mpr (none outcome member)
    · intro accepted rest
      have none : last.lostLevels = 0 := by
        rw [lost, List.countP_eq_zero]
        exact fun outcome member => Bool.eq_false_iff.mp (accepted outcome member)
      rw [none]
      rfl

/-- Pointers that are nested too deeply, and after them a type that a new parser accepts. -/
def deepThenAccepted : Bytes :=
  (List.replicate 49 0x0F ++ Kind.typeSpec.deepest.toList).toArray

theorem deepThenAccepted_next_ne_start :
    let last := (Place.start.readAll deepThenAccepted [.typeSpec]).2
    last.lostLevels ≠ Place.start.lostLevels ∧
      last.next .typeSpec deepThenAccepted ≠
        Place.start.next .typeSpec (last.remaining deepThenAccepted) := by
  intro last
  have lost : last.lostLevels ≠ Place.start.lostLevels := by decide +kernel
  have refused : isRefused (last.next .typeSpec deepThenAccepted).1 = true := by decide +kernel
  have accepted : isRefused (Place.start.next .typeSpec (last.remaining deepThenAccepted)).1 =
    false := by decide +kernel
  refine ⟨lost, fun same => ?_⟩
  rw [same, accepted] at refused
  cases refused

end ClrDecompiler.Signature
