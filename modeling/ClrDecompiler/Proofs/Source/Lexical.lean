/-
This file reads literals of C# by its lexical grammar, apart from how they are written, and shows
which texts give which values.
-/

import ClrDecompiler.Text.Utf16
import Mathlib.Data.Bool.AllAny
import Mathlib.Data.Nat.Init

namespace ClrDecompiler.Source

/-- The characters that end a line of C#. -/
def lineEnds : List Char :=
  ['\n', '\r', '\u0085', '\u2028', '\u2029']

def isLineEnd (c : Char) : Bool :=
  lineEnds.contains c

/-! Escape sequences. -/

def hexDigit? (c : Char) : Option Nat :=
  if '0' ≤ c ∧ c ≤ '9' then some (c.toNat - 48)
  else if 'A' ≤ c ∧ c ≤ 'F' then some (c.toNat - 55)
  else if 'a' ≤ c ∧ c ≤ 'f' then some (c.toNat - 87)
  else none

def hexValue? (digits : List Char) : Option Nat :=
  digits.foldlM (fun value c => (hexDigit? c).map (value * 16 + ·)) 0

/-- The units of a number that stands for a character or for half of a surrogate pair. -/
def unitsOf? (value : Nat) : Option (List UInt16) :=
  if value < 0x10000 then some [UInt16.ofNat value]
  else if value < 0x110000 then some (Utf16.encodeChar (Char.ofNat value))
  else none

/-- So many hexadecimal digits, and what follows them. -/
def readDigits (width : Nat) (text : List Char) : Option (List UInt16 × List Char) :=
  if text.length < width then none
  else ((hexValue? (text.take width)).bind unitsOf?).map fun units => (units, text.drop width)

/-- The characters that are escaped by a character of their own. -/
def namedEscapes : List (Char × Char) := [
  ('\'', '\''), ('"', '"'), ('\\', '\\'), ('0', '\x00'), ('a', '\x07'), ('b', '\x08'),
  ('f', '\x0C'), ('n', '\n'), ('r', '\r'), ('t', '\t'), ('v', '\x0B')]

/-- What follows a backslash. An escape that starts with `x` takes as many digits as it can. -/
def readEscape : List Char → Option (List UInt16 × List Char)
  | [] => none
  | 'u' :: rest => readDigits 4 rest
  | 'U' :: rest => readDigits 8 rest
  | 'x' :: rest =>
    let width := ((rest.take 4).takeWhile fun c => (hexDigit? c).isSome).length
    if width = 0 then none else readDigits width rest
  | c :: rest => (namedEscapes.lookup c).map fun escaped => (Utf16.encodeChar escaped, rest)

/-- A character between quotes, or an escape sequence. -/
def readElement (quote : Char) : List Char → Option (List UInt16 × List Char)
  | [] => none
  | '\\' :: rest => readEscape rest
  | c :: rest => if c = quote ∨ isLineEnd c then none else some (Utf16.encodeChar c, rest)

theorem length_encodeChar_pos (c : Char) : 0 < (Utf16.encodeChar c).length := by
  rw [Utf16.encodeChar]
  split <;> exact Nat.zero_lt_succ _

theorem length_unitsOf?_le {value : Nat} {units : List UInt16}
    (known : unitsOf? value = some units) : units.length ≤ 2 := by
  unfold unitsOf? Utf16.encodeChar at known
  dsimp only at known
  split at known
  · cases known
    exact Nat.le_succ 1
  · split at known
    · cases known
      split
      · exact Nat.le_succ 1
      · exact Nat.le_refl 2
    · cases known

theorem isLineEnd_of_hexDigit? {c : Char} {digit : Nat} (known : hexDigit? c = some digit) :
    isLineEnd c = false := by
  rw [Bool.eq_false_iff]
  intro ends
  have none : ∀ c ∈ lineEnds, hexDigit? c = none :=
    List.all_iff_forall_prop.mp (by decide)
  rw [none c (List.contains_iff_mem.mp ends)] at known
  cases known

/-- Digits do not end a line. -/
theorem isLineEnd_of_hexValue? {digits : List Char} {value : Nat}
    (known : hexValue? digits = some value) : ∀ c ∈ digits, isLineEnd c = false := by
  unfold hexValue? at known
  generalize 0 = start at known
  induction digits generalizing start with
  | nil => exact List.forall_mem_nil _
  | cons c rest ih =>
    rw [List.foldlM_cons, Option.bind_eq_bind, Option.bind_eq_some_iff] at known
    obtain ⟨next, first, later⟩ := known
    obtain ⟨digit, found, -⟩ := Option.map_eq_some_iff.mp first
    exact List.forall_mem_cons.mpr ⟨isLineEnd_of_hexDigit? found, ih next later⟩

/-- The digits that are read stand in front of the rest. -/
theorem readDigits_eq_some {width : Nat} {text next : List Char} {units : List UInt16}
    (read : readDigits width text = some (units, next)) :
    ∃ digits, text = digits ++ next ∧ digits.length = width ∧ units.length ≤ 2 ∧
      ∀ c ∈ digits, isLineEnd c = false := by
  rw [readDigits] at read
  split at read
  · cases read
  · next long =>
    obtain ⟨_, found, same⟩ := Option.map_eq_some_iff.mp read
    cases same
    obtain ⟨value, known, small⟩ := Option.bind_eq_some_iff.mp found
    refine ⟨text.take width, (List.take_append_drop width text).symm, ?_,
      length_unitsOf?_le small, isLineEnd_of_hexValue? known⟩
    exact List.length_take_of_le (Nat.le_of_not_lt long)

/-- An escape sequence is longer than its value, even without its backslash. -/
theorem readEscape_eq_some {text next : List Char} {units : List UInt16}
    (read : readEscape text = some (units, next)) :
    ∃ piece, text = piece ++ next ∧ piece ≠ [] ∧ units.length ≤ piece.length ∧
      ∀ c ∈ piece, isLineEnd c = false := by
  have lettered {letter : Char} {width : Nat} {rest : List Char} (plain : isLineEnd letter = false)
      (wide : 0 < width) (found : readDigits width rest = some (units, next)) :
      ∃ piece, letter :: rest = piece ++ next ∧ piece ≠ [] ∧ units.length ≤ piece.length ∧
        ∀ c ∈ piece, isLineEnd c = false := by
    obtain ⟨digits, whole, length, small, single⟩ := readDigits_eq_some found
    refine ⟨letter :: digits, by rw [whole, List.cons_append], List.cons_ne_nil _ _, ?_,
      List.forall_mem_cons.mpr ⟨plain, single⟩⟩
    rw [List.length_cons]
    omega
  unfold readEscape at read
  split at read
  case h_1 => cases read
  case h_2 => exact lettered (by decide) (by decide) read
  case h_3 => exact lettered (by decide) (by decide) read
  case h_4 rest =>
    dsimp only at read
    split at read
    · cases read
    · next present => exact lettered (by decide) (Nat.pos_of_ne_zero present) read
  case h_5 c rest _ _ _ =>
    obtain ⟨escaped, found, same⟩ := Option.map_eq_some_iff.mp read
    cases same
    have known : ∀ entry ∈ namedEscapes,
        isLineEnd entry.1 = false ∧ (Utf16.encodeChar entry.2).length ≤ 1 := by decide
    obtain ⟨before, after, listed, -⟩ := List.lookup_eq_some_iff.mp found
    obtain ⟨plain, small⟩ := known (c, escaped) (by rw [listed]; simp)
    refine ⟨[c], rfl, List.cons_ne_nil _ _, small, ?_⟩
    intro other member
    rw [List.mem_singleton.mp member]
    exact plain

/-- What is read between quotes is a character that is its own value, or an escape sequence that is
longer than its value. Neither has a line end. -/
theorem readElement_eq_some {quote : Char} {text next : List Char} {units : List UInt16}
    (read : readElement quote text = some (units, next)) :
    (∃ c, text = c :: next ∧ c ≠ quote ∧ c ≠ '\\' ∧ isLineEnd c = false ∧
      units = Utf16.encodeChar c) ∨
    (∃ piece, text = '\\' :: piece ++ next ∧ units.length ≤ piece.length ∧
      ∀ c ∈ piece, isLineEnd c = false) := by
  unfold readElement at read
  split at read
  case h_1 => cases read
  case h_2 =>
    obtain ⟨piece, whole, -, small, single⟩ := readEscape_eq_some read
    exact .inr ⟨piece, by rw [whole, List.cons_append], small, single⟩
  case h_3 c rest other =>
    split at read
    · cases read
    · next ordinary =>
      rw [not_or, Bool.not_eq_true] at ordinary
      cases read
      exact .inl ⟨c, rfl, ordinary.1, other, ordinary.2, rfl⟩

/-- A character that is no quote, escape or end of a line is itself. -/
theorem readElement_plain {quote c : Char} (unquoted : c ≠ quote) (unescaped : c ≠ '\\')
    (single : isLineEnd c = false) (rest : List Char) :
    readElement quote (c :: rest) = some (Utf16.encodeChar c, rest) := by
  rw [readElement.eq_3 _ _ _ unescaped, if_neg (by simp [unquoted, single])]

/-- An element is taken from the text. -/
theorem length_lt_of_readElement {quote : Char} {text next : List Char} {units : List UInt16}
    (read : readElement quote text = some (units, next)) : next.length < text.length := by
  rcases readElement_eq_some read with ⟨c, rfl, -⟩ | ⟨piece, rfl, -⟩
  · exact Nat.lt_succ_self _
  · rw [List.cons_append, List.length_cons, List.length_append]
    omega

/-! Literals. -/

/-- The characters of a string up to its closing quote. -/
def readBody (text : List Char) : Option (List UInt16 × List Char) :=
  match _ : readElement '"' text with
  | some (units, next) =>
    (readBody next).map fun (others, rest) => (units ++ others, rest)
  | none => match text with
    | '"' :: rest => some ([], rest)
    | _ => none
termination_by text.length
decreasing_by exact length_lt_of_readElement ‹_›

/-- The value of a string literal at the start of a text, and what follows it. -/
def readString? : List Char → Option (List UInt16 × List Char)
  | '"' :: text => readBody text
  | _ => none

/-- The value of a character literal at the start of a text, and what follows it. -/
def readCharacter? : List Char → Option (UInt16 × List Char)
  | '\'' :: text => match readElement '\'' text with
    | some ([unit], '\'' :: rest) => some (unit, rest)
    | _ => none
  | _ => none

theorem readBody_of_element {text next : List Char} {units : List UInt16}
    (read : readElement '"' text = some (units, next)) :
    readBody text = (readBody next).map fun (others, rest) => (units ++ others, rest) := by
  rw [readBody]
  split
  · next found =>
    rw [read] at found
    cases found
    rfl
  · next found =>
    rw [read] at found
    cases found

theorem readBody_quote (rest : List Char) : readBody ('"' :: rest) = some ([], rest) := by
  rw [readBody]
  rfl

theorem readBody_of_none {c : Char} {rest : List Char} (other : c ≠ '"')
    (unread : readElement '"' (c :: rest) = none) : readBody (c :: rest) = none := by
  rw [readBody]
  split
  · next found =>
    rw [unread] at found
    cases found
  · split
    · next rest same _ => exact absurd (List.cons.inj same).1 other
    · rfl

/-- The characters that stand for themselves in a string literal. -/
def StandsForItself (c : Char) : Prop :=
  c ≠ '"' ∧ c ≠ '\\' ∧ isLineEnd c = false

instance : DecidablePred StandsForItself :=
  fun _ => inferInstanceAs (Decidable (_ ∧ _))

/-- A text of characters that stand for themselves is read up to its quote. -/
theorem readBody_plain {text : List Char} (plain : ∀ c ∈ text, StandsForItself c)
    (rest : List Char) :
    readBody (text ++ '"' :: rest) = some (text.flatMap Utf16.encodeChar, rest) := by
  induction text with
  | nil => exact readBody_quote rest
  | cons c others ih =>
    obtain ⟨⟨unquoted, unescaped, single⟩, othersPlain⟩ := List.forall_mem_cons.mp plain
    rw [List.cons_append, readBody_of_element (readElement_plain unquoted unescaped single _),
      ih othersPlain]
    rfl

theorem length_le_flatMap_encodeChar (text : List Char) :
    text.length ≤ (text.flatMap Utf16.encodeChar).length := by
  induction text with
  | nil => exact Nat.le_refl 0
  | cons c rest ih =>
    have positive := length_encodeChar_pos c
    rw [List.flatMap_cons, List.length_append, List.length_cons]
    omega

/-- Between the quotes of a string literal there is no line end. Its characters stand for
themselves, or the value is shorter than they are. -/
theorem readBody_eq_some {text rest : List Char} {units : List UInt16}
    (read : readBody text = some (units, rest)) :
    ∃ body, text = body ++ '"' :: rest ∧ (∀ c ∈ body, isLineEnd c = false) ∧
      ((∀ c ∈ body, StandsForItself c) ∧ units = body.flatMap Utf16.encodeChar ∨
        units.length < (body.flatMap Utf16.encodeChar).length) := by
  fun_induction readBody text generalizing units with
  | case1 text first next found ih =>
    obtain ⟨⟨others, _⟩, later, same⟩ := Option.map_eq_some_iff.mp read
    cases same
    obtain ⟨body, rfl, single, value⟩ := ih later
    rcases readElement_eq_some found with
      ⟨c, rfl, unquoted, unescaped, plain, rfl⟩ | ⟨piece, rfl, small, plain⟩
    · refine ⟨c :: body, rfl, List.forall_mem_cons.mpr ⟨plain, single⟩, ?_⟩
      rw [List.flatMap_cons]
      rcases value with ⟨itself, rfl⟩ | shorter
      · exact .inl ⟨List.forall_mem_cons.mpr ⟨⟨unquoted, unescaped, plain⟩, itself⟩, rfl⟩
      · refine .inr ?_
        rw [List.length_append, List.length_append]
        omega
    · refine ⟨'\\' :: piece ++ body, by simp, ?_, .inr ?_⟩
      · intro c member
        rcases List.mem_append.mp member with escape | later
        · exact List.forall_mem_cons.mpr ⟨by decide, plain⟩ c escape
        · exact single c later
      · have encoded := length_le_flatMap_encodeChar ('\\' :: piece)
        have most : others.length ≤ (body.flatMap Utf16.encodeChar).length := by
          rcases value with ⟨-, rfl⟩ | shorter
          · exact Nat.le_refl _
          · exact Nat.le_of_lt shorter
        rw [List.length_cons] at encoded
        rw [List.flatMap_append, List.length_append, List.length_append]
        omega
  | case2 rest =>
    cases read
    exact ⟨[], rfl, List.forall_mem_nil _, .inl ⟨List.forall_mem_nil _, rfl⟩⟩
  | case3 => cases read

/-- Of two different characters at the ends of two beginnings of a text, the one that is missed in
the beginning of the other comes later. -/
theorem mem_of_append_cons_eq {line others body rest : List Char} {c quote : Char}
    (same : line ++ c :: others = body ++ quote :: rest) (absent : quote ∉ line)
    (apart : c ≠ quote) : c ∈ body := by
  rcases List.append_eq_append_iff.mp same with ⟨more, rfl, tail⟩ | ⟨more, rfl, tail⟩
  · cases more with
    | nil => exact absurd (List.cons.inj tail).1 apart
    | cons first _ =>
      rw [(List.cons.inj tail).1]
      simp
  · cases more with
    | nil => exact absurd (List.cons.inj tail).1.symm apart
    | cons first _ =>
      rw [(List.cons.inj tail).1] at absent
      simp at absent

/-- A text between quotes in a line without another quote is the value of its literal only if all of
its characters stand for themselves. -/
theorem standForThemselves_of_readBody {text line others rest : List Char} {c : Char}
    (unquoted : '"' ∉ line) (ends : isLineEnd c = true)
    (read : readBody (text ++ '"' :: (line ++ c :: others)) =
      some (text.flatMap Utf16.encodeChar, rest)) :
    ∀ c ∈ text, StandsForItself c := by
  obtain ⟨body, whole, single, value⟩ := readBody_eq_some read
  have whole : text = body := by
    rcases List.append_eq_append_iff.mp whole with ⟨more, rfl, tail⟩ | ⟨more, rfl, -⟩
    · cases more with
      | nil => exact (List.append_nil text).symm
      | cons quote more =>
        -- The literal would go on to a quote in a later line.
        have apart : c ≠ '"' := by
          rintro rfl
          exact absurd ends (by decide)
        have inside := mem_of_append_cons_eq (List.cons.inj tail).2 unquoted apart
        exact absurd ends (Bool.eq_false_iff.mp (single c (by simp [inside])))
    · -- The literal would end too early to have the whole text as its value.
      have most : ((body ++ more).flatMap Utf16.encodeChar).length ≤
          (body.flatMap Utf16.encodeChar).length := by
        rcases value with ⟨-, same⟩ | shorter
        · exact Nat.le_of_eq (congrArg List.length same)
        · exact Nat.le_of_lt shorter
      have encoded := length_le_flatMap_encodeChar more
      rw [List.flatMap_append, List.length_append] at most
      rw [List.eq_nil_of_length_eq_zero (by omega : more.length = 0), List.append_nil]
  subst whole
  rcases value with ⟨plain, -⟩ | shorter
  · exact plain
  · exact absurd shorter (Nat.lt_irrefl _)

/-- The text of a comment at the start of a text, and what follows it from the end of its line
on. -/
def readComment? : List Char → Option (List Char × List Char)
  | '/' :: '/' :: text => some (text.takeWhile (!isLineEnd ·), text.dropWhile (!isLineEnd ·))
  | _ => none

/-- A comment is read whole exactly if no line ends in it. -/
theorem readComment?_eq_some_iff {words rest : List Char} {c : Char} (ends : isLineEnd c = true) :
    readComment? ('/' :: '/' :: (words ++ c :: rest)) = some (words, c :: rest) ↔
      ∀ c ∈ words, isLineEnd c = false := by
  rw [readComment?, Option.some_inj, Prod.mk.injEq]
  constructor
  · rintro ⟨same, -⟩
    have single : words.all (!isLineEnd ·) = true := by
      rw [← same]
      exact List.all_takeWhile
    simpa using single
  · intro single
    have kept : ∀ c ∈ words, (!isLineEnd c) = true := fun c member => by rw [single c member]; rfl
    rw [List.takeWhile_append_of_pos kept, List.dropWhile_append_of_pos kept,
      List.takeWhile_cons_of_neg (by simp [ends]), List.dropWhile_cons_of_neg (by simp [ends]),
      List.append_nil]
    exact ⟨rfl, rfl⟩

example : readString? "\"a\\x41g\\u0022\";".toList =
    some ([0x61, 0x41, 0x67, 0x22], [';']) := by
  decide +kernel

end ClrDecompiler.Source
