/-
This file decodes UTF-8. A refused text comes with the place and the extent of its flaw.
-/

namespace ClrDecompiler.Utf8

/-- The reason why bytes are no UTF-8, with the index of the first byte that is not part of
a whole character. -/
inductive Flaw where
  | invalid (length index : Nat)
  | incomplete (index : Nat)
  deriving DecidableEq, Repr

def Flaw.message : Flaw → String
  | .invalid length index => s!"invalid utf-8 sequence of {length} bytes from index {index}"
  | .incomplete index => s!"incomplete utf-8 byte sequence from index {index}"

def isTail (byte : UInt8) : Bool :=
  0x80 ≤ byte && byte < 0xC0

/-- The second byte of a character is restricted further after the lead bytes at which
overlong forms, surrogates and values above the last code point would start. -/
def isSecond (lead byte : UInt8) : Bool :=
  if lead == 0xE0 then 0xA0 ≤ byte && byte < 0xC0
  else if lead == 0xED then 0x80 ≤ byte && byte < 0xA0
  else if lead == 0xF0 then 0x90 ≤ byte && byte < 0xC0
  else if lead == 0xF4 then 0x80 ≤ byte && byte < 0x90
  else isTail byte

/-- The code point of a lead byte's payload and the payloads of its tails. -/
def codePoint (lead : Nat) (tails : List UInt8) : Char :=
  Char.ofNat (tails.foldl (fun value byte => value * 64 + byte.toNat % 64) lead)

/-- The whole characters from an index on, up to the first flaw. -/
def decodeFrom (index : Nat) : List UInt8 → List Char × Option Flaw
  | [] => ([], none)
  | lead :: rest =>
    if lead < 0x80 then
      let (found, flaw) := decodeFrom (index + 1) rest
      (Char.ofNat lead.toNat :: found, flaw)
    else if 0xC2 ≤ lead && lead < 0xE0 then
      match rest with
      | [] => ([], some (.incomplete index))
      | second :: rest =>
        if isTail second then
          let (found, flaw) := decodeFrom (index + 2) rest
          (codePoint (lead.toNat - 0xC0) [second] :: found, flaw)
        else ([], some (.invalid 1 index))
    else if 0xE0 ≤ lead && lead < 0xF0 then
      match rest with
      | [] => ([], some (.incomplete index))
      | second :: rest =>
        if isSecond lead second then
          match rest with
          | [] => ([], some (.incomplete index))
          | third :: rest =>
            if isTail third then
              let (found, flaw) := decodeFrom (index + 3) rest
              (codePoint (lead.toNat - 0xE0) [second, third] :: found, flaw)
            else ([], some (.invalid 2 index))
        else ([], some (.invalid 1 index))
    else if 0xF0 ≤ lead && lead < 0xF5 then
      match rest with
      | [] => ([], some (.incomplete index))
      | second :: rest =>
        if isSecond lead second then
          match rest with
          | [] => ([], some (.incomplete index))
          | third :: rest =>
            if isTail third then
              match rest with
              | [] => ([], some (.incomplete index))
              | fourth :: rest =>
                if isTail fourth then
                  let (found, flaw) := decodeFrom (index + 4) rest
                  (codePoint (lead.toNat - 0xF0) [second, third, fourth] :: found, flaw)
                else ([], some (.invalid 3 index))
            else ([], some (.invalid 2 index))
        else ([], some (.invalid 1 index))
    else ([], some (.invalid 1 index))

def decode (bytes : List UInt8) : Except Flaw String :=
  match decodeFrom 0 bytes with
  | (text, none) => .ok (String.ofList text)
  | (_, some flaw) => .error flaw

/-- Every flaw becomes one replacement character. The first argument bounds their number. -/
def replaceFlaws : Nat → List UInt8 → List Char
  | 0, _ => []
  | bound + 1, bytes =>
    match decodeFrom 0 bytes with
    | (text, none) => text
    | (text, some (.incomplete _)) => text ++ [Char.ofNat 0xFFFD]
    | (text, some (.invalid length index)) =>
      text ++ Char.ofNat 0xFFFD :: replaceFlaws bound (bytes.drop (index + length))

def decodeLossy (bytes : List UInt8) : String :=
  String.ofList (replaceFlaws (bytes.length + 1) bytes)

def encode (text : String) : Array UInt8 :=
  text.toUTF8.data

end ClrDecompiler.Utf8
