/-
This file computes SHA-1 digests.
-/

import ClrDecompiler.Digest.Basic

namespace ClrDecompiler.Digest.Sha1

structure State where
  a : UInt32
  b : UInt32
  c : UInt32
  d : UInt32
  e : UInt32

def initial : State :=
  ⟨0x67452301, 0xefcdab89, 0x98badcfe, 0x10325476, 0xc3d2e1f0⟩

/-- Sixteen words of the block are extended to one word for each of the 80 rounds. -/
def schedule (block : Array UInt32) : Array UInt32 :=
  (List.range 64).foldl (fun words index =>
    let word (back : Nat) := words.getD (index + 16 - back) 0
    words.push (rotateLeft (word 3 ^^^ word 8 ^^^ word 14 ^^^ word 16) 1)) block

def roundMix (s : State) (index : Nat) : UInt32 :=
  if index < 20 then ((s.b &&& s.c) ||| (~~~s.b &&& s.d)) + 0x5a827999
  else if index < 40 then (s.b ^^^ s.c ^^^ s.d) + 0x6ed9eba1
  else if index < 60 then ((s.b &&& s.c) ||| (s.b &&& s.d) ||| (s.c &&& s.d)) + 0x8f1bbcdc
  else (s.b ^^^ s.c ^^^ s.d) + 0xca62c1d6

def round (words : Array UInt32) (s : State) (index : Nat) : State :=
  ⟨rotateLeft s.a 5 + roundMix s index + s.e + words.getD index 0, s.a, rotateLeft s.b 30,
    s.c, s.d⟩

def compress (block : Array UInt32) (s : State) : State :=
  let words := schedule block
  let t := (List.range 80).foldl (round words) s
  ⟨s.a + t.a, s.b + t.b, s.c + t.c, s.d + t.d, s.e + t.e⟩

def scheme : Scheme where
  State := State
  initial := initial
  bigEndian := true
  compress := compress
  words s := [s.a, s.b, s.c, s.d, s.e]

def hash (message : Bytes) : Bytes :=
  scheme.hash message

end ClrDecompiler.Digest.Sha1
