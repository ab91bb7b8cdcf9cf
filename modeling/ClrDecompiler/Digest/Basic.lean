/-
This file computes digests in blocks of 64 bytes: of a whole message, and of a message that
comes in pieces.
-/

import ClrDecompiler.Bytes.Basic

namespace ClrDecompiler.Digest

/-- A word is rotated by fewer places than it has bits. -/
def rotateLeft (word : UInt32) (places : UInt32) : UInt32 :=
  word <<< places ||| word >>> (32 - places)

def rotateRight (word : UInt32) (places : UInt32) : UInt32 :=
  word >>> places ||| word <<< (32 - places)

/-- The message, the bit 1, zeros, and the length in bits as the end of the last block of
64 bytes. -/
def pad (message : Bytes) (length : List UInt8) : Bytes :=
  let zeros := (119 - message.size % 64) % 64
  (message.push 0x80 ++ Array.replicate zeros (0 : UInt8)).appendList length

def wordLittleEndian (data : Bytes) (offset : Nat) : UInt32 :=
  (data.word32At? offset).getD 0

def wordBigEndian (data : Bytes) (offset : Nat) : UInt32 :=
  UInt32.ofNat (Bytes.ofLittleEndian (data.extract offset (offset + 4)).toList.reverse)

/-- The sixteen words of the block that starts at an offset. -/
def blockWords (word : Bytes → Nat → UInt32) (data : Bytes) (offset : Nat) : Array UInt32 :=
  Array.ofFn fun index : Fin 16 => word data (offset + 4 * index.val)

def bytesLittleEndian (words : List UInt32) : Bytes :=
  (words.flatMap fun word => Bytes.littleEndian 4 word.toNat).toArray

def bytesBigEndian (words : List UInt32) : Bytes :=
  (words.flatMap fun word => (Bytes.littleEndian 4 word.toNat).reverse).toArray

/-- What one digest does differently from another: the order of the bytes in a word and the
rounds that a block of sixteen words takes. -/
structure Scheme where
  State : Type
  initial : State
  bigEndian : Bool
  compress : Array UInt32 → State → State
  words : State → List UInt32

namespace Scheme

variable (scheme : Scheme)

def word : Bytes → Nat → UInt32 :=
  if scheme.bigEndian then wordBigEndian else wordLittleEndian

/-- The length of a message in bits. -/
def length (size : Nat) : List UInt8 :=
  let bits := Bytes.littleEndian 8 (size * 8)
  if scheme.bigEndian then bits.reverse else bits

def output (state : scheme.State) : Bytes :=
  let words := scheme.words state
  if scheme.bigEndian then bytesBigEndian words else bytesLittleEndian words

/-- A state runs through the whole blocks of the data. -/
def overBlocks (state : scheme.State) (data : Bytes) : scheme.State :=
  (List.range (data.size / 64)).foldl
    (fun state block => scheme.compress (blockWords scheme.word data (64 * block)) state) state

def hash (message : Bytes) : Bytes :=
  scheme.output (scheme.overBlocks scheme.initial (pad message (scheme.length message.size)))

end Scheme

/-- A digest of a message that comes in pieces. The bytes behind the last whole block wait for
the next piece. -/
structure Running (scheme : Scheme) where
  state : scheme.State := scheme.initial
  pending : Bytes := #[]
  size : Nat := 0

namespace Running

variable {scheme : Scheme} (running : Running scheme)

def absorb (piece : Bytes) : Running scheme :=
  let data := running.pending ++ piece
  { state := scheme.overBlocks running.state data
    pending := data.extract (64 * (data.size / 64)) data.size
    size := running.size + piece.size }

/-- The digest of the pieces so far, which can still be continued. -/
def finish : Bytes :=
  scheme.output (scheme.overBlocks running.state
    (pad running.pending (scheme.length running.size)))

end Running

end ClrDecompiler.Digest
