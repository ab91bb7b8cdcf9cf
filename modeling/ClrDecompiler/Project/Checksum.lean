/-
This file computes a checksum over the files of a project, in their order.
-/

import ClrDecompiler.Bytes.Basic
import ClrDecompiler.Digest.Md5
import ClrDecompiler.Digest.Sha1
import ClrDecompiler.Digest.Sha256
import ClrDecompiler.Text.Hex
import ClrDecompiler.Text.Pieces
import ClrDecompiler.Text.Utf8

namespace ClrDecompiler.Project

inductive Algorithm where
  | sha256
  | sha1
  | md5
  deriving DecidableEq, Repr, Inhabited

namespace Algorithm

def all : List Algorithm :=
  [.sha256, .sha1, .md5]

def name : Algorithm → String
  | .sha256 => "sha256"
  | .sha1 => "sha1"
  | .md5 => "md5"

def ofText? (text : String) : Option Algorithm :=
  all.find? fun algorithm => algorithm.name == Text.asciiLower text

def scheme : Algorithm → Digest.Scheme
  | .sha256 => Digest.Sha256.scheme
  | .sha1 => Digest.Sha1.scheme
  | .md5 => Digest.Md5.scheme

end Algorithm

/-- A digest in upper-case digits. -/
def digestText (digest : Bytes) : String :=
  String.join (digest.toList.map fun byte => Hex.upper 2 byte.toNat)

/-- The digest of data in upper-case digits. -/
def Algorithm.hashText (algorithm : Algorithm) (data : Bytes) : String :=
  digestText (algorithm.scheme.hash data)

/-- An algorithm, the named data that it is applied to and the digest of the data so far. -/
structure Checksum where
  algorithm : Algorithm
  entries : List (String × Bytes) := []
  running : Digest.Running algorithm.scheme := {}

namespace Checksum

/-- The name up to a zero byte, the size and the data of an entry. -/
def pieces (name : String) (data : Bytes) : List Bytes :=
  [Utf8.encode name, #[0], (Bytes.littleEndian 8 data.size).toArray, data]

def add (checksum : Checksum) (name : String) (data : Bytes) : Checksum :=
  { checksum with
    entries := checksum.entries ++ [(name, data)]
    running := (pieces name data).foldl Digest.Running.absorb checksum.running }

def total (checksum : Checksum) : String :=
  digestText checksum.running.finish

/-- A line for every entry with the digest of its data. -/
def openLog (checksum : Checksum) : String :=
  let lines := ["algorithm: " ++ checksum.algorithm.name] ++
    checksum.entries.map fun (name, data) => name ++ ": " ++ checksum.algorithm.hashText data
  String.join (lines.map (· ++ "\n"))

/-- The total stands at the end of a complete log. -/
def log (checksum : Checksum) : String :=
  checksum.openLog ++ s!"total ({checksum.entries.length} entries): {checksum.total}\n"

end Checksum

end ClrDecompiler.Project
