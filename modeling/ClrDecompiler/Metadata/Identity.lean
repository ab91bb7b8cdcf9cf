/-
This file identifies assemblies by name, version, culture and public key token.
-/

import ClrDecompiler.Digest.Sha1
import ClrDecompiler.Metadata.Row
import ClrDecompiler.Text.Pieces

namespace ClrDecompiler.Metadata

def Version.text (version : Version) : String :=
  s!"{version.major}.{version.minor}.{version.build}.{version.revision}"

structure AssemblyIdentity where
  name : String
  version : Version
  culture : Option String
  keyToken : Option Bytes
  deriving DecidableEq, Repr

namespace AssemblyIdentity

/-- The last eight bytes of the digest of a public key, in reverse order. -/
def tokenOfKey (key : Bytes) : Bytes :=
  (Digest.Sha1.hash key).reverse.extract 0 8

/-- A blob of eight bytes is the token itself unless the flags say that it is a key. -/
def keyToken? (flags : UInt32) (key : Bytes) : Option Bytes :=
  if key.isEmpty then none
  else if flags &&& 1 ≠ 0 ∨ key.size ≠ 8 then some (tokenOfKey key)
  else some key

/-- The neutral culture is the same as none. -/
def ofRow (name : String) (version : Version) (culture : String) (flags : UInt32)
    (key : Bytes) : AssemblyIdentity where
  name
  version
  culture := if culture.isEmpty || Text.asciiLower culture == "neutral" then none else some culture
  keyToken := keyToken? flags key

def tokenText (identity : AssemblyIdentity) : String :=
  identity.keyToken.elim "null" Hex.ofBytes

def text (identity : AssemblyIdentity) : String :=
  let culture := identity.culture.getD "neutral"
  let version := identity.version.text
  s!"{identity.name}, Version={version}, Culture={culture}, PublicKeyToken={identity.tokenText}"

end AssemblyIdentity

end ClrDecompiler.Metadata
