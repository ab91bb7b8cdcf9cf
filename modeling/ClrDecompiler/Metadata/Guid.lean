/-
This file writes globally unique identifiers as text.
-/

import ClrDecompiler.Bytes.Basic
import ClrDecompiler.Text.Hex

namespace ClrDecompiler.Metadata.Guid

/-- Sixteen bytes as five groups of digits. The bytes of the first three groups are stored
least significant first. -/
def text (bytes : Bytes) : String :=
  let group (start stop : Nat) : Array UInt8 := bytes.extract start stop
  "-".intercalate [
    Hex.ofBytes (group 0 4).reverse, Hex.ofBytes (group 4 6).reverse,
    Hex.ofBytes (group 6 8).reverse, Hex.ofBytes (group 8 10), Hex.ofBytes (group 10 16)]

end ClrDecompiler.Metadata.Guid
