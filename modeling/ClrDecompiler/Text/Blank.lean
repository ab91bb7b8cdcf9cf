/-
This file removes the white space around a text.
-/

namespace ClrDecompiler.Text

/-- The characters with the Unicode property of white space. -/
def isBlank (c : Char) : Bool :=
  let value := c.toNat
  (0x09 ≤ value && value ≤ 0x0D) || value == 0x20 || value == 0x85 || value == 0xA0 ||
    value == 0x1680 || (0x2000 ≤ value && value ≤ 0x200A) || value == 0x2028 ||
    value == 0x2029 || value == 0x202F || value == 0x205F || value == 0x3000

def dropEndWhile (drops : Char → Bool) (text : List Char) : List Char :=
  (text.reverse.dropWhile drops).reverse

def trim (text : String) : String :=
  String.ofList (dropEndWhile isBlank (text.toList.dropWhile isBlank))

end ClrDecompiler.Text
