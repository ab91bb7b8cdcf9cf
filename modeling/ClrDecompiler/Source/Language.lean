/-
This file lists the versions of the C# language.
-/

import ClrDecompiler.Text.Pieces

namespace ClrDecompiler.Source

/-- The versions in the order of their age. The last one stands for the newest there is. -/
inductive Language where
  | version1
  | version2
  | version3
  | version4
  | version5
  | version6
  | version7
  | version7m1
  | version7m2
  | version7m3
  | version8
  | version9
  | version10
  | version11
  | version12
  | preview
  | latest
  deriving DecidableEq, Repr, Inhabited

namespace Language

def all : List Language :=
  [.version1, .version2, .version3, .version4, .version5, .version6, .version7, .version7m1,
    .version7m2, .version7m3, .version8, .version9, .version10, .version11, .version12,
    .preview, .latest]

def name : Language → String
  | .version1 => "CSharp1"
  | .version2 => "CSharp2"
  | .version3 => "CSharp3"
  | .version4 => "CSharp4"
  | .version5 => "CSharp5"
  | .version6 => "CSharp6"
  | .version7 => "CSharp7"
  | .version7m1 => "CSharp7_1"
  | .version7m2 => "CSharp7_2"
  | .version7m3 => "CSharp7_3"
  | .version8 => "CSharp8_0"
  | .version9 => "CSharp9_0"
  | .version10 => "CSharp10_0"
  | .version11 => "CSharp11_0"
  | .version12 => "CSharp12_0"
  | .preview => "Preview"
  | .latest => "Latest"

/-- The name of a version in project files. -/
def projectName : Language → String
  | .version1 => "1"
  | .version2 => "2"
  | .version3 => "3"
  | .version4 => "4"
  | .version5 => "5"
  | .version6 => "6"
  | .version7 => "7"
  | .version7m1 => "7.1"
  | .version7m2 => "7.2"
  | .version7m3 => "7.3"
  | .version8 => "8.0"
  | .version9 => "9.0"
  | .version10 => "10.0"
  | .version11 => "11.0"
  | .version12 => "12.0"
  | .preview => "preview"
  | .latest => "latest"

/-- The names under which a user selects a version. -/
def names : Language → List String
  | .version7 => ["CSharp7_0", "CSharp7"]
  | language => [language.name]

def ofText? (text : String) : Option Language :=
  all.find? fun language =>
    language.names.any fun name => Text.asciiLower name == Text.asciiLower text

def position (language : Language) : Nat :=
  all.idxOf language

/-- The first version had neither generic types nor static classes. -/
def hasStaticClasses (language : Language) : Bool :=
  language != .version1

end Language

end ClrDecompiler.Source
