/-
This file finds the framework that an assembly is made for.
-/

import ClrDecompiler.Text.Blank
import ClrDecompiler.Text.Pieces

namespace ClrDecompiler.Metadata

inductive FrameworkFamily where
  | netCore
  | netFramework
  | netStandard
  deriving DecidableEq, Repr

structure TargetFramework where
  family : FrameworkFamily
  version : List Nat
  deriving DecidableEq, Repr

namespace TargetFramework

def familyOfName? : String → Option FrameworkFamily
  | ".NETCoreApp" => some .netCore
  | ".NETFramework" => some .netFramework
  | ".NETStandard" => some .netStandard
  | _ => none

/-- The value of the first part that gives a version, without the letters v before it. -/
def versionPart? (parts : List String) : Option String :=
  parts.findSome? fun part =>
    (Text.after? "Version=".toList (Text.trim part).toList).map fun text =>
      String.ofList (text.dropWhile (· == 'v'))

def versionNumbers? (text : String) : Option (List Nat) :=
  (Text.split '.' text).mapM (Text.number? UInt32.size)

/-- The value of an attribute that names the framework, such as
".NETCoreApp,Version=v6.0". -/
def ofAttribute? (value : String) : Option TargetFramework := do
  match Text.split ',' value with
  | [] => none
  | first :: parts =>
    let family ← familyOfName? (Text.trim first)
    let version ← versionNumbers? (← versionPart? parts)
    return { family, version }

/-- Without an attribute the version of the runtime tells the framework. -/
def ofRuntimeVersion (runtime : String) : TargetFramework :=
  match runtime.toList with
  | 'v' :: '4' :: _ => { family := .netFramework, version := [4, 0] }
  | 'v' :: '2' :: _ => { family := .netFramework, version := [2, 0] }
  | _ => { family := .netStandard, version := [2, 0] }

def major (framework : TargetFramework) : Nat :=
  framework.version.head?.getD 0

def minor (framework : TargetFramework) : Nat :=
  framework.version[1]?.getD 0

/-- The short name of the framework in a project file. -/
def moniker (framework : TargetFramework) : String :=
  let major := framework.major
  let minor := framework.minor
  match framework.family with
  | .netCore =>
    if 5 ≤ major then s!"net{major}.{minor}" else s!"netcoreapp{major}.{minor}"
  | .netStandard => s!"netstandard{major}.{minor}"
  | .netFramework =>
    let digits := framework.version.flatMap fun part => (toString part).toList
    let digits := Text.dropEndWhile (· == '0') digits
    if digits.length < 2 then s!"net{major}0" else "net" ++ String.ofList digits

end TargetFramework

def FrameworkFamily.name : FrameworkFamily → String
  | .netCore => "NetCore"
  | .netFramework => "NetFramework"
  | .netStandard => "NetStandard"

end ClrDecompiler.Metadata
