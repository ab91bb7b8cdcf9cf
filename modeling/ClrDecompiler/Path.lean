/-
This file takes file paths apart and puts them together without looking at the file
system.
-/

import ClrDecompiler.Text.Pieces

namespace ClrDecompiler.Path

/-- The parts of a path. A point only counts at the start of a relative path. -/
inductive Component where
  | root
  | current
  | parent
  | normal (name : String)
  deriving DecidableEq, Repr

def isRooted (path : String) : Bool :=
  path.toList.head? == some '/'

/-- The text between separators, without the separator that makes the path absolute. -/
def segments (path : String) : List String :=
  match path.toList with
  | '/' :: rest => (Text.pieces (· == '/') rest).map String.ofList
  | all => (Text.pieces (· == '/') all).map String.ofList

/-- A segment that adds nothing to the path. -/
def isVoid (segment : String) : Bool :=
  segment.isEmpty || segment == "."

def ofSegment (segment : String) : Component :=
  if segment == ".." then .parent else .normal segment

def components (path : String) : List Component :=
  let named := (segments path).filter (!isVoid ·) |>.map ofSegment
  if isRooted path then .root :: named
  else if (segments path).head? == some "." then .current :: named
  else named

/-- The last component, if it is a name. -/
def fileName? (path : String) : Option String :=
  match (components path).getLast? with
  | some (.normal name) => some name
  | _ => none

/-- A file name up to and after its last point. A point at its start does not count. -/
def splitExtension (name : String) : String × Option String :=
  match Text.splitLast? (· == '.') name.toList with
  | some (base, extension) =>
    if base.isEmpty then (name, none) else (String.ofList base, some (String.ofList extension))
  | none => (name, none)

def fileStem? (path : String) : Option String :=
  (fileName? path).map fun name => (splitExtension name).1

/-- The segments up to the last that counts, in reverse order. A leading point counts. -/
def significantReversed (path : String) : List String :=
  let rec drop : List String → List String
    | [] => []
    | [segment] =>
      if segment.isEmpty || (isRooted path && segment == ".") then [] else [segment]
    | segment :: rest => if isVoid segment then drop rest else segment :: rest
  drop (segments path).reverse

def ofSegments (rooted : Bool) (segments : List String) : String :=
  (if rooted then "/" else "") ++ "/".intercalate segments

/-- The path without its last component. -/
def parent? (path : String) : Option String :=
  match significantReversed path with
  | [] => none
  | _ :: rest =>
    let shorter := ofSegments (isRooted path) rest.reverse
    some (ofSegments (isRooted path) (significantReversed shorter).reverse)

def join (base path : String) : String :=
  if isRooted path then path
  else if base.isEmpty || base.toList.getLast? == some '/' then base ++ path
  else base ++ "/" ++ path

/-- Without its old extension, a name of two points at the very end of a path means the parent
directory, which takes no extension. -/
def leavesParent (path name : String) : Bool :=
  (splitExtension name).1 == "." && (segments path).getLast? == some name

/-- A path without a file name is left as it is. -/
def withExtension (path extension : String) : String :=
  match fileName? path, significantReversed path with
  | some name, _ :: rest =>
    let changed :=
      if leavesParent path name then ".." else (splitExtension name).1 ++ "." ++ extension
    ofSegments (isRooted path) (changed :: rest).reverse
  | _, _ => path

/-- Components as a path of their own. -/
def ofComponents (components : List Component) : String :=
  components.foldl (fun path component => join path (match component with
    | .root => "/"
    | .current => "."
    | .parent => ".."
    | .normal name => name)) ""

/-- The components of a path from the root on. An empty path has no place. -/
def absolute? (current path : String) : Option (List Component) :=
  if path.isEmpty then none
  else if isRooted path then some (components path)
  else some (components current ++ (components path).filter (· != .current))

/-- The number of components at which two paths agree. -/
def commonLength : List Component → List Component → Nat
  | first :: firstRest, second :: secondRest =>
    if first = second then commonLength firstRest secondRest + 1 else 0
  | _, _ => 0

/-- The way from a directory to a path, up to where they agree and down again. -/
def relative (current base path : String) : String :=
  match absolute? current base, absolute? current path with
  | some base, some target =>
    let common := commonLength base target
    ofComponents (List.replicate (base.length - common) .parent ++ target.drop common)
  | _, _ => path

end ClrDecompiler.Path
