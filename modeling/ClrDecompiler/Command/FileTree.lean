/-
This file holds a machine in memory: a tree of files, variables and the text on the
console.
-/

import ClrDecompiler.Command.Host

namespace ClrDecompiler.Command

inductive Entry where
  | file (data : Bytes)
  | directory
  deriving DecidableEq, Repr

/-- Files and directories by the names on the way from the root. The root is always there. -/
structure FileTree where
  entries : List (List String × Entry)

namespace FileTree

def entry? (tree : FileTree) (place : List String) : Option Entry :=
  if place.isEmpty then some .directory else tree.entries.lookup place

/-- A later entry takes the place of an earlier one. -/
def insert (tree : FileTree) (place : List String) (entry : Entry) : FileTree :=
  ⟨tree.entries.filter (·.1 != place) ++ [(place, entry)]⟩

/-- Puts an entry into a tree with the directories around it. A directory that is there
already is kept. -/
def plant (tree : FileTree) (place : List String) (entry : Entry) : FileTree :=
  let around := (List.range place.length).map place.take
  let grown := around.foldl (fun tree place =>
    if (tree.entry? place).isNone then tree.insert place .directory else tree) tree
  if entry == .directory && (grown.entry? place).isSome then grown else grown.insert place entry

/-- The entries below a place that were not there or were different before. -/
def changesBelow (tree before : FileTree) (place : List String) : List (List String × Entry) :=
  tree.entries.filterMap fun (inner, entry) =>
    if place.isPrefixOf inner && before.entry? inner != some entry then
      some (inner.drop place.length, entry)
    else none

/-- Follows the segments of a path from a place on. Every segment needs a directory to start
from, also one that stays there. -/
def walk (tree : FileTree) : List String → List String → Except FileFailure (List String)
  | place, [] => .ok place
  | place, segment :: rest =>
    match tree.entry? place with
    | none => .error .notFound
    | some (.file _) => .error .notDirectory
    | some .directory =>
      if Path.isVoid segment then walk tree place rest
      else if segment == ".." then walk tree place.dropLast rest
      else walk tree (place ++ [segment]) rest

/-- The place of a path, whether there is anything or not. -/
def place (tree : FileTree) (current : List String) (path : String) :
    Except FileFailure (List String) :=
  if path.isEmpty then .error .notFound
  else tree.walk (if Path.isRooted path then [] else current) (Path.segments path)

def find (tree : FileTree) (current : List String) (path : String) :
    Except FileFailure (List String × Entry) := do
  let place ← tree.place current path
  match tree.entry? place with
  | some entry => return (place, entry)
  | none => throw .notFound

/-- A place for a new entry needs a directory around it. -/
def room (tree : FileTree) (current : List String) (path : String) :
    Except FileFailure (List String) := do
  let place ← tree.place current path
  match tree.entry? place.dropLast with
  | some .directory => return place
  | some (.file _) => throw .notDirectory
  | none => throw .notFound

end FileTree

structure Machine where
  tree : FileTree
  current : List String
  environment : List (String × String) := []
  console : String := ""

namespace Machine

def read (machine : Machine) (path : String) : Except FileFailure Bytes := do
  match ← machine.tree.find machine.current path with
  | (_, .file data) => return data
  | (_, .directory) => throw .isDirectory

def write (machine : Machine) (path : String) (data : Bytes) : Except FileFailure Machine := do
  let place ← machine.tree.room machine.current path
  match machine.tree.entry? place with
  | some .directory => throw .isDirectory
  | _ => return { machine with tree := machine.tree.insert place (.file data) }

def makeDirectory (machine : Machine) (path : String) : Except FileFailure Machine := do
  let place ← machine.tree.room machine.current path
  match machine.tree.entry? place with
  | some _ => throw .exists
  | none => return { machine with tree := machine.tree.insert place .directory }

def kind? (machine : Machine) (path : String) : Option FileKind :=
  match machine.tree.find machine.current path with
  | .ok (_, .file _) => some .file
  | .ok (_, .directory) => some .directory
  | .error _ => none

/-- The names of what lies directly in a directory. -/
def entries? (machine : Machine) (path : String) : Option (List String) :=
  match machine.tree.find machine.current path with
  | .ok (place, .directory) => some (machine.tree.entries.filterMap fun (inner, _) =>
      if inner.dropLast = place then inner.getLast? else none)
  | _ => none

/-- The outcome of a change that leaves the machine as it is if it fails. -/
def change (step : Machine → Except FileFailure Machine) :
    StateM Machine (Except FileFailure Unit) := do
  match step (← get) with
  | .ok machine =>
    set machine
    return .ok ()
  | .error failure => return .error failure

end Machine

/-- Time stands still on a machine in memory. -/
instance : Host (StateM Machine) where
  kind? path := return (← get).kind? path
  read path := return (← get).read path
  write path data := Machine.change (·.write path data)
  makeDirectory path := Machine.change (·.makeDirectory path)
  entries? path := return (← get).entries? path
  currentDirectory := return "/" ++ "/".intercalate (← get).current
  environment? name := return (← get).environment.lookup name
  print text := modify fun machine => { machine with console := machine.console ++ text }
  elapsed := return 0

end ClrDecompiler.Command
