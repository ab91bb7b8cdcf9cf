/-
This file handles the names of types: the arity of generic types and the names by which a
user asks for a type.
-/

import ClrDecompiler.Text.Blank
import ClrDecompiler.Text.Pieces

namespace ClrDecompiler.Metadata

/-- The character between a name and the number of its type parameters. -/
def arityMark : Char :=
  Char.ofNat 96

/-- The name without the number of type parameters at its end. -/
def stripArityChars (name : List Char) : List Char :=
  match Text.splitLast? (· == arityMark) name with
  | some (base, arity) =>
    if !arity.isEmpty && arity.all Text.isAsciiDigit then base else name
  | none => name

def stripArity (name : String) : String :=
  String.ofList (stripArityChars name.toList)

/-- The name that stands for a type in the assembly, outside its enclosing types. -/
def qualifiedName (namespaceName name : String) : String :=
  if namespaceName.isEmpty then name else namespaceName ++ "." ++ name

/-- A name by which a user asks for a type, without the blanks around it. -/
structure TypeQuery where
  text : String
  deriving DecidableEq, Repr

namespace TypeQuery

def ofText (name : String) : TypeQuery :=
  ⟨Text.trim name⟩

/-- The marks of nesting are as good as points. -/
def pointed (name : String) : String :=
  Text.replace (fun c => c == '+' || c == '/') '.' name

def stripArities (name : String) : String :=
  "+".intercalate ((Text.split '+' name).map stripArity)

/-- A type is found by its whole name or by its name without the arities. -/
def accepts (query : TypeQuery) (name : String) : Bool :=
  pointed query.text == pointed name || pointed query.text == pointed (stripArities name)

end TypeQuery

inductive TypeKind where
  | classType
  | interface
  | struct
  | delegate
  | enum
  deriving DecidableEq, Repr

namespace TypeKind

def name : TypeKind → String
  | .classType => "Class"
  | .interface => "Interface"
  | .struct => "Struct"
  | .delegate => "Delegate"
  | .enum => "Enum"

/-- The kind follows from the flag of interfaces and from the base type. The base of all
enumerations is a class although it is derived from the base of the structures. -/
def classify (flags : UInt32) (fullName : String) (baseName : Option String) : TypeKind :=
  if flags &&& 0x20 ≠ 0 then .interface
  else match baseName with
    | some "System.Enum" => .enum
    | some "System.ValueType" => if fullName == "System.Enum" then .classType else .struct
    | some "System.MulticastDelegate" => .delegate
    | _ => .classType

end TypeKind

end ClrDecompiler.Metadata
