/-
This file writes XML elements, each on lines of its own.
-/

namespace ClrDecompiler.Project

/-- An element holds either text or other elements. -/
inductive Element where
  | leaf (name text : String)
  | group (name : String) (attributes : List (String × String)) (children : List Element)

namespace Element

def escapeChar (c : Char) : List Char :=
  match c with
  | '<' => "&lt;".toList
  | '>' => "&gt;".toList
  | '&' => "&amp;".toList
  | '\'' => "&apos;".toList
  | '"' => "&quot;".toList
  | _ => [c]

def escape (text : String) : String :=
  String.ofList (text.toList.flatMap escapeChar)

def openTag (name : String) (attributes : List (String × String)) : String :=
  let shown := attributes.map fun (key, value) => " " ++ key ++ "=\"" ++ escape value ++ "\""
  "<" ++ name ++ String.join shown ++ ">"

def closeTag (name : String) : String :=
  "</" ++ name ++ ">"

def indent (line : String) : String :=
  "  " ++ line

mutual

/-- Children are indented. -/
def lines : Element → List String
  | .leaf name text => [openTag name [] ++ escape text ++ closeTag name]
  | .group name attributes children =>
    openTag name attributes :: (linesOfAll children).map indent ++ [closeTag name]

def linesOfAll : List Element → List String
  | [] => []
  | first :: rest => lines first ++ linesOfAll rest

end

def text (element : Element) : String :=
  String.join (element.lines.map (· ++ "\n"))

end Element

end ClrDecompiler.Project
