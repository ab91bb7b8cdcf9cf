/-
This file lists methods with their code.
-/

import ClrDecompiler.Listing.Instruction
import ClrDecompiler.Listing.Output
import ClrDecompiler.Source.Member
import ClrDecompiler.Symbols.DebugInfo

namespace ClrDecompiler.Listing

open Metadata Signature Source Symbols

/-- What is listed beside the module: symbols whose sequence points are shown, and whether
the work was cancelled before it began. -/
structure Options where
  symbols : Option DebugInfo := none
  cancelled : Bool := false

/-- Nothing is listed of a name that never comes to an end, and nothing after it. -/
def namesOutput (module : Module) (tokens : List Token) : Output :=
  Output.ofCheck (module.checkNames tokens)

def accessWord : Access → String
  | .everyone => "public"
  | .ownType => "private"
  | .family => "family"
  | .assembly => "assembly"
  | .familyAndAssembly => "famandassem"
  | .familyOrAssembly => "famorassem"
  | .compilerControlled => "privatescope"

/-- The words of the flags that are set. -/
def flagWords (flags : UInt16) (named : List (UInt16 × String)) : List String :=
  (named.filter fun (flag, _) => hasFlag flags flag).map (·.2)

def genericText (names : List String) : String :=
  if names.isEmpty then "" else "<" ++ ", ".intercalate names ++ ">"

def methodFlagWords : List (UInt16 × String) := [
  (MethodFlags.final, "final"), (MethodFlags.hideBySignature, "hidebysig"),
  (MethodFlags.specialName, "specialname"), (MethodFlags.runtimeSpecialName, "rtspecialname"),
  (MethodFlags.newSlot, "newslot"), (MethodFlags.abstract, "abstract"),
  (MethodFlags.strict, "strict"), (MethodFlags.virtual, "virtual"),
  (MethodFlags.static, "static"), (MethodFlags.foreign, "pinvokeimpl")]

def implementationWords : List (UInt16 × String) := [
  (ImplementationFlags.internalCall, "internalcall"),
  (ImplementationFlags.preserveSignature, "preservesig"),
  (ImplementationFlags.synchronized, "synchronized"),
  (ImplementationFlags.noInlining, "noinlining")]

/-- Who runs the code of a method. -/
def codeWords (implementation : UInt16) : String :=
  if hasFlag implementation ImplementationFlags.runtime then "runtime managed"
  else if hasFlag implementation ImplementationFlags.native then "native unmanaged"
  else "cil managed"

def paramText (speller : Module.Speller) (method : MethodDefinition) (index : Nat)
    (param : Parameter TypeSig) : String :=
  words (wordsIf (method.isOutParam index) ["[out]"] ++
    [speller.parameter param, method.paramName index])

def methodHeader (module : Module) (definition : TypeDefinition) (method : MethodDefinition) :
    String :=
  let speller := module.speller .listing (Module.GenericNames.ofMethod definition method)
  let params := method.signature.params.mapIdx (paramText speller method)
  words ([".method", accessWord (Access.ofFlags method.flags)] ++
    flagWords method.flags methodFlagWords ++
    wordsIf method.signature.hasThis ["instance"] ++ wordsIf method.signature.vararg ["vararg"] ++
    [speller.parameter method.signature.returns, method.name ++ genericText method.genericParams,
      "(" ++ ", ".intercalate params ++ ")", codeWords method.implementation] ++
    flagWords method.implementation implementationWords)

def localLines (module : Module) (names : Module.GenericNames) (body : Cil.MethodBody) :
    List Line :=
  match module.locals? ⟨body.localsToken⟩ with
  | none => []
  | some locals =>
    let texts := locals.mapIdx fun index type =>
      "\t[" ++ toString index ++ "] " ++ spell module names type
    (words ([".locals"] ++ wordsIf body.initLocals ["init"] ++ ["("]) ::
      texts.dropLast.map (· ++ ",") ++ texts.getLast?.toList ++ [")"]).map Line.plain

def localTokens (module : Module) (body : Cil.MethodBody) : List Token :=
  ((module.locals? ⟨body.localsToken⟩).getD []).flatMap TypeSig.tokens

def pointText (symbols : DebugInfo) (point : SequencePoint) : String :=
  if point.isHidden then "// sequence point: hidden"
  else
    let name := (symbols.documentName? point.document).getD "?"
    s!"// sequence point: (line {point.startLine}, col {point.startColumn}) " ++
      s!"to (line {point.endLine}, col {point.endColumn}) in {name}"

/-- The sequence points at the offset of an instruction. -/
def pointLines (options : Options) (method : MethodDefinition) (offset : Nat) : List Line :=
  match options.symbols with
  | none => []
  | some symbols =>
    ((symbols.pointsOf method.token).filter (·.offset == offset)).map fun point =>
      Line.plain (pointText symbols point)

def instructionLines (module : Module) (options : Options) (definition : TypeDefinition)
    (method : MethodDefinition) (instruction : Cil.Instruction) : List Line :=
  pointLines options method instruction.offset ++
    [Line.plain (instructionText module definition method instruction)]

def clauseText (module : Module) (names : Module.GenericNames) (clause : Cil.ExceptionClause) :
    String :=
  match clause.kind with
  | .catchHandler => "catch " ++ module.tokenName .listing names ⟨clause.classOrFilter⟩
  | .filter => "filter " ++ Cil.label clause.classOrFilter.toNat
  | kind => kind.name

def clauseTokens (clause : Cil.ExceptionClause) : List Token :=
  match clause.kind with
  | .catchHandler => [⟨clause.classOrFilter⟩]
  | _ => []

/-- The ranges of a clause from their first offsets to the offsets after them. The program adds
these with 32 bits, and a sum that they do not hold has no defined text there. -/
def clauseLine (module : Module) (names : Module.GenericNames) (clause : Cil.ExceptionClause) :
    Line :=
  let range (offset length : UInt32) : String :=
    Cil.label offset.toNat ++ " to " ++ Cil.label (offset.toNat + length.toNat)
  Line.plain (words [".try", range clause.tryOffset clause.tryLength,
    clauseText module names clause, "handler", range clause.handlerOffset clause.handlerLength])

/-- The tokens that are spelled in the code of a method and in its clauses. -/
def codeTokens (module : Module) (body : Cil.MethodBody) (instructions : List Cil.Instruction) :
    List Token :=
  instructions.flatMap (operandTokens module) ++ body.clauses.flatMap clauseTokens

/-- The lines of a body. Code that cannot be decoded ends the listing. -/
def bodyOutput (module : Module) (options : Options) (definition : TypeDefinition)
    (method : MethodDefinition) (body : Cil.MethodBody) : Output :=
  let names := Module.GenericNames.ofMethod definition method
  let size := body.code.size
  let head := [
    "// Method begins at RVA 0x" ++ Hex.lower 1 method.address.toNat,
    "// Code size " ++ toString size ++ " (0x" ++ Hex.lower 1 size ++ ")",
    ".maxstack " ++ toString body.maxStack]
  namesOutput module (localTokens module body) ++
    Output.ofLines (head.map Line.plain ++ localLines module names body ++ [Line.blank]) ++
    match Cil.decode body.code with
    | .error fault => Output.failed fault
    | .ok instructions =>
      namesOutput module (codeTokens module body instructions) ++ Output.ofLines (
        instructions.flatMap (instructionLines module options definition method) ++
        body.clauses.map (clauseLine module names))

def methodOutput (module : Module) (options : Options) (definition : TypeDefinition)
    (method : MethodDefinition) : Output :=
  if options.cancelled then Output.failed .cancelled
  else
    let entry := wordsIf (module.entryPoint == some method.token) [".entrypoint"]
    let body := match method.body with
      | some body => bodyOutput module options definition method body
      | none => Output.ofLines []
    namesOutput module method.signature.tokens ++
      Output.ofLines [Line.declaring method.token (methodHeader module definition method),
        Line.plain "\x7b"] ++
      (Output.ofLines (entry.map Line.plain) ++ body).indent ++
      Output.ofLines [Line.plain
        ("\x7d // end of method " ++ definition.displayName ++ "::" ++ method.name)]

end ClrDecompiler.Listing
