import Overlay.Header.Line
import Overlay.Program.Declaration
import Overlay.Report.Diagnostic
import Overlay.Trail

/-! The lines of a header for each declaration. A free function and a member that is not virtual become a
    function that calls its address, with the instance as first argument for members that need one; a
    virtual function becomes a pure virtual declaration, a field a field, and a free variable a reference
    to its address. Pads are private, and a label stands before each run of members with one access. -/

namespace Overlay

/-! ### Faults -/

/-- Why a declaration or an include has no lines. --/
inductive RenderFault where
  | unboundField (name : String) (line : Int)
  | unboundGlobal (name : String) (line : Int)
  | unboundFunction (name : String) (line : Int)
  | unexpectedMember (className label : String)
  | unexpectedDeclaration (label : String)
  | tooManyDigits
  | missingInclude
deriving DecidableEq, Repr

/-- The diagnostic for a fault. Numbers with too many digits and missing includes are no diagnostics. --/
def RenderFault.diagnostic? : RenderFault → Option Diagnostic
  | .unboundField name line =>
    some ⟨.internal, s!"field '{name}' reached the emitter without an offset", some line⟩
  | .unboundGlobal name line =>
    some ⟨.internal, s!"global '{name}' reached the emitter without an address", some line⟩
  | .unboundFunction name line =>
    some ⟨.internal, s!"function '{name}' reached the emitter without an address", some line⟩
  | .unexpectedMember className label => some ⟨.internal, s!"unexpected member of {className}: {label}", none⟩
  | .unexpectedDeclaration label => some ⟨.internal, s!"unexpected declaration: {label}", none⟩
  | .tooManyDigits | .missingInclude => none

/-- Lines, up to the first declaration or include that has none. --/
abbrev Rendering := Trail RenderFault HeaderLine

namespace Header

/-! ### Functions -/

/-- Parameters as they are declared. --/
def parameterList (parameters : List Parameter) : String :=
  String.intercalate ", " (parameters.map fun p => s!"{p.type} {p.name}")

/-- The type of a pointer to a function with these parameters. --/
def pointerType (f : Function) (parameters : List Parameter) : String :=
  let convention := if f.callingConvention.isEmpty then "" else s!"{f.callingConvention} "
  let types := String.intercalate ", " (parameters.map (·.type))
  s!"{f.returnType}({convention}*)({types})"

/-- What a function passes to its address: its own parameters, after the instance for a member that has
    one. --/
def passed (style : Style) (isMember : Bool) (f : Function) : List Parameter :=
  if isMember && !f.isStatic then ⟨style.instanceName, style.instanceType⟩ :: f.parameters else f.parameters

/-- A function that calls the address `address`. --/
def trampolineLines (style : Style) (depth : Nat) (isMember : Bool) (f : Function) (address : Nat) :
    List HeaderLine :=
  let specifier := if isMember && f.isStatic then "static inline" else "inline"
  let parameters := passed style isMember f
  let arguments := String.intercalate ", " (parameters.map (·.name))
  [.code depth s!"{specifier} {f.returnType} {f.name}({parameterList f.parameters})",
   .code depth "\x7b",
   .code (depth + 1) s!"using Func_t = {pointerType f parameters};",
   .code (depth + 1) s!"auto f = reinterpret_cast<Func_t>({Hexadecimal.address address});",
   .code (depth + 1) s!"return f({arguments});",
   .code depth "\x7d",
   .blank]

/-- A function that calls its address. --/
def trampoline (style : Style) (depth : Nat) (isMember : Bool) (f : Function) : Rendering :=
  match f.address with
  | some address => .whole (trampolineLines style depth isMember f address)
  | none => .stop (.unboundFunction f.name f.line)

/-- A virtual function. --/
def virtualLine (f : Function) : HeaderLine :=
  .code 1 s!"virtual {f.returnType} {f.name}({parameterList f.parameters}) = 0;"

/-! ### Variables -/

/-- A field, with its offset in a comment. --/
def field (style : Style) (v : Variable) : Rendering :=
  match v.offset, v.declarator? style.digitLimit with
  | some offset, some declarator =>
    .whole [.code 1 s!"{v.type} {declarator}; // offset {Hexadecimal.address offset}"]
  | some _, none => .stop .tooManyDigits
  | none, _ => .stop (.unboundField v.name v.line)

/-- A reference to the address of a free variable. --/
def global (v : Variable) : Rendering :=
  match v.offset with
  | some address =>
    .whole [.code 0 s!"inline {v.type}& {v.name} = *({v.type}*){Hexadecimal.address address};", .blank]
  | none => .stop (.unboundGlobal v.name v.line)

/-! ### Classes -/

/-- The label before a member, unless its region is already open. --/
def labelLines (isOpen isPublic : Bool) : List HeaderLine :=
  if isOpen == isPublic then [] else [.access isPublic]

/-- The region that is open after a member; `isOpen` says whether the one before it is public. Raw blocks
    stay in the region that is open. --/
def accessAfter (isOpen : Bool) : Declaration → Bool
  | .ofVariable v => v.isPublic
  | .ofFunction f => f.isPublic
  | _ => isOpen

/-- A member, without a label. --/
def member (style : Style) (className : String) : Declaration → Rendering
  | .ofVariable v => field style v
  | .ofFunction f => if f.isVirtual then .whole [virtualLine f] else trampoline style 1 true f
  | .ofRawBlock r => .whole [.raw r.code]
  | d => .stop (.unexpectedMember className d.label)

/-- Members with labels, after a member in a region that is public or not. --/
def members (style : Style) (className : String) : Bool → List Declaration → Rendering
  | _, [] => .whole []
  | isOpen, d :: rest =>
    let isPublic := accessAfter isOpen d
    Trail.whole (labelLines isOpen isPublic) ++ member style className d
      ++ members style className isPublic rest

/-- The first line of a class. --/
def classHead (c : Class) : String :=
  if c.bases.isEmpty then s!"class {c.name}"
  else s!"class {c.name} : " ++ String.intercalate ", " (c.bases.map ("public " ++ ·))

/-- The lines of a class before its members. --/
def classOpening (style : Style) (c : Class) : List HeaderLine :=
  (style.packOpening ++ [classHead c, "\x7b"]).map (.code 0) ++ [.access true]

/-- The lines of a class after its members; `size` is the size to assert. --/
def classClosing (style : Style) (size : Option Int) (c : Class) : List HeaderLine :=
  .code 0 "\x7d;" :: (size.map (.assertion c.name)).toList ++ style.packClosing.map (.code 0) ++ [.blank]

/-- A class; `size` is the size to assert. --/
def classLines (style : Style) (size : Option Int) (c : Class) : Rendering :=
  Trail.whole (classOpening style c) ++ members style c.name true c.members
    ++ Trail.whole (classClosing style size c)

/-! ### Declarations -/

/-- A declaration; `sizeOf?` gives the size to assert of a class. --/
def declaration (style : Style) (sizeOf? : String → Option Int) : Declaration → Rendering
  | .ofClass c => classLines style (sizeOf? c.name) c
  | .ofFunction f => trampoline style 0 false f
  | .ofVariable v => global v
  | .ofRawBlock r => .whole [.raw r.code]
  | d => .stop (.unexpectedDeclaration d.label)

/-- The line that includes another header: one in angle brackets as it is, others in double quotes. --/
def includeLine : Include → Rendering
  | .path text => .whole [.code 0 (if text.startsWith "<" then s!"#include {text}" else s!"#include \"{text}\"")]
  | .missing => .stop .missingInclude

/-- The line that announces a class. --/
def classLine (name : String) : HeaderLine := .code 0 s!"class {name};"

/-- The empty line after a group of lines, if there is something in the group. --/
def blankAfter {α : Type} (group : List α) : List HeaderLine := if group.isEmpty then [] else [.blank]

/-- The lines before the first declaration: the fixed ones, the includes and the names of all classes. --/
def opening (style : Style) (includes : List Include) (classNames : List String) : Rendering :=
  Trail.whole [.code 0 style.banner, .code 0 style.includeGuard, .blank]
    ++ Trail.concatMap includeLine includes
    ++ Trail.whole (blankAfter includes ++ classNames.map classLine ++ blankAfter classNames)

end Header
end Overlay
