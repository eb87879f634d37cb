import Overlay.Header.Header

/-! Writing a header with a pen. The pen stands behind some indents and in a region of access, and moves as it writes:
    a label goes one indent to the left of the members, and the body of a class begins outside of any region. It asks a
    table for the sizes of classes, which remembers them. What is written before a fault stays written. -/

namespace Overlay

/-- A pen: the lines that it has written, the indents before the next one, whether it is in a public region, and the
    sizes that it asks for. --/
structure Pen where
  lines : List String
  depth : Int
  isPublic : Bool
  sizes : SizeTable

/-- Writing with a pen, up to a fault. --/
abbrev Writing := EStateM RenderFault Pen

namespace Pen

/-- Before the first line. --/
def new (sizes : SizeTable) : Pen := ⟨[], 0, true, sizes⟩

/-- What is written, each line with a line feed at its end. --/
def text (pen : Pen) : String := String.intercalate "\n" pen.lines ++ "\n"

/-! ### Strokes -/

/-- Writes a line behind the indents; an empty one stays empty. --/
def line (style : Style) (text : String) : Writing Unit :=
  modify fun pen => { pen with lines := pen.lines ++ [style.indented pen.depth.toNat text] }

/-- Writes raw code as it is. --/
def verbatim (code : String) : Writing Unit := modify fun pen => { pen with lines := pen.lines ++ [code] }

/-- Moves by a number of indents. --/
def indentBy (steps : Int) : Writing Unit := modify fun pen => { pen with depth := pen.depth + steps }

/-- Takes the pen to be in a public region or not, without a label. --/
def setRegion (isPublic : Bool) : Writing Unit := modify fun pen => { pen with isPublic }

/-- Asks for the size of a class. --/
def askSize (name : String) : Writing (Option Int) :=
  modifyGet fun pen => ((pen.sizes.query name).1, { pen with sizes := (pen.sizes.query name).2 })

/-- Writes the label of a region, unless the pen is in it. --/
def enterRegion (style : Style) (isPublic : Bool) : Writing Unit := do
  let pen ← get
  if pen.isPublic == isPublic then return
  indentBy (-1)
  line style (HeaderLine.label isPublic)
  indentBy 1
  setRegion isPublic

/-! ### Functions and variables -/

/-- Writes a function that calls its address. --/
def trampoline (style : Style) (isMember : Bool) (f : Function) : Writing Unit := do
  match f.address with
  | none => throw (.unboundFunction f.name f.line)
  | some address =>
    let specifier := if isMember && f.isStatic then "static inline" else "inline"
    line style s!"{specifier} {f.returnType} {f.name}({Header.parameterList f.parameters})"
    line style "\x7b"
    indentBy 1
    let parameters := Header.passed style isMember f
    line style s!"using Func_t = {Header.pointerType f parameters};"
    line style s!"auto f = reinterpret_cast<Func_t>({Hexadecimal.address address});"
    let arguments := String.intercalate ", " (parameters.map (·.name))
    line style s!"return f({arguments});"
    indentBy (-1)
    line style "\x7d"
    line style ""

/-- Writes a virtual function. --/
def virtual (style : Style) (f : Function) : Writing Unit :=
  line style s!"virtual {f.returnType} {f.name}({Header.parameterList f.parameters}) = 0;"

/-- Writes a field, with its offset in a comment. --/
def field (style : Style) (v : Variable) : Writing Unit :=
  match v.offset, v.declarator? style.digitLimit with
  | some offset, some declarator => line style s!"{v.type} {declarator}; // offset {Hexadecimal.address offset}"
  | some _, none => throw .tooManyDigits
  | none, _ => throw (.unboundField v.name v.line)

/-- Writes a reference to the address of a free variable. --/
def global (style : Style) (v : Variable) : Writing Unit := do
  match v.offset with
  | none => throw (.unboundGlobal v.name v.line)
  | some address =>
    line style s!"inline {v.type}& {v.name} = *({v.type}*){Hexadecimal.address address};"
    line style ""

/-! ### Classes -/

/-- Writes a member, in the region that it says. A raw block says none. --/
def member (style : Style) (className : String) : Declaration → Writing Unit
  | .ofVariable v => do
    enterRegion style v.isPublic
    field style v
  | .ofFunction f => do
    enterRegion style f.isPublic
    if f.isVirtual then virtual style f else trampoline style true f
  | .ofRawBlock r => verbatim r.code
  | d => throw (.unexpectedMember className d.label)

/-- Writes the assertion of a size, if it is known and sizes are asserted. --/
def assertSize (style : Style) (options : HeaderOptions) (className : String) (size : Option Int) : Writing Unit :=
  match options.sizeAssertions, size with
  | true, some n =>
    line style s!"static_assert(sizeof({className}) == {Hexadecimal.address n}, \"{style.sizeMessage}\");"
  | _, _ => pure ()

/-- Writes a class. --/
def ofClass (style : Style) (options : HeaderOptions) (c : Class) : Writing Unit := do
  style.packOpening.forM (line style)
  line style (Header.classHead c)
  line style "\x7b"
  indentBy 1
  setRegion false
  enterRegion style true
  c.members.forM (member style c.name)
  indentBy (-1)
  line style "\x7d;"
  let size ← askSize c.name
  assertSize style options c.name size
  style.packClosing.forM (line style)
  line style ""
  setRegion true

/-! ### Headers -/

/-- Writes a declaration. --/
def declaration (style : Style) (options : HeaderOptions) : Declaration → Writing Unit
  | .ofClass c => ofClass style options c
  | .ofFunction f => trampoline style false f
  | .ofVariable v => global style v
  | .ofRawBlock r => verbatim r.code
  | d => throw (.unexpectedDeclaration d.label)

/-- Writes the line that includes another header. --/
def includeLine (style : Style) : Include → Writing Unit
  | .path text => line style (if text.startsWith "<" then s!"#include {text}" else s!"#include \"{text}\"")
  | .missing => throw .missingInclude

/-- Writes a group of lines and an empty one, if there is something in the group. --/
def group {α : Type} (style : Style) (write : α → Writing Unit) (members : List α) : Writing Unit := do
  unless members.isEmpty do
    members.forM write
    line style ""

/-- Writes what comes before the first declaration. --/
def opening (style : Style) (includes : List Include) (classNames : List String) : Writing Unit := do
  line style style.banner
  line style style.includeGuard
  line style ""
  group style (includeLine style) includes
  group style (fun name => line style s!"class {name};") classNames

/-- Writes the opening of the header of a program and some declarations after it. --/
def through (style : Style) (options : HeaderOptions) (p : Program) (ds : List Declaration) : Writing Unit := do
  opening style options.includes (p.classes.map (·.name))
  ds.forM (declaration style options)

/-- Writes the header of a program. --/
def header (style : Style) (options : HeaderOptions) (p : Program) : Writing Unit :=
  through style options p p.declarations

end Pen
end Overlay
