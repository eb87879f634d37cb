import Overlay.Header.Rendering
import Overlay.Layout.SizeTable
import Overlay.Report.Notice

/-! The header of a program: the opening lines and then those of each declaration in order. --/

namespace Overlay

/-- The sizes to assert: those of the layout if they are given, or else those of the program. --/
def assertedSize (style : Style) (options : HeaderOptions) (sizes : Option SizeTable) (p : Program)
    (name : String) : Option Int :=
  if options.sizeAssertions then (sizes.getD (.ofProgram style.target p)).sizeOf? name else none

/-- The lines of the header of a program. --/
def headerLines (style : Style) (options : HeaderOptions) (sizes : Option SizeTable) (p : Program) : Rendering :=
  Header.opening style options.includes (p.classes.map (·.name))
    ++ Trail.concatMap (Header.declaration style (assertedSize style options sizes p)) p.declarations

/-- Lines as a text, each with a line feed at its end. --/
def headerText (style : Style) (lines : List HeaderLine) : String :=
  String.intercalate "\n" (lines.map (·.text style)) ++ "\n"

/-- A header and what is said about it. `lines` are those up to the first declaration without any. --/
structure Written where
  code : Except RenderFault String
  lines : List HeaderLine
  notices : List Notice
deriving Repr

/-- Writes the header of a program. --/
def writeHeader (style : Style) (options : HeaderOptions) (sizes : Option SizeTable) (p : Program) : Written :=
  let rendering := headerLines style options sizes p
  match rendering.fault with
  | some fault => ⟨.error fault, rendering.items, []⟩
  | none => ⟨.ok (headerText style rendering.items), rendering.items, [.rendered rendering.items.length]⟩

end Overlay
