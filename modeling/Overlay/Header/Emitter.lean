import Overlay.Header.Pen
import Overlay.Reuse

/-! An emitter that writes the header of one program after the other. A run that ends early leaves the pen where it
    stands: behind some indents, in a region, and with the sizes of another program. The next run puts it back before
    its first line. -/

namespace Overlay

/-- An emitter, with the pen of its last run. --/
structure Emitter where
  style : Style
  options : HeaderOptions
  pen : Pen

namespace Emitter

/-- Before the first run. --/
def new (style : Style) (options : HeaderOptions) : Emitter := ⟨style, options, .new (.ofTarget style.target)⟩

/-- The pen at the beginning of a run. --/
def atStart (e : Emitter) (p : Program) : Pen :=
  { e.pen with lines := [], depth := 0, isPublic := true, sizes := .ofProgram e.style.target p }

/-- A run: its header or fault, with the lines that are written, and the emitter after it. --/
def run (e : Emitter) (p : Program) : (Except RenderFault String × List String) × Emitter :=
  match Pen.header e.style e.options p (e.atStart p) with
  | .ok () pen => ((.ok pen.text, pen.lines), { e with pen })
  | .error fault pen => ((.error fault, pen.lines), { e with pen })

end Emitter
end Overlay
