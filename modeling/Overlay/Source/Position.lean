/-! Places in a text, as people count them: lines from one, and columns from one within a line. Only a line
    feed starts a new line. -/

namespace Overlay

/-- A place in a text. --/
structure Position where
  line : Int
  column : Int
deriving DecidableEq, Repr

namespace Position

/-- The place of the first character. --/
def start : Position := ⟨1, 1⟩

/-- The place after the character `c` at `p`. --/
def next (p : Position) (c : Char) : Position :=
  if c == '\n' then ⟨p.line + 1, 1⟩ else ⟨p.line, p.column + 1⟩

/-- The place after the characters `cs`, the first of them at `p`. --/
def after (p : Position) (cs : List Char) : Position := cs.foldl next p

@[simp] theorem after_nil (p : Position) : p.after [] = p := rfl

@[simp] theorem after_cons (p : Position) (c : Char) (cs : List Char) : p.after (c :: cs) = (p.next c).after cs := rfl

theorem after_append (p : Position) (cs ds : List Char) : p.after (cs ++ ds) = (p.after cs).after ds :=
  List.foldl_append

/-- Line and column as messages give them. --/
def text (p : Position) : String := s!"{p.line}:{p.column}"

end Position
end Overlay
