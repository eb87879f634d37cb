import Overlay.Source.Lookup
import Overlay.Source.Piece

/-! A scanner: a place in a source that moves forward over one character or one lexeme at a time. Any
    operation may be used at any place; what is not at hand is an empty lexeme or a fault, never a stop. -/

namespace Overlay

/-- A place in a source. `read` holds the characters before it, the last one first. --/
structure Scanner where
  read : List Char
  rest : List Char
  position : Position
  faults : List LexFault
deriving DecidableEq, Repr

namespace Scanner

/-- The start of a source. --/
def ofSource (source : String) : Scanner := ⟨[], source.toList, .start, []⟩

/-- The source. --/
def source (s : Scanner) : List Char := s.read.reverse ++ s.rest

/-- The number of characters before the place. --/
def offset (s : Scanner) : Nat := s.read.length

/-! ### Looking -/

/-- The next character. --/
def current? (s : Scanner) : Option Char := s.rest.head?

/-- The character at `distance` from the next one. --/
def look (s : Scanner) (distance : Int) : Lookup Char := lookAt s.source (s.offset + distance)

/-! ### Moving -/

/-- Moves over `n` characters, or to the end. --/
def skip (s : Scanner) (n : Nat) : Scanner :=
  let text := s.rest.take n
  { s with read := text.reverse ++ s.read, rest := s.rest.drop n, position := s.position.after text }

theorem source_skip (s : Scanner) (n : Nat) : (s.skip n).source = s.source := by
  simp [skip, source, List.take_append_drop]

/-- Adds a fault that begins at `p`. --/
def reject (s : Scanner) (reason : Rejection) (p : Position) : Scanner :=
  { s with faults := s.faults ++ [⟨reason, p⟩] }

/-- Moves over one character and gives it. --/
def take (s : Scanner) : Option Char × Scanner := (s.current?, s.skip 1)

/-- Moves over space characters. --/
def passSpaces (s : Scanner) : Scanner := s.skip (Lexeme.spaces s.rest).length

/-- Moves over a comment to the end of its line. --/
def passLineComment (s : Scanner) : Scanner := s.skip (Lexeme.lineComment s.rest).length

/-- Moves over a comment; one without an end goes on to the end of the source and is a fault. --/
def passBlockComment (s : Scanner) : Scanner :=
  match Lexeme.blockComment s.rest with
  | (text, true) => s.skip text.length
  | (text, false) => (s.skip text.length).reject .openComment s.position

/-- Moves over a raw block and gives its text; one without an end goes on to the end of the source, is a
    fault and has no text. --/
def takeRawBlock (s : Scanner) : Option (List Char) × Scanner :=
  match Lexeme.rawBlock? s.rest with
  | some text => (some text, s.skip text.length)
  | none => (none, (s.skip s.rest.length).reject .openRawBlock s.position)

/-- Moves over a number and gives its text. --/
def takeNumber (s : Scanner) : List Char × Scanner :=
  let text := Lexeme.number s.rest
  (text, s.skip text.length)

/-- Moves over a name and gives its text. --/
def takeName (s : Scanner) : List Char × Scanner :=
  let text := Lexeme.name s.rest
  (text, s.skip text.length)

/-- Moves to the end and gives the tokens on the way; the faults are then those of this way alone. --/
def takeTokens (s : Scanner) : List Token × Scanner :=
  let lexed := lexFrom s.position s.rest
  (lexed.tokens, { s.skip s.rest.length with faults := lexed.faults })

end Scanner
end Overlay
