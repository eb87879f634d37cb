import Mathlib.Data.PFun
import Overlay.Source.Scanner

/-! Reading a source character by character. A cursor is at a place of a source and counts lines and columns on the way.
    Its methods may be called at any place, and ask for nothing but the characters there: a repetition that does not
    move on would not come to an end, and then there is no outcome; and a text to which a character behind the end is
    to be added is an overrun. -/

namespace Overlay

/-- A place in a source, with the line and the column that were counted on the way to it. --/
structure Cursor where
  source : List Char
  place : Nat
  position : Position
  faults : List LexFault
deriving DecidableEq, Repr

/-- A text was to go on with the character at a place where there is none. --/
structure Overrun where
  place : Nat
deriving DecidableEq, Repr

/-- Reading from a cursor: what is read or why not, and the cursor after it, if it comes to an end. --/
abbrev Reading := ExceptT Overrun (StateT Cursor Part)

/-- The number of characters before the first `text`, if there is one. --/
def countBefore? (text : List Char) : List Char → Option Nat
  | [] => if text.isEmpty then some 0 else none
  | c :: cs => if text.isPrefixOf (c :: cs) then some 0 else (countBefore? text cs).map (· + 1)

namespace Cursor

/-- The start of a source. --/
def ofSource (source : String) : Cursor := ⟨source.toList, 0, .start, []⟩

/-- The character at the place. --/
def current? (c : Cursor) : Option Char := c.source[c.place]?

/-- The character at `distance` from the place. --/
def look (c : Cursor) (distance : Int) : Lookup Char := lookAt c.source (c.place + distance)

/-- Whether the source goes on with `text`. --/
def startsWith (text : List Char) (c : Cursor) : Bool := text.isPrefixOf (c.source.drop c.place)

/-- The first place from `start` on where the source goes on with `text`. --/
def find? (text : List Char) (start : Nat) (c : Cursor) : Option Nat :=
  (countBefore? text (c.source.drop start)).map (start + ·)

end Cursor

namespace Reading

/-! ### Moving over characters -/

/-- Moves over the character at the place and gives it, if there is one. --/
def advance : Reading (Option Char) := do
  let c ← get
  match c.current? with
  | none => return none
  | some char =>
    set { c with place := c.place + 1, position := c.position.next char }
    return some char

/-- Moves over the character at the place for a text to go on with. --/
def takeChar : Reading Char := do
  match ← advance with
  | some char => return char
  | none => throw ⟨(← get).place⟩

/-- Adds a fault that begins at `p`. --/
def reject (reason : Rejection) (p : Position) : Reading Unit :=
  modify fun c => { c with faults := c.faults ++ [⟨reason, p⟩] }

/-! ### Loops -/

/-- One turn of a loop: it ends with a result, or goes on from what it has come to. --/
def turn {α σ : Type} (body : σ → Reading (α ⊕ σ)) :
    σ × Cursor →. (Except Overrun α × Cursor) ⊕ (σ × Cursor) := fun (reached, c) =>
  (body reached c).map fun
    | (.error overrun, next) => .inl (.error overrun, next)
    | (.ok (.inl a), next) => .inl (.ok a, next)
    | (.ok (.inr reached), next) => .inr (reached, next)

/-- Reads `body` again and again, from `start` on, until it gives a result. --/
def loop {α σ : Type} (body : σ → Reading (α ⊕ σ)) (start : σ) : Reading α := fun c => (turn body).fix (start, c)

/-- Takes one more item, or ends with those that were taken. --/
def takeOrEnd {α : Type} (more : Cursor → Bool) (item : Reading α) (taken : List α) :
    Reading (List α ⊕ List α) := do
  if more (← get) then return .inr (taken ++ [← item])
  else return .inl taken

/-- Takes items as long as the cursor fulfils `more`. --/
def repeatWhile {α : Type} (more : Cursor → Bool) (item : Reading α) : Reading (List α) :=
  loop (takeOrEnd more item) []

/-! ### Spaces and comments -/

/-- Moves over space characters. --/
def passSpaces : Reading Unit := do
  let _ ← repeatWhile (·.current?.any Lexeme.isSpace) advance

/-- Moves over a comment to the end of its line. --/
def passLineComment : Reading Unit := do
  let _ ← advance
  let _ ← advance
  let _ ← repeatWhile (·.current?.any (· != '\n')) advance

/-- Moves over a `*/`, which ends a comment, or over another character. --/
def commentEndOrChar : Reading (Bool ⊕ Unit) := do
  let c ← get
  match c.current? with
  | none => return .inl false
  | some char =>
    if char == '*' && c.look 1 == .found '/' then
      let _ ← advance
      let _ ← advance
      return .inl true
    else
      let _ ← advance
      return .inr ()

/-- Moves on until it is over a `*/`; whether there is one. --/
def throughCommentEnd : Reading Bool := loop (fun _ => commentEndOrChar) ()

/-- Moves over a comment; one without an end goes on to the end of the source and is a fault. --/
def passBlockComment : Reading Unit := do
  let c ← get
  let _ ← advance
  let _ ← advance
  if !(← throughCommentEnd) then reject .openComment c.position

/-! ### Texts -/

/-- Moves over a raw block and gives its text; one without an end goes on to the end of the source, is a fault and has
    no text. --/
def takeRawBlock : Reading (Option (List Char)) := do
  let c ← get
  match c.find? Lexeme.fence (c.place + Lexeme.fence.length) with
  | none =>
    reject .openRawBlock c.position
    let _ ← repeatWhile (·.current?.isSome) advance
    return none
  | some last => some <$> repeatWhile (·.place < last + Lexeme.fence.length) takeChar

/-- Moves over a number and gives its text. --/
def takeNumber : Reading (List Char) := do
  let c ← get
  if c.current? == some '0' && (c.look 1 == .found 'x' || c.look 1 == .found 'X') then
    let zero ← takeChar
    let x ← takeChar
    let digits ← repeatWhile (·.current?.any Lexeme.isHexDigit) takeChar
    return zero :: x :: digits
  else repeatWhile (·.current?.any Text.isDigit) takeChar

/-- Moves over a name and gives its text. --/
def takeName : Reading (List Char) := repeatWhile (·.current?.any Lexeme.isNamePart) takeChar

/-! ### Tokens -/

/-- Moves over a lexeme that begins with `char` and gives the token that it is. --/
def lexeme (char : Char) : Reading (Option Token) := do
  let c ← get
  if char == '/' && c.look 1 == .found '/' then
    passLineComment
    return none
  else if char == '/' && c.look 1 == .found '*' then
    passBlockComment
    return none
  else if c.startsWith Lexeme.fence then
    return (← takeRawBlock).map fun text => ⟨.rawBlock, String.ofList text, c.position⟩
  else if Text.isDigit char then
    return some ⟨.number, String.ofList (← takeNumber), c.position⟩
  else if Lexeme.isNameStart char then
    let text ← takeName
    return some ⟨nameKind text, String.ofList text, c.position⟩
  else match punctuation? char with
    | some kind =>
      let _ ← advance
      return some ⟨kind, String.ofList [char], c.position⟩
    | none =>
      reject (.unexpected char) c.position
      let _ ← advance
      return none

/-- Moves over space characters and the lexeme behind them, if there is one. --/
def spacedLexeme : Reading (Option Token) := do
  passSpaces
  match (← get).current? with
  | none => return none
  | some char => lexeme char

/-- Moves to the end and gives the tokens on the way; the faults are then those of this way alone. --/
def takeTokens : Reading (List Token) := do
  modify fun c => { c with faults := [] }
  let found ← repeatWhile (fun c => c.place < c.source.length) spacedLexeme
  return found.filterMap id ++ [⟨.endOfInput, "", (← get).position⟩]

end Reading

/-! ### Calls -/

/-- A call of a method. --/
inductive Call where
  | current
  | look (distance : Int)
  | advance
  | passSpaces
  | passLineComment
  | passBlockComment
  | takeRawBlock
  | takeNumber
  | takeName
  | takeTokens
  | hasFaults
  | faults
deriving DecidableEq, Repr

/-- What a method gives back. --/
inductive Answer where
  | nothing
  | seen (char : Option Char)
  | lookup (found : Lookup Char)
  | text (text : Option (List Char))
  | tokens (tokens : List Token)
  | flag (holds : Bool)
  | faults (faults : List LexFault)
deriving DecidableEq, Repr

/-- A call on a cursor. --/
def Call.read : Call → Reading Answer
  | .current => do return .seen (← get).current?
  | .look distance => do return .lookup ((← get).look distance)
  | .advance => do return .text ((← Reading.advance).map ([·]))
  | .passSpaces => do Reading.passSpaces; return .nothing
  | .passLineComment => do Reading.passLineComment; return .nothing
  | .passBlockComment => do Reading.passBlockComment; return .nothing
  | .takeRawBlock => do return .text (← Reading.takeRawBlock)
  | .takeNumber => do return .text (some (← Reading.takeNumber))
  | .takeName => do return .text (some (← Reading.takeName))
  | .takeTokens => do return .tokens (← Reading.takeTokens)
  | .hasFaults => do return .flag (!(← get).faults.isEmpty)
  | .faults => do return .faults (← get).faults

/-- A call on a scanner. --/
def Call.scan (s : Scanner) : Call → Answer × Scanner
  | .current => (.seen s.current?, s)
  | .look distance => (.lookup (s.look distance), s)
  | .advance => (.text (s.take.1.map ([·])), s.take.2)
  | .passSpaces => (.nothing, s.passSpaces)
  | .passLineComment => (.nothing, s.passLineComment)
  | .passBlockComment => (.nothing, s.passBlockComment)
  | .takeRawBlock => (.text s.takeRawBlock.1, s.takeRawBlock.2)
  | .takeNumber => (.text (some s.takeNumber.1), s.takeNumber.2)
  | .takeName => (.text (some s.takeName.1), s.takeName.2)
  | .takeTokens => (.tokens s.takeTokens.1, s.takeTokens.2)
  | .hasFaults => (.flag (!s.faults.isEmpty), s)
  | .faults => (.faults s.faults, s)

/-- A call with the cursors before and after it. --/
structure Called where
  call : Call
  before : Cursor
  outcome : Except Overrun Answer
  after : Cursor

/-- Calls one after the other, each on the cursor that the one before has left, if all of them come to an end. --/
def Cursor.calls : Cursor → List Call → Part (List Called)
  | _, [] => .some []
  | c, call :: others => (call.read c).bind fun (outcome, after) =>
    (after.calls others).map (⟨call, c, outcome, after⟩ :: ·)

end Overlay
