import Overlay.Source.Lexeme
import Overlay.Source.Token

/-! A source text as pieces: tokens, what may stand between them, and rejected stretches. The pieces follow
    one another without a gap, so their texts in order are the source; the tokens and the faults of a
    source are read off its pieces. -/

namespace Overlay

/-! ### Faults -/

/-- Why a stretch of source is rejected. --/
inductive Rejection where
  | unexpected (c : Char)
  | openComment
  | openRawBlock
deriving DecidableEq, Repr

/-- The reason in words. --/
def Rejection.detail : Rejection → String
  | .unexpected c => s!"Unexpected character '{c}'"
  | .openComment => "Unterminated block comment"
  | .openRawBlock => "Unterminated raw block"

/-- A rejected stretch of source, by the place of its first character. --/
structure LexFault where
  reason : Rejection
  position : Position
deriving DecidableEq, Repr

/-- The message for a fault. --/
def LexFault.message (f : LexFault) : String := s!"{f.reason.detail} at {f.position.text}"

/-! ### Pieces -/

/-- What a piece of source is. --/
inductive PieceKind where
  | token (kind : TokenKind)
  | space
  | comment
  | rejected (reason : Rejection)
deriving DecidableEq, Repr

/-- A piece of source. --/
structure Piece where
  kind : PieceKind
  text : List Char
  position : Position
deriving DecidableEq, Repr

/-- The kind of a token that is one character. --/
def punctuation? : Char → Option TokenKind
  | '*' => some .star
  | '@' => some .atSign
  | ':' => some .colon
  | ',' => some .comma
  | ';' => some .semicolon
  | '(' => some .leftParen
  | ')' => some .rightParen
  | '\x7b' => some .leftBrace
  | '\x7d' => some .rightBrace
  | _ => none

/-- The kind of a name: a keyword if the language reserves it. --/
def nameKind (text : List Char) : TokenKind :=
  if keywords.contains (String.ofList text) then .keyword else .identifier

/-- The first piece of the characters `c :: cs`: its kind and its text. --/
def firstPiece (c : Char) (cs : List Char) : PieceKind × List Char :=
  let source := c :: cs
  if Lexeme.isSpace c then (.space, Lexeme.spaces source)
  else if ['/', '/'].isPrefixOf source then (.comment, Lexeme.lineComment source)
  else if ['/', '*'].isPrefixOf source then
    match Lexeme.blockComment source with
    | (text, true) => (.comment, text)
    | (text, false) => (.rejected .openComment, text)
  else if Lexeme.fence.isPrefixOf source then
    match Lexeme.rawBlock? source with
    | some text => (.token .rawBlock, text)
    | none => (.rejected .openRawBlock, source)
  else if Text.isDigit c then (.token .number, Lexeme.number source)
  else if Lexeme.isNameStart c then
    let text := Lexeme.name source
    (.token (nameKind text), text)
  else match punctuation? c with
    | some kind => (.token kind, [c])
    | none => (.rejected (.unexpected c), [c])

/-- The pieces of a source whose next character is at `p`, after `skip` more characters that belong to the
    piece before. --/
def piecesAfter : Nat → Position → List Char → List Piece
  | _, _, [] => []
  | 0, p, c :: cs =>
    let (kind, text) := firstPiece c cs
    ⟨kind, text, p⟩ :: piecesAfter (text.length - 1) (p.next c) cs
  | skip + 1, p, c :: cs => piecesAfter skip (p.next c) cs

/-- The pieces of a source whose first character is at `p`. --/
def pieces (p : Position) (cs : List Char) : List Piece := piecesAfter 0 p cs

namespace Piece

/-- The token that a piece is. --/
def token? (piece : Piece) : Option Token :=
  match piece.kind with
  | .token kind => some ⟨kind, String.ofList piece.text, piece.position⟩
  | _ => none

/-- The fault that a piece is. --/
def fault? (piece : Piece) : Option LexFault :=
  match piece.kind with
  | .rejected reason => some ⟨reason, piece.position⟩
  | _ => none

end Piece

/-! ### Tokens of a source -/

/-- The tokens and the faults of a source. --/
structure Lexed where
  tokens : List Token
  faults : List LexFault
deriving DecidableEq, Repr

/-- The tokens of a source whose first character is at `p`, closed by the end of input, and the faults. --/
def lexFrom (p : Position) (source : List Char) : Lexed :=
  let ps := pieces p source
  ⟨ps.filterMap Piece.token? ++ [⟨.endOfInput, "", p.after source⟩], ps.filterMap Piece.fault?⟩

/-- The tokens and faults of a whole source. --/
def lex (source : String) : Lexed := lexFrom .start source.toList

/-- The tokens, if there are no faults, and the first fault otherwise. --/
def Lexed.result (l : Lexed) : Except LexFault (List Token) :=
  match l.faults with
  | [] => .ok l.tokens
  | fault :: _ => .error fault

end Overlay
