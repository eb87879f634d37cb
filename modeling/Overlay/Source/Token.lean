import Overlay.Source.Position
import Overlay.Text.Quoted

/-! The tokens of a declaration file. Names that the language reserves are keywords: `class`, the function
    modifiers and the calling conventions. -/

namespace Overlay

/-- What a token is. --/
inductive TokenKind where
  | number
  | rawBlock
  | identifier
  | keyword
  | star
  | atSign
  | colon
  | comma
  | semicolon
  | leftParen
  | rightParen
  | leftBrace
  | rightBrace
  | endOfInput
deriving DecidableEq, Repr

/-- A token: its kind, its text in the source and the place of its first character. --/
structure Token where
  kind : TokenKind
  text : String
  position : Position
deriving DecidableEq, Repr

/-! ### Reserved names -/

/-- The word that opens a class. --/
def classKeyword : String := "class"

/-- The words that modify a function. --/
def functionModifiers : List String := ["virtual", "static"]

/-- The calling conventions. --/
def callingConventions : List String :=
  ["__cdecl", "__stdcall", "__thiscall", "__fastcall", "__vectorcall", "__clrcall"]

/-- The names that are not identifiers. --/
def keywords : List String := classKeyword :: functionModifiers ++ callingConventions

/-! ### Tokens in words -/

/-- The name of a kind in a listing of tokens. --/
def TokenKind.label : TokenKind → String
  | .number => "NUMBER"
  | .rawBlock => "RAW_BLOCK"
  | .identifier => "IDENTIFIER"
  | .keyword => "KEYWORD"
  | .star => "STAR"
  | .atSign => "AT"
  | .colon => "COLON"
  | .comma => "COMMA"
  | .semicolon => "SEMICOLON"
  | .leftParen => "LPAREN"
  | .rightParen => "RPAREN"
  | .leftBrace => "LBRACE"
  | .rightBrace => "RBRACE"
  | .endOfInput => "EOF"

namespace Token

/-- A token in a listing. --/
def listing (t : Token) : String :=
  s!"Token({t.kind.label}, {Text.quote t.text}, {t.position.text})"

/-- Whether a token is the keyword `word`. --/
def isKeyword (t : Token) (word : String) : Bool := t.kind == .keyword && t.text == word

/-- Whether a token is one of the keywords `words`. --/
def isKeywordOf (t : Token) (words : List String) : Bool := t.kind == .keyword && words.contains t.text

end Token
end Overlay
