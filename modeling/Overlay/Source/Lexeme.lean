import Overlay.Text.Numeric

/-! The lexemes of a declaration file. Each function gives the text of one lexeme at the front of the
    remaining characters, always as an initial part of them. The functions do not ask whether the
    characters are those that the lexeme begins with: a comment or raw block counts its delimiter
    unseen. -/

namespace Overlay
namespace Lexeme

/-- The characters that open and close a raw block. --/
def fence : List Char := ['\x60', '\x60', '\x60']

/-- A character between tokens. --/
def isSpace (c : Char) : Bool := c == ' ' || c == '\t' || c == '\r' || c == '\n'

/-- A digit of a hexadecimal number. --/
def isHexDigit (c : Char) : Bool :=
  ('0' ≤ c && c ≤ '9') || ('a' ≤ c && c ≤ 'f') || ('A' ≤ c && c ≤ 'F')

/-- A character of a name after its first. --/
def isNamePart (c : Char) : Bool := Text.isAlphanumeric c || c == '_'

/-- A character that a name begins with. --/
def isNameStart (c : Char) : Bool := Text.isLetter c || c == '_'

/-- The space characters at the front. --/
def spaces (cs : List Char) : List Char := cs.takeWhile isSpace

/-- A comment to the end of its line. --/
def lineComment (cs : List Char) : List Char := cs.take 2 ++ (cs.drop 2).takeWhile (· != '\n')

/-- The text up to the first `*/` and with it, or else all of it; and whether there is one. --/
def throughCommentEnd : List Char → List Char × Bool
  | [] => ([], false)
  | '*' :: '/' :: _ => (['*', '/'], true)
  | c :: rest =>
    let (text, closed) := throughCommentEnd rest
    (c :: text, closed)

/-- A comment to the first `*/` after its two opening characters; and whether it is closed. --/
def blockComment (cs : List Char) : List Char × Bool :=
  let (text, closed) := throughCommentEnd (cs.drop 2)
  (cs.take 2 ++ text, closed)

/-- The text up to the first fence and with it, if there is one. --/
def throughFence? : List Char → Option (List Char)
  | [] => none
  | c :: rest =>
    if fence.isPrefixOf (c :: rest) then some fence else (throughFence? rest).map (c :: ·)

/-- A raw block to the first fence after its opening fence, if there is one. --/
def rawBlock? (cs : List Char) : Option (List Char) :=
  (throughFence? (cs.drop fence.length)).map (cs.take fence.length ++ ·)

/-- A number: `0x` and hexadecimal digits, or else digits. --/
def number (cs : List Char) : List Char :=
  match cs with
  | '0' :: 'x' :: rest => '0' :: 'x' :: rest.takeWhile isHexDigit
  | '0' :: 'X' :: rest => '0' :: 'X' :: rest.takeWhile isHexDigit
  | _ => cs.takeWhile Text.isDigit

/-- A name. --/
def name (cs : List Char) : List Char := cs.takeWhile isNamePart

end Lexeme
end Overlay
