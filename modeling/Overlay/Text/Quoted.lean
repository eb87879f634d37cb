import Overlay.Text.Hexadecimal
import Overlay.Text.Printable

/-! Text in quotation marks on one line: a backslash escapes the mark itself, backslashes, line breaks,
    tabs and every character that is not printable. -/

namespace Overlay
namespace Text

/-- The quotation mark for a text: an apostrophe, or a double quote when the text holds an apostrophe and
    no double quote. --/
def quotationMark (cs : List Char) : Char :=
  if cs.contains '\x27' && !cs.contains '\x22' then '\x22' else '\x27'

/-- A code point in at least `width` hexadecimal digits. --/
def codeDigits (width n : Nat) : List Char :=
  let ds := Hexadecimal.digits n
  List.replicate (width - ds.length) '0' ++ ds

/-- A character as it stands between two marks `mark`. --/
def escape (mark c : Char) : List Char :=
  if c == mark || c == '\\' then ['\\', c]
  else if c == '\t' then ['\\', 't']
  else if c == '\n' then ['\\', 'n']
  else if c == '\r' then ['\\', 'r']
  else if isPrintable c then [c]
  else if c.toNat ≤ 0xff then '\\' :: 'x' :: codeDigits 2 c.toNat
  else if c.toNat ≤ 0xffff then '\\' :: 'u' :: codeDigits 4 c.toNat
  else '\\' :: 'U' :: codeDigits 8 c.toNat

/-- A text in quotation marks, with escapes. --/
def quote (text : String) : String :=
  let cs := text.toList
  let mark := quotationMark cs
  String.ofList (mark :: cs.flatMap (escape mark) ++ [mark])

end Text
end Overlay
