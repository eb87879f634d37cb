/-! Line breaks of text files. A carriage return, alone or before a line feed, ends a line like a line feed
    does, and reading a file turns each of the three forms into one line feed. -/

namespace Overlay
namespace Text

/-- The characters with every line break written as one line feed. --/
def unifyNewlines : List Char → List Char
  | '\r' :: '\n' :: rest => '\n' :: unifyNewlines rest
  | '\r' :: rest => '\n' :: unifyNewlines rest
  | c :: rest => c :: unifyNewlines rest
  | [] => []

end Text
end Overlay
