import Overlay.Source.Lookup
import Overlay.Tree.Grammar

/-! A list of tokens with a current token, for reading a tree part by part. -/

namespace Overlay

/-- A place in a list of tokens; `left` are the tokens from the current one on. --/
structure Reader where
  tokens : List Token
  left : List Token
deriving DecidableEq, Repr

namespace Reader

/-- The first token. --/
def ofTokens (tokens : List Token) : Reader := ⟨tokens, tokens⟩

/-- The number of tokens before the current one. --/
def position (r : Reader) : Nat := r.tokens.length - r.left.length

/-- The token at `distance` from the current one. --/
def look (r : Reader) (distance : Int) : Lookup Token := lookAt r.tokens (r.position + distance)

/-- Reads a part of a tree at the current token. --/
def run {α : Type} (r : Reader) (part : Parser α) : Except ParseFault α × Reader :=
  match part r.left with
  | .ok a left => (.ok a, { r with left })
  | .error fault left => (.error fault, { r with left })

/-- Reads declarations up to the end of input, as a file that begins with the first token. --/
def file (r : Reader) : Except ParseFault FileNode × Reader :=
  r.run ((fun declarations => ⟨declarations, fileStart r.tokens⟩) <$> Parser.declarations)

end Reader
end Overlay
