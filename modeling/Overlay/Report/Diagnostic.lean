/-! Diagnostics: what is wrong with the declarations, or with the stream or model that they arrive in, in
    words and with a line. -/

namespace Overlay

/-- What a diagnostic speaks of: a stream or model that no text of declarations leads to, a mistake in a
    declaration, a binding that is missing, or declarations that cannot be laid out. --/
inductive Family where
  | internal
  | semantic
  | missingBinding
  | layout
deriving DecidableEq, Repr

/-- What is wrong, in words, and the line of the declaration, if one is known. --/
structure Diagnostic where
  family : Family
  detail : String
  line : Option Int
deriving DecidableEq, Repr

namespace Diagnostic

/-- Whether the text gives the line. Line zero stands for declarations that no text led to, and only
    internal diagnostics give it. --/
def showsLine (d : Diagnostic) : Bool :=
  match d.line with
  | none => false
  | some n => d.family == .internal || n != 0

/-- The diagnostic in words, with its line. --/
def text (d : Diagnostic) : String :=
  match d.line with
  | some n => if d.showsLine then s!"{d.detail} (line {n})" else d.detail
  | none => d.detail

end Diagnostic
end Overlay
