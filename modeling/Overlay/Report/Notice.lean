import Overlay.Text.Hexadecimal

/-! Notices: what is said about a compilation while it goes on, whether or not it succeeds. -/

namespace Overlay

/-- How much a notice matters. --/
inductive Level where
  | debug
  | info
  | warning
deriving DecidableEq, Repr

/-- The name of a level. --/
def Level.label : Level → String
  | .debug => "DEBUG"
  | .info => "INFO"
  | .warning => "WARNING"

/-- A part of a function that has an event of its own. --/
inductive FunctionPart where
  | modifier
  | returnType
  | callingConvention
deriving DecidableEq, Repr

/-- The part in words. --/
def FunctionPart.text : FunctionPart → String
  | .modifier => "function modifier"
  | .returnType => "return type"
  | .callingConvention => "calling convention"

/-- What is wrong with a part of a function that no function is open for. --/
def FunctionPart.misplaced (part : FunctionPart) : String := s!"{part.text} outside of a function declaration"

/-- What happened. --/
inductive Notice where
  | misplaced (part : FunctionPart) (line : Int)
  | sealed (className : String) (members : Nat)
  | built (classes functions globals rawBlocks : Nat)
  | unchecked (className fieldName : String) (offset : Nat) (line : Int)
  | laidOut (className : String) (size tableSize : Option Int) (slots : Nat) (word : Int)
  | rendered (lines : Nat)
  | wrote (path : String)
deriving DecidableEq, Repr

namespace Notice

/-- How much a notice matters. --/
def level : Notice → Level
  | .misplaced .. | .unchecked .. => .warning
  | .wrote .. => .info
  | _ => .debug

/-- The name of the log that a notice belongs to. --/
def log : Notice → String
  | .misplaced .. | .sealed .. | .built .. => "relc.semantics"
  | .unchecked .. | .laidOut .. => "relc.layout"
  | .rendered .. => "relc.codegen"
  | .wrote .. => "relc.compiler"

/-- A size in a notice. --/
def sizeText : Option Int → String
  | some n => Hexadecimal.literal n
  | none => "?"

/-- The notice in words. --/
def text : Notice → String
  | .misplaced part line => s!"line {line}: {part.misplaced}, ignored"
  | .sealed className members => s!"sealed class {className} ({members} members)"
  | .built classes functions globals rawBlocks =>
    s!"built program: {classes} classes, {functions} functions, {globals} variables, {rawBlocks} raw blocks"
  | .unchecked className fieldName offset line =>
    s!"line {line}: size of the field before '{className}::{fieldName}' is unknown, " ++
      s!"offset {Hexadecimal.address offset} is unchecked"
  | .laidOut className size tableSize slots word =>
    s!"laid out class {className}: size={sizeText size} vtable={sizeText tableSize} ({slots} slots, word {word})"
  | .rendered lines => s!"emitted {lines} lines"
  | .wrote path => s!"wrote {path}"

/-- The warning that a result repeats a notice by: only dropped parts of functions have one. --/
def warning? : Notice → Option String
  | .misplaced part line => some s!"{part.misplaced} (line {line})"
  | _ => none

/-- A notice as a line of a log. --/
def line (n : Notice) : String := s!"{n.level.label}: {n.log}: {n.text}"

/-- The notices that a log shows: all of them in a verbose one, and the warnings otherwise. --/
def shown (verbose : Bool) (notices : List Notice) : List Notice :=
  if verbose then notices else notices.filter (·.level == .warning)

end Notice
end Overlay
