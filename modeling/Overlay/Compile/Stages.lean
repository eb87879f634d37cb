import Overlay.Build.Program
import Overlay.Compile.Settings
import Overlay.Header.Header
import Overlay.Layout.Classes
import Overlay.Source.Piece
import Overlay.Text.Utf8
import Overlay.Tree.Grammar

/-! The stages of a compilation one by one, and the faults of all of them. -/

namespace Overlay

/-! ### Stages -/

namespace Settings

/-- The program of a file. --/
def programOf (s : Settings) (file : FileNode) : Built := build s.strict (file.events none)

/-- The program with its layout. --/
def layoutOf (s : Settings) (p : Program) : LaidOut := layout s.style.target p

/-- The header of a program that is laid out; `sizes` are those to assert instead of its own. --/
def headerOf (s : Settings) (p : Program) (sizes : Option SizeTable) : Written :=
  writeHeader s.style s.options sizes p

end Settings

/-! ### Faults -/

/-- Why a compilation ends before its result: no result says that a binding is below zero, a tree has no
    more events, slots have no size, a number has too many digits to be written, a path holds a null character,
    a file is not text, or the path of an include or the pointer size is missing. --/
inductive Abort where
  | negative (binding : NegativeBinding)
  | tree (fault : TreeFault)
  | emptySlots
  | tooManyDigits
  | nullInPath
  | undecodable (fault : Utf8.Fault)
  | missingInclude
  | missingPointerSize
deriving DecidableEq, Repr

/-- The message for an abort. --/
def Abort.message : Abort → String
  | .negative binding => binding.message
  | .tree fault => fault.message
  | .emptySlots => "integer modulo by zero"
  | .tooManyDigits => Numeral.digitLimitMessage none
  | .nullInPath => "embedded null byte"
  | .undecodable fault => fault.message
  | .missingInclude => "'list' object has no attribute 'startswith'"
  | .missingPointerSize => "'<=' not supported between instances of 'list' and 'int'"

/-- How a compilation fails: by mistakes that its result lists, or by ending before it has a result. --/
inductive Failure where
  | errors (messages : List String)
  | aborted (abort : Abort)
deriving DecidableEq, Repr

/-- The error of a diagnostic, by what it speaks of. --/
def Diagnostic.error (d : Diagnostic) : String :=
  let stage := match d.family with
    | .internal => "internal compiler error"
    | .semantic | .missingBinding => "Semantic analysis failed"
    | .layout => "Layout failed"
  s!"{stage}: {d.text}"

namespace Failure

/-- The failure of a source with faults. --/
def ofLexing (faults : List LexFault) : Failure := .errors (faults.map ("Lexical analysis failed: " ++ ·.message))

/-- The failure of tokens that do not form a tree. --/
def ofParsing (fault : ParseFault) : Failure := .errors ["Syntax analysis failed: " ++ fault.message]

/-- The failure of events that do not describe a program. --/
def ofBuilding : BuildFault → Failure
  | .negative binding => .aborted (.negative binding)
  | .tree fault => .aborted (.tree fault)
  | fault => .errors (fault.diagnostic?.map (·.error)).toList

/-- The failure of a program that cannot be laid out. --/
def ofLayout : LayoutFault → Failure
  | .negative binding => .aborted (.negative binding)
  | .emptySlots => .aborted .emptySlots
  | fault => .errors (fault.diagnostic?.map (·.error)).toList

/-- The failure of a program that has no header. --/
def ofRendering : RenderFault → Failure
  | .tooManyDigits => .aborted .tooManyDigits
  | .missingInclude => .aborted .missingInclude
  | fault => .errors (fault.diagnostic?.map (·.error)).toList

end Failure
end Overlay
