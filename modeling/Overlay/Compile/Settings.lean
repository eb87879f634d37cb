import Overlay.Header.Style
import Overlay.Text.Numeral
import Overlay.Text.Quoted

/-! How a compilation is set up. The pointer size is the one that is asked for, or else that of the environment,
    or else the default, and has to be positive. -/

namespace Overlay

/-- How to compile. --/
structure Settings where
  strict : Bool
  style : Style
  options : HeaderOptions
deriving DecidableEq, Repr

/-- Why a compilation cannot be set up. --/
inductive SetupFault where
  | notANumber (text : String) (fault : Numeral.Fault)
  | notPositive (pointerSize : Int)
deriving DecidableEq, Repr

/-- The most characters of a quoted text in the message for a text that is no number. --/
def quotationLimit : Nat := 200

/-- The message for a fault. --/
def SetupFault.message : SetupFault → String
  | .notANumber text .malformed =>
    "invalid literal for int() with base 10: " ++ String.ofList ((Text.quote text).toList.take quotationLimit)
  | .notANumber _ (.tooLong digits) => Numeral.digitLimitMessage (some digits)
  | .notPositive pointerSize => s!"pointer size must be positive, got {pointerSize}"

/-- The pointer size to use. --/
def choosePointerSize (asked : Option Int) (environment : Option String) : Except SetupFault Int :=
  match asked, environment with
  | some size, _ => .ok size
  | none, some text =>
    match Numeral.decimal text with
    | .ok size => .ok size
    | .error fault => .error (.notANumber text fault)
  | none, none => .ok Target.defaultPointerSize

/-- Sets up compilations. --/
def Settings.new (strict : Bool) (options : HeaderOptions) (pointerSize : Option Int)
    (environment : Option String) : Except SetupFault Settings :=
  match choosePointerSize pointerSize environment with
  | .error fault => .error fault
  | .ok size =>
    if 0 < size then .ok ⟨strict, .ofTarget (.ofPointerSize size), options⟩ else .error (.notPositive size)

end Overlay
