import Overlay.Program.Declaration
import Overlay.Report.Diagnostic
import Overlay.Text.Hexadecimal

/-! Why a class cannot be laid out. -/

namespace Overlay

/-- What is wrong with the place of a member. --/
inductive Misplacement where
  | overlapsField (offset : Nat) (next : Int)
  | notAboveField (offset last : Nat)
  | unknownOffset
  | misalignedSlot (offset : Nat) (word : Int)
  | overlapsSlot (offset : Nat) (next : Int)
deriving DecidableEq, Repr

/-- The misplacement of the member `name`, which stands with its class, in words. --/
def Misplacement.detail (name : String) : Misplacement → String
  | .overlapsField offset next =>
    s!"offset {Hexadecimal.address offset} of '{name}' overlaps the previous field " ++
      s!"(next free offset is {Hexadecimal.address next})"
  | .notAboveField offset last =>
    s!"offset {Hexadecimal.address offset} of '{name}' is not above the previous field " ++
      s!"at {Hexadecimal.address last}"
  | .unknownOffset => s!"cannot infer offset of '{name}': size of the previous field is unknown"
  | .misalignedSlot offset word =>
    s!"vtable offset {Hexadecimal.address offset} of '{name}' is not a multiple of {word}"
  | .overlapsSlot offset next =>
    s!"vtable offset {Hexadecimal.address offset} of '{name}' overlaps the previous slot " ++
      s!"(next free slot is {Hexadecimal.address next})"

/-- Why a class cannot be laid out: a member is misplaced; a field would have an offset below zero; or slots
    have no size, so that none of them has a place. --/
inductive LayoutFault where
  | misplaced (cause : Misplacement) (className member : String) (line : Int)
  | negative (binding : NegativeBinding)
  | emptySlots
deriving DecidableEq, Repr

/-- The diagnostic for a fault. Negative bindings and slots without a size are no diagnostics. --/
def LayoutFault.diagnostic? : LayoutFault → Option Diagnostic
  | .misplaced cause className member line =>
    some ⟨.layout, cause.detail s!"{className}::{member}", some line⟩
  | .negative _ | .emptySlots => none

end Overlay
