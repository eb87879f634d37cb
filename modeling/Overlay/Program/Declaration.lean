import Overlay.Text.Hexadecimal
import Overlay.Text.Numeral

/-! The model of a program: what its declarations say, with addresses and offsets as numbers. A class has
    its members in the order of their declaration. Its list takes declarations of every kind, so that a
    model from another source than a stream of events can be written down too. -/

namespace Overlay

/-! ### Bindings -/

/-- An address or an offset, if one is known. --/
abbrev Binding := Option Nat

/-- A number that cannot be bound because it is below zero. --/
structure NegativeBinding where
  value : Int
deriving DecidableEq, Repr

/-- The message for a number below zero; it gives the number, and so is about the digits of one that has
    too many. --/
def NegativeBinding.message (f : NegativeBinding) : String :=
  match Numeral.write? (some Numeral.digitLimit) f.value with
  | some text => s!"negative binding: {text}"
  | none => Numeral.digitLimitMessage none

/-- The address or offset that a number denotes. --/
def bind? (value : Int) : Except NegativeBinding Nat :=
  if value < 0 then .error ⟨value⟩ else .ok value.toNat

/-! ### Declarations -/

/-- A parameter of a function. --/
structure Parameter where
  name : String
  type : String
deriving DecidableEq, Repr

/-- How a function is called: through an instance, through the virtual table, or without an instance. --/
inductive Modifier where
  | plain
  | virtual
  | static
deriving DecidableEq, Repr

/-- The word for a modifier; a plain function has none. --/
def Modifier.text : Modifier → String
  | .plain => ""
  | .virtual => "virtual"
  | .static => "static"

/-- The modifier that a word stands for. --/
def Modifier.ofText? (text : String) : Option Modifier :=
  [Modifier.plain, .virtual, .static].find? (·.text == text)

/-- A function. The address of a virtual one is the offset of its slot in the virtual table. --/
structure Function where
  name : String
  returnType : String
  modifier : Modifier
  parameters : List Parameter
  callingConvention : String
  address : Binding
  isPad : Bool
  isPublic : Bool
  line : Int
deriving DecidableEq, Repr

/-- A variable. The offset of a free one is its address; an array has its number of elements. --/
structure Variable where
  name : String
  type : String
  offset : Binding
  length : Option Int
  isPad : Bool
  isPublic : Bool
  line : Int
deriving DecidableEq, Repr

/-- A raw block without its delimiters. --/
structure RawBlock where
  code : String
  line : Int
deriving DecidableEq, Repr

mutual

/-- A class. --/
structure Class where
  name : String
  bases : List String
  members : List Declaration
  line : Int

/-- A declaration. --/
inductive Declaration where
  | ofClass (c : Class)
  | ofFunction (f : Function)
  | ofVariable (v : Variable)
  | ofRawBlock (r : RawBlock)
  | ofParameter (p : Parameter)

end

/-- The declarations of one file. --/
structure Program where
  declarations : List Declaration

/-! ### New declarations and pads -/

namespace Function

/-- A function as it is when its declaration begins. --/
def opened (name : String) (line : Int) : Function :=
  { name, returnType := "void", modifier := .plain, parameters := [], callingConvention := "",
    address := none, isPad := false, isPublic := true, line }

/-- A virtual function that takes the place of an unknown slot of a virtual table. --/
def pad (slot : Nat) : Function :=
  { opened ("vpad_" ++ Hexadecimal.lower slot) 0 with
    modifier := .virtual, address := some slot, isPad := true, isPublic := false }

/-- Whether a function is called through the virtual table. --/
def isVirtual (f : Function) : Bool := f.modifier == .virtual

/-- Whether a function is called without an instance. --/
def isStatic (f : Function) : Bool := f.modifier == .static

end Function

namespace Variable

/-- A variable as it is when its declaration begins. --/
def opened (line : Int) : Variable :=
  { name := "", type := "", offset := none, length := none, isPad := false, isPublic := true, line }

/-- A field that covers `size` unknown bytes. --/
def pad (offset : Nat) (size : Int) : Variable :=
  { opened 0 with
    name := "pad_" ++ Hexadecimal.lower offset, type := "char", offset := some offset,
    length := some size, isPad := true, isPublic := false }

/-- The name with the number of elements, as it is declared, unless that number has more than `limit`
    digits. --/
def declarator? (limit : Option Nat) (v : Variable) : Option String :=
  match v.length with
  | some n => (Numeral.write? limit n).map fun text => s!"{v.name}[{text}]"
  | none => some v.name

end Variable

namespace Declaration

/-- The name of a declaration's kind. --/
def label : Declaration → String
  | .ofClass _ => "Class"
  | .ofFunction _ => "Function"
  | .ofVariable _ => "Variable"
  | .ofRawBlock _ => "RawBlock"
  | .ofParameter _ => "Parameter"

end Declaration
end Overlay
