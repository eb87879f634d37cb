import Overlay.Source.Position
import Overlay.Word

/-! The tree of a declaration file. The file lists its declarations, and a class those of its members. A
    list takes nodes of every kind, so that trees from other sources than the grammar can be written down
    too; which nodes may stand where is decided when the events of the tree are told. -/

namespace Overlay

/-- A named type behind `depth` pointers. --/
structure TypeName where
  name : String
  depth : Int
  position : Position
deriving DecidableEq, Repr

/-- The literal of an address. --/
structure Address where
  text : String
  position : Position
deriving DecidableEq, Repr

/-- A parameter of a function. --/
structure ParameterNode where
  name : String
  type : TypeName
  position : Position
deriving DecidableEq, Repr

/-- A function, free or a member of a class. --/
structure FunctionNode where
  name : String
  returnType : TypeName
  parameters : List ParameterNode
  modifier : Option String
  callingConvention : Option String
  address : Option Address
  position : Position
deriving DecidableEq, Repr

/-- A variable, free or a field of a class. --/
structure VariableNode where
  name : String
  type : TypeName
  address : Option Address
  position : Position
deriving DecidableEq, Repr

/-- A raw block with its delimiters. --/
structure RawBlockNode where
  text : String
  position : Position
deriving DecidableEq, Repr

mutual

/-- A class with the names of its bases and its members. --/
structure ClassNode where
  name : String
  bases : List String
  members : List Node
  position : Position

/-- The declarations of one file. --/
structure FileNode where
  declarations : List Node
  position : Position

/-- A node of a tree. --/
inductive Node where
  | ofFile (node : FileNode)
  | ofClass (node : ClassNode)
  | ofFunction (node : FunctionNode)
  | ofVariable (node : VariableNode)
  | ofRawBlock (node : RawBlockNode)
  | ofParameter (node : ParameterNode)
  | ofAddress (node : Address)
  | ofType (node : TypeName)

end

/-! ### Types in words -/

/-- A type name with `count` stars after it. --/
def withStars (name : String) (count : Int) : String := name.pushn '*' count.toNat

/-- Why no type can be written: the number of its stars does not fit in a word, or there is no room for so
    many. --/
inductive StarFault where
  | unfit
  | noRoom
deriving DecidableEq, Repr

/-- The message for a type that cannot be written. --/
def StarFault.message : StarFault → String
  | .unfit => Word.message
  | .noRoom => ""

/-- Why `count` stars cannot be written. `room` is the number of stars that there is room for, if it is
    limited; a machine with such a limit counts them with a word. --/
def starFault? (room : Option Nat) (count : Int) : Option StarFault :=
  match room with
  | none => none
  | some room => if !Word.holds count then some .unfit else if count > room then some .noRoom else none

namespace TypeName

/-- The type as it is written. --/
def text (t : TypeName) : String := withStars t.name t.depth

/-- Whether the type is a pointer. --/
def isPointer (t : TypeName) : Bool := 0 < t.depth

/-- The type that a pointer points to, as it is written. --/
def pointee (t : TypeName) : String := withStars t.name (t.depth - 1)

end TypeName

/-! ### Nodes in words -/

/-- The name of a node's kind. --/
def Node.label : Node → String
  | .ofFile _ => "Chunk"
  | .ofClass _ => "ClassDecl"
  | .ofFunction _ => "FunctionDecl"
  | .ofVariable _ => "VariableDecl"
  | .ofRawBlock _ => "RawBlockDecl"
  | .ofParameter _ => "ParameterDecl"
  | .ofAddress _ => "AddressLiteral"
  | .ofType _ => "TypeRef"

end Overlay
