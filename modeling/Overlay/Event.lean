import Overlay.Trail
import Overlay.Tree.Node

/-! Declarations as a stream of events. A declaration opens and closes with an event, and what stands in it
    lies between the two, so a stream nests as its declarations do. The events of a tree come in the order
    of its text; a node that may not stand where it does ends them, and so does a type that cannot be
    written. -/

namespace Overlay

/-- Whether an event begins or ends what it is about. --/
inductive Edge where
  | opening
  | closing
deriving DecidableEq, Repr

/-- What an event is about. --/
inductive Subject where
  | ofClass
  | ofFunction
  | ofModifier
  | ofReturnType
  | ofConvention
  | ofParameter
  | ofVariable
  | ofAddress
  | ofPointer
  | ofPlainType
  | ofRawBlock
deriving DecidableEq, Repr

/-- An event. A class opens with its name and its bases as `names`. A function opens with its name as
    `text`; parameters and variables close with theirs. A pointer type has the type that it points to as
    `text`, and every other subject its own text. --/
structure Event where
  subject : Subject
  edge : Edge
  line : Int
  text : String
  names : List String
deriving DecidableEq, Repr

/-! ### Trees without events -/

/-- The list that a node stands in. --/
inductive Place where
  | file
  | classBody
deriving DecidableEq, Repr

/-- A node of a kind that may not stand in its list. --/
structure Stray where
  place : Place
  label : String
deriving DecidableEq, Repr

/-- The message for a stray node. --/
def Stray.message (s : Stray) : String :=
  match s.place with
  | .file => s!"unexpected declaration node: {s.label}"
  | .classBody => s!"unexpected member node: {s.label}"

/-- Why the events of a tree end early. --/
inductive TreeFault where
  | stray (node : Stray)
  | unwritable (fault : StarFault)
deriving DecidableEq, Repr

/-- The message for a tree whose events end early. --/
def TreeFault.message : TreeFault → String
  | .stray node => node.message
  | .unwritable fault => fault.message

/-! ### Events of a tree -/

namespace Event

/-- The beginning of something with a text. --/
def opens (subject : Subject) (line : Int) (text : String) : Event := ⟨subject, .opening, line, text, []⟩

/-- The end of something with a text. --/
def closes (subject : Subject) (line : Int) (text : String) : Event := ⟨subject, .closing, line, text, []⟩

/-- The beginning of something with a type as its text: a name with `stars` stars after it. --/
def opensType (room : Option Nat) (subject : Subject) (line : Int) (name : String) (stars : Int) :
    Trail TreeFault Event :=
  match starFault? room stars with
  | some fault => .stop (.unwritable fault)
  | none => .whole [opens subject line (withStars name stars)]

/-- The event of a type. --/
def ofType (room : Option Nat) (t : TypeName) : Trail TreeFault Event :=
  if t.isPointer then opensType room .ofPointer t.position.line t.name (t.depth - 1)
  else .whole [opens .ofPlainType t.position.line t.name]

/-- The event of the type that a function returns. --/
def ofReturnType (room : Option Nat) (t : TypeName) : Trail TreeFault Event :=
  opensType room .ofReturnType t.position.line t.name t.depth

/-- The event of an address, if there is one. --/
def ofAddress : Option Address → List Event
  | some a => [opens .ofAddress a.position.line a.text]
  | none => []

/-- The event of a word that may be missing or empty. --/
def ofWord (subject : Subject) (line : Int) : Option String → List Event
  | some word => if word.isEmpty then [] else [opens subject line word]
  | none => []

/-- The events of a parameter. --/
def ofParameter (room : Option Nat) (p : ParameterNode) : Trail TreeFault Event :=
  Trail.whole [opens .ofParameter p.position.line ""] ++ ofType room p.type
    ++ Trail.whole [closes .ofParameter p.position.line p.name]

/-- The events of a function. --/
def ofFunction (room : Option Nat) (f : FunctionNode) : Trail TreeFault Event :=
  let line := f.position.line
  Trail.whole (opens .ofFunction line f.name :: ofWord .ofModifier line f.modifier)
    ++ ofReturnType room f.returnType
    ++ Trail.whole (ofWord .ofConvention line f.callingConvention)
    ++ Trail.concatMap (ofParameter room) f.parameters
    ++ Trail.whole (ofAddress f.address ++ [closes .ofFunction line ""])

/-- The events of a variable. --/
def ofVariable (room : Option Nat) (v : VariableNode) : Trail TreeFault Event :=
  let line := v.position.line
  Trail.whole [opens .ofVariable line ""] ++ ofType room v.type
    ++ Trail.whole (ofAddress v.address ++ [closes .ofVariable line v.name])

/-- The event of a raw block. --/
def ofRawBlock (r : RawBlockNode) : Trail TreeFault Event := .whole [opens .ofRawBlock r.position.line r.text]

/-- The events of a member of a class. --/
def ofMember (room : Option Nat) : Node → Trail TreeFault Event
  | .ofFunction f => ofFunction room f
  | .ofVariable v => ofVariable room v
  | .ofRawBlock r => ofRawBlock r
  | node => .stop (.stray ⟨.classBody, node.label⟩)

/-- The events of a class. --/
def ofClass (room : Option Nat) (c : ClassNode) : Trail TreeFault Event :=
  let line := c.position.line
  Trail.whole [⟨.ofClass, .opening, line, "", c.name :: c.bases⟩] ++ Trail.concatMap (ofMember room) c.members
    ++ Trail.whole [closes .ofClass line ""]

/-- The events of a declaration outside of classes. --/
def ofDeclaration (room : Option Nat) : Node → Trail TreeFault Event
  | .ofClass c => ofClass room c
  | .ofFunction f => ofFunction room f
  | .ofVariable v => ofVariable room v
  | .ofRawBlock r => ofRawBlock r
  | node => .stop (.stray ⟨.file, node.label⟩)

end Event

/-- The events of a file. `room` limits the stars of a type; a file that is read from a source needs no
    limit, because there was room for the source. --/
def FileNode.events (room : Option Nat) (c : FileNode) : Trail TreeFault Event :=
  Trail.concatMap (Event.ofDeclaration room) c.declarations

end Overlay
