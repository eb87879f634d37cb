import Overlay.Build.Nesting
import Overlay.Program.Views

/-! The state of a build. A declaration that has opened lies on a stack until it closes, and what comes in
    between is for the innermost one. The type of the next parameter or variable comes in an event of its
    own and waits until a parameter or variable closes. -/

namespace Overlay
namespace Build

/-- An open declaration. --/
inductive Frame where
  | ofClass (c : Class)
  | ofFunction (f : Function)
  | ofVariable (v : Variable)

/-- The kind of an open declaration. --/
def Frame.scope : Frame → Scope
  | .ofClass _ => .ofClass
  | .ofFunction _ => .ofFunction
  | .ofVariable _ => .ofVariable

/-- What the events so far have led to: the open declarations, the innermost first, the type that waits for
    its parameter or variable, and the declarations that are closed. --/
structure State where
  frames : List Frame
  pending : Option String
  sealed : List Declaration

namespace State

/-- Before the first event. --/
def initial : State := ⟨[], none, []⟩

/-- The kinds of the open declarations. --/
def scopes (s : State) : Scopes := s.frames.map Frame.scope

/-- The classes that are closed. --/
def classes (s : State) : List Class := s.sealed.filterMap Declaration.toClass?

/-- Whether a function or a variable is the innermost open declaration. --/
def insideLeaf (s : State) : Bool :=
  match s.frames with
  | .ofFunction _ :: _ | .ofVariable _ :: _ => true
  | _ => false

/-- Opens a declaration. --/
def openFrame (s : State) (frame : Frame) : State := { s with frames := frame :: s.frames }

/-- Adds a closed declaration to the innermost class of `frames`, or else to the program. --/
def add (s : State) (d : Declaration) : State :=
  match s.frames with
  | .ofClass c :: outer => { s with frames := .ofClass { c with members := c.members ++ [d] } :: outer }
  | _ => { s with sealed := s.sealed ++ [d] }

/-- The class that a declaration closed now would be a member of. --/
def owner? (s : State) : Option Class :=
  match s.frames with
  | .ofClass c :: _ => some c
  | _ => none

end State

end Build
end Overlay
