import Overlay.Build.Fault
import Overlay.Build.State
import Overlay.Source.Lexeme
import Overlay.Text.Numeral

/-! What each event does to the state of a build. A function part outside of a function is a fault in strict
    building, and otherwise dropped with a notice. -/

namespace Overlay
namespace Build

/-- What an event does: the next state with notices, or a fault. --/
abbrev Step := Except BuildFault (State × List Notice)

/-- Goes on without a notice. --/
def quietly (s : State) : Step := .ok (s, [])

/-- The fault of closing a declaration that is not the innermost. --/
def notInnermost (s : State) (scope : Scope) : Step := .error (.nesting (s.scopes.closingFault scope))

/-! ### Classes -/

/-- Opens a class. Classes neither nest nor share a name. --/
def openClass (s : State) (e : Event) : Step :=
  if !s.frames.isEmpty then .error (.inconsistent .classInside e.line)
  else match e.names with
    | [] => .error (.inconsistent .namelessClass e.line)
    | name :: bases =>
      if s.classes.any (·.name == name) then .error (.mistaken (.duplicateClass name) e.line)
      else quietly (s.openFrame (.ofClass ⟨name, bases, [], e.line⟩))

/-- Closes a class. --/
def closeClass (s : State) : Step :=
  match s.frames with
  | .ofClass c :: outer =>
    .ok ({ s with frames := outer, sealed := s.sealed ++ [.ofClass c] }, [.sealed c.name c.members.length])
  | _ => notInnermost s .ofClass

/-! ### Functions -/

/-- Opens a function. --/
def openFunction (s : State) (e : Event) : Step :=
  if s.insideLeaf then .error (.inconsistent .functionInside e.line)
  else quietly (s.openFrame (.ofFunction (.opened e.text e.line)))

/-- What a function that is closed lacks. A member needs an address unless it is virtual, and a free
    function needs one always and takes no modifier. --/
def functionFault? (owner : Option Class) (f : Function) : Option BuildFault :=
  match owner with
  | some c =>
    if !f.isVirtual && f.address.isNone then some (.unbound (.memberFunction c.name f.name) f.line) else none
  | none =>
    if f.modifier != .plain then some (.mistaken (.modifiedFreeFunction f.modifier) f.line)
    else if f.address.isNone then some (.unbound (.freeFunction f.name) f.line)
    else none

/-- Closes a function. --/
def closeFunction (s : State) : Step :=
  match s.frames with
  | .ofFunction f :: outer =>
    let around := { s with frames := outer }
    match functionFault? around.owner? f with
    | some fault => .error fault
    | none => quietly (around.add (.ofFunction f))
  | _ => notInnermost s .ofFunction

/-- Changes the function that is the innermost open declaration by one of its parts. --/
def setPart (strict : Bool) (s : State) (part : FunctionPart) (line : Int)
    (change : Function → Except BuildFault Function) : Step :=
  match s.frames with
  | .ofFunction f :: outer =>
    match change f with
    | .ok changed => quietly { s with frames := .ofFunction changed :: outer }
    | .error fault => .error fault
  | _ =>
    if strict then .error (.inconsistent (.misplaced part) line)
    else .ok (s, [.misplaced part line])

/-- Sets the modifier of the open function. --/
def setModifier (strict : Bool) (s : State) (e : Event) : Step :=
  setPart strict s .modifier e.line fun f =>
    match Modifier.ofText? e.text with
    | some modifier => .ok { f with modifier }
    | none => .error (.mistaken (.unknownModifier e.text) e.line)

/-- Sets the return type of the open function. --/
def setReturnType (strict : Bool) (s : State) (e : Event) : Step :=
  setPart strict s .returnType e.line fun f => .ok { f with returnType := e.text }

/-- Sets the calling convention of the open function. --/
def setConvention (strict : Bool) (s : State) (e : Event) : Step :=
  setPart strict s .callingConvention e.line fun f => .ok { f with callingConvention := e.text }

/-- Adds a parameter of the waiting type to the open function. --/
def addParameter (s : State) (e : Event) : Step :=
  match s.frames with
  | .ofFunction f :: outer =>
    match s.pending with
    | some type =>
      let changed := { f with parameters := f.parameters ++ [⟨e.text, type⟩] }
      quietly { s with frames := .ofFunction changed :: outer, pending := none }
    | none => .error (.inconsistent (.untypedParameter e.text) e.line)
  | _ => .error (.inconsistent .strayParameter e.line)

/-! ### Variables -/

/-- Opens a variable. --/
def openVariable (s : State) (e : Event) : Step :=
  if s.insideLeaf then .error (.inconsistent .variableInside e.line)
  else quietly (s.openFrame (.ofVariable (.opened e.line)))

/-- What a variable that is closed lacks. The first field of a class needs an offset, and a free variable
    needs an address. --/
def variableFault? (owner : Option Class) (v : Variable) : Option BuildFault :=
  match owner with
  | some c =>
    if c.fields.isEmpty && v.offset.isNone then some (.unbound (.firstField c.name) v.line) else none
  | none => if v.offset.isNone then some (.unbound (.freeVariable v.name) v.line) else none

/-- Closes a variable of the waiting type. --/
def closeVariable (s : State) (e : Event) : Step :=
  match s.frames with
  | .ofVariable v :: outer =>
    match s.pending with
    | some type =>
      let named := { v with name := e.text, type }
      let around := { s with frames := outer, pending := none }
      match variableFault? around.owner? named with
      | some fault => .error fault
      | none => quietly (around.add (.ofVariable named))
    | none => .error (.inconsistent (.untypedVariable e.text) e.line)
  | _ => notInnermost s .ofVariable

/-! ### Addresses, types and raw blocks -/

/-- Binds the function or variable that is the innermost open declaration. --/
def bindAddress (s : State) (e : Event) : Step :=
  match Numeral.hexadecimal? e.text with
  | none => .error (.mistaken (.invalidAddress e.text) e.line)
  | some value =>
    match s.frames, bind? value with
    | .ofFunction f :: outer, .ok n => quietly { s with frames := .ofFunction { f with address := some n } :: outer }
    | .ofVariable v :: outer, .ok n => quietly { s with frames := .ofVariable { v with offset := some n } :: outer }
    | .ofFunction _ :: _, .error binding | .ofVariable _ :: _, .error binding => .error (.negative binding)
    | _, _ => .error (.inconsistent .strayAddress e.line)

/-- Makes a type wait for its parameter or variable. --/
def awaitOwner (s : State) (type : String) : Step := quietly { s with pending := type }

/-- The code between the fences of a raw block. --/
def rawCode? (text : List Char) : Option (List Char) :=
  let width := Lexeme.fence.length
  if text.length < 2 * width || !Lexeme.fence.isPrefixOf text || !Lexeme.fence.isSuffixOf text then none
  else some ((text.drop width).take (text.length - 2 * width))

/-- Adds a raw block to the open class or the program. --/
def addRawBlock (s : State) (e : Event) : Step :=
  match rawCode? e.text.toList with
  | none => .error (.inconsistent .undelimitedRawBlock e.line)
  | some code =>
    if s.insideLeaf then .error (.inconsistent .rawBlockInside e.line)
    else quietly (s.add (.ofRawBlock ⟨String.ofList code, e.line⟩))

/-! ### Steps -/

/-- What an event does. The beginning of a parameter and the end of a part say nothing of their own. --/
def step (strict : Bool) (s : State) (e : Event) : Step :=
  match e.subject, e.edge with
  | .ofClass, .opening => openClass s e
  | .ofClass, .closing => closeClass s
  | .ofFunction, .opening => openFunction s e
  | .ofFunction, .closing => closeFunction s
  | .ofModifier, .opening => setModifier strict s e
  | .ofReturnType, .opening => setReturnType strict s e
  | .ofConvention, .opening => setConvention strict s e
  | .ofParameter, .closing => addParameter s e
  | .ofVariable, .opening => openVariable s e
  | .ofVariable, .closing => closeVariable s e
  | .ofAddress, .opening => bindAddress s e
  | .ofPointer, .opening => awaitOwner s (e.text ++ "*")
  | .ofPlainType, .opening => awaitOwner s e.text
  | .ofRawBlock, .opening => addRawBlock s e
  | _, _ => quietly s

end Build
end Overlay
