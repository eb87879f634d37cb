import Overlay.Build.Step

/-! Building on a bench. The kinds of the open declarations lie on a stack, and the declarations themselves in places of
    their own, one for each kind. The stack does not say what is in the places: a step that needs an open declaration
    takes it from its place, and has a fault for a place that is empty. -/

namespace Overlay

/-! ### Benches -/

/-- A kind in words. --/
def Scope.text : Scope → String
  | .ofClass => "class"
  | .ofFunction => "function"
  | .ofVariable => "variable"

namespace Build

/-- A stack with the kinds of the open declarations, the innermost first, and a place for one open declaration of each
    kind; the type that waits for its parameter or variable, and the declarations that are closed. --/
structure Bench where
  stack : Scopes
  openClass : Option Class
  openFunction : Option Function
  openVariable : Option Variable
  pending : Option String
  sealed : List Declaration

/-- Why building on a bench ends: as any build does, or at an empty place of which the stack says otherwise, that of a
    declaration that closes or that of the class around one. --/
inductive BenchFault where
  | ofBuild (fault : BuildFault)
  | emptyOnClosing (scope : Scope) (line : Int)
  | emptyOwner
deriving DecidableEq, Repr

/-- The diagnostic for a fault. A declaration without its class is none. --/
def BenchFault.diagnostic? : BenchFault → Option Diagnostic
  | .ofBuild fault => fault.diagnostic?
  | .emptyOnClosing scope line => some ⟨.internal, s!"{scope.text} exit without {scope.text}", some line⟩
  | .emptyOwner => none

namespace Bench

/-- Before the first event. --/
def empty : Bench := ⟨[], none, none, none, none, []⟩

/-- What an event does: the next bench with notices, or a fault. --/
abbrev Step := Except BenchFault (Bench × List Notice)

/-- Goes on without a notice. --/
def quietly (b : Bench) : Step := .ok (b, [])

/-- Ends as any build does. --/
def refuse (fault : BuildFault) : Step := .error (.ofBuild fault)

/-- Whether a function or a variable is the innermost open declaration. --/
def insideLeaf (b : Bench) : Bool := b.stack.top? == some .ofFunction || b.stack.top? == some .ofVariable

/-- The stack without its innermost kind, which has to be `scope`. --/
def outer (b : Bench) (scope : Scope) : Except BenchFault Scopes :=
  (b.stack.pop scope).mapError fun fault => .ofBuild (.nesting fault)

/-- The class that a declaration closed now would be a member of, if the stack holds a class. --/
def owner? (b : Bench) : Except BenchFault (Option Class) :=
  if b.stack.contains .ofClass then
    match b.openClass with
    | some c => .ok (some c)
    | none => .error .emptyOwner
  else .ok none

/-- Adds a closed declaration to its owner, or else to the program. --/
def add (b : Bench) (owner : Option Class) (d : Declaration) : Bench :=
  match owner with
  | some c => { b with openClass := some { c with members := c.members ++ [d] } }
  | none => { b with sealed := b.sealed ++ [d] }

/-! ### Classes -/

/-- Opens a class. --/
def openingClass (b : Bench) (e : Event) : Step :=
  if !b.stack.isEmpty then refuse (.inconsistent .classInside e.line)
  else match e.names with
    | [] => refuse (.inconsistent .namelessClass e.line)
    | name :: bases =>
      if (b.sealed.filterMap Declaration.toClass?).any (·.name == name) then
        refuse (.mistaken (.duplicateClass name) e.line)
      else quietly { b with stack := b.stack.push .ofClass, openClass := some ⟨name, bases, [], e.line⟩ }

/-- Closes a class. --/
def closingClass (b : Bench) (e : Event) : Step := do
  let stack ← b.outer .ofClass
  match b.openClass with
  | none => .error (.emptyOnClosing .ofClass e.line)
  | some c =>
    .ok ({ b with stack, openClass := none, sealed := b.sealed ++ [.ofClass c] }, [.sealed c.name c.members.length])

/-! ### Functions -/

/-- Opens a function. --/
def openingFunction (b : Bench) (e : Event) : Step :=
  if b.insideLeaf then refuse (.inconsistent .functionInside e.line)
  else quietly { b with stack := b.stack.push .ofFunction, openFunction := some (.opened e.text e.line) }

/-- Closes a function. --/
def closingFunction (b : Bench) (e : Event) : Step := do
  let stack ← b.outer .ofFunction
  match b.openFunction with
  | none => .error (.emptyOnClosing .ofFunction e.line)
  | some f =>
    let around := { b with stack, openFunction := none }
    let owner ← around.owner?
    match functionFault? owner f with
    | some fault => refuse fault
    | none => quietly (around.add owner (.ofFunction f))

/-- Changes the open function by one of its parts, if it is the innermost open declaration. --/
def setPart (strict : Bool) (b : Bench) (part : FunctionPart) (line : Int)
    (change : Function → Except BuildFault Function) : Step :=
  match b.stack.top?, b.openFunction with
  | some .ofFunction, some f =>
    match change f with
    | .ok changed => quietly { b with openFunction := some changed }
    | .error fault => refuse fault
  | _, _ => if strict then refuse (.inconsistent (.misplaced part) line) else .ok (b, [.misplaced part line])

/-- Sets the modifier of the open function. --/
def setModifier (strict : Bool) (b : Bench) (e : Event) : Step :=
  setPart strict b .modifier e.line fun f =>
    match Modifier.ofText? e.text with
    | some modifier => .ok { f with modifier }
    | none => .error (.mistaken (.unknownModifier e.text) e.line)

/-- Sets the return type of the open function. --/
def setReturnType (strict : Bool) (b : Bench) (e : Event) : Step :=
  setPart strict b .returnType e.line fun f => .ok { f with returnType := e.text }

/-- Sets the calling convention of the open function. --/
def setConvention (strict : Bool) (b : Bench) (e : Event) : Step :=
  setPart strict b .callingConvention e.line fun f => .ok { f with callingConvention := e.text }

/-- Adds a parameter of the waiting type to the open function. --/
def addParameter (b : Bench) (e : Event) : Step :=
  match b.stack.top?, b.openFunction with
  | some .ofFunction, some f =>
    match b.pending with
    | some type =>
      quietly { b with openFunction := some { f with parameters := f.parameters ++ [⟨e.text, type⟩] }, pending := none }
    | none => refuse (.inconsistent (.untypedParameter e.text) e.line)
  | _, _ => refuse (.inconsistent .strayParameter e.line)

/-! ### Variables -/

/-- Opens a variable. --/
def openingVariable (b : Bench) (e : Event) : Step :=
  if b.insideLeaf then refuse (.inconsistent .variableInside e.line)
  else quietly { b with stack := b.stack.push .ofVariable, openVariable := some (.opened e.line) }

/-- Closes a variable of the waiting type. --/
def closingVariable (b : Bench) (e : Event) : Step := do
  let stack ← b.outer .ofVariable
  match b.openVariable with
  | none => .error (.emptyOnClosing .ofVariable e.line)
  | some v =>
    match b.pending with
    | none => refuse (.inconsistent (.untypedVariable e.text) e.line)
    | some type =>
      let named := { v with name := e.text, type }
      let around := { b with stack, openVariable := none, pending := none }
      let owner ← around.owner?
      match variableFault? owner named with
      | some fault => refuse fault
      | none => quietly (around.add owner (.ofVariable named))

/-! ### Addresses and raw blocks -/

/-- Binds the function or variable that is the innermost open declaration. --/
def bindAddress (b : Bench) (e : Event) : Step :=
  match Numeral.hexadecimal? e.text with
  | none => refuse (.mistaken (.invalidAddress e.text) e.line)
  | some value =>
    match b.stack.top?, b.openFunction, b.openVariable with
    | some .ofFunction, some f, _ =>
      match bind? value with
      | .ok n => quietly { b with openFunction := some { f with address := some n } }
      | .error binding => refuse (.negative binding)
    | some .ofVariable, _, some v =>
      match bind? value with
      | .ok n => quietly { b with openVariable := some { v with offset := some n } }
      | .error binding => refuse (.negative binding)
    | _, _, _ => refuse (.inconsistent .strayAddress e.line)

/-- Adds a raw block to the open class or the program. --/
def addRawBlock (b : Bench) (e : Event) : Step :=
  match rawCode? e.text.toList with
  | none => refuse (.inconsistent .undelimitedRawBlock e.line)
  | some code =>
    if b.insideLeaf then refuse (.inconsistent .rawBlockInside e.line)
    else do
      let owner ← b.owner?
      quietly (b.add owner (.ofRawBlock ⟨String.ofList code, e.line⟩))

/-! ### Steps -/

/-- What an event does on a bench. --/
def step (strict : Bool) (b : Bench) (e : Event) : Step :=
  match e.subject, e.edge with
  | .ofClass, .opening => openingClass b e
  | .ofClass, .closing => closingClass b e
  | .ofFunction, .opening => openingFunction b e
  | .ofFunction, .closing => closingFunction b e
  | .ofModifier, .opening => setModifier strict b e
  | .ofReturnType, .opening => setReturnType strict b e
  | .ofConvention, .opening => setConvention strict b e
  | .ofParameter, .closing => addParameter b e
  | .ofVariable, .opening => openingVariable b e
  | .ofVariable, .closing => closingVariable b e
  | .ofAddress, .opening => bindAddress b e
  | .ofPointer, .opening => quietly { b with pending := e.text ++ "*" }
  | .ofPlainType, .opening => quietly { b with pending := e.text }
  | .ofRawBlock, .opening => addRawBlock b e
  | _, _ => quietly b

end Bench
end Build
end Overlay
