/-! The stack of open declarations. What an event means depends on the declarations that are open when it
    comes: an address inside of a function is the function's, inside of a variable the variable's. -/

namespace Overlay

/-- The kind of an open declaration. --/
inductive Scope where
  | ofClass
  | ofFunction
  | ofVariable
deriving DecidableEq, Repr

/-- The name of a kind. --/
def Scope.label : Scope → String
  | .ofClass => "CLASS_DECL"
  | .ofFunction => "FUNCTION_DECL"
  | .ofVariable => "VARIABLE_DECL"

/-- Why declarations do not nest: one is closed that is not open, or is not the innermost; or the input
    ends inside of some, listed from the outermost. --/
inductive NestingFault where
  | underflow (scope : Scope)
  | mismatch (expected found : Scope)
  | unclosed (scopes : List Scope)
deriving DecidableEq, Repr

/-- The fault in words. --/
def NestingFault.detail : NestingFault → String
  | .underflow scope => s!"context stack underflow popping {scope.label}"
  | .mismatch expected found => s!"context stack mismatch: expected {expected.label}, found {found.label}"
  | .unclosed scopes =>
    "unclosed declaration contexts at end of input: " ++ String.intercalate ", " (scopes.map (·.label))

/-- The kinds of the open declarations, the innermost first. --/
abbrev Scopes := List Scope

namespace Scopes

/-- Opens a declaration. --/
def push (scope : Scope) (stack : Scopes) : Scopes := scope :: stack

/-- The kind of the innermost declaration. --/
def top? (stack : Scopes) : Option Scope := stack.head?

/-- The fault of closing a declaration of kind `scope` that is not the innermost. --/
def closingFault (scope : Scope) (stack : Scopes) : NestingFault :=
  match stack.top? with
  | none => .underflow scope
  | some found => .mismatch scope found

/-- Closes the innermost declaration, which has to be of kind `scope`. --/
def pop (scope : Scope) (stack : Scopes) : Except NestingFault Scopes :=
  if stack.top? = some scope then .ok stack.tail else .error (stack.closingFault scope)

/-- Asks that no declaration is open. --/
def allClosed (stack : Scopes) : Except NestingFault Unit :=
  if stack.isEmpty then .ok () else .error (.unclosed stack.reverse)

end Scopes
end Overlay
