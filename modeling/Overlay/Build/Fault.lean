import Overlay.Build.Nesting
import Overlay.Event
import Overlay.Program.Declaration
import Overlay.Report.Diagnostic
import Overlay.Report.Notice

/-! Why a stream of events does not describe a program. -/

namespace Overlay

/-- An event that cannot come where it does, or does not say what it has to. --/
inductive Inconsistency where
  | classInside
  | namelessClass
  | functionInside
  | variableInside
  | rawBlockInside
  | misplaced (part : FunctionPart)
  | strayParameter
  | untypedParameter (name : String)
  | untypedVariable (name : String)
  | strayAddress
  | undelimitedRawBlock
deriving DecidableEq, Repr

/-- The inconsistency in words. --/
def Inconsistency.detail : Inconsistency → String
  | .classInside => "class declaration inside another declaration"
  | .namelessClass => "class declaration without a name"
  | .functionInside => "function declaration nested in a function or variable"
  | .variableInside => "variable declaration nested in a function or variable"
  | .rawBlockInside => "raw block inside a function or variable declaration"
  | .misplaced part => part.misplaced
  | .strayParameter => "parameter outside of a function declaration"
  | .untypedParameter name => s!"parameter '{name}' has no type"
  | .untypedVariable name => s!"variable '{name}' has no type"
  | .strayAddress => "unknown context for memory address"
  | .undelimitedRawBlock => "raw block without delimiters"

/-- A declaration that says what no program may say. --/
inductive Mistake where
  | duplicateClass (name : String)
  | modifiedFreeFunction (modifier : Modifier)
  | unknownModifier (text : String)
  | invalidAddress (text : String)
deriving DecidableEq, Repr

/-- The mistake in words. --/
def Mistake.detail : Mistake → String
  | .duplicateClass name => s!"duplicate class '{name}'"
  | .modifiedFreeFunction modifier => s!"modifier '{modifier.text}' is only allowed on class members"
  | .unknownModifier text => s!"unknown function modifier '{text}'"
  | .invalidAddress text => s!"invalid hexadecimal literal '{text}'"

/-- A declaration that has to be bound to an address or offset and is not. --/
inductive UnboundDeclaration where
  | memberFunction (className name : String)
  | freeFunction (name : String)
  | firstField (className : String)
  | freeVariable (name : String)
deriving DecidableEq, Repr

/-- The missing binding in words. --/
def UnboundDeclaration.detail : UnboundDeclaration → String
  | .memberFunction className name => s!"member function '{className}::{name}' requires an address"
  | .freeFunction name => s!"global function '{name}' is required to have an address"
  | .firstField className =>
    s!"the first variable offset of class '{className}' needs to be explicitly defined"
  | .freeVariable name => s!"no memory address given for global variable '{name}'"

/-- Why a stream of events does not describe a program: besides the above, its declarations do not nest, an
    address is below zero, or the tree that it comes from has no more events. --/
inductive BuildFault where
  | inconsistent (cause : Inconsistency) (line : Int)
  | nesting (fault : NestingFault)
  | mistaken (cause : Mistake) (line : Int)
  | unbound (declaration : UnboundDeclaration) (line : Int)
  | negative (binding : NegativeBinding)
  | tree (fault : TreeFault)
deriving DecidableEq, Repr

/-- The diagnostic for a fault. Negative bindings and faults of trees are no diagnostics. --/
def BuildFault.diagnostic? : BuildFault → Option Diagnostic
  | .inconsistent cause line => some ⟨.internal, cause.detail, some line⟩
  | .nesting fault => some ⟨.internal, fault.detail, none⟩
  | .mistaken cause line => some ⟨.semantic, cause.detail, some line⟩
  | .unbound declaration line => some ⟨.missingBinding, declaration.detail, some line⟩
  | .negative _ | .tree _ => none

end Overlay
