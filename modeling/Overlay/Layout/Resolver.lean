import Overlay.Layout.Classes
import Overlay.Reuse

/-! A resolver that lays out one program after the other. A run that ends early leaves what is settled about the classes
    before the one with the fault. The next run clears this before its first declaration. -/

namespace Overlay

/-- A resolver, with what its last run has settled and what was said in it. --/
structure Resolver where
  target : Target
  settled : Layout.Settled
  notices : List Notice

/-- A part of a run of a resolver. --/
abbrev Resolving := EStateM LayoutFault Resolver

namespace Resolver
open Layout

/-- Before the first run. --/
def new (target : Target) : Resolver := ⟨target, .initial target, []⟩

/-- Clears what the run before has left. --/
def reset : Resolving Unit := modify fun r =>
  { r with settled := { r.settled with sizes := .ofTarget r.target, tables := [] }, notices := [] }

/-- Lays out a declaration: a class by what is settled, or what stays as it is. --/
def place (d : Declaration) : Resolving Declaration := fun r =>
  match d with
  | .ofClass c =>
    match layoutClass r.settled c with
    | .ok l => .ok (.ofClass l.resolved) { r with settled := r.settled.record l, notices := r.notices ++ l.notices }
    | .error stopped => .error stopped.fault { r with notices := r.notices ++ stopped.notices }
  | _ => .ok d r

/-- Lays out a program. --/
def resolving (p : Program) : Resolving Program := do
  reset
  return ⟨← p.declarations.mapM place⟩

/-- A run, and the resolver after it. --/
def run (r : Resolver) (p : Program) : LaidOut × Resolver :=
  match resolving p r with
  | .ok resolved after => (⟨.ok resolved, after.settled, after.notices⟩, after)
  | .error fault after => (⟨.error fault, after.settled, after.notices⟩, after)

end Resolver
end Overlay
