import Overlay.Build.Step
import Overlay.Trail

/-! Building: from a stream of events to a program. The events go to the state one after the other, the first
    fault ends the build, and at the end of the input all declarations have to be closed. -/

namespace Overlay

/-- The program when the input ends: all declarations are closed. --/
def Build.finish (s : Build.State) : Except BuildFault Program :=
  match s.scopes.allClosed with
  | .ok () => .ok ⟨s.sealed⟩
  | .error fault => .error (.nesting fault)

/-- A program and what was said while it was built. --/
structure Built where
  program : Except BuildFault Program
  notices : List Notice

/-- The notice that a program is built. --/
def Program.builtNotice (p : Program) : Notice :=
  .built p.classes.length p.functions.length p.globals.length p.rawBlocks.length

/-- Builds the program that a stream of events describes. --/
def build (strict : Bool) (events : Trail TreeFault Event) : Built :=
  let (last, trail) := Trail.feed (Build.step strict) .initial events.items
  match trail.fault, events.fault with
  | some fault, _ => ⟨.error fault, trail.items⟩
  | none, some fault => ⟨.error (.tree fault), trail.items⟩
  | none, none =>
    match Build.finish last with
    | .ok program => ⟨.ok program, trail.items ++ [program.builtNotice]⟩
    | .error fault => ⟨.error fault, trail.items⟩

/-- The warnings of a build. --/
def Built.warnings (b : Built) : List String := b.notices.filterMap Notice.warning?

end Overlay
