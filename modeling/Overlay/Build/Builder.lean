import Overlay.Build.Bench
import Overlay.Build.Program
import Overlay.Reuse

/-! A builder that is used for one stream of events after the other. A run that ends early leaves the bench as it is
    then: with the declarations that are open, and with the one that could not be closed already off the stack. The next
    run clears all of it before its first event. -/

namespace Overlay

/-- A builder, with what was said in its last run and the bench that this has left. --/
structure Builder where
  strict : Bool
  notices : List Notice
  bench : Build.Bench

/-- A part of a run of a builder. --/
abbrev Building := EStateM Build.BenchFault Builder

namespace Build.Bench

/-- What an event leaves that has a fault. What is closed is taken off the stack before anything else, and a variable is
    named before its binding is looked at; the other events change nothing before their fault. --/
def leave (b : Bench) (e : Event) : Bench :=
  match e.subject, e.edge with
  | .ofClass, .closing => { b with stack := (b.stack.pop .ofClass).toOption.getD b.stack }
  | .ofFunction, .closing => { b with stack := (b.stack.pop .ofFunction).toOption.getD b.stack }
  | .ofVariable, .closing =>
    match b.stack.pop .ofVariable, b.openVariable, b.pending with
    | .ok stack, some v, some type => { b with stack, openVariable := some { v with name := e.text, type } }
    | .ok stack, _, _ => { b with stack }
    | .error _, _, _ => b
  | _, _ => b

end Build.Bench

namespace Builder
open Build

/-- Before the first run. --/
def new (strict : Bool) : Builder := ⟨strict, [], .empty⟩

/-- Clears what the run before has left. --/
def reset : Building Unit := modify fun b =>
  { b with notices := [], bench :=
    { b.bench with stack := [], sealed := [], openClass := none, openFunction := none, openVariable := none,
                   pending := none } }

/-- What an event does. --/
def take (e : Event) : Building Unit := fun b =>
  match b.bench.step b.strict e with
  | .ok (bench, notices) => .ok () { b with bench, notices := b.notices ++ notices }
  | .error fault => .error fault { b with bench := b.bench.leave e }

/-- The program when the events end: of their own accord, with all declarations closed. --/
def finish (fault : Option TreeFault) : Building Program := fun b =>
  match fault, b.bench.stack.allClosed with
  | some fault, _ => .error (.ofBuild (.tree fault)) b
  | none, .ok () =>
    let program : Program := ⟨b.bench.sealed⟩
    .ok program { b with notices := b.notices ++ [program.builtNotice] }
  | none, .error fault => .error (.ofBuild (.nesting fault)) b

/-- Builds the program that a stream of events describes. --/
def building (events : Trail TreeFault Event) : Building Program := do
  reset
  events.items.forM take
  finish events.fault

/-- The warnings of the last run. --/
def warnings (b : Builder) : List String := b.notices.filterMap Notice.warning?

/-- What a run comes to: its program or fault, its warnings and all that was said in it. --/
structure Result where
  program : Except BenchFault Program
  warnings : List String
  notices : List Notice

/-- A run, and the builder after it. --/
def run (b : Builder) (events : Trail TreeFault Event) : Result × Builder :=
  match building events b with
  | .ok program after => (⟨.ok program, after.warnings, after.notices⟩, after)
  | .error fault after => (⟨.error fault, after.warnings, after.notices⟩, after)

end Builder
end Overlay
