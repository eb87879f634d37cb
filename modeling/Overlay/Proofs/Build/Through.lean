import Overlay.Build.Program
import Overlay.Proofs.Feed

/-! Where streams of events lead a build. A stream leads to a state or to a fault, of a step that is refused or of the
    stream itself when it ends early; the parts of a stream lead on from one another. -/

namespace Overlay
namespace Build

/-- Where events lead from a state. --/
def through (strict : Bool) (s : State) (events : Trail TreeFault Event) : Except BuildFault State :=
  match Trail.reach (step strict) s events.items with
  | .error fault => .error fault
  | .ok last =>
    match events.fault with
    | some fault => .error (.tree fault)
    | none => .ok last

section
variable {strict : Bool} {s : State}

@[simp] theorem through_nil : through strict s (.whole []) = .ok s := rfl

theorem through_cons (e : Event) (events : List Event) : through strict s (.whole (e :: events)) =
    step strict s e >>= fun next => through strict next.1 (.whole events) := by
  simp only [through, Trail.whole, Trail.reach_cons]
  cases step strict s e <;> rfl

theorem through_cons_ok {next : State} {notices : List Notice} {e : Event} (h : step strict s e = .ok (next, notices))
    (events : List Event) : through strict s (.whole (e :: events)) = through strict next (.whole events) := by
  rw [through_cons, h]
  rfl

/-- One event leads where its step leads. --/
theorem through_single (e : Event) : through strict s (.whole [e]) = (step strict s e).map (·.1) := by
  rw [through_cons]
  cases step strict s e <;> rfl

theorem through_append (t u : Trail TreeFault Event) :
    through strict s (t ++ u) = through strict s t >>= fun next => through strict next u := by
  obtain ⟨items, fault⟩ := t
  cases fault with
  | some fault =>
    change through strict s ⟨items, some fault⟩ = _
    unfold through
    cases Trail.reach (step strict) s items <;> rfl
  | none =>
    change through strict s ⟨items ++ u.items, u.fault⟩ = _
    simp only [through, Trail.reach_append]
    cases Trail.reach (step strict) s items <;> rfl

theorem through_append_ok {next : State} {t : Trail TreeFault Event} (h : through strict s t = .ok next)
    (u : Trail TreeFault Event) : through strict s (t ++ u) = through strict next u := by
  rw [through_append, h]
  rfl

/-- A build goes through its events and asks at the end that everything is closed. --/
theorem build_program_eq (events : Trail TreeFault Event) :
    (build strict events).program = through strict .initial events >>= finish := by
  unfold build through Trail.reach
  dsimp only
  cases (Trail.feed (step strict) .initial events.items).2.fault with
  | some fault => rfl
  | none =>
    cases events.fault with
    | some fault => rfl
    | none =>
      dsimp only
      cases hfinish : finish (Trail.feed (step strict) .initial events.items).1 <;> exact hfinish.symm

end
end Build
end Overlay
