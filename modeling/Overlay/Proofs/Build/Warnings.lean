import Overlay.Proofs.Build.Moves

/-! Strict and lenient builds. A strict build never warns. A lenient one does the same as a strict one as long as that
    one does not refuse a part of a function that no function is open for, so it warns of nothing else. -/

namespace Overlay

/-- The fault of a part of a function that no function is open for. --/
def BuildFault.IsMisplaced (fault : BuildFault) : Prop := ∃ part line, fault = .inconsistent (.misplaced part) line

namespace Build

/-- A strict build never warns. --/
theorem Move.quiet {s t : State} {notices : List Notice} (move : Move true s t notices) :
    ∀ n ∈ notices, n.warning? = none := by
  cases move with
  | drop lenient => cases lenient
  | closeClass =>
    intro n hn
    rw [List.mem_singleton.mp hn]
    rfl
  | _ => simp

/-- A lenient step is a strict one, unless that one refuses a misplaced part. --/
theorem setPart_agree (part : FunctionPart) (line : Int) (change : Function → Except BuildFault Function) :
    setPart false s part line change = setPart true s part line change ∨
      ∃ fault, setPart true s part line change = .error fault ∧ fault.IsMisplaced := by
  unfold setPart
  split
  · exact Or.inl rfl
  · exact Or.inr ⟨_, rfl, part, line, rfl⟩

theorem step_agree (s : State) (e : Event) :
    step false s e = step true s e ∨ ∃ fault, step true s e = .error fault ∧ fault.IsMisplaced := by
  unfold step
  split
  case h_5 | h_6 | h_7 => exact setPart_agree _ _ _
  all_goals exact Or.inl rfl

/-- Where no misplaced part is refused, a lenient build is a strict one. --/
theorem build_lenient {events : Trail TreeFault Event}
    (h : ∀ fault, (build true events).program = .error fault → ¬fault.IsMisplaced) :
    build false events = build true events := by
  have hfeed : Trail.feed (step false) .initial events.items = Trail.feed (step true) .initial events.items := by
    refine Trail.feed_eq_of_agree step_agree events.items .initial fun fault hfault => h fault ?_
    unfold build
    dsimp only
    rw [hfault]
  unfold build
  rw [hfeed]

/-- A build warns of what its steps warn of. --/
theorem warnings_eq (strict : Bool) (events : Trail TreeFault Event) : (build strict events).warnings =
    (Trail.feed (step strict) .initial events.items).2.items.filterMap Notice.warning? := by
  unfold Built.warnings build
  dsimp only
  split
  · rfl
  · rfl
  · split
    · rw [List.filterMap_append]
      exact List.append_nil _
    · rfl

/-- Where no misplaced part is refused, a build has no warnings. --/
theorem warnings_eq_nil {events : Trail TreeFault Event}
    (h : ∀ fault, (build true events).program = .error fault → ¬fault.IsMisplaced) (strict : Bool) :
    (build strict events).warnings = [] := by
  -- A lenient build can only warn of what a strict one refuses, so both are the strict one here.
  have hstrict : build strict events = build true events := by
    cases strict with
    | false => exact build_lenient h
    | true => rfl
  have hitems : ∀ n ∈ (Trail.feed (step true) .initial events.items).2.items, n.warning? = none :=
    Trail.feed_items (P := fun _ => True) (fun _ _ _ _ _ _ hok => ⟨trivial, (step_move hok).quiet⟩) trivial
  rw [hstrict, warnings_eq, List.filterMap_eq_nil_iff]
  exact hitems

end Build
end Overlay
