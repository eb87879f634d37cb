import Overlay.Proofs.Build.Warnings

/-! Lenient builds. An event for a part of a function is misplaced where the innermost open declaration is no function.
    A lenient build leaves its state as it is there and warns, and does with every other event what a strict one does;
    so it comes to what a strict build comes to on the events that are left without the misplaced ones, and warns of
    each of those once. -/

namespace Overlay

/-! ### Misplaced events -/

/-- The part of a function that an event is for. --/
def Event.part? (e : Event) : Option FunctionPart :=
  match e.subject, e.edge with
  | .ofModifier, .opening => some .modifier
  | .ofReturnType, .opening => some .returnType
  | .ofConvention, .opening => some .callingConvention
  | _, _ => none

/-- The warning of a misplaced event. --/
def Event.warning? (e : Event) : Option String := e.part?.map fun part => s!"{part.misplaced} (line {e.line})"

namespace Build

/-- Whether an event that comes in a state is misplaced. --/
def State.misplaces (s : State) (e : Event) : Bool := e.part?.isSome && s.scopes.top? != some .ofFunction

/-- The events without those that a lenient build finds misplaced. What comes after an event that it refuses never
    comes to it. --/
def wellPlaced (s : State) : List Event → List Event
  | [] => []
  | e :: es =>
    if s.misplaces e then wellPlaced s es
    else match step false s e with
      | .ok (next, _) => e :: wellPlaced next es
      | .error _ => e :: es

/-- The events that a lenient build finds misplaced, before it ends or refuses one. --/
def misplaced (s : State) : List Event → List Event
  | [] => []
  | e :: es =>
    if s.misplaces e then e :: misplaced s es
    else match step false s e with
      | .ok (next, _) => misplaced next es
      | .error _ => []

/-! ### One event -/

section
variable {s : State} {e : Event}

theorem step_part {part : FunctionPart} (h : e.part? = some part) :
    ∃ change, ∀ strict s, step strict s e = setPart strict s part e.line change := by
  obtain ⟨subject, edge, line, text, names⟩ := e
  cases edge with
  | closing => cases subject <;> cases h
  | opening =>
    cases subject with
    | ofModifier =>
      cases h
      exact ⟨_, fun _ _ => rfl⟩
    | ofReturnType =>
      cases h
      exact ⟨fun f => .ok { f with returnType := text }, fun _ _ => rfl⟩
    | ofConvention =>
      cases h
      exact ⟨fun f => .ok { f with callingConvention := text }, fun _ _ => rfl⟩
    | _ => cases h

theorem step_noPart (h : e.part? = none) (s : State) : step true s e = step false s e := by
  obtain ⟨subject, edge, line, text, names⟩ := e
  cases subject <;> cases edge <;> first | rfl | cases h

theorem top?_eq_function_iff : s.scopes.top? = some .ofFunction ↔ ∃ f outer, s.frames = .ofFunction f :: outer := by
  obtain ⟨_ | ⟨_ | _ | _, outer⟩, pending, sealed⟩ := s <;> simp [State.scopes, Scopes.top?, Frame.scope]

theorem setPart_function {f : Function} {outer : List Frame} (h : s.frames = .ofFunction f :: outer) (part : FunctionPart)
    (line : Int) (change : Function → Except BuildFault Function) :
    setPart true s part line change = setPart false s part line change := by
  simp only [setPart, h]

/-- A misplaced event is dropped with one notice. --/
theorem step_misplaced (h : s.misplaces e = true) :
    ∃ part, e.part? = some part ∧ step false s e = .ok (s, [.misplaced part e.line]) := by
  simp only [State.misplaces, Bool.and_eq_true, bne_iff_ne, ne_eq, top?_eq_function_iff] at h
  obtain ⟨part, hpart⟩ := Option.isSome_iff_exists.mp h.1
  obtain ⟨change, hchange⟩ := step_part hpart
  refine ⟨part, hpart, ?_⟩
  rw [hchange]
  unfold setPart
  split
  · rename_i f outer hframes
    exact absurd ⟨f, outer, hframes⟩ h.2
  · rfl

/-- Every other event does the same in both builds. --/
theorem step_wellPlaced (h : s.misplaces e = false) : step true s e = step false s e := by
  cases hpart : e.part? with
  | none => exact step_noPart hpart s
  | some part =>
    obtain ⟨change, hchange⟩ := step_part hpart
    obtain ⟨f, outer, hframes⟩ := top?_eq_function_iff.mp (by simpa [State.misplaces, hpart] using h)
    rw [hchange, hchange, setPart_function hframes]

/-- An event that is not misplaced leads to no warning. --/
theorem quiet_of_wellPlaced {t : State} {notices : List Notice} (h : s.misplaces e = false)
    (hstep : step false s e = .ok (t, notices)) : ∀ n ∈ notices, n.warning? = none :=
  (step_move ((step_wellPlaced h).trans hstep)).quiet

end

/-! ### Streams -/

/-- What a lenient build says besides its warnings. --/
def unwarned (notices : List Notice) : List Notice := notices.filter (·.warning?.isNone)

theorem unwarned_of_quiet {notices : List Notice} (h : ∀ n ∈ notices, n.warning? = none) : unwarned notices = notices :=
  List.filter_eq_self.mpr fun n hn => by simp [h n hn]

/-- A strict build goes with the events that are well placed where a lenient one goes with all of them. --/
theorem feed_wellPlaced : ∀ (es : List Event) (s : State), Trail.feed (step true) s (wellPlaced s es) =
    ((Trail.feed (step false) s es).1,
      ⟨unwarned (Trail.feed (step false) s es).2.items, (Trail.feed (step false) s es).2.fault⟩)
  | [], _ => rfl
  | e :: es, s => by
    unfold wellPlaced
    cases hplaced : s.misplaces e with
    | true =>
      obtain ⟨part, -, hstep⟩ := step_misplaced hplaced
      rw [if_pos rfl, Trail.feed_cons_ok hstep, feed_wellPlaced es s]
      rfl
    | false =>
      rw [if_neg Bool.false_ne_true]
      cases hstep : step false s e with
      | error fault =>
        rw [Trail.feed_cons_error hstep, Trail.feed_cons_error ((step_wellPlaced hplaced).trans hstep)]
        rfl
      | ok next =>
        have hquiet := unwarned_of_quiet (quiet_of_wellPlaced hplaced hstep)
        dsimp only
        rw [Trail.feed_cons_ok hstep, Trail.feed_cons_ok ((step_wellPlaced hplaced).trans hstep),
          feed_wellPlaced es next.1]
        simp only [unwarned] at hquiet
        simp [unwarned, hquiet]

/-- A lenient build warns of the events that are misplaced, of each once and in their order. --/
theorem warnings_misplaced : ∀ (es : List Event) (s : State),
    ((Trail.feed (step false) s es).2.items.filterMap Notice.warning?).map some = (misplaced s es).map Event.warning?
  | [], _ => rfl
  | e :: es, s => by
    unfold misplaced
    cases hplaced : s.misplaces e with
    | true =>
      obtain ⟨part, hpart, hstep⟩ := step_misplaced hplaced
      have hwarning : e.warning? = (Notice.misplaced part e.line).warning? := by rw [Event.warning?, hpart]; rfl
      rw [if_pos rfl, Trail.feed_cons_ok hstep, List.map_cons, ← warnings_misplaced es s, hwarning]
      rfl
    | false =>
      rw [if_neg Bool.false_ne_true]
      cases hstep : step false s e with
      | error fault =>
        rw [Trail.feed_cons_error hstep]
        rfl
      | ok next =>
        have hquiet := List.filterMap_eq_nil_iff.mpr (quiet_of_wellPlaced hplaced hstep)
        dsimp only
        rw [Trail.feed_cons_ok hstep, ← warnings_misplaced es next.1]
        simp [hquiet]

theorem wellPlaced_eq_self : ∀ {es : List Event} {s : State}, misplaced s es = [] → wellPlaced s es = es
  | [], _, _ => rfl
  | e :: es, s, h => by
    unfold misplaced at h
    unfold wellPlaced
    split at h
    · cases h
    · rw [if_neg ‹_›]
      cases hstep : step false s e with
      | error fault => rfl
      | ok next =>
        rw [hstep] at h
        exact congrArg (e :: ·) (wellPlaced_eq_self h)

end Build

/-- A lenient build of events is the strict build of those that are well placed, but for its warnings: it returns the same
    program, or ends with the same fault. It warns of the misplaced events that it meets, of each once and in their
    order, and is a strict build where there are none. --/
theorem lenient_build_drops_misplaced (events : Trail TreeFault Event) :
    build true ⟨Build.wellPlaced .initial events.items, events.fault⟩ =
      ⟨(build false events).program, Build.unwarned (build false events).notices⟩ ∧
    (build false events).warnings.map some = (Build.misplaced .initial events.items).map Event.warning? ∧
    (Build.misplaced .initial events.items = [] → build false events = build true events) := by
  have hstrict : build true ⟨Build.wellPlaced .initial events.items, events.fault⟩ =
      ⟨(build false events).program, Build.unwarned (build false events).notices⟩ := by
    unfold build
    rw [Build.feed_wellPlaced]
    obtain ⟨last, items, fault⟩ := Trail.feed (Build.step false) .initial events.items
    cases fault with
    | some fault => rfl
    | none =>
      cases events.fault with
      | some fault => rfl
      | none =>
        dsimp only
        cases Build.finish last with
        | error fault => rfl
        | ok p => simp [Build.unwarned, Program.builtNotice, Notice.warning?]
  have hwarnings : (build false events).warnings.map some =
      (Build.misplaced .initial events.items).map Event.warning? := by
    rw [Build.warnings_eq]
    exact Build.warnings_misplaced events.items .initial
  refine ⟨hstrict, hwarnings, fun hnone => ?_⟩
  have hquiet : ∀ n ∈ (build false events).notices, n.warning? = none := by
    rw [hnone, List.map_nil, List.map_eq_nil_iff] at hwarnings
    exact List.filterMap_eq_nil_iff.mp hwarnings
  rw [Build.wellPlaced_eq_self hnone, Build.unwarned_of_quiet hquiet] at hstrict
  exact hstrict.symm

end Overlay
