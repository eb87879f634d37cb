import Overlay.Build.Bench
import Overlay.Proofs.Build.WellBound

/-! Open declarations. Whatever the events, at most two declarations are open: a class, and a function or a variable in
    it or outside of classes. A build knows them by one list of frames; on a bench, where the kinds and the declarations
    lie apart, the places are filled as the stack says, so no step finds one empty that it needs, and building there
    comes to the same. When a build returns a program, its declarations were closed in nested order. -/

namespace Overlay

/-- What an event opens or closes. --/
def Event.bracket? (e : Event) : Option (Edge × Scope) :=
  match e.subject with
  | .ofClass => some (e.edge, .ofClass)
  | .ofFunction => some (e.edge, .ofFunction)
  | .ofVariable => some (e.edge, .ofVariable)
  | _ => none

namespace Build

/-! ### What can be open -/

/-- The ways in which declarations can be open, the innermost first. --/
inductive Nests : List Frame → Prop where
  | closed : Nests []
  | ofClass (c : Class) : Nests [.ofClass c]
  | ofFunction (f : Function) : Nests [.ofFunction f]
  | ofVariable (v : Variable) : Nests [.ofVariable v]
  | functionOfClass (f : Function) (c : Class) : Nests [.ofFunction f, .ofClass c]
  | variableOfClass (v : Variable) (c : Class) : Nests [.ofVariable v, .ofClass c]

/-- What is open around a function or a variable. --/
inductive NestsMember : List Frame → Prop where
  | closed : NestsMember []
  | ofClass (c : Class) : NestsMember [.ofClass c]

section
variable {s : State}

theorem NestsMember.nests {frames : List Frame} (h : NestsMember frames) : Nests frames := by
  cases h with
  | closed => exact .closed
  | ofClass c => exact .ofClass c

theorem NestsMember.function {frames : List Frame} (h : NestsMember frames) (f : Function) :
    Nests (.ofFunction f :: frames) := by
  cases h with
  | closed => exact .ofFunction f
  | ofClass c => exact .functionOfClass f c

theorem NestsMember.variable {frames : List Frame} (h : NestsMember frames) (v : Variable) :
    Nests (.ofVariable v :: frames) := by
  cases h with
  | closed => exact .ofVariable v
  | ofClass c => exact .variableOfClass v c

theorem Nests.outside (h : Nests s.frames) (outside : s.insideLeaf = false) : NestsMember s.frames := by
  obtain ⟨frames, pending, sealed⟩ := s
  cases h with
  | closed => exact .closed
  | ofClass c => exact .ofClass c
  | _ => cases outside

theorem Nests.aroundFunction {f : Function} {outer : List Frame} (h : Nests (.ofFunction f :: outer)) :
    NestsMember outer := by
  cases h with
  | ofFunction => exact .closed
  | functionOfClass _ c => exact .ofClass c

theorem Nests.aroundVariable {v : Variable} {outer : List Frame} (h : Nests (.ofVariable v :: outer)) :
    NestsMember outer := by
  cases h with
  | ofVariable => exact .closed
  | variableOfClass _ c => exact .ofClass c

theorem NestsMember.add (h : NestsMember s.frames) (d : Declaration) : NestsMember (s.add d).frames := by
  obtain ⟨frames, pending, sealed⟩ := s
  cases h with
  | closed => exact .closed
  | ofClass c => exact .ofClass _

theorem move_nests {strict : Bool} {t : State} {notices : List Notice} (h : Nests s.frames)
    (move : Move strict s t notices) : Nests t.frames := by
  cases move with
  | stay | drop | await => exact h
  | openClass c closed =>
    rw [State.openFrame, closed]
    exact .ofClass c
  | closeClass innermost =>
    rw [innermost] at h
    cases h
    exact .closed
  | openFunction outside name line => exact (h.outside outside).function _
  | changeFunction innermost =>
    rw [innermost] at h
    exact h.aroundFunction.function _
  | closeFunction innermost =>
    rw [innermost] at h
    exact (NestsMember.add h.aroundFunction _).nests
  | openVariable outside line => exact (h.outside outside).variable _
  | bindVariable innermost =>
    rw [innermost] at h
    exact h.aroundVariable.variable _
  | closeVariable innermost =>
    rw [innermost] at h
    exact (NestsMember.add h.aroundVariable _).nests
  | addRawBlock outside r => exact ((h.outside outside).add _).nests

end

/-! ### States on a bench -/

/-- The function that an open declaration is. --/
def Frame.toFunction? : Frame → Option Function
  | .ofFunction f => some f
  | _ => none

/-- The variable that an open declaration is. --/
def Frame.toVariable? : Frame → Option Variable
  | .ofVariable v => some v
  | _ => none

/-- A state on a bench: the kinds of the open declarations on the stack, and each declaration in its place. --/
def State.bench (s : State) : Bench where
  stack := s.scopes
  openClass := s.frames.findSome? Frame.toClass?
  openFunction := s.frames.findSome? Frame.toFunction?
  openVariable := s.frames.findSome? Frame.toVariable?
  pending := s.pending
  sealed := s.sealed

/-- A step on a bench. --/
def Step.onBench (r : Step) : Bench.Step := (r.map fun next => (next.1.bench, next.2)).mapError .ofBuild

section
variable {s : State} {e : Event}

theorem bench_add (h : NestsMember s.frames) (d : Declaration) : s.bench.add s.owner? d = (s.add d).bench := by
  obtain ⟨frames, pending, sealed⟩ := s
  cases h <;> rfl

theorem bench_openClass (h : Nests s.frames) : s.bench.openingClass e = (openClass s e).onBench := by
  obtain ⟨frames, pending, sealed⟩ := s
  cases h with
  | closed =>
    unfold Bench.openingClass openClass
    cases e.names with
    | nil => rfl
    | cons name bases =>
      exact (apply_ite Step.onBench ((sealed.filterMap Declaration.toClass?).any (·.name == name) = true)
        (.error (.mistaken (.duplicateClass name) e.line))
        (quietly ⟨[.ofClass ⟨name, bases, [], e.line⟩], pending, sealed⟩)).symm
  | _ => rfl

theorem bench_closeClass (h : Nests s.frames) : s.bench.closingClass e = (closeClass s).onBench := by
  obtain ⟨frames, pending, sealed⟩ := s
  cases h <;> rfl

theorem bench_openFunction (h : Nests s.frames) : s.bench.openingFunction e = (openFunction s e).onBench := by
  obtain ⟨frames, pending, sealed⟩ := s
  cases h <;> rfl

theorem bench_openVariable (h : Nests s.frames) : s.bench.openingVariable e = (openVariable s e).onBench := by
  obtain ⟨frames, pending, sealed⟩ := s
  cases h <;> rfl

/-- A declaration that closes is refused alike, and goes to the same owner. --/
theorem bench_closed (h : NestsMember s.frames) (fault : Option BuildFault) (d : Declaration) :
    (match fault with
      | some fault => Bench.refuse fault
      | none => Bench.quietly (s.bench.add s.owner? d)) =
    Step.onBench (match fault with
      | some fault => .error fault
      | none => quietly (s.add d)) := by
  cases fault with
  | some fault => rfl
  | none => exact congrArg Bench.quietly (bench_add h d)

theorem bench_closeFunction (h : Nests s.frames) : s.bench.closingFunction e = (closeFunction s).onBench := by
  obtain ⟨frames, pending, sealed⟩ := s
  cases h with
  | ofFunction f =>
    exact bench_closed (s := ⟨[], pending, sealed⟩) .closed (functionFault? none f) (.ofFunction f)
  | functionOfClass f c =>
    exact bench_closed (s := ⟨[.ofClass c], pending, sealed⟩) (.ofClass c) (functionFault? (some c) f) (.ofFunction f)
  | _ => rfl

theorem bench_closeVariable (h : Nests s.frames) : s.bench.closingVariable e = (closeVariable s e).onBench := by
  obtain ⟨frames, pending, sealed⟩ := s
  cases h with
  | ofVariable v =>
    cases pending with
    | none => rfl
    | some type =>
      exact bench_closed (s := ⟨[], none, sealed⟩) .closed (variableFault? none { v with name := e.text, type })
        (.ofVariable { v with name := e.text, type })
  | variableOfClass v c =>
    cases pending with
    | none => rfl
    | some type =>
      exact bench_closed (s := ⟨[.ofClass c], none, sealed⟩) (.ofClass c)
        (variableFault? (some c) { v with name := e.text, type }) (.ofVariable { v with name := e.text, type })
  | _ => rfl

/-- A part that changes a function is refused alike, and leads to the same state. --/
theorem bench_changed (changed : Except BuildFault Function) (t : Function → State) :
    (match changed with
      | .ok g => Bench.quietly (t g).bench
      | .error fault => Bench.refuse fault) =
    Step.onBench (match changed with
      | .ok g => quietly (t g)
      | .error fault => .error fault) := by
  cases changed <;> rfl

theorem bench_setPart (h : Nests s.frames) {strict : Bool} (part : FunctionPart) (line : Int)
    (change : Function → Except BuildFault Function) :
    s.bench.setPart strict part line change = (setPart strict s part line change).onBench := by
  obtain ⟨frames, pending, sealed⟩ := s
  cases h with
  | ofFunction f => exact bench_changed (change f) fun g => ⟨[.ofFunction g], pending, sealed⟩
  | functionOfClass f c => exact bench_changed (change f) fun g => ⟨[.ofFunction g, .ofClass c], pending, sealed⟩
  | _ => cases strict <;> rfl

theorem bench_addParameter (h : Nests s.frames) : s.bench.addParameter e = (addParameter s e).onBench := by
  obtain ⟨frames, pending, sealed⟩ := s
  cases h with
  | ofFunction f | functionOfClass f => cases pending <;> rfl
  | _ => rfl

theorem bench_bindAddress (h : Nests s.frames) : s.bench.bindAddress e = (bindAddress s e).onBench := by
  obtain ⟨frames, pending, sealed⟩ := s
  unfold Bench.bindAddress bindAddress
  cases Numeral.hexadecimal? e.text with
  | none => rfl
  | some value =>
    dsimp only
    cases h <;> cases bind? value <;> rfl

theorem bench_addRawBlock (h : Nests s.frames) : s.bench.addRawBlock e = (addRawBlock s e).onBench := by
  obtain ⟨frames, pending, sealed⟩ := s
  unfold Bench.addRawBlock addRawBlock
  cases rawCode? e.text.toList with
  | none => rfl
  | some code => cases h <;> rfl

/-- Every step does on a bench what it does to the state. --/
theorem bench_step {strict : Bool} (h : Nests s.frames) :
    ∀ e : Event, s.bench.step strict e = (step strict s e).onBench
  | ⟨.ofClass, .opening, _, _, _⟩ => bench_openClass h
  | ⟨.ofClass, .closing, _, _, _⟩ => bench_closeClass h
  | ⟨.ofFunction, .opening, _, _, _⟩ => bench_openFunction h
  | ⟨.ofFunction, .closing, _, _, _⟩ => bench_closeFunction h
  | ⟨.ofModifier, .opening, line, _, _⟩ => bench_setPart h .modifier line _
  | ⟨.ofReturnType, .opening, line, text, _⟩ =>
    bench_setPart h .returnType line fun f => .ok { f with returnType := text }
  | ⟨.ofConvention, .opening, line, text, _⟩ =>
    bench_setPart h .callingConvention line fun f => .ok { f with callingConvention := text }
  | ⟨.ofParameter, .closing, _, _, _⟩ => bench_addParameter h
  | ⟨.ofVariable, .opening, _, _, _⟩ => bench_openVariable h
  | ⟨.ofVariable, .closing, _, _, _⟩ => bench_closeVariable h
  | ⟨.ofAddress, .opening, _, _, _⟩ => bench_bindAddress h
  | ⟨.ofRawBlock, .opening, _, _, _⟩ => bench_addRawBlock h
  | ⟨.ofPointer, _, _, _, _⟩ | ⟨.ofPlainType, _, _, _, _⟩ => by cases ‹Edge› <;> rfl
  | ⟨.ofParameter, .opening, _, _, _⟩ | ⟨.ofModifier, .closing, _, _, _⟩ | ⟨.ofReturnType, .closing, _, _, _⟩
  | ⟨.ofConvention, .closing, _, _, _⟩ | ⟨.ofAddress, .closing, _, _, _⟩ | ⟨.ofRawBlock, .closing, _, _, _⟩ => rfl

end

/-- Events lead on a bench where they lead a build, with the same notices and the same fault. --/
theorem bench_feed (strict : Bool) (events : List Event) :
    Trail.feed (Bench.step strict) .empty events = ((Trail.feed (step strict) .initial events).1.bench,
      (Trail.feed (step strict) .initial events).2.change .ofBuild id) := by
  have hstep : ∀ s e, Nests s.frames → s.bench.step strict (id e) =
      ((step strict s e).map fun next => (next.1.bench, next.2.map id)).mapError .ofBuild := fun s e hs => by
    simp only [List.map_id]
    exact bench_step hs e
  have hkeeps : ∀ s e t notices, Nests s.frames → step strict s e = .ok (t, notices) → Nests t.frames :=
    fun s e t notices hs h => move_nests hs (step_move h)
  have hfeed := Trail.feed_view hkeeps hstep (s := .initial) .closed events
  rwa [List.map_id] at hfeed

/-! ### Places -/

/-- The stacks of a build, the innermost kind first. --/
def allowedStacks : List Scopes :=
  [[], [.ofClass], [.ofFunction], [.ofVariable], [.ofFunction, .ofClass], [.ofVariable, .ofClass]]

/-- The places of a bench are filled as its stack says. --/
structure Bench.Consistent (b : Bench) : Prop where
  stack : b.stack ∈ allowedStacks
  ofClass : b.openClass.isSome ↔ .ofClass ∈ b.stack
  ofFunction : b.openFunction.isSome ↔ .ofFunction ∈ b.stack
  ofVariable : b.openVariable.isSome ↔ .ofVariable ∈ b.stack

theorem Nests.consistent {s : State} (h : Nests s.frames) : s.bench.Consistent := by
  obtain ⟨frames, pending, sealed⟩ := s
  cases h <;> constructor <;>
    simp [State.bench, State.scopes, allowedStacks, Frame.scope, Frame.toClass?, Frame.toFunction?, Frame.toVariable?]

/-! ### Nested order -/

/-- What an event does to a stack: it opens a declaration, closes the innermost one, or leaves the stack as it is. --/
inductive Stacks : Option (Edge × Scope) → Scopes → Scopes → Prop where
  | keep (stack : Scopes) : Stacks none stack stack
  | push (scope : Scope) (stack : Scopes) : Stacks (some (.opening, scope)) stack (scope :: stack)
  | pop (scope : Scope) (stack : Scopes) : Stacks (some (.closing, scope)) (scope :: stack) stack

section
variable {strict : Bool} {s t : State} {e : Event} {notices : List Notice}

theorem scopes_add (s : State) (d : Declaration) : (s.add d).scopes = s.scopes := by
  unfold State.add
  split
  · rename_i c outer hframes
    simp [State.scopes, hframes, Frame.scope]
  · rfl

theorem openClass_scopes (h : openClass s e = .ok (t, notices)) : t.scopes = .ofClass :: s.scopes := by
  unfold openClass at h
  split at h
  · cases h
  · split at h
    · cases h
    · split at h
      · cases h
      · obtain ⟨rfl, -⟩ := quietly_eq_ok_iff.mp h
        rfl

theorem closeClass_scopes (h : closeClass s = .ok (t, notices)) : s.scopes = .ofClass :: t.scopes := by
  unfold closeClass at h
  split at h
  · rename_i hframes
    cases h
    simp [State.scopes, hframes, Frame.scope]
  · cases h

theorem openFunction_scopes (h : openFunction s e = .ok (t, notices)) : t.scopes = .ofFunction :: s.scopes := by
  unfold openFunction at h
  split at h
  · cases h
  · obtain ⟨rfl, -⟩ := quietly_eq_ok_iff.mp h
    rfl

theorem closeFunction_scopes (h : closeFunction s = .ok (t, notices)) : s.scopes = .ofFunction :: t.scopes := by
  unfold closeFunction at h
  split at h
  · rename_i hframes
    dsimp only at h
    split at h
    · cases h
    · obtain ⟨rfl, -⟩ := quietly_eq_ok_iff.mp h
      rw [scopes_add]
      simp [State.scopes, hframes, Frame.scope]
  · cases h

theorem setPart_scopes {part : FunctionPart} {line : Int} {change : Function → Except BuildFault Function}
    (h : setPart strict s part line change = .ok (t, notices)) : t.scopes = s.scopes := by
  unfold setPart at h
  split at h
  · rename_i hframes
    split at h
    · obtain ⟨rfl, -⟩ := quietly_eq_ok_iff.mp h
      simp [State.scopes, hframes, Frame.scope]
    · cases h
  · split at h <;> cases h
    rfl

theorem addParameter_scopes (h : addParameter s e = .ok (t, notices)) : t.scopes = s.scopes := by
  unfold addParameter at h
  split at h
  · rename_i hframes
    split at h
    · obtain ⟨rfl, -⟩ := quietly_eq_ok_iff.mp h
      simp [State.scopes, hframes, Frame.scope]
    · cases h
  · cases h

theorem openVariable_scopes (h : openVariable s e = .ok (t, notices)) : t.scopes = .ofVariable :: s.scopes := by
  unfold openVariable at h
  split at h
  · cases h
  · obtain ⟨rfl, -⟩ := quietly_eq_ok_iff.mp h
    rfl

theorem closeVariable_scopes (h : closeVariable s e = .ok (t, notices)) : s.scopes = .ofVariable :: t.scopes := by
  unfold closeVariable at h
  split at h
  · rename_i hframes
    split at h
    · dsimp only at h
      split at h
      · cases h
      · obtain ⟨rfl, -⟩ := quietly_eq_ok_iff.mp h
        rw [scopes_add]
        simp [State.scopes, hframes, Frame.scope]
    · cases h
  · cases h

theorem bindAddress_scopes (h : bindAddress s e = .ok (t, notices)) : t.scopes = s.scopes := by
  unfold bindAddress at h
  split at h
  · cases h
  · split at h
    · rename_i hframes _
      obtain ⟨rfl, -⟩ := quietly_eq_ok_iff.mp h
      simp [State.scopes, hframes, Frame.scope]
    · rename_i hframes _
      obtain ⟨rfl, -⟩ := quietly_eq_ok_iff.mp h
      simp [State.scopes, hframes, Frame.scope]
    · cases h
    · cases h
    · cases h

theorem addRawBlock_scopes (h : addRawBlock s e = .ok (t, notices)) : t.scopes = s.scopes := by
  unfold addRawBlock at h
  split at h
  · cases h
  · split at h
    · cases h
    · obtain ⟨rfl, -⟩ := quietly_eq_ok_iff.mp h
      exact scopes_add s _

/-- A step does to the kinds of the open declarations what its event says. --/
theorem step_stacks : ∀ {e : Event}, step strict s e = .ok (t, notices) → Stacks e.bracket? s.scopes t.scopes
  | ⟨.ofClass, .opening, _, _, _⟩, h => by
    rw [openClass_scopes h]
    exact .push .ofClass _
  | ⟨.ofClass, .closing, _, _, _⟩, h => by
    rw [closeClass_scopes h]
    exact .pop .ofClass _
  | ⟨.ofFunction, .opening, _, _, _⟩, h => by
    rw [openFunction_scopes h]
    exact .push .ofFunction _
  | ⟨.ofFunction, .closing, _, _, _⟩, h => by
    rw [closeFunction_scopes h]
    exact .pop .ofFunction _
  | ⟨.ofVariable, .opening, _, _, _⟩, h => by
    rw [openVariable_scopes h]
    exact .push .ofVariable _
  | ⟨.ofVariable, .closing, _, _, _⟩, h => by
    rw [closeVariable_scopes h]
    exact .pop .ofVariable _
  | ⟨.ofModifier, .opening, _, _, _⟩, h | ⟨.ofReturnType, .opening, _, _, _⟩, h
  | ⟨.ofConvention, .opening, _, _, _⟩, h => by
    unfold step at h
    rw [setPart_scopes h]
    exact .keep _
  | ⟨.ofParameter, .closing, _, _, _⟩, h => by
    rw [addParameter_scopes h]
    exact .keep _
  | ⟨.ofAddress, .opening, _, _, _⟩, h => by
    rw [bindAddress_scopes h]
    exact .keep _
  | ⟨.ofRawBlock, .opening, _, _, _⟩, h => by
    rw [addRawBlock_scopes h]
    exact .keep _
  | ⟨.ofPointer, edge, _, _, _⟩, h | ⟨.ofPlainType, edge, _, _, _⟩, h => by
    cases edge <;> cases h <;> exact .keep _
  | ⟨.ofModifier, .closing, _, _, _⟩, h | ⟨.ofReturnType, .closing, _, _, _⟩, h
  | ⟨.ofConvention, .closing, _, _, _⟩, h | ⟨.ofParameter, .opening, _, _, _⟩, h
  | ⟨.ofAddress, .closing, _, _, _⟩, h | ⟨.ofRawBlock, .closing, _, _, _⟩, h => by
    cases h
    exact .keep _

end

/-- Every declaration that opens closes, and what opens in between closes before it. --/
inductive NestedOrder : List (Edge × Scope) → Prop where
  | nil : NestedOrder []
  | enclose (scope : Scope) {inside behind : List (Edge × Scope)} (inner : NestedOrder inside)
      (outer : NestedOrder behind) : NestedOrder ((.opening, scope) :: inside ++ (.closing, scope) :: behind)

/-- What closes the declarations of a stack, from the innermost, and nothing else that does not open first. --/
def ClosesStack : Scopes → List (Edge × Scope) → Prop
  | [], brackets => NestedOrder brackets
  | scope :: outer, brackets =>
    ∃ inside behind, brackets = inside ++ (.closing, scope) :: behind ∧ NestedOrder inside ∧ ClosesStack outer behind

theorem ClosesStack.push {scope : Scope} {stack : Scopes} {brackets : List (Edge × Scope)}
    (h : ClosesStack (scope :: stack) brackets) : ClosesStack stack ((.opening, scope) :: brackets) := by
  obtain ⟨inside, behind, rfl, hinside, hbehind⟩ := h
  cases stack with
  | nil => exact .enclose scope hinside hbehind
  | cons outer stack =>
    -- What has opened and closed stands before the end of the declaration around it.
    obtain ⟨inside', behind', rfl, hinside', hbehind'⟩ := hbehind
    refine ⟨(.opening, scope) :: inside ++ (.closing, scope) :: inside', behind', ?_, ?_, hbehind'⟩
    · simp
    · exact .enclose scope hinside hinside'

theorem ClosesStack.of_stacks {bracket : Option (Edge × Scope)} {stack next : Scopes} {brackets : List (Edge × Scope)}
    (h : ClosesStack next brackets) (effect : Stacks bracket stack next) :
    ClosesStack stack (bracket.toList ++ brackets) := by
  cases effect with
  | keep => exact h
  | push scope => exact h.push
  | pop scope => exact ⟨[], brackets, rfl, .nil, h⟩

/-- Events that lead to a state in which nothing is open have closed what was open before. --/
theorem closesStack_of_feed {strict : Bool} : ∀ {events : List Event} {s : State},
    (Trail.feed (step strict) s events).2.fault = none → (Trail.feed (step strict) s events).1.frames = [] →
      ClosesStack s.scopes (events.filterMap Event.bracket?)
  | [], s, _, hclosed => by
    have hscopes : s.scopes = [] := congrArg (List.map Frame.scope) hclosed
    rw [hscopes]
    exact .nil
  | e :: events, s, hfault, hclosed => by
    cases h : step strict s e with
    | error fault =>
      rw [Trail.feed_cons_error h] at hfault
      cases hfault
    | ok next =>
      rw [Trail.feed_cons_ok h] at hfault hclosed
      have hbrackets : (e :: events).filterMap Event.bracket? = e.bracket?.toList ++ events.filterMap Event.bracket? := by
        cases hbracket : e.bracket? <;> simp [hbracket]
      rw [hbrackets]
      exact (closesStack_of_feed hfault hclosed).of_stacks (step_stacks h)

end Build

/-- Whatever the events, at most a class and a function or a variable of it are open, and every place of a bench is
    filled as the stack says. So no step on a bench finds a place empty that it needs, building there comes to the same
    as any build, and declarations of which a program is built were closed in nested order. The events are all there
    are or those up to any one of them, so that the states are all those of a build. --/
theorem contexts_consistent (strict : Bool) (events : List Event) :
    (Trail.feed (Build.Bench.step strict) .empty events).1.Consistent ∧
    (∀ fault, (Trail.feed (Build.Bench.step strict) .empty events).2.fault = some fault →
      ∃ known, fault = .ofBuild known) ∧
    Trail.feed (Build.Bench.step strict) .empty events =
      ((Trail.feed (Build.step strict) .initial events).1.bench,
        (Trail.feed (Build.step strict) .initial events).2.change .ofBuild id) ∧
    ∀ p, (build strict (.whole events)).program = .ok p → Build.NestedOrder (events.filterMap Event.bracket?) := by
  have hfeed := Build.bench_feed strict events
  have hnests : Build.Nests (Trail.feed (Build.step strict) .initial events).1.frames :=
    Build.feed_keeps_moves (fun _ _ _ => Build.move_nests) .closed events
  refine ⟨?_, fun fault hfault => ?_, hfeed, fun p hp => ?_⟩
  · rw [hfeed]
    exact hnests.consistent
  · rw [hfeed] at hfault
    obtain ⟨known, -, rfl⟩ := Option.map_eq_some_iff.mp hfault
    exact ⟨known, rfl⟩
  · obtain ⟨hfault, -, hclosed, -⟩ := build_program_eq_ok hp
    exact Build.closesStack_of_feed hfault hclosed

end Overlay
