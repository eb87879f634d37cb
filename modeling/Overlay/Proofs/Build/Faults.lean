import Overlay.Build.Program
import Overlay.Proofs.Feed

/-! Why builds fail. A step that refuses an event says why in a diagnostic, with one exception: the numeral of an
    address may carry a sign, and an address below zero is only found out where a function or a variable is bound to
    it. Nothing else that an event says, whatever its texts, ends a build without a diagnostic. -/

namespace Overlay

/-- A fault with a diagnostic. --/
def BuildFault.Explained (fault : BuildFault) : Prop := ∃ d, fault.diagnostic? = some d

/-- A diagnostic of a build speaks of the stream or of its declarations. --/
theorem BuildFault.family_eq {fault : BuildFault} {d : Diagnostic} (h : fault.diagnostic? = some d) :
    d.family = .internal ∨ d.family = .semantic ∨ d.family = .missingBinding := by
  cases fault with
  | inconsistent | nesting =>
    cases h
    exact Or.inl rfl
  | mistaken =>
    cases h
    exact Or.inr (Or.inl rfl)
  | unbound =>
    cases h
    exact Or.inr (Or.inr rfl)
  | negative | tree => cases h

namespace Build

/-! ### Handlers -/

/-- A step that has a diagnostic for its fault, if it refuses. --/
def Step.Explains (result : Step) : Prop := ∀ fault, result = .error fault → fault.Explained

theorem explains_ok (next : State × List Notice) : Step.Explains (.ok next) := nofun

theorem explains_fault {fault : BuildFault} (h : fault.Explained) : Step.Explains (.error fault) := fun found hfound => by
  cases hfound
  exact h

theorem explains_error {fault : BuildFault} {d : Diagnostic} (h : fault.diagnostic? = some d) :
    Step.Explains (.error fault) := explains_fault ⟨d, h⟩

section
variable {strict : Bool} {s : State} {e : Event}

theorem openClass_explains : (openClass s e).Explains := by
  unfold openClass
  split
  · exact explains_error rfl
  · split
    · exact explains_error rfl
    · split
      · exact explains_error rfl
      · exact explains_ok _

theorem closeClass_explains : (closeClass s).Explains := by
  unfold closeClass
  split
  · exact explains_ok _
  · exact explains_error rfl

theorem openFunction_explains : (openFunction s e).Explains := by
  unfold openFunction
  split
  · exact explains_error rfl
  · exact explains_ok _

theorem functionFault?_explained {owner : Option Class} {f : Function} {fault : BuildFault}
    (h : functionFault? owner f = some fault) : fault.Explained := by
  unfold functionFault? at h
  split at h
  · split at h <;> cases h
    exact ⟨_, rfl⟩
  · split at h
    · cases h
      exact ⟨_, rfl⟩
    · split at h <;> cases h
      exact ⟨_, rfl⟩

theorem closeFunction_explains : (closeFunction s).Explains := by
  unfold closeFunction
  split
  · dsimp only
    split
    · rename_i hfault
      exact explains_fault (functionFault?_explained hfault)
    · exact explains_ok _
  · exact explains_error rfl

theorem setPart_explains {part : FunctionPart} {line : Int} {change : Function → Except BuildFault Function}
    (hchange : ∀ f fault, change f = .error fault → fault.Explained) :
    (setPart strict s part line change).Explains := by
  unfold setPart
  split
  · split
    · exact explains_ok _
    · rename_i hfault
      exact explains_fault (hchange _ _ hfault)
  · split
    · exact explains_error rfl
    · exact explains_ok _

theorem setModifier_explains : (setModifier strict s e).Explains := by
  refine setPart_explains fun f fault hfault => ?_
  split at hfault <;> cases hfault
  exact ⟨_, rfl⟩

theorem setReturnType_explains : (setReturnType strict s e).Explains :=
  setPart_explains fun f fault hfault => by cases hfault

theorem setConvention_explains : (setConvention strict s e).Explains :=
  setPart_explains fun f fault hfault => by cases hfault

theorem addParameter_explains : (addParameter s e).Explains := by
  unfold addParameter
  split
  · split
    · exact explains_ok _
    · exact explains_error rfl
  · exact explains_error rfl

theorem openVariable_explains : (openVariable s e).Explains := by
  unfold openVariable
  split
  · exact explains_error rfl
  · exact explains_ok _

theorem variableFault?_explained {owner : Option Class} {v : Variable} {fault : BuildFault}
    (h : variableFault? owner v = some fault) : fault.Explained := by
  unfold variableFault? at h
  split at h
  · split at h <;> cases h
    exact ⟨_, rfl⟩
  · split at h <;> cases h
    exact ⟨_, rfl⟩

theorem closeVariable_explains : (closeVariable s e).Explains := by
  unfold closeVariable
  split
  · split
    · dsimp only
      split
      · rename_i hfault
        exact explains_fault (variableFault?_explained hfault)
      · exact explains_ok _
    · exact explains_error rfl
  · exact explains_error rfl

theorem addRawBlock_explains : (addRawBlock s e).Explains := by
  unfold addRawBlock
  split
  · exact explains_error rfl
  · split
    · exact explains_error rfl
    · exact explains_ok _

end

/-! ### Addresses -/

/-- An event binds the innermost open declaration to an address below zero. --/
structure State.BindsBelowZero (s : State) (e : Event) (binding : NegativeBinding) : Prop where
  subject : e.subject = .ofAddress
  edge : e.edge = .opening
  inside : s.insideLeaf = true
  value : Numeral.hexadecimal? e.text = some binding.value
  negative : binding.value < 0

section
variable {strict : Bool} {s : State} {e : Event} {fault : BuildFault} {binding : NegativeBinding}

theorem bind?_eq_error_iff {value : Int} : bind? value = .error binding ↔ value = binding.value ∧ binding.value < 0 := by
  obtain ⟨found⟩ := binding
  unfold bind?
  split
  · simp only [Except.error.injEq, NegativeBinding.mk.injEq]
    omega
  · simp only [reduceCtorEq, false_iff]
    omega

theorem insideLeaf_iff : s.insideLeaf = true ↔
    (∃ f outer, s.frames = .ofFunction f :: outer) ∨ ∃ v outer, s.frames = .ofVariable v :: outer := by
  obtain ⟨_ | ⟨_ | _ | _, outer⟩, pending, sealed⟩ := s <;> simp [State.insideLeaf]

/-- An address is refused with a diagnostic, or because it is below zero where it would be bound. --/
theorem bindAddress_fault (hsubject : e.subject = .ofAddress) (hedge : e.edge = .opening)
    (h : bindAddress s e = .error fault) :
    fault.Explained ∨ ∃ binding, fault = .negative binding ∧ s.BindsBelowZero e binding := by
  unfold bindAddress at h
  split at h
  · cases h
    exact Or.inl ⟨_, rfl⟩
  · rename_i value hvalue
    split at h
    · cases h
    · cases h
    · rename_i f outer binding hframes hbind
      cases h
      obtain ⟨rfl, hnegative⟩ := bind?_eq_error_iff.mp hbind
      exact Or.inr ⟨binding, rfl, hsubject, hedge, insideLeaf_iff.mpr (Or.inl ⟨f, outer, hframes⟩), hvalue, hnegative⟩
    · rename_i v outer binding hframes hbind
      cases h
      obtain ⟨rfl, hnegative⟩ := bind?_eq_error_iff.mp hbind
      exact Or.inr ⟨binding, rfl, hsubject, hedge, insideLeaf_iff.mpr (Or.inr ⟨v, outer, hframes⟩), hvalue, hnegative⟩
    · cases h
      exact Or.inl ⟨_, rfl⟩

theorem State.BindsBelowZero.step (h : s.BindsBelowZero e binding) : step strict s e = .error (.negative binding) := by
  have hbind : bind? binding.value = .error binding := bind?_eq_error_iff.mpr ⟨rfl, h.negative⟩
  unfold Build.step
  rw [h.subject, h.edge]
  change bindAddress s e = _
  unfold bindAddress
  rcases insideLeaf_iff.mp h.inside with ⟨f, outer, hframes⟩ | ⟨v, outer, hframes⟩
  · simp only [h.value, hframes, hbind]
  · simp only [h.value, hframes, hbind]

/-! ### Steps -/

/-- A step refuses an event with a diagnostic, or because it binds below zero. --/
theorem step_fault : ∀ {e : Event}, step strict s e = .error fault →
    fault.Explained ∨ ∃ binding, fault = .negative binding ∧ s.BindsBelowZero e binding
  | ⟨.ofClass, .opening, _, _, _⟩, h => Or.inl (openClass_explains fault h)
  | ⟨.ofClass, .closing, _, _, _⟩, h => Or.inl (closeClass_explains fault h)
  | ⟨.ofFunction, .opening, _, _, _⟩, h => Or.inl (openFunction_explains fault h)
  | ⟨.ofFunction, .closing, _, _, _⟩, h => Or.inl (closeFunction_explains fault h)
  | ⟨.ofModifier, .opening, _, _, _⟩, h => Or.inl (setModifier_explains fault h)
  | ⟨.ofReturnType, .opening, _, _, _⟩, h => Or.inl (setReturnType_explains fault h)
  | ⟨.ofConvention, .opening, _, _, _⟩, h => Or.inl (setConvention_explains fault h)
  | ⟨.ofParameter, .closing, _, _, _⟩, h => Or.inl (addParameter_explains fault h)
  | ⟨.ofVariable, .opening, _, _, _⟩, h => Or.inl (openVariable_explains fault h)
  | ⟨.ofVariable, .closing, _, _, _⟩, h => Or.inl (closeVariable_explains fault h)
  | ⟨.ofAddress, .opening, _, _, _⟩, h => bindAddress_fault rfl rfl h
  | ⟨.ofRawBlock, .opening, _, _, _⟩, h => Or.inl (addRawBlock_explains fault h)
  | ⟨.ofPointer, edge, _, _, _⟩, h | ⟨.ofPlainType, edge, _, _, _⟩, h => by cases edge <;> cases h
  | ⟨.ofModifier, .closing, _, _, _⟩, h | ⟨.ofReturnType, .closing, _, _, _⟩, h
  | ⟨.ofConvention, .closing, _, _, _⟩, h | ⟨.ofParameter, .opening, _, _, _⟩, h
  | ⟨.ofAddress, .closing, _, _, _⟩, h | ⟨.ofRawBlock, .closing, _, _, _⟩, h => by cases h

end

/-! ### Streams -/

/-- A stream binds a declaration to an address below zero, by an event that comes after others that are all
    taken. --/
def BindsBelowZero (strict : Bool) (events : List Event) (binding : NegativeBinding) : Prop :=
  ∃ before e after s, events = before ++ e :: after ∧ Trail.reach (step strict) .initial before = .ok s ∧
    s.BindsBelowZero e binding

section
variable {strict : Bool} {events : List Event} {fault : BuildFault}

theorem build_of_feed_fault (h : (Trail.feed (step strict) .initial events).2.fault = some fault) :
    (build strict (.whole events)).program = .error fault := by
  unfold build
  simp only [Trail.whole, h]

/-- A build of a whole stream fails in a step, or as declarations are left open. --/
theorem build_eq_error (h : (build strict (.whole events)).program = .error fault) :
    (Trail.feed (step strict) .initial events).2.fault = some fault ∨ ∃ unclosed, fault = .nesting unclosed := by
  cases hfeed : (Trail.feed (step strict) .initial events).2.fault with
  | some found =>
    rw [build_of_feed_fault hfeed] at h
    cases h
    exact Or.inl rfl
  | none =>
    simp only [build, Trail.whole, hfeed, finish] at h
    split at h
    · rename_i hfinish
      split at hfinish <;> cases hfinish
      cases h
    · rename_i hfinish
      split at hfinish <;> cases hfinish
      cases h
      exact Or.inr ⟨_, rfl⟩

/-- A build of a whole stream fails with a diagnostic, or because the stream binds below zero. --/
theorem build_whole_fault (h : (build strict (.whole events)).program = .error fault) :
    fault.Explained ∨ ∃ binding, fault = .negative binding ∧ BindsBelowZero strict events binding := by
  rcases build_eq_error h with hfeed | ⟨unclosed, rfl⟩
  · obtain ⟨before, e, after, s, hevents, hreach, hstep⟩ := Trail.feed_fault_iff.mp hfeed
    rcases step_fault hstep with hexplained | ⟨binding, rfl, hbinds⟩
    · exact Or.inl hexplained
    · exact Or.inr ⟨binding, rfl, before, e, after, s, hevents, hreach, hbinds⟩
  · exact Or.inl ⟨_, rfl⟩

theorem build_of_bindsBelowZero {binding : NegativeBinding} (h : BindsBelowZero strict events binding) :
    (build strict (.whole events)).program = .error (.negative binding) := by
  obtain ⟨before, e, after, s, hevents, hreach, hbinds⟩ := h
  exact build_of_feed_fault (Trail.feed_fault_iff.mpr ⟨before, e, after, s, hevents, hreach, hbinds.step⟩)

end

end Build
end Overlay
