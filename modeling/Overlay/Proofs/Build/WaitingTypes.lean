import Mathlib.Data.List.Induction
import Overlay.Proofs.Build.Bench

/-! The types of parameters and variables. A type comes in an event of its own before the end of the parameter or
    variable that it is for. It waits until one ends, which takes it, so no type is taken twice, and of several types
    that come one after the other only the last is taken. Parameters and variables end in the order in which they stand
    in the program, because a declaration is closed before another opens beside it. -/

namespace Overlay

/-! ### Types in a stream -/

namespace Event

/-- The type that an event brings. --/
def broughtType? (e : Event) : Option String :=
  match e.subject, e.edge with
  | .ofPointer, .opening => some (e.text ++ "*")
  | .ofPlainType, .opening => some e.text
  | _, _ => none

/-- Whether an event takes a type: it ends a parameter or a variable. --/
def takesType (e : Event) : Bool := e.edge == .closing && (e.subject == .ofParameter || e.subject == .ofVariable)

end Event

/-- The type that waits after events: the last one that was brought since a type was taken. --/
def waitingType (events : List Event) : Option String :=
  (events.reverse.takeWhile fun e => !e.takesType).findSome? Event.broughtType?

theorem waitingType_concat (events : List Event) (e : Event) :
    waitingType (events ++ [e]) = if e.takesType then none else e.broughtType?.or (waitingType events) := by
  unfold waitingType
  rw [List.reverse_concat, List.takeWhile_cons]
  cases e.takesType with
  | true => rfl
  | false =>
    simp only [Bool.not_false, if_true, List.findSome?_cons]
    cases e.broughtType? <;> rfl

theorem Event.broughtType?_of_takesType {e : Event} (h : e.takesType = true) : e.broughtType? = none := by
  obtain ⟨subject, edge, line, text, names⟩ := e
  cases edge with
  | opening => cases h
  | closing => cases subject <;> rfl

/-- The type that waits was brought by one of the events, and those behind it neither take a type nor bring one. --/
theorem waitingType_eq_some_iff {events : List Event} {type : String} : waitingType events = some type ↔
    ∃ earlier bringing between, events = earlier ++ bringing :: between ∧ bringing.broughtType? = some type ∧
      ∀ b ∈ between, b.takesType = false ∧ b.broughtType? = none := by
  constructor
  · intro h
    induction events using List.reverseRecOn with
    | nil => cases h
    | append_singleton events e ih =>
      rw [waitingType_concat] at h
      split at h
      · cases h
      · rename_i hleaves
        cases hbrought : e.broughtType? with
        | some brought =>
          rw [hbrought] at h
          cases h
          exact ⟨events, e, [], rfl, hbrought, by simp⟩
        | none =>
          rw [hbrought] at h
          obtain ⟨earlier, bringing, between, rfl, hbrings, hbetween⟩ := ih h
          refine ⟨earlier, bringing, between ++ [e], by simp, hbrings, fun b hb => ?_⟩
          rcases List.mem_append.mp hb with hb | hb
          · exact hbetween b hb
          · obtain rfl := List.mem_singleton.mp hb
            exact ⟨by simpa using hleaves, hbrought⟩
  · rintro ⟨earlier, bringing, between, rfl, hbrings, hbetween⟩
    induction between using List.reverseRecOn with
    | nil =>
      have hleaves : ¬bringing.takesType = true := fun takes => by
        rw [Event.broughtType?_of_takesType takes] at hbrings
        cases hbrings
      rw [waitingType_concat, if_neg hleaves, hbrings, Option.some_or]
    | append_singleton between e ih =>
      obtain ⟨hleaves, hnone⟩ := hbetween e (by simp)
      have hlist : earlier ++ bringing :: (between ++ [e]) = (earlier ++ bringing :: between) ++ [e] := by simp
      rw [hlist, waitingType_concat, hleaves, hnone, if_neg Bool.false_ne_true, Option.none_or]
      exact ih fun b hb => hbetween b (List.mem_append_left _ hb)

/-! ### Parameters and variables of a program -/

/-- A parameter or a variable, with its type. --/
structure TypedPart where
  subject : Subject
  name : String
  type : String
deriving DecidableEq, Repr

def Parameter.typedPart (p : Parameter) : TypedPart := ⟨.ofParameter, p.name, p.type⟩

def Variable.typedPart (v : Variable) : TypedPart := ⟨.ofVariable, v.name, v.type⟩

mutual

def Class.typedParts : Class → List TypedPart
  | ⟨_, _, members, _⟩ => Declaration.typedPartsOfAll members

def Declaration.typedParts : Declaration → List TypedPart
  | .ofClass c => c.typedParts
  | .ofFunction f => f.parameters.map Parameter.typedPart
  | .ofVariable v => [v.typedPart]
  | .ofRawBlock _ => []
  | .ofParameter p => [p.typedPart]

def Declaration.typedPartsOfAll : List Declaration → List TypedPart
  | [] => []
  | d :: ds => d.typedParts ++ Declaration.typedPartsOfAll ds

end

/-- The parameters and variables of a program, in the order of their declarations. --/
def Program.typedParts (p : Program) : List TypedPart := Declaration.typedPartsOfAll p.declarations

theorem Declaration.typedPartsOfAll_concat (ds : List Declaration) (d : Declaration) :
    typedPartsOfAll (ds ++ [d]) = typedPartsOfAll ds ++ d.typedParts := by
  induction ds with
  | nil => simp [typedPartsOfAll]
  | cons d' ds ih => rw [List.cons_append, typedPartsOfAll, typedPartsOfAll, ih, List.append_assoc]

namespace Build

/-! ### Steps -/

/-- The parameters and variables of an open declaration that are closed. --/
def Frame.typedParts : Frame → List TypedPart
  | .ofClass c => c.typedParts
  | .ofFunction f => f.parameters.map Parameter.typedPart
  | .ofVariable _ => []

/-- The parameters and variables that are closed, in the order of their declarations. --/
def State.typedParts (s : State) : List TypedPart :=
  Declaration.typedPartsOfAll s.sealed ++ s.frames.reverse.flatMap Frame.typedParts

/-- What an event does to the type that waits and to the parameters and variables: it takes the one for another of the
    others, or it leaves these as they are and may bring a type. --/
inductive Uses (e : Event) (s t : State) : Prop where
  | take (type : String) (takes : e.takesType = true) (waiting : s.pending = some type) (taken : t.pending = none)
      (parts : t.typedParts = s.typedParts ++ [⟨e.subject, e.text, type⟩])
  | leave (leaves : e.takesType = false) (pending : t.pending = e.broughtType?.or s.pending)
      (parts : t.typedParts = s.typedParts)

section
variable {strict : Bool} {s t : State} {e : Event} {notices : List Notice}

theorem typedParts_openFrame (frame : Frame) : (s.openFrame frame).typedParts = s.typedParts ++ frame.typedParts := by
  simp [State.typedParts, State.openFrame, List.flatMap_append]

theorem typedParts_add (h : NestsMember s.frames) (d : Declaration) :
    (s.add d).typedParts = s.typedParts ++ d.typedParts := by
  obtain ⟨frames, pending, sealed⟩ := s
  cases h with
  | closed => simp [State.typedParts, State.add, Declaration.typedPartsOfAll_concat]
  | ofClass c =>
    obtain ⟨name, bases, members, line⟩ := c
    simp [State.typedParts, State.add, Frame.typedParts, Class.typedParts, Declaration.typedPartsOfAll_concat]

/-- The type that waits and the parameters and variables stay. --/
def Kept (s t : State) : Prop := t.pending = s.pending ∧ t.typedParts = s.typedParts

theorem kept_openFrame {frame : Frame} (h : frame.typedParts = []) : Kept s (s.openFrame frame) :=
  ⟨rfl, by rw [typedParts_openFrame, h, List.append_nil]⟩

theorem kept_innermost {frame changed : Frame} {outer : List Frame} (innermost : s.frames = frame :: outer)
    (h : changed.typedParts = frame.typedParts) : Kept s { s with frames := changed :: outer } :=
  ⟨rfl, by simp [State.typedParts, innermost, h]⟩

theorem pending_add (d : Declaration) : (s.add d).pending = s.pending := by
  unfold State.add
  split <;> rfl

theorem openClass_kept (h : openClass s e = .ok (t, notices)) : Kept s t := by
  unfold openClass at h
  split at h
  · cases h
  split at h
  · cases h
  split at h
  · cases h
  · cases h
    exact kept_openFrame rfl

theorem closeClass_kept (hs : Nests s.frames) (h : closeClass s = .ok (t, notices)) : Kept s t := by
  obtain ⟨frames, pending, sealed⟩ := s
  cases hs with
  | ofClass c =>
    cases h
    refine ⟨rfl, ?_⟩
    simp [State.typedParts, Frame.typedParts, Declaration.typedPartsOfAll_concat, Declaration.typedParts]
  | _ => cases h

theorem openFunction_kept (h : openFunction s e = .ok (t, notices)) : Kept s t := by
  unfold openFunction at h
  split at h
  · cases h
  · cases h
    exact kept_openFrame rfl

theorem closeFunction_kept (hs : Nests s.frames) (h : closeFunction s = .ok (t, notices)) : Kept s t := by
  unfold closeFunction at h
  split at h
  · rename_i f outer hframes
    dsimp only at h
    split at h
    · cases h
    · cases h
      refine ⟨pending_add _, ?_⟩
      rw [hframes] at hs
      rw [typedParts_add hs.aroundFunction]
      simp [State.typedParts, hframes, Frame.typedParts, Declaration.typedParts]
  · cases h

theorem setPart_kept {part : FunctionPart} {line : Int} {change : Function → Except BuildFault Function}
    (hchange : ∀ f g, change f = .ok g → g.parameters = f.parameters)
    (h : setPart strict s part line change = .ok (t, notices)) : Kept s t := by
  unfold setPart at h
  split at h
  · rename_i f outer hframes
    split at h
    · rename_i g hg
      cases h
      exact kept_innermost hframes (congrArg (List.map Parameter.typedPart) (hchange f g hg))
    · cases h
  · split at h
    · cases h
    · cases h
      exact ⟨rfl, rfl⟩

theorem setModifier_kept (h : setModifier strict s e = .ok (t, notices)) : Kept s t := by
  refine setPart_kept (fun f g hg => ?_) h
  split at hg <;> cases hg
  rfl

theorem setReturnType_kept (h : setReturnType strict s e = .ok (t, notices)) : Kept s t := by
  refine setPart_kept (fun f g hg => ?_) h
  cases hg
  rfl

theorem setConvention_kept (h : setConvention strict s e = .ok (t, notices)) : Kept s t := by
  refine setPart_kept (fun f g hg => ?_) h
  cases hg
  rfl

theorem openVariable_kept (h : openVariable s e = .ok (t, notices)) : Kept s t := by
  unfold openVariable at h
  split at h
  · cases h
  · cases h
    exact kept_openFrame rfl

theorem bindAddress_kept (h : bindAddress s e = .ok (t, notices)) : Kept s t := by
  unfold bindAddress at h
  split at h
  · cases h
  · split at h
    · rename_i f outer n hframes _
      cases h
      exact kept_innermost hframes rfl
    · rename_i v outer n hframes _
      cases h
      exact kept_innermost hframes rfl
    · cases h
    · cases h
    · cases h

theorem addRawBlock_kept (hs : Nests s.frames) (h : addRawBlock s e = .ok (t, notices)) : Kept s t := by
  unfold addRawBlock at h
  split at h
  · cases h
  · split at h
    · cases h
    · rename_i houtside
      cases h
      refine ⟨pending_add _, ?_⟩
      rw [typedParts_add (hs.outside (by simpa using houtside))]
      exact List.append_nil _

/-- The end of a parameter takes the type that waits. --/
theorem addParameter_takes (h : addParameter s e = .ok (t, notices)) : ∃ type, s.pending = some type ∧
    t.pending = none ∧ t.typedParts = s.typedParts ++ [⟨.ofParameter, e.text, type⟩] := by
  unfold addParameter at h
  split at h
  · rename_i f outer hframes
    split at h
    · rename_i type hpending
      cases h
      refine ⟨type, hpending, rfl, ?_⟩
      simp [State.typedParts, hframes, Frame.typedParts, Parameter.typedPart]
    · cases h
  · cases h

/-- The end of a variable takes the type that waits. --/
theorem closeVariable_takes (hs : Nests s.frames) (h : closeVariable s e = .ok (t, notices)) : ∃ type,
    s.pending = some type ∧ t.pending = none ∧ t.typedParts = s.typedParts ++ [⟨.ofVariable, e.text, type⟩] := by
  unfold closeVariable at h
  split at h
  · rename_i v outer hframes
    split at h
    · rename_i type hpending
      dsimp only at h
      split at h
      · cases h
      · cases h
        refine ⟨type, hpending, pending_add _, ?_⟩
        rw [hframes] at hs
        rw [typedParts_add hs.aroundVariable]
        simp [State.typedParts, hframes, Frame.typedParts, Declaration.typedParts, Variable.typedPart]
    · cases h
  · cases h

/-- A step takes a type where its event ends a parameter or a variable, and only there. --/
theorem step_uses (hs : Nests s.frames) : ∀ {e : Event}, step strict s e = .ok (t, notices) → Uses e s t
  | ⟨.ofClass, .opening, _, _, _⟩, h => (openClass_kept h).elim (.leave rfl)
  | ⟨.ofClass, .closing, _, _, _⟩, h => (closeClass_kept hs h).elim (.leave rfl)
  | ⟨.ofFunction, .opening, _, _, _⟩, h => (openFunction_kept h).elim (.leave rfl)
  | ⟨.ofFunction, .closing, _, _, _⟩, h => (closeFunction_kept hs h).elim (.leave rfl)
  | ⟨.ofModifier, .opening, _, _, _⟩, h => (setModifier_kept h).elim (.leave rfl)
  | ⟨.ofReturnType, .opening, _, _, _⟩, h => (setReturnType_kept h).elim (.leave rfl)
  | ⟨.ofConvention, .opening, _, _, _⟩, h => (setConvention_kept h).elim (.leave rfl)
  | ⟨.ofParameter, .closing, _, _, _⟩, h => by
    obtain ⟨type, waiting, taken, parts⟩ := addParameter_takes h
    exact .take type rfl waiting taken parts
  | ⟨.ofVariable, .opening, _, _, _⟩, h => (openVariable_kept h).elim (.leave rfl)
  | ⟨.ofVariable, .closing, _, _, _⟩, h => by
    obtain ⟨type, waiting, taken, parts⟩ := closeVariable_takes hs h
    exact .take type rfl waiting taken parts
  | ⟨.ofAddress, .opening, _, _, _⟩, h => (bindAddress_kept h).elim (.leave rfl)
  | ⟨.ofRawBlock, .opening, _, _, _⟩, h => (addRawBlock_kept hs h).elim (.leave rfl)
  | ⟨.ofPointer, edge, _, _, _⟩, h | ⟨.ofPlainType, edge, _, _, _⟩, h => by
    cases edge <;> cases h <;> exact .leave rfl rfl rfl
  | ⟨.ofModifier, .closing, _, _, _⟩, h | ⟨.ofReturnType, .closing, _, _, _⟩, h
  | ⟨.ofConvention, .closing, _, _, _⟩, h | ⟨.ofParameter, .opening, _, _, _⟩, h
  | ⟨.ofAddress, .closing, _, _, _⟩, h | ⟨.ofRawBlock, .closing, _, _, _⟩, h => by
    cases h
    exact .leave rfl rfl rfl

end

/-! ### Builds -/

section
variable {strict : Bool} {s t : State} {events : List Event} {notices : List Notice}

theorem runs_nests (h : Trail.Runs (step strict) s events notices t) (hs : Nests s.frames) : Nests t.frames := by
  induction h with
  | nil => exact hs
  | cons head _ ih => exact ih (move_nests hs (step_move head))

/-- The type that waits in a state is the one that waits after the events that have led there. --/
theorem runs_pending (h : Trail.Runs (step strict) s events notices t) (hs : Nests s.frames) {earlier : List Event}
    (hpending : s.pending = waitingType earlier) : t.pending = waitingType (earlier ++ events) := by
  induction h generalizing earlier with
  | nil => rwa [List.append_nil]
  | @cons s next last e events _ _ head _ ih =>
    have hnext : next.pending = waitingType (earlier ++ [e]) := by
      rw [waitingType_concat, ← hpending]
      cases step_uses hs head with
      | take type takes _ taken => rw [taken, if_pos takes]
      | leave leaves pending => rw [pending, if_neg (by rw [leaves]; exact Bool.false_ne_true)]
    have hlast := ih (move_nests hs (step_move head)) hnext
    rwa [List.append_assoc] at hlast

/-- Each event that takes a type adds one parameter or variable, behind those that are there. --/
theorem runs_typedParts (h : Trail.Runs (step strict) s events notices t) (hs : Nests s.frames) :
    ∃ parts, t.typedParts = s.typedParts ++ parts ∧ parts.length = events.countP Event.takesType := by
  induction h with
  | nil => exact ⟨[], (List.append_nil _).symm, rfl⟩
  | @cons s next last e events _ _ head _ ih =>
    obtain ⟨parts, hparts, hlength⟩ := ih (move_nests hs (step_move head))
    cases step_uses hs head with
    | take type takes _ _ added =>
      refine ⟨⟨e.subject, e.text, type⟩ :: parts, ?_, ?_⟩
      · rw [hparts, added, List.append_assoc]
        rfl
      · rw [List.countP_cons_of_pos takes, List.length_cons, hlength]
    | leave leaves _ kept =>
      refine ⟨parts, by rw [hparts, kept], ?_⟩
      rw [List.countP_cons_of_neg (by rw [leaves]; exact Bool.false_ne_true), hlength]

/-- An event that takes a type takes the one that waits there, for the next parameter or variable of the program. --/
theorem takes_waiting {before after : List Event} {e : Event}
    (h : Trail.Runs (step strict) .initial (before ++ e :: after) notices t) (takes : e.takesType = true) :
    ∃ type, waitingType before = some type ∧
      t.typedParts[before.countP Event.takesType]? = some ⟨e.subject, e.text, type⟩ := by
  obtain ⟨s, _, _, -, hbefore, htail⟩ := h.split
  have hs : Nests s.frames := runs_nests hbefore .closed
  have hpending : s.pending = waitingType ([] ++ before) := runs_pending hbefore .closed rfl
  obtain ⟨parts, hparts, hlength⟩ := runs_typedParts hbefore .closed
  cases htail with
  | cons head hafter =>
    obtain ⟨more, hmore, -⟩ := runs_typedParts hafter (move_nests hs (step_move head))
    cases step_uses hs head with
    | take type _ waiting _ added =>
      refine ⟨type, hpending.symm.trans waiting, ?_⟩
      have hall : t.typedParts = parts ++ (⟨e.subject, e.text, type⟩ :: more) := by
        rw [hmore, added, hparts, List.append_assoc]
        rfl
      rw [hall, ← hlength, List.getElem?_append_right (Nat.le_refl _), Nat.sub_self, List.getElem?_cons_zero]
    | leave leaves => exact absurd takes (by simp [leaves])

end
end Build

/-- Where a program is built, each end of a parameter or a variable takes the last type since the end before, so there
    is one; they stand in the program in this order, and there are no others. Where no type waits for one of them, no
    program is built. --/
theorem types_taken_once (strict : Bool) (events : Trail TreeFault Event) :
    (∀ p, (build strict events).program = .ok p →
      p.typedParts.length = events.items.countP Event.takesType ∧
      ∀ before e after, events.items = before ++ e :: after → e.takesType = true →
        ∃ earlier bringing between type, before = earlier ++ bringing :: between ∧
          bringing.broughtType? = some type ∧ (∀ b ∈ between, b.takesType = false ∧ b.broughtType? = none) ∧
          p.typedParts[before.countP Event.takesType]? = some ⟨e.subject, e.text, type⟩) ∧
    ((∃ before e after, events.items = before ++ e :: after ∧ e.takesType = true ∧ waitingType before = none) →
      ∀ p, (build strict events).program ≠ .ok p) := by
  have hbuilt : ∀ p, (build strict events).program = .ok p → ∃ t notices,
      Trail.Runs (Build.step strict) .initial events.items notices t ∧ p.typedParts = t.typedParts := fun p hp => by
    obtain ⟨hfault, -, hclosed, hdeclarations⟩ := build_program_eq_ok hp
    refine ⟨_, _, Trail.runs_of_fault hfault, ?_⟩
    rw [Program.typedParts, hdeclarations, Build.State.typedParts, hclosed]
    exact (List.append_nil _).symm
  refine ⟨fun p hp => ?_, fun ⟨before, e, after, hitems, takes, hnone⟩ p hp => ?_⟩
  · obtain ⟨t, notices, hruns, hp⟩ := hbuilt p hp
    rw [hp]
    refine ⟨?_, fun before e after hitems takes => ?_⟩
    · obtain ⟨parts, hparts, hlength⟩ := Build.runs_typedParts hruns .closed
      rw [hparts, ← hlength]
      rfl
    · rw [hitems] at hruns
      obtain ⟨type, hwaiting, hpart⟩ := Build.takes_waiting hruns takes
      obtain ⟨earlier, bringing, between, hbefore, hbrings, hbetween⟩ := waitingType_eq_some_iff.mp hwaiting
      exact ⟨earlier, bringing, between, type, hbefore, hbrings, hbetween, hpart⟩
  · obtain ⟨t, notices, hruns, -⟩ := hbuilt p hp
    rw [hitems] at hruns
    obtain ⟨type, hwaiting, -⟩ := Build.takes_waiting hruns takes
    rw [hnone] at hwaiting
    cases hwaiting

/-! A function with two parameters, of which the second one's type is replaced before it ends, and a variable behind it.
    Without a type of its own, the second parameter does not get that of the first. -/

def firstParameter : List Event :=
  [.opens .ofFunction 1 "f", .opens .ofAddress 1 "0x4", .opens .ofPlainType 1 "int", .closes .ofParameter 1 "a"]

def secondType : List Event := [.opens .ofPlainType 1 "float", .opens .ofPointer 1 "char"]

def afterParameters : List Event :=
  [.closes .ofFunction 1 "", .opens .ofVariable 2 "", .opens .ofPlainType 2 "int", .opens .ofAddress 2 "0x8",
    .closes .ofVariable 2 "g"]

def typedProgram : Program :=
  ⟨[.ofFunction { Function.opened "f" 1 with parameters := [⟨"a", "int"⟩, ⟨"b", "char*"⟩], address := some 4 },
    .ofVariable { Variable.opened 2 with name := "g", type := "int", offset := some 8 }]⟩

theorem built_typed : (build true (.whole (firstParameter ++ secondType ++ .closes .ofParameter 1 "b" ::
    afterParameters))).program = .ok typedProgram := by
  rfl

theorem types_taken_once_replaced :
    ((build true (.whole (firstParameter ++ secondType ++ .closes .ofParameter 1 "b" :: afterParameters))).program =
        .ok typedProgram ∧ typedProgram.typedParts.length = 3 ∧
      ∃ earlier bringing between type, firstParameter ++ secondType = earlier ++ bringing :: between ∧
        bringing.broughtType? = some type ∧ (∀ b ∈ between, b.takesType = false ∧ b.broughtType? = none) ∧
        typedProgram.typedParts[1]? = some ⟨.ofParameter, "b", type⟩) ∧
    ∀ p, (build true (.whole (firstParameter ++ .closes .ofParameter 1 "b" :: afterParameters))).program ≠ .ok p := by
  obtain ⟨hlength, htakes⟩ := (types_taken_once true _).1 _ built_typed
  refine ⟨⟨built_typed, hlength, htakes _ _ _ rfl rfl⟩, (types_taken_once true _).2 ?_⟩
  exact ⟨firstParameter, .closes .ofParameter 1 "b", afterParameters, rfl, rfl, rfl⟩

end Overlay
