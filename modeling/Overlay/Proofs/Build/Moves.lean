import Overlay.Build.Program
import Overlay.Proofs.Feed

/-! What an event can do to the state of a build. Every step that is not refused is one of a few moves, and what all
    moves keep holds in every state that a stream of events leads to. -/

namespace Overlay
namespace Build

/-- What a part of a function, its address or a parameter changes: all but what makes a pad. --/
structure PartChanged (f g : Function) : Prop where
  name : g.name = f.name
  isPad : g.isPad = f.isPad
  isPublic : g.isPublic = f.isPublic
  line : g.line = f.line

/-- What an event can do to a state, and what is said about it. Only a lenient build drops a part of a function. --/
inductive Move (strict : Bool) : State → State → List Notice → Prop where
  | stay (s : State) : Move strict s s []
  | drop (s : State) (lenient : strict = false) (part : FunctionPart) (line : Int) :
      Move strict s s [.misplaced part line]
  | openClass {s : State} (c : Class) (closed : s.frames = []) (fresh : ∀ d ∈ s.classes, d.name ≠ c.name)
      (empty : c.members = []) : Move strict s (s.openFrame (.ofClass c)) []
  | closeClass {s : State} {c : Class} {outer : List Frame} (innermost : s.frames = .ofClass c :: outer) :
      Move strict s { s with frames := outer, sealed := s.sealed ++ [.ofClass c] } [.sealed c.name c.members.length]
  | openFunction {s : State} (outside : s.insideLeaf = false) (name : String) (line : Int) :
      Move strict s (s.openFrame (.ofFunction (.opened name line))) []
  | changeFunction {s : State} {f g : Function} {outer : List Frame} (innermost : s.frames = .ofFunction f :: outer)
      (changed : PartChanged f g) (pending : Option String) :
      Move strict s { s with frames := .ofFunction g :: outer, pending } []
  | closeFunction {s : State} {f : Function} {outer : List Frame} (innermost : s.frames = .ofFunction f :: outer)
      (sound : functionFault? { s with frames := outer }.owner? f = none) :
      Move strict s ({ s with frames := outer }.add (.ofFunction f)) []
  | openVariable {s : State} (outside : s.insideLeaf = false) (line : Int) :
      Move strict s (s.openFrame (.ofVariable (.opened line))) []
  | bindVariable {s : State} {v : Variable} {outer : List Frame} (innermost : s.frames = .ofVariable v :: outer)
      (offset : Nat) : Move strict s { s with frames := .ofVariable { v with offset := some offset } :: outer } []
  | closeVariable {s : State} {v : Variable} {outer : List Frame} (innermost : s.frames = .ofVariable v :: outer)
      (name type : String) (waiting : s.pending = some type)
      (sound : variableFault? { s with frames := outer, pending := none }.owner? { v with name, type } = none) :
      Move strict s ({ s with frames := outer, pending := none }.add (.ofVariable { v with name, type })) []
  | await (s : State) (type : String) : Move strict s { s with pending := some type } []
  | addRawBlock {s : State} (outside : s.insideLeaf = false) (r : RawBlock) :
      Move strict s (s.add (.ofRawBlock r)) []

section
variable {strict : Bool} {s t : State} {e : Event} {notices : List Notice}

theorem quietly_eq_ok_iff {u : State} : quietly u = .ok (t, notices) ↔ t = u ∧ notices = [] := by
  simp only [quietly, Except.ok.injEq, Prod.mk.injEq]
  exact ⟨fun ⟨h, h'⟩ => ⟨h.symm, h'.symm⟩, fun ⟨h, h'⟩ => ⟨h.symm, h'.symm⟩⟩

theorem openClass_move (h : openClass s e = .ok (t, notices)) : Move strict s t notices := by
  unfold openClass at h
  split at h
  · cases h
  · rename_i hframes
    split at h
    · cases h
    · rename_i name bases _
      split at h
      · cases h
      · rename_i hfresh
        obtain ⟨rfl, rfl⟩ := quietly_eq_ok_iff.mp h
        refine .openClass ⟨name, bases, [], e.line⟩ (by simpa using hframes) ?_ rfl
        intro d hd heq
        exact hfresh (List.any_eq_true.mpr ⟨d, hd, by simpa using heq⟩)

theorem closeClass_move (h : closeClass s = .ok (t, notices)) : Move strict s t notices := by
  unfold closeClass at h
  split at h
  · rename_i hframes
    cases h
    exact .closeClass hframes
  · cases h

theorem openFunction_move (h : openFunction s e = .ok (t, notices)) : Move strict s t notices := by
  unfold openFunction at h
  split at h
  · cases h
  · rename_i houtside
    obtain ⟨rfl, rfl⟩ := quietly_eq_ok_iff.mp h
    exact .openFunction (by simpa using houtside) _ _

theorem closeFunction_move (h : closeFunction s = .ok (t, notices)) : Move strict s t notices := by
  unfold closeFunction at h
  split at h
  · rename_i f outer hframes
    dsimp only at h
    split at h
    · cases h
    · rename_i hsound
      obtain ⟨rfl, rfl⟩ := quietly_eq_ok_iff.mp h
      exact .closeFunction hframes hsound
  · cases h

theorem setPart_move {part : FunctionPart} {line : Int} {change : Function → Except BuildFault Function}
    (hchange : ∀ f g, change f = .ok g → PartChanged f g)
    (h : setPart strict s part line change = .ok (t, notices)) : Move strict s t notices := by
  unfold setPart at h
  split at h
  · rename_i f outer hframes
    split at h
    · rename_i g hg
      obtain ⟨rfl, rfl⟩ := quietly_eq_ok_iff.mp h
      exact .changeFunction hframes (hchange f g hg) s.pending
    · cases h
  · split at h
    · cases h
    · rename_i hlenient
      cases h
      exact .drop s (by simpa using hlenient) part line

theorem setModifier_move (h : setModifier strict s e = .ok (t, notices)) : Move strict s t notices := by
  refine setPart_move (fun f g hg => ?_) h
  split at hg <;> cases hg
  exact ⟨rfl, rfl, rfl, rfl⟩

theorem setReturnType_move (h : setReturnType strict s e = .ok (t, notices)) : Move strict s t notices := by
  refine setPart_move (fun f g hg => ?_) h
  cases hg
  exact ⟨rfl, rfl, rfl, rfl⟩

theorem setConvention_move (h : setConvention strict s e = .ok (t, notices)) : Move strict s t notices := by
  refine setPart_move (fun f g hg => ?_) h
  cases hg
  exact ⟨rfl, rfl, rfl, rfl⟩

theorem addParameter_move (h : addParameter s e = .ok (t, notices)) : Move strict s t notices := by
  unfold addParameter at h
  split at h
  · rename_i f outer hframes
    split at h
    · obtain ⟨rfl, rfl⟩ := quietly_eq_ok_iff.mp h
      refine .changeFunction hframes ?_ none
      exact ⟨rfl, rfl, rfl, rfl⟩
    · cases h
  · cases h

theorem openVariable_move (h : openVariable s e = .ok (t, notices)) : Move strict s t notices := by
  unfold openVariable at h
  split at h
  · cases h
  · rename_i houtside
    obtain ⟨rfl, rfl⟩ := quietly_eq_ok_iff.mp h
    exact .openVariable (by simpa using houtside) _

theorem closeVariable_move (h : closeVariable s e = .ok (t, notices)) : Move strict s t notices := by
  unfold closeVariable at h
  split at h
  · rename_i v outer hframes
    split at h
    · rename_i type htype
      dsimp only at h
      split at h
      · cases h
      · rename_i hsound
        obtain ⟨rfl, rfl⟩ := quietly_eq_ok_iff.mp h
        exact .closeVariable hframes e.text type htype hsound
    · cases h
  · cases h

theorem bindAddress_move (h : bindAddress s e = .ok (t, notices)) : Move strict s t notices := by
  unfold bindAddress at h
  split at h
  · cases h
  · split at h
    · rename_i f outer n hframes _
      obtain ⟨rfl, rfl⟩ := quietly_eq_ok_iff.mp h
      refine .changeFunction hframes ?_ s.pending
      exact ⟨rfl, rfl, rfl, rfl⟩
    · rename_i v outer n hframes _
      obtain ⟨rfl, rfl⟩ := quietly_eq_ok_iff.mp h
      exact .bindVariable hframes n
    · cases h
    · cases h
    · cases h

theorem addRawBlock_move (h : addRawBlock s e = .ok (t, notices)) : Move strict s t notices := by
  unfold addRawBlock at h
  split at h
  · cases h
  · split at h
    · cases h
    · rename_i houtside
      obtain ⟨rfl, rfl⟩ := quietly_eq_ok_iff.mp h
      exact .addRawBlock (by simpa using houtside) _

/-- Every step that is not refused is a move. --/
theorem step_move (h : step strict s e = .ok (t, notices)) : Move strict s t notices := by
  unfold step at h
  split at h
  · exact openClass_move h
  · exact closeClass_move h
  · exact openFunction_move h
  · exact closeFunction_move h
  · exact setModifier_move h
  · exact setReturnType_move h
  · exact setConvention_move h
  · exact addParameter_move h
  · exact openVariable_move h
  · exact closeVariable_move h
  · exact bindAddress_move h
  · cases h
    exact .await s _
  · cases h
    exact .await s _
  · exact addRawBlock_move h
  · cases h
    exact .stay s

end

/-- What every move keeps holds at the end of every stream of events. --/
theorem feed_keeps_moves {strict : Bool} {P : State → Prop} (keeps : ∀ s t notices, P s → Move strict s t notices → P t)
    (initial : P .initial) (events : List Event) : P (Trail.feed (step strict) .initial events).1 :=
  Trail.feed_keeps (fun s _ _ t notices hs h => keeps s t notices hs (step_move h)) initial

end Build
end Overlay
