import Mathlib.Data.List.Nodup
import Overlay.Proofs.Build.Moves

/-! What is bound in every program that a build seals, whatever stream of events it comes from. A class is sealed
    with a name of its own; a free function has an address and no modifier, a free variable an address, a member
    that is not virtual an address, and the first field of a class an offset. Nothing that is sealed is a pad,
    private or an array. -/

namespace Overlay

/-! ### Bound declarations -/

/-- A function as declarations make it: public and no pad. --/
structure Function.Declared (f : Function) : Prop where
  isPad : f.isPad = false
  isPublic : f.isPublic = true

/-- A variable as declarations make it: public, no pad and no array. --/
structure Variable.Declared (v : Variable) : Prop where
  isPad : v.isPad = false
  isPublic : v.isPublic = true
  length : v.length = none

/-- A member that a build seals. --/
def Declaration.MemberBound : Declaration → Prop
  | .ofFunction f => f.Declared ∧ (f.isVirtual = false → f.address.isSome)
  | .ofVariable v => v.Declared
  | .ofRawBlock _ => True
  | _ => False

/-- A class that a build seals. --/
structure Class.WellBound (c : Class) : Prop where
  members : ∀ d ∈ c.members, d.MemberBound
  first : ∀ v, c.fields.head? = some v → v.offset.isSome

/-- A declaration that a build seals outside of classes. --/
def Declaration.WellBound : Declaration → Prop
  | .ofClass c => c.WellBound
  | .ofFunction f => f.Declared ∧ f.modifier = .plain ∧ f.address.isSome
  | .ofVariable v => v.Declared ∧ v.offset.isSome
  | .ofRawBlock _ => True
  | .ofParameter _ => False

/-- A program as builds seal it. --/
structure Program.WellBound (p : Program) : Prop where
  names : (p.classes.map (·.name)).Nodup
  declarations : ∀ d ∈ p.declarations, d.WellBound

namespace Build

/-! ### States -/

/-- The class that an open declaration is. --/
def Frame.toClass? : Frame → Option Class
  | .ofClass c => some c
  | _ => none

/-- An open declaration of a build. --/
def Frame.WellBound : Frame → Prop
  | .ofClass c => c.WellBound
  | .ofFunction f => f.Declared
  | .ofVariable v => v.Declared

/-- The names of the open classes and then those of the closed ones. --/
def State.classNames (s : State) : List String :=
  (s.frames.filterMap Frame.toClass?).map (·.name) ++ s.classes.map (·.name)

/-- What is open and what is closed in a state is well bound. --/
structure State.WellBound (s : State) : Prop where
  names : s.classNames.Nodup
  frames : ∀ f ∈ s.frames, f.WellBound
  sealed : ∀ d ∈ s.sealed, d.WellBound

theorem initial_wellBound : State.WellBound .initial := ⟨List.nodup_nil, by simp [State.initial], by simp [State.initial]⟩

theorem PartChanged.declared {f g : Function} (h : PartChanged f g) (hf : f.Declared) : g.Declared :=
  ⟨h.isPad.trans hf.isPad, h.isPublic.trans hf.isPublic⟩

/-! ### Closed declarations -/

theorem wellBound_append {c : Class} {d : Declaration} (h : c.WellBound) (hd : d.MemberBound)
    (hfirst : ∀ v, d = .ofVariable v → c.fields = [] → v.offset.isSome) :
    Class.WellBound { c with members := c.members ++ [d] } where
  members := fun d' hd' => by
    rcases List.mem_append.mp hd' with hd' | hd'
    · exact h.members d' hd'
    · obtain rfl := List.mem_singleton.mp hd'
      exact hd
  first := fun v hv => by
    simp only [Class.fields, List.filterMap_append, List.head?_append, Option.or_eq_some_iff] at hv
    rcases hv with hv | ⟨hnone, hv⟩
    · exact h.first v hv
    · have hnil : c.fields = [] := List.head?_eq_none_iff.mp hnone
      cases d with
      | ofVariable w =>
        simp only [List.filterMap_cons, Declaration.toVariable?, List.filterMap_nil, List.head?_cons,
          Option.some.injEq] at hv
        exact hfirst v (by rw [hv]) hnil
      | _ => simp [Declaration.toVariable?] at hv

theorem classNames_add {s : State} {d : Declaration} (hd : d.toClass? = none) : (s.add d).classNames = s.classNames := by
  unfold State.add
  split
  · rename_i c outer hframes
    simp [State.classNames, State.classes, hframes, Frame.toClass?]
  · simp [State.classNames, State.classes, hd]

/-- A declaration that closes goes to its class if it fits there, and to the program otherwise. --/
theorem wellBound_add {s : State} {d : Declaration} (h : s.WellBound) (hd : d.toClass? = none)
    (hmember : ∀ c, s.owner? = some c → d.MemberBound ∧ ∀ v, d = .ofVariable v → c.fields = [] → v.offset.isSome)
    (hfree : s.owner? = none → d.WellBound) : (s.add d).WellBound := by
  have hnames : (s.add d).classNames.Nodup := by
    rw [classNames_add hd]
    exact h.names
  unfold State.add at hnames ⊢
  split
  · rename_i c outer hframes
    obtain ⟨hbound, hfirst⟩ := hmember c (by simp [State.owner?, hframes])
    refine ⟨by simpa [hframes] using hnames, fun f hf => ?_, h.sealed⟩
    rcases List.mem_cons.mp hf with rfl | hf
    · exact wellBound_append (h.frames (.ofClass c) (by simp [hframes])) hbound hfirst
    · exact h.frames f (by simp [hframes, hf])
  · rename_i hframes
    have howner : s.owner? = none := by
      unfold State.owner?
      split
      · rename_i c outer hc
        exact absurd hc (hframes c outer)
      · rfl
    refine ⟨?_, h.frames, fun d' hd' => ?_⟩
    · split at hnames
      · rename_i c outer hc
        exact absurd hc (hframes c outer)
      · exact hnames
    · rcases List.mem_append.mp hd' with hd' | hd'
      · exact h.sealed d' hd'
      · obtain rfl := List.mem_singleton.mp hd'
        exact hfree howner

/-- The state without its innermost declaration, which is no class. --/
theorem wellBound_outer {s : State} {frame : Frame} {outer : List Frame} (h : s.WellBound)
    (hframes : s.frames = frame :: outer) (hclass : frame.toClass? = none) (pending : Option String) :
    State.WellBound { s with frames := outer, pending } where
  names := by simpa [State.classNames, State.classes, hframes, hclass] using h.names
  frames := fun f hf => h.frames f (by simp [hframes, hf])
  sealed := h.sealed

/-- The state with one more open declaration, which is no class. --/
theorem wellBound_openFrame {s : State} {frame : Frame} (h : s.WellBound) (hclass : frame.toClass? = none)
    (hframe : frame.WellBound) : (s.openFrame frame).WellBound where
  names := by simpa [State.classNames, State.classes, State.openFrame, hclass] using h.names
  frames := fun f hf => by
    rcases List.mem_cons.mp hf with rfl | hf
    · exact hframe
    · exact h.frames f hf
  sealed := h.sealed

/-- The state with other open declarations of the same classes. --/
theorem wellBound_frames {s : State} {frames : List Frame} (h : s.WellBound)
    (hnames : frames.filterMap Frame.toClass? = s.frames.filterMap Frame.toClass?)
    (hframes : ∀ f ∈ frames, f.WellBound) (pending : Option String) :
    State.WellBound { s with frames, pending } where
  names := by
    have h0 := h.names
    unfold State.classNames at h0 ⊢
    rw [hnames]
    exact h0
  frames := hframes
  sealed := h.sealed

theorem closeFunction_wellBound {s : State} {f : Function} {outer : List Frame} (h : s.WellBound)
    (hframes : s.frames = .ofFunction f :: outer)
    (hsound : functionFault? { s with frames := outer }.owner? f = none) :
    State.WellBound ({ s with frames := outer }.add (.ofFunction f)) := by
  have hf : f.Declared := h.frames (.ofFunction f) (by simp [hframes])
  refine wellBound_add (wellBound_outer h hframes rfl s.pending) rfl (fun c hc => ⟨⟨hf, fun hv => ?_⟩, fun v hv => by
    cases hv⟩) fun hc => ?_
  · rw [hc] at hsound
    simp only [functionFault?, hv, Bool.not_false, Bool.true_and, ite_eq_right_iff, reduceCtorEq, imp_false,
      Option.isNone_iff_eq_none] at hsound
    exact Option.isSome_iff_ne_none.mpr hsound
  · rw [hc] at hsound
    simp only [functionFault?] at hsound
    split at hsound
    · cases hsound
    · rename_i hmodifier
      split at hsound
      · cases hsound
      · rename_i haddress
        exact ⟨hf, by simpa using hmodifier, Option.isSome_iff_ne_none.mpr (by simpa using haddress)⟩

theorem closeVariable_wellBound {s : State} {v : Variable} {outer : List Frame} {name type : String} (h : s.WellBound)
    (hframes : s.frames = .ofVariable v :: outer)
    (hsound : variableFault? { s with frames := outer, pending := none }.owner? { v with name, type } = none) :
    State.WellBound ({ s with frames := outer, pending := none }.add (.ofVariable { v with name, type })) := by
  have hv : v.Declared := h.frames (.ofVariable v) (by simp [hframes])
  have hv' : Variable.Declared { v with name, type } := ⟨hv.isPad, hv.isPublic, hv.length⟩
  refine wellBound_add (wellBound_outer h hframes rfl none) rfl (fun c hc => ⟨hv', fun w hw hnil => ?_⟩) fun hc => ?_
  · cases hw
    rw [hc] at hsound
    simp only [variableFault?, hnil, List.isEmpty_nil, Bool.true_and, ite_eq_right_iff, reduceCtorEq, imp_false,
      Option.isNone_iff_eq_none] at hsound
    exact Option.isSome_iff_ne_none.mpr hsound
  · rw [hc] at hsound
    simp only [variableFault?, ite_eq_right_iff, reduceCtorEq, imp_false, Option.isNone_iff_eq_none] at hsound
    exact ⟨hv', Option.isSome_iff_ne_none.mpr hsound⟩

/-! ### Steps and streams -/

theorem move_wellBound {strict : Bool} {s t : State} {notices : List Notice} (h : s.WellBound)
    (move : Move strict s t notices) : t.WellBound := by
  cases move with
  | stay | drop => exact h
  | openClass c closed fresh empty =>
    refine ⟨?_, fun f hf => ?_, h.sealed⟩
    · have h0 := h.names
      simp only [State.classNames, closed, List.filterMap_nil, List.map_nil, List.nil_append] at h0
      simp only [State.classNames, State.classes, State.openFrame, closed, Frame.toClass?, List.filterMap_cons,
        List.filterMap_nil, List.map_cons, List.map_nil, List.singleton_append, List.nodup_cons]
      refine ⟨fun hmem => ?_, h0⟩
      obtain ⟨d, hd, heq⟩ := List.mem_map.mp hmem
      exact fresh d hd heq
    · rcases List.mem_cons.mp hf with rfl | hf
      · exact ⟨by simp [empty], by simp [Class.fields, empty]⟩
      · exact h.frames f hf
  | @closeClass c outer innermost =>
    -- The class moves from the open declarations to the closed ones, and its name moves with it.
    have h0 := h.names
    simp only [State.classNames, State.classes, innermost, Frame.toClass?, List.filterMap_cons] at h0
    refine ⟨?_, fun f hf => h.frames f (by simp [innermost, hf]), fun d hd => ?_⟩
    · refine (List.Perm.nodup_iff ?_).mp h0
      simp only [State.classNames, State.classes, List.filterMap_append, List.filterMap_cons, List.filterMap_nil,
        Declaration.toClass?, List.map_append, List.map_cons, List.map_nil, List.cons_append, ← List.append_assoc]
      exact (List.perm_append_singleton _ _).symm
    · rcases List.mem_append.mp hd with hd | hd
      · exact h.sealed d hd
      · obtain rfl := List.mem_singleton.mp hd
        exact h.frames (.ofClass c) (by simp [innermost])
  | openFunction outside name line => exact wellBound_openFrame h rfl ⟨rfl, rfl⟩
  | @changeFunction f g outer innermost changed pending =>
    refine wellBound_frames h (by rw [innermost]; rfl) (fun f' hf' => ?_) pending
    rcases List.mem_cons.mp hf' with rfl | hf'
    · exact changed.declared (h.frames (.ofFunction f) (by simp [innermost]))
    · exact h.frames f' (by simp [innermost, hf'])
  | closeFunction innermost sound => exact closeFunction_wellBound h innermost sound
  | openVariable outside line => exact wellBound_openFrame h rfl ⟨rfl, rfl, rfl⟩
  | @bindVariable v outer innermost offset =>
    refine wellBound_frames h (by rw [innermost]; rfl) (fun f hf => ?_) s.pending
    rcases List.mem_cons.mp hf with rfl | hf
    · have hv : v.Declared := h.frames (.ofVariable v) (by simp [innermost])
      exact ⟨hv.isPad, hv.isPublic, hv.length⟩
    · exact h.frames f (by simp [innermost, hf])
  | closeVariable innermost name type waiting sound => exact closeVariable_wellBound h innermost sound
  | await type => exact ⟨h.names, h.frames, h.sealed⟩
  | addRawBlock outside r =>
    exact wellBound_add h rfl (fun c hc => ⟨trivial, fun v hv => by cases hv⟩) fun _ => trivial

end Build

/-- A program that a build returns is the state at the end of its events, with all declarations closed. --/
theorem build_program_eq_ok {strict : Bool} {events : Trail TreeFault Event} {p : Program}
    (h : (build strict events).program = .ok p) :
    (Trail.feed (Build.step strict) .initial events.items).2.fault = none ∧ events.fault = none ∧
      (Trail.feed (Build.step strict) .initial events.items).1.frames = [] ∧
      p.declarations = (Trail.feed (Build.step strict) .initial events.items).1.sealed := by
  unfold build at h
  dsimp only at h
  split at h
  · cases h
  · cases h
  · rename_i hfault hevents
    unfold Build.finish at h
    split at h
    · rename_i hfinish
      split at hfinish
      · rename_i hclosed
        cases hfinish
        cases h
        refine ⟨hfault, hevents, ?_, rfl⟩
        simpa [Scopes.allClosed, Build.State.scopes] using hclosed
      · cases hfinish
    · cases h

/-- Every program that a build returns is well bound. --/
theorem wellBound_of_build {strict : Bool} {events : Trail TreeFault Event} {p : Program}
    (h : (build strict events).program = .ok p) : p.WellBound := by
  obtain ⟨-, -, hframes, hsealed⟩ := build_program_eq_ok h
  have hlast : Build.State.WellBound (Trail.feed (Build.step strict) .initial events.items).1 :=
    Build.feed_keeps_moves (fun _ _ _ => Build.move_wellBound) Build.initial_wellBound events.items
  have hnames := hlast.names
  rw [Build.State.classNames, hframes] at hnames
  refine ⟨?_, fun d hd => hlast.sealed d (hsealed ▸ hd)⟩
  rw [Program.classes, hsealed]
  exact hnames

/-! ### What a program binds -/

/-- A member of a kind that builds make. --/
def Declaration.IsMember (d : Declaration) : Prop :=
  (∃ f, d = .ofFunction f) ∨ (∃ v, d = .ofVariable v) ∨ ∃ r, d = .ofRawBlock r

theorem Declaration.MemberBound.isMember {d : Declaration} (h : d.MemberBound) : d.IsMember := by
  cases d with
  | ofFunction f => exact Or.inl ⟨f, rfl⟩
  | ofVariable v => exact Or.inr (Or.inl ⟨v, rfl⟩)
  | ofRawBlock r => exact Or.inr (Or.inr ⟨r, rfl⟩)
  | ofClass | ofParameter => exact h.elim

theorem Declaration.WellBound.isMember {d : Declaration} (h : d.WellBound) : (∃ c, d = .ofClass c) ∨ d.IsMember := by
  cases d with
  | ofClass c => exact Or.inl ⟨c, rfl⟩
  | ofFunction f => exact Or.inr (Or.inl ⟨f, rfl⟩)
  | ofVariable v => exact Or.inr (Or.inr (Or.inl ⟨v, rfl⟩))
  | ofRawBlock r => exact Or.inr (Or.inr (Or.inr ⟨r, rfl⟩))
  | ofParameter => exact h.elim

/-- A program that a build returns, whatever the events, has classes with names of their own. Its free functions have
    an address and no modifier, and its free variables an address. The members of a class that are functions and not
    virtual have an address, and its first field has an offset. Nothing in it is a pad, private or an array, and there
    is nothing in it but classes, functions, variables and raw blocks. --/
theorem build_binds {strict : Bool} {events : Trail TreeFault Event} {p : Program}
    (built : (build strict events).program = .ok p) :
    (p.classes.map (·.name)).Nodup ∧
    (∀ f ∈ p.functions, f.modifier = .plain ∧ f.address.isSome ∧ f.Declared) ∧
    (∀ v ∈ p.globals, v.offset.isSome ∧ v.Declared) ∧
    (∀ c ∈ p.classes,
      (∀ f ∈ c.allFunctions, (f.isVirtual = false → f.address.isSome) ∧ f.Declared) ∧
      (∀ v ∈ c.fields, v.Declared) ∧ (∀ v, c.fields.head? = some v → v.offset.isSome) ∧
      ∀ d ∈ c.members, d.IsMember) ∧
    ∀ d ∈ p.declarations, (∃ c, d = .ofClass c) ∨ d.IsMember := by
  have hp := wellBound_of_build built
  refine ⟨hp.names, fun f hf => ?_, fun v hv => ?_, fun c hc => ?_, fun d hd => (hp.declarations d hd).isMember⟩
  · obtain ⟨declared, plain, bound⟩ := hp.declarations _ (Program.mem_functions.mp hf)
    exact ⟨plain, bound, declared⟩
  · obtain ⟨declared, bound⟩ := hp.declarations _ (Program.mem_globals.mp hv)
    exact ⟨bound, declared⟩
  · have hc : c.WellBound := hp.declarations _ (Program.mem_classes.mp hc)
    refine ⟨fun f hf => ?_, fun v hv => ?_, hc.first, fun d hd => (hc.members d hd).isMember⟩
    · obtain ⟨declared, bound⟩ := hc.members _ (Class.mem_allFunctions.mp hf)
      exact ⟨bound, declared⟩
    · exact hc.members _ (Class.mem_fields.mp hv)

/-! Events that no tree has: a type that comes before its variable, a part of a function outside of it, and a function
    with two modifiers and two addresses. -/

def looseEvents : List Event :=
  [.opens .ofPlainType 1 "int", .opens .ofConvention 1 "__cdecl", ⟨.ofClass, .opening, 2, "", ["A", "B"]⟩,
   .opens .ofVariable 3 "", .opens .ofAddress 3 "10", .closes .ofVariable 3 "x", .opens .ofFunction 4 "f",
   .opens .ofModifier 4 "virtual", .opens .ofAddress 4 "0x20", .opens .ofModifier 4 "static",
   .opens .ofAddress 4 "0x30", .closes .ofFunction 4 "", .closes .ofClass 5 ""]

def looseProgram : Program :=
  ⟨[.ofClass ⟨"A", ["B"],
    [.ofVariable { Variable.opened 3 with name := "x", type := "int", offset := some 16 },
     .ofFunction { Function.opened "f" 4 with modifier := .static, address := some 48 }], 2⟩]⟩

theorem build_binds_loose : (build false (.whole looseEvents)).program = .ok looseProgram ∧
    (looseProgram.classes.map (·.name)).Nodup ∧
    ∀ c ∈ looseProgram.classes, ∀ f ∈ c.allFunctions, (f.isVirtual = false → f.address.isSome) ∧ f.Declared :=
  have built : (build false (.whole looseEvents)).program = .ok looseProgram := rfl
  ⟨built, (build_binds built).1, fun c hc => ((build_binds built).2.2.2.1 c hc).1⟩

end Overlay
