import Mathlib.Data.List.Pairwise
import Overlay.Layout.Classes
import Overlay.Proofs.Feed

/-! The stages of a layout. What is settled before a declaration is what the layout of the declarations before it
    settles. A layout that succeeds goes from stage to stage: every declaration stays in its place, a class is laid
    out by what is settled before it and adds its own sizes, and all else settles nothing. -/

namespace Overlay

/-- The program of the first `i` declarations. --/
def Program.first (p : Program) (i : Nat) : Program := ⟨p.declarations.take i⟩

namespace Layout

/-- What is settled when the declaration at `i` is laid out. --/
def settledBefore (target : Target) (p : Program) (i : Nat) : Settled := (layout target (p.first i)).settled

section
variable {target : Target} {p q : Program}

theorem layout_settled : (layout target p).settled = (Trail.feed layoutDeclaration (.initial target) p.declarations).1 := by
  unfold layout
  dsimp only
  split <;> rfl

theorem settledBefore_eq (i : Nat) : settledBefore target p i =
    (Trail.feed layoutDeclaration (.initial target) (p.declarations.take i)).1 := layout_settled

@[simp] theorem settledBefore_zero : settledBefore target p 0 = .initial target := by
  rw [settledBefore_eq]
  rfl

theorem settledBefore_length : settledBefore target p p.declarations.length = (layout target p).settled := by
  rw [settledBefore_eq, List.take_length, layout_settled]

theorem layout_program_eq_ok (h : (layout target p).program = .ok q) :
    (Trail.feed layoutDeclaration (.initial target) p.declarations).2.fault = none ∧
      q.declarations = (Trail.feed layoutDeclaration (.initial target) p.declarations).2.items.map (·.1) := by
  unfold layout at h
  dsimp only at h
  split at h
  · cases h
  · rename_i hfault
    cases h
    exact ⟨hfault, rfl⟩

/-- A declaration that is laid out is a class, which adds its own sizes, or stays as it is. --/
theorem layoutDeclaration_eq_ok {s next : Settled} {d : Declaration} {items : List (Declaration × List Notice)}
    (h : layoutDeclaration s d = .ok (next, items)) :
    (∃ c l, d = .ofClass c ∧ layoutClass s c = .ok l ∧ next = s.record l ∧ items = [(.ofClass l.resolved, l.notices)]) ∨
      (d.toClass? = none ∧ next = s ∧ items = [(d, [])]) := by
  cases d with
  | ofClass c =>
    unfold layoutDeclaration at h
    cases hl : layoutClass s c with
    | error fault =>
      simp only [hl] at h
      cases h
    | ok l =>
      simp only [hl] at h
      cases h
      exact Or.inl ⟨c, l, rfl, hl, rfl, rfl⟩
  | _ =>
    cases h
    exact Or.inr ⟨rfl, rfl, rfl⟩

theorem layoutDeclaration_eq_error {s : Settled} {d : Declaration} {fault : ClassFault}
    (h : layoutDeclaration s d = .error fault) : ∃ c, d = .ofClass c ∧ layoutClass s c = .error fault := by
  cases d with
  | ofClass c =>
    refine ⟨c, rfl, ?_⟩
    unfold layoutDeclaration at h
    cases hl : layoutClass s c with
    | error found =>
      simp only [hl] at h
      cases h
      rfl
    | ok l =>
      simp only [hl] at h
      cases h
  | _ => cases h

theorem layoutDeclaration_single {s next : Settled} {d : Declaration} {items : List (Declaration × List Notice)}
    (h : layoutDeclaration s d = .ok (next, items)) : ∃ a, items = [a] := by
  rcases layoutDeclaration_eq_ok h with ⟨c, l, -, -, -, rfl⟩ | ⟨-, -, rfl⟩ <;> exact ⟨_, rfl⟩

theorem length_declarations (h : (layout target p).program = .ok q) :
    q.declarations.length = p.declarations.length := by
  obtain ⟨hfault, hq⟩ := layout_program_eq_ok h
  rw [hq, List.length_map, Trail.length_items (fun _ _ _ _ => layoutDeclaration_single) hfault]

/-- The declaration at a place goes from the stage before it to the stage after it. --/
theorem layout_getElem? (h : (layout target p).program = .ok q) {i : Nat} {d : Declaration}
    (hd : p.declarations[i]? = some d) : ∃ d' notices, q.declarations[i]? = some d' ∧
      layoutDeclaration (settledBefore target p i) d = .ok (settledBefore target p (i + 1), [(d', notices)]) := by
  obtain ⟨hfault, hq⟩ := layout_program_eq_ok h
  obtain ⟨⟨d', notices⟩, hitem, hstep⟩ := Trail.feed_getElem? (fun _ _ _ _ => layoutDeclaration_single) hfault hd
  refine ⟨d', notices, by rw [hq, List.getElem?_map, hitem]; rfl, ?_⟩
  rw [settledBefore_eq, settledBefore_eq]
  exact hstep

theorem layout_class (h : (layout target p).program = .ok q) {i : Nat} {c : Class}
    (hc : p.declarations[i]? = some (.ofClass c)) : ∃ l, layoutClass (settledBefore target p i) c = .ok l ∧
      q.declarations[i]? = some (.ofClass l.resolved) ∧
      settledBefore target p (i + 1) = (settledBefore target p i).record l := by
  obtain ⟨d', notices, hq, hstep⟩ := layout_getElem? h hc
  rcases layoutDeclaration_eq_ok hstep with ⟨c', l, hclass, hl, hrecord, hitem⟩ | ⟨hother, -, -⟩
  · cases hclass
    cases hitem
    exact ⟨l, hl, hq, hrecord⟩
  · cases hother

theorem layout_other (h : (layout target p).program = .ok q) {i : Nat} {d : Declaration}
    (hd : p.declarations[i]? = some d) (hclass : d.toClass? = none) : q.declarations[i]? = some d ∧
      settledBefore target p (i + 1) = settledBefore target p i := by
  obtain ⟨d', notices, hq, hstep⟩ := layout_getElem? h hd
  rcases layoutDeclaration_eq_ok hstep with ⟨c, l, rfl, -, -, -⟩ | ⟨-, hsettled, hitem⟩
  · cases hclass
  · cases hitem
    exact ⟨hq, hsettled⟩

/-- Every declaration of a program that is laid out is the layout of the class in the same place, or what is there and
    is no class. --/
theorem declaration_of_layout (h : (layout target p).program = .ok q) {i : Nat} {d : Declaration}
    (hq : q.declarations[i]? = some d) :
    (∃ c l, p.declarations[i]? = some (.ofClass c) ∧ layoutClass (settledBefore target p i) c = .ok l ∧
      d = .ofClass l.resolved) ∨
    (p.declarations[i]? = some d ∧ d.toClass? = none) := by
  have hlt : i < p.declarations.length := by
    rw [← length_declarations h]
    exact (List.getElem?_eq_some_iff.mp hq).1
  obtain ⟨e, he⟩ : ∃ e, p.declarations[i]? = some e := ⟨_, List.getElem?_eq_getElem hlt⟩
  cases hclass : e.toClass? with
  | none =>
    rw [(layout_other h he hclass).1] at hq
    cases hq
    exact Or.inr ⟨he, hclass⟩
  | some c =>
    obtain rfl := Declaration.toClass?_eq_some_iff.mp hclass
    obtain ⟨l, hl, hq', -⟩ := layout_class h he
    rw [hq] at hq'
    exact Or.inl ⟨c, l, he, hl, Option.some.inj hq'⟩

/-- Every class of a program that is laid out is the layout of the class in the same place. --/
theorem class_of_layout (h : (layout target p).program = .ok q) {i : Nat} {resolved : Class}
    (hq : q.declarations[i]? = some (.ofClass resolved)) : ∃ c l, p.declarations[i]? = some (.ofClass c) ∧
      layoutClass (settledBefore target p i) c = .ok l ∧ l.resolved = resolved := by
  rcases declaration_of_layout h hq with ⟨c, l, hc, hl, heq⟩ | ⟨-, hclass⟩
  · cases heq
    exact ⟨c, l, hc, hl, rfl⟩
  · cases hclass

/-- What every class keeps of what is settled is kept by every declaration. --/
theorem layoutDeclaration_keeps {P : Settled → Prop}
    (keeps : ∀ s, ∀ c, .ofClass c ∈ p.declarations → ∀ l, P s → layoutClass s c = .ok l → P (s.record l)) :
    ∀ s, ∀ d ∈ p.declarations, ∀ next items, P s → layoutDeclaration s d = .ok (next, items) → P next := by
  intro s d hd next items hs hstep
  rcases layoutDeclaration_eq_ok hstep with ⟨c, l, rfl, hl, rfl, -⟩ | ⟨-, rfl, -⟩
  · exact keeps s c hd l hs hl
  · exact hs

/-- What every class keeps of what is settled holds at every stage. --/
theorem settledBefore_keeps {P : Settled → Prop} (initial : P (.initial target))
    (keeps : ∀ s, ∀ c, .ofClass c ∈ p.declarations → ∀ l, P s → layoutClass s c = .ok l → P (s.record l)) (i : Nat) :
    P (settledBefore target p i) := by
  rw [settledBefore_eq]
  exact Trail.feed_keeps (fun s d hd => layoutDeclaration_keeps keeps s d (List.mem_of_mem_take hd)) initial

/-- No stage has other sizes than those of the target and the settled ones. --/
theorem settledBefore_sizes (i : Nat) :
    (settledBefore target p i).sizes.target = target ∧ (settledBefore target p i).sizes.classes = [] :=
  settledBefore_keeps (P := fun s => s.sizes.target = target ∧ s.sizes.classes = []) ⟨rfl, rfl⟩
    (fun _ _ _ _ hs _ => hs) i

theorem settled_target : (layout target p).settled.sizes.target = target := by
  rw [← settledBefore_length]
  exact (settledBefore_sizes _).1

end
end Layout
end Overlay
