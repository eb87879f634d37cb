import Overlay.Proofs.Layout.TablePointers

/-! How the members of a class are mixed. Fields and virtual functions are placed apart from each other, along a cursor
    each, and no other member moves a cursor. So a layout depends on the order of the fields and on that of the virtual
    functions of each class, but not on how the two are mixed with each other and with what else stands there: a run
    over the members is a run over the fields and one over the virtual functions, and the other way round. -/

namespace Overlay

namespace Layout
open Trail (Runs)

/-- Classes of one name, with the same bases, the same fields and the same virtual functions. --/
structure SameParts (c c' : Class) : Prop where
  name : c'.name = c.name
  bases : c'.bases = c.bases
  fields : c'.fields = c.fields
  virtualFunctions : c'.virtualFunctions = c.virtualFunctions

theorem SameParts.symm {c c' : Class} (same : SameParts c c') : SameParts c' c :=
  ⟨same.name.symm, same.bases.symm, same.fields.symm, same.virtualFunctions.symm⟩

/-! ### One member -/

/-- Places a field among fields alone. --/
def fieldStep (sizes : SizeTable) (className : String) (cursor : FieldCursor) (v : Variable) :
    Except LayoutFault (FieldCursor × List Variable) :=
  (placeField sizes className cursor v).map fun placed =>
    (placed.1, placed.2.members.filterMap Declaration.toVariable?)

/-- Places a virtual function among virtual functions alone. --/
def slotStep (sizes : SizeTable) (className : String) (cursor : Option Int) (f : Function) :
    Except LayoutFault (Option Int × List Function) :=
  (placeSlot sizes.target.pointerSize className cursor f).map fun placed => (placed.1, virtuals placed.2.members)

/-- What placing a member does: it moves one of the two cursors, or keeps a member that neither is about. --/
inductive MemberStep (sizes : SizeTable) (className : String) (cursors : Cursors) :
    Declaration → Placement → Cursors → Prop where
  | field {v : Variable} {field : FieldCursor} {placement : Placement}
      (place : placeField sizes className cursors.field v = .ok (field, placement)) :
      MemberStep sizes className cursors (.ofVariable v) placement { cursors with field }
  | slot {f : Function} {slot : Option Int} {placement : Placement} (isVirtual : f.isVirtual = true)
      (place : placeSlot sizes.target.pointerSize className cursors.slot f = .ok (slot, placement)) :
      MemberStep sizes className cursors (.ofFunction f) placement { cursors with slot }
  | kept {d : Declaration} (noField : d.toVariable? = none) (noSlot : virtuals [d] = []) :
      MemberStep sizes className cursors d (.kept d) cursors

section
variable {sizes : SizeTable} {className : String} {cursors next : Cursors} {d : Declaration}

theorem map_eq_ok {ε α β : Type} {x : Except ε α} {f : α → β} {b : β} (h : x.map f = .ok b) :
    ∃ a, x = .ok a ∧ f a = b := by
  cases x with
  | error fault => cases h
  | ok a =>
    cases h
    exact ⟨a, rfl, rfl⟩

theorem memberStep_of_placeMember {items : List Placement}
    (h : placeMember sizes className cursors d = .ok (next, items)) :
    ∃ placement, items = [placement] ∧ MemberStep sizes className cursors d placement next := by
  cases d with
  | ofVariable v =>
    obtain ⟨placed, place, hplaced⟩ := map_eq_ok h
    cases hplaced
    exact ⟨_, rfl, .field place⟩
  | ofFunction f =>
    unfold placeMember at h
    dsimp only at h
    split at h
    · rename_i isVirtual
      obtain ⟨placed, place, hplaced⟩ := map_eq_ok h
      cases hplaced
      exact ⟨_, rfl, .slot isVirtual place⟩
    · rename_i notVirtual
      cases h
      exact ⟨_, rfl, .kept rfl (virtuals_cons_nonvirtual (by simpa using notVirtual) [])⟩
  | _ =>
    cases h
    exact ⟨_, rfl, .kept rfl rfl⟩

theorem MemberStep.placeMember {placement : Placement} (h : MemberStep sizes className cursors d placement next) :
    placeMember sizes className cursors d = .ok (next, [placement]) := by
  cases h with
  | field place => simp only [Layout.placeMember, place, Except.map]
  | slot isVirtual place => simp only [Layout.placeMember, isVirtual, if_true, place, Except.map]
  | kept noField noSlot =>
    cases d with
    | ofVariable v => cases noField
    | ofFunction f =>
      have notVirtual : f.isVirtual = false := by simpa [virtuals, Declaration.toFunction?] using noSlot
      simp [Layout.placeMember, notVirtual]
    | _ => rfl

/-- A placed field has no virtual functions beside it. --/
theorem no_virtuals_of_placeField {cursor after : FieldCursor} {v : Variable} {placement : Placement}
    (h : placeField sizes className cursor v = .ok (after, placement)) : virtuals placement.members = [] := by
  obtain ⟨offset, -, place⟩ := placeField_eq_ok h
  generalize placement.members = out at place
  cases place <;> rfl

/-- A placed virtual function has no fields beside it. --/
theorem no_fields_of_placeSlot {word : Int} {cursor after : Option Int} {f : Function} {placement : Placement}
    (h : placeSlot word className cursor f = .ok (after, placement)) :
    placement.members.filterMap Declaration.toVariable? = [] := by
  cases hpad : f.isPad with
  | false => exact (placeSlot_eq_ok hpad h).no_fields
  | true =>
    rw [placeSlot, if_pos hpad] at h
    cases h
    rfl

end

/-! ### All members -/

section
variable {sizes : SizeTable} {className : String}

/-- The members that placements put down. --/
def placedMembers (items : List Placement) : List Declaration := items.flatMap (·.members)

/-- A run over members is one over their fields. --/
theorem fields_run {cursors last : Cursors} {members : List Declaration} {items : List Placement}
    (run : Runs (placeMember sizes className) cursors members items last) :
    Runs (fieldStep sizes className) cursors.field (members.filterMap Declaration.toVariable?)
      ((placedMembers items).filterMap Declaration.toVariable?) last.field := by
  induction run with
  | nil => exact .nil _
  | @cons _ _ _ d members _ more head _ ih =>
    obtain ⟨placement, rfl, step⟩ := memberStep_of_placeMember head
    rw [placedMembers, List.singleton_append, List.flatMap_cons, List.filterMap_append]
    cases step with
    | field place => exact .cons (by simp only [fieldStep, place, Except.map]) ih
    | slot isVirtual place =>
      rw [no_fields_of_placeSlot place]
      exact ih
    | kept noField noSlot =>
      rw [Placement.kept, List.filterMap_cons_none noField, List.filterMap_cons_none noField]
      exact ih

/-- A run over members is one over their virtual functions. --/
theorem slots_run {cursors last : Cursors} {members : List Declaration} {items : List Placement}
    (run : Runs (placeMember sizes className) cursors members items last) :
    Runs (slotStep sizes className) cursors.slot (virtuals members) (virtuals (placedMembers items)) last.slot := by
  induction run with
  | nil => exact .nil _
  | @cons _ _ _ d members _ more head _ ih =>
    obtain ⟨placement, rfl, step⟩ := memberStep_of_placeMember head
    rw [placedMembers, List.singleton_append, List.flatMap_cons, virtuals_append]
    cases step with
    | field place =>
      rw [no_virtuals_of_placeField place]
      exact ih
    | @slot f slot placement isVirtual place =>
      rw [virtuals_cons_virtual isVirtual]
      exact .cons (by simp only [slotStep, place, Except.map]) ih
    | kept noField noSlot =>
      rw [Placement.kept, noSlot, ← List.singleton_append, virtuals_append, noSlot]
      exact ih

/-- A run over the fields and one over the virtual functions make a run over the members, however these are mixed. --/
theorem members_run {members : List Declaration} {field field' : FieldCursor} {slot slot' : Option Int}
    {fields : List Variable} {functions : List Function}
    (fieldsRun : Runs (fieldStep sizes className) field (members.filterMap Declaration.toVariable?) fields field')
    (slotsRun : Runs (slotStep sizes className) slot (virtuals members) functions slot') :
    ∃ items, Runs (placeMember sizes className) ⟨field, slot⟩ members items ⟨field', slot'⟩ := by
  induction members generalizing field slot fields functions with
  | nil =>
    cases fieldsRun
    cases slotsRun
    exact ⟨[], .nil _⟩
  | cons d members ih =>
    -- Each member continues the one run, the other, or none of them.
    have kept (noField : d.toVariable? = none) (noSlot : virtuals [d] = []) :
        ∃ items, Runs (placeMember sizes className) ⟨field, slot⟩ (d :: members) items ⟨field', slot'⟩ := by
      rw [List.filterMap_cons_none noField] at fieldsRun
      rw [← List.singleton_append, virtuals_append, noSlot] at slotsRun
      obtain ⟨items, run⟩ := ih fieldsRun slotsRun
      exact ⟨_, .cons (MemberStep.kept noField noSlot).placeMember run⟩
    cases d with
    | ofVariable v =>
      cases fieldsRun with
      | cons head tail =>
        obtain ⟨placed, place, hplaced⟩ := map_eq_ok head
        cases hplaced
        obtain ⟨items, run⟩ := ih tail slotsRun
        have step : MemberStep sizes className ⟨field, slot⟩ (.ofVariable v) placed.2 ⟨placed.1, slot⟩ := .field place
        exact ⟨_, .cons step.placeMember run⟩
    | ofFunction f =>
      cases isVirtual : f.isVirtual with
      | false => exact kept rfl (virtuals_cons_nonvirtual isVirtual [])
      | true =>
        rw [virtuals_cons_virtual isVirtual] at slotsRun
        cases slotsRun with
        | cons head tail =>
          obtain ⟨placed, place, hplaced⟩ := map_eq_ok head
          cases hplaced
          obtain ⟨items, run⟩ := ih fieldsRun tail
          have step : MemberStep sizes className ⟨field, slot⟩ (.ofFunction f) placed.2 ⟨field, placed.1⟩ :=
            .slot isVirtual place
          exact ⟨_, .cons step.placeMember run⟩
    | _ => exact kept rfl rfl

/-- Members with the same fields and the same virtual functions run to the same cursors, and are placed with the same
    fields and the same virtual functions. --/
theorem remixed_run {members members' : List Declaration}
    (fields : members'.filterMap Declaration.toVariable? = members.filterMap Declaration.toVariable?)
    (functions : virtuals members' = virtuals members) {cursors last : Cursors} {items : List Placement}
    (run : Runs (placeMember sizes className) cursors members items last) :
    ∃ items', Runs (placeMember sizes className) cursors members' items' last ∧
      (placedMembers items').filterMap Declaration.toVariable? =
        (placedMembers items).filterMap Declaration.toVariable? ∧
      virtuals (placedMembers items') = virtuals (placedMembers items) := by
  have fieldsRun := fields_run run
  have slotsRun := slots_run run
  obtain ⟨items', run'⟩ := members_run (fields ▸ fieldsRun) (functions ▸ slotsRun)
  refine ⟨items', run', ?_, ?_⟩
  · exact (fieldsRun.unique (fields ▸ fields_run run')).1
  · exact (slotsRun.unique (functions ▸ slots_run run')).1

end

/-! ### Classes -/

section
variable {s : Settled} {c c' : Class}

theorem runs_of_layoutClass {l : ClassLayout} (h : layoutClass s c = .ok l) :
    ∃ items last, Runs (placeMember s.sizes c.name) (startOf s c) c.members items last ∧
      l.resolved = { c with members := placedMembers items } ∧
      l.size = classSize? s.sizes l.resolved last.field.next ∧ l.tableSize = last.slot := by
  have run : (placeMembers s.sizes c.name (startOf s c) c.members).2.fault = none → Runs _ _ _ _ _ :=
    Trail.runs_of_fault
  unfold layoutClass at h
  dsimp only at h
  split at h
  · cases h
  · rename_i hfault
    cases h
    exact ⟨_, _, run hfault, rfl, rfl, rfl⟩

theorem layoutClass_of_runs {items : List Placement} {last : Cursors}
    (run : Runs (placeMember s.sizes c.name) (startOf s c) c.members items last) :
    ∃ l, layoutClass s c = .ok l ∧ l.resolved = { c with members := placedMembers items } ∧
      l.size = classSize? s.sizes l.resolved last.field.next ∧ l.tableSize = last.slot := by
  have feed : placeMembers s.sizes c.name ⟨⟨fieldsBegin s c, none⟩, tableBegin s c⟩ c.members = (last, .whole items) :=
    Trail.runs_iff.mp run
  unfold layoutClass
  dsimp only
  rw [feed]
  exact ⟨_, rfl, rfl, rfl, rfl⟩

theorem SameParts.startOf (same : SameParts c c') : startOf s c' = startOf s c := by
  have hasVirtual : c'.hasVirtual = c.hasVirtual := by
    rw [Bool.eq_iff_iff, hasVirtual_iff, hasVirtual_iff, same.virtualFunctions]
  simp only [Layout.startOf, fieldsBegin, tableBegin, same.bases, hasVirtual]

theorem SameParts.classSize? (same : SameParts c c') (sizes : SizeTable) (next : Option Int) :
    classSize? sizes c' next = classSize? sizes c next := by
  simp only [Layout.classSize?, Class.size?, same.fields]

/-- Classes with the same parts are laid out with the same parts and the same sizes. --/
theorem SameParts.layoutClass (same : SameParts c c') {l : ClassLayout} (h : layoutClass s c = .ok l) :
    ∃ l', layoutClass s c' = .ok l' ∧ SameParts l.resolved l'.resolved ∧ s.record l' = s.record l := by
  obtain ⟨items, last, run, hresolved, hsize, htable⟩ := runs_of_layoutClass h
  obtain ⟨items', run', fields, functions⟩ := remixed_run same.fields same.virtualFunctions run
  rw [← same.name, ← same.startOf] at run'
  obtain ⟨l', hl', hresolved', hsize', htable'⟩ := layoutClass_of_runs run'
  have parts : SameParts l.resolved l'.resolved := by
    rw [hresolved, hresolved']
    exact ⟨same.name, same.bases, fields, functions⟩
  refine ⟨l', hl', parts, ?_⟩
  rw [parts.classSize?, ← hsize] at hsize'
  simp only [Settled.record, parts.name, hsize', htable', htable]

end

/-! ### Programs -/

/-- Lays out a class among classes alone. --/
def classStep (s : Settled) (c : Class) : Except ClassFault (Settled × List Class) :=
  (layoutClass s c).map fun l => (s.record l, [l.resolved])

section
variable {target : Target} {p p' : Program}

/-- What is no class does not change what is settled. --/
theorem feed_classes (s : Settled) (ds : List Declaration) :
    Trail.feed classStep s (ds.filterMap Declaration.toClass?) = ((Trail.feed layoutDeclaration s ds).1,
      ⟨(Trail.feed layoutDeclaration s ds).2.items.filterMap fun item => item.1.toClass?,
        (Trail.feed layoutDeclaration s ds).2.fault⟩) := by
  refine Trail.feed_filterMap (fun s d c hc => ?_) (fun s d hd => ?_) s ds
  · obtain rfl := Declaration.toClass?_eq_some_iff.mp hc
    unfold classStep layoutDeclaration
    dsimp only
    cases layoutClass s c <;> rfl
  · cases d with
    | ofClass c => cases hd
    | _ => exact ⟨_, rfl, rfl⟩

/-- How a layout ends, by the classes alone. --/
theorem layout_by_classes (target : Target) (p : Program) :
    (layout target p).settled = (Trail.feed classStep (.initial target) p.classes).1 ∧
      match (Trail.feed classStep (.initial target) p.classes).2.fault with
      | some stopped => (layout target p).program = .error stopped.fault
      | none => ∃ q, (layout target p).program = .ok q ∧
          q.classes = (Trail.feed classStep (.initial target) p.classes).2.items := by
  rw [Program.classes, feed_classes, layout_settled]
  refine ⟨rfl, ?_⟩
  unfold layout
  dsimp only
  cases (Trail.feed layoutDeclaration (.initial target) p.declarations).2.fault with
  | some stopped => rfl
  | none => exact ⟨_, rfl, List.filterMap_map ..⟩

/-- Classes with the same parts settle the same, and either all are laid out with the same parts or both feeds end at
    the same class. --/
theorem feed_sameParts {cs cs' : List Class} (same : List.Forall₂ SameParts cs cs') (s : Settled) :
    (Trail.feed classStep s cs').1 = (Trail.feed classStep s cs).1 ∧
      ((Trail.feed classStep s cs').2.fault = none ↔ (Trail.feed classStep s cs).2.fault = none) ∧
      List.Forall₂ SameParts (Trail.feed classStep s cs).2.items (Trail.feed classStep s cs').2.items := by
  induction same generalizing s with
  | nil => exact ⟨rfl, Iff.rfl, .nil⟩
  | @cons c c' _ _ head _ ih =>
    cases h : layoutClass s c with
    | ok l =>
      obtain ⟨l', h', parts, hrecord⟩ := head.layoutClass h
      have step : classStep s c = .ok (s.record l, [l.resolved]) := by rw [classStep, h]; rfl
      have step' : classStep s c' = .ok (s.record l, [l'.resolved]) := by rw [classStep, h', ← hrecord]; rfl
      rw [Trail.feed_cons_ok step, Trail.feed_cons_ok step']
      obtain ⟨settled, faults, others⟩ := ih (s.record l)
      exact ⟨settled, faults, .cons parts others⟩
    | error fault =>
      cases h' : layoutClass s c' with
      | ok l' =>
        obtain ⟨l, hl, -⟩ := head.symm.layoutClass h'
        rw [h] at hl
        cases hl
      | error fault' =>
        have step : classStep s c = .error fault := by rw [classStep, h]; rfl
        have step' : classStep s c' = .error fault' := by rw [classStep, h']; rfl
        rw [Trail.feed_cons_error step, Trail.feed_cons_error step']
        exact ⟨rfl, by simp [Trail.stop], .nil⟩

/-- The layout of a program whose classes have the same parts as those of another, one by one in their order, settles the
    same sizes. It fails if the other fails; otherwise the classes that are laid out have the same parts again. --/
theorem layout_of_sameParts (target : Target) (same : List.Forall₂ SameParts p.classes p'.classes) :
    (layout target p').settled = (layout target p).settled ∧
      ((∃ fault fault', (layout target p).program = .error fault ∧ (layout target p').program = .error fault') ∨
        ∃ q q', (layout target p).program = .ok q ∧ (layout target p').program = .ok q' ∧
          List.Forall₂ SameParts q.classes q'.classes) := by
  obtain ⟨settled, faults, parts⟩ := feed_sameParts same (.initial target)
  obtain ⟨hsettled, hprogram⟩ := layout_by_classes target p
  obtain ⟨hsettled', hprogram'⟩ := layout_by_classes target p'
  refine ⟨by rw [hsettled, hsettled', settled], ?_⟩
  cases h : (Trail.feed classStep (.initial target) p.classes).2.fault with
  | none =>
    rw [faults.mpr h] at hprogram'
    rw [h] at hprogram
    obtain ⟨q, hq, hclasses⟩ := hprogram
    obtain ⟨q', hq', hclasses'⟩ := hprogram'
    exact Or.inr ⟨q, q', hq, hq', by rwa [hclasses, hclasses']⟩
  | some stopped =>
    cases h' : (Trail.feed classStep (.initial target) p'.classes).2.fault with
    | none =>
      rw [faults.mp h'] at h
      cases h
    | some stopped' =>
      rw [h] at hprogram
      rw [h'] at hprogram'
      exact Or.inl ⟨_, _, hprogram, hprogram'⟩

end

/-! A class with a pad before a field and one before a slot, and the same class with its members mixed differently. -/

def shapeProgram : Program :=
  ⟨[.ofClass ⟨"Shape", [], [.ofVariable (declaredField "kind" "int" (some 8) 2), .ofRawBlock ⟨" notes ", 3⟩,
    .ofFunction (virtualFunction "area" (some 4) 4), .ofVariable (declaredField "id" "short" none 5)], 1⟩]⟩

def mixedProgram : Program :=
  ⟨[.ofFunction (Function.opened "draw" 1), .ofClass ⟨"Shape", [], [.ofFunction (virtualFunction "area" (some 4) 4),
    .ofVariable (declaredField "kind" "int" (some 8) 2), .ofFunction (Function.opened "scale" 7),
    .ofVariable (declaredField "id" "short" none 5)], 2⟩, .ofRawBlock ⟨"", 9⟩]⟩

def shapeResolved : Class :=
  ⟨"Shape", [], [.ofVariable (.pad 4 4), .ofVariable (declaredField "kind" "int" (some 8) 2), .ofRawBlock ⟨" notes ", 3⟩,
    .ofFunction (.pad 0), .ofFunction (virtualFunction "area" none 4),
    .ofVariable (declaredField "id" "short" (some 12) 5)], 1⟩

theorem layout_shape : (layout (.ofPointerSize 4) shapeProgram).program = .ok ⟨[.ofClass shapeResolved]⟩ := by
  with_unfolding_all rfl

theorem layout_of_shape_mixed : List.Forall₂ SameParts shapeProgram.classes mixedProgram.classes ∧
    ∃ q', (layout (.ofPointerSize 4) mixedProgram).program = .ok q' ∧
      List.Forall₂ SameParts [shapeResolved] q'.classes ∧
      (layout (.ofPointerSize 4) mixedProgram).settled = (layout (.ofPointerSize 4) shapeProgram).settled := by
  have same : List.Forall₂ SameParts shapeProgram.classes mixedProgram.classes := .cons ⟨rfl, rfl, rfl, rfl⟩ .nil
  obtain ⟨settled, ⟨_, _, failed, -⟩ | ⟨q, q', hq, hq', parts⟩⟩ := layout_of_sameParts (.ofPointerSize 4) same
  · rw [layout_shape] at failed
    cases failed
  · rw [layout_shape] at hq
    cases hq
    exact ⟨same, q', hq', parts, settled⟩

end Layout
end Overlay
