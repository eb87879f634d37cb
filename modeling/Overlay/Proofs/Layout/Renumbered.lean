import Overlay.Proofs.Feed
import Overlay.Proofs.Program.Renumbered
import Overlay.Layout.Classes

/-! Layouts of renumbered programs. No place of a member depends on a line, so the layout of a renumbered program is the
    renumbered layout, with the same sizes. Pads have the line zero, which has to stay as it is. -/

namespace Overlay

section
variable (g : Int → Int)

def Notice.renumber : Notice → Notice
  | .misplaced part line => .misplaced part (g line)
  | .unchecked className fieldName offset line => .unchecked className fieldName offset (g line)
  | notice => notice

def LayoutFault.renumber : LayoutFault → LayoutFault
  | .misplaced cause className member line => .misplaced cause className member (g line)
  | fault => fault

namespace Layout

def Placement.renumber (p : Placement) : Placement :=
  ⟨p.members.map (Declaration.renumber g), p.notices.map (Notice.renumber g)⟩

def ClassLayout.renumber (l : ClassLayout) : ClassLayout :=
  { l with resolved := l.resolved.renumber g, notices := l.notices.map (Notice.renumber g) }

def ClassFault.renumber (f : ClassFault) : ClassFault := ⟨f.fault.renumber g, f.notices.map (Notice.renumber g)⟩

end Layout

def LaidOut.renumber (l : LaidOut) : LaidOut where
  program := (l.program.map (Program.renumber g)).mapError (LayoutFault.renumber g)
  settled := l.settled
  notices := l.notices.map (Notice.renumber g)

end

namespace Layout
variable {g : Int → Int}

/-! ### Members -/

section
variable (hg : g 0 = 0)
include hg

theorem pad_renumber (offset : Nat) (size : Int) : (Variable.pad offset size).renumber g = Variable.pad offset size :=
  congrArg (fun line => { Variable.pad offset size with line }) hg

theorem slotPad_renumber (slot : Nat) : (Function.pad slot).renumber g = Function.pad slot :=
  congrArg (fun line => { Function.pad slot with line }) hg

end

theorem bindField_renumber (value : Int) : (bindField value).mapError (LayoutFault.renumber g) = bindField value := by
  unfold bindField bind?
  split <;> rfl

theorem fieldOffset_renumber (className : String) (cursor : FieldCursor) (v : Variable) :
    fieldOffset className cursor (v.renumber g) = (fieldOffset className cursor v).mapError (LayoutFault.renumber g) := by
  obtain ⟨next, last⟩ := cursor
  obtain ⟨name, type, offset, length, isPad, isPublic, line⟩ := v
  unfold fieldOffset Variable.renumber
  cases offset with
  | none =>
    cases next with
    | none => rfl
    | some next => exact (bindField_renumber next).symm
  | some offset =>
    cases next with
    | some next =>
      dsimp only
      split <;> rfl
    | none =>
      cases last with
      | none => rfl
      | some last =>
        dsimp only
        split <;> rfl

theorem padBefore_renumber (hg : g 0 = 0) (next : Option Int) (offset : Nat) :
    ((padBefore next offset).map (List.map (Declaration.renumber g))).mapError (LayoutFault.renumber g) =
      padBefore next offset := by
  unfold padBefore
  cases next with
  | none => rfl
  | some start =>
    dsimp only
    split
    · have hstart := bindField_renumber (g := g) start
      cases hbind : bindField start with
      | error fault =>
        rw [hbind] at hstart
        exact congrArg Except.error (Except.error.inj hstart)
      | ok n => exact congrArg (fun v => Except.ok [Declaration.ofVariable v]) (pad_renumber hg n _)
    · rfl

theorem unchecked_renumber (className : String) (cursor : FieldCursor) (v : Variable) :
    unchecked className cursor (v.renumber g) = (unchecked className cursor v).map (Notice.renumber g) := by
  obtain ⟨next, last⟩ := cursor
  obtain ⟨name, type, offset, length, isPad, isPublic, line⟩ := v
  cases offset <;> cases next <;> cases last <;> rfl

theorem placeField_renumber (hg : g 0 = 0) (sizes : SizeTable) (className : String) (cursor : FieldCursor)
    (v : Variable) : placeField sizes className cursor (v.renumber g) =
      ((placeField sizes className cursor v).map fun next => (next.1, next.2.renumber g)).mapError
        (LayoutFault.renumber g) := by
  unfold placeField
  rw [fieldOffset_renumber]
  cases fieldOffset className cursor v with
  | error fault => rfl
  | ok offset =>
    have hpads := padBefore_renumber hg cursor.next offset
    dsimp only [Except.mapError]
    cases hpad : padBefore cursor.next offset with
    | error fault =>
      rw [hpad] at hpads
      exact congrArg Except.error (Except.error.inj hpads).symm
    | ok pads =>
      rw [hpad] at hpads
      have hsame : pads.map (Declaration.renumber g) = pads := Except.ok.inj hpads
      refine congrArg Except.ok (Prod.ext rfl ?_)
      simp only [Placement.renumber, List.map_append, hsame, unchecked_renumber]
      rfl

theorem placeSlot_renumber (hg : g 0 = 0) (word : Int) (className : String) (next : Option Int) (f : Function) :
    placeSlot word className next (f.renumber g) =
      ((placeSlot word className next f).map fun next => (next.1, next.2.renumber g)).mapError
        (LayoutFault.renumber g) := by
  have hpads : ∀ slots : List Nat, (slots.map fun slot => Declaration.ofFunction (.pad slot)).map (Declaration.renumber g) =
      slots.map fun slot => Declaration.ofFunction (.pad slot) := fun slots => by
    rw [List.map_map]
    exact congrArg (List.map · slots) (funext fun slot => congrArg Declaration.ofFunction (slotPad_renumber hg slot))
  obtain ⟨name, returnType, modifier, parameters, convention, address, isPad, isPublic, line⟩ := f
  unfold placeSlot Function.renumber
  dsimp only
  split
  · rfl
  · cases address with
    | none => rfl
    | some offset =>
      dsimp only
      split
      · rfl
      · split
        · rfl
        · cases next with
          | none => rfl
          | some start =>
            dsimp only
            split
            · rfl
            · refine congrArg Except.ok (Prod.ext rfl ?_)
              simp only [Placement.renumber, List.map_append, hpads]
              rfl

theorem placeMember_renumber (hg : g 0 = 0) (sizes : SizeTable) (className : String) (cursors : Cursors)
    (d : Declaration) : placeMember sizes className cursors (d.renumber g) =
      ((placeMember sizes className cursors d).map fun next => (next.1, next.2.map (Placement.renumber g))).mapError
        (LayoutFault.renumber g) := by
  cases d with
  | ofVariable v =>
    change (placeField sizes className cursors.field (v.renumber g)).map _ = _
    rw [placeField_renumber hg, placeMember]
    cases placeField sizes className cursors.field v <;> rfl
  | ofFunction f =>
    change (if f.isVirtual then (placeSlot _ className cursors.slot (f.renumber g)).map _ else _) = _
    rw [placeSlot_renumber hg, placeMember]
    split
    · cases placeSlot sizes.target.pointerSize className cursors.slot f <;> rfl
    · rfl
  | _ => rfl

/-! ### Classes -/

theorem fieldsBegin_renumber (s : Settled) (c : Class) : fieldsBegin s (c.renumber g) = fieldsBegin s c := by
  unfold fieldsBegin
  rw [Class.renumber_bases, Class.hasVirtual_renumber]

theorem tableBegin_renumber (s : Settled) (c : Class) : tableBegin s (c.renumber g) = tableBegin s c := by
  unfold tableBegin
  rw [Class.renumber_bases]

theorem placeMembers_renumber (hg : g 0 = 0) (sizes : SizeTable) (className : String) (cursors : Cursors)
    (members : List Declaration) : placeMembers sizes className cursors (members.map (Declaration.renumber g)) =
      ((placeMembers sizes className cursors members).1,
        (placeMembers sizes className cursors members).2.change (LayoutFault.renumber g) (Placement.renumber g)) :=
  Trail.feed_change (placeMember_renumber hg sizes className) cursors members

theorem size?_renumber (sizeOf : Variable → Option Int) (hsize : ∀ v, sizeOf (v.renumber g) = sizeOf v) (c : Class) :
    (c.renumber g).size? sizeOf = c.size? sizeOf := by
  unfold Class.size?
  rw [Class.fields_renumber, List.getLast?_map]
  cases c.fields.getLast? with
  | none => rfl
  | some v =>
    change (v.offset.bind fun offset => (sizeOf (v.renumber g)).bind _) = _
    rw [hsize]
    rfl

theorem classSize?_renumber (sizes : SizeTable) (c : Class) (next : Option Int) :
    classSize? sizes (c.renumber g) next = classSize? sizes c next := by
  unfold classSize?
  rw [Class.fields_renumber, List.isEmpty_map, size?_renumber sizes.sizeOfVariable? fun _ => rfl]

theorem layoutClass_renumber (hg : g 0 = 0) (s : Settled) (c : Class) : layoutClass s (c.renumber g) =
    ((layoutClass s c).map (ClassLayout.renumber g)).mapError (ClassFault.renumber g) := by
  have hnotices : ∀ placements : List Placement, (placements.map (Placement.renumber g)).flatMap (·.notices) =
      (placements.flatMap (·.notices)).map (Notice.renumber g) := fun placements => by
    rw [List.flatMap_map, List.map_flatMap]
    rfl
  have hmembers : ∀ placements : List Placement, (placements.map (Placement.renumber g)).flatMap (·.members) =
      (placements.flatMap (·.members)).map (Declaration.renumber g) := fun placements => by
    rw [List.flatMap_map, List.map_flatMap]
    rfl
  unfold layoutClass
  dsimp only
  rw [fieldsBegin_renumber, tableBegin_renumber, Class.renumber_members, Class.renumber_name, placeMembers_renumber hg]
  obtain ⟨cursors, items, fault⟩ := placeMembers s.sizes c.name ⟨⟨fieldsBegin s c, none⟩, tableBegin s c⟩ c.members
  cases fault with
  | some fault => exact congrArg (fun notices => Except.error (ClassFault.mk (fault.renumber g) notices)) (hnotices items)
  | none =>
    have hresolved : Class.mk c.name (c.renumber g).bases ((items.map (Placement.renumber g)).flatMap (·.members))
        (c.renumber g).line = Class.renumber g ⟨c.name, c.bases, items.flatMap (·.members), c.line⟩ := by
      rw [hmembers, Class.renumber_eq, Class.renumber_eq]
    dsimp only [Trail.change, Option.map_none]
    rw [hresolved, hnotices, classSize?_renumber, Class.virtualFunctions_renumber, List.length_map]
    refine congrArg Except.ok ?_
    simp only [ClassLayout.renumber, List.map_append]
    rfl

/-! ### Programs -/

theorem layoutDeclaration_renumber (hg : g 0 = 0) (s : Settled) (d : Declaration) :
    layoutDeclaration s (d.renumber g) =
      ((layoutDeclaration s d).map fun next =>
        (next.1, next.2.map fun item => (item.1.renumber g, item.2.map (Notice.renumber g)))).mapError
        (ClassFault.renumber g) := by
  cases d with
  | ofClass c =>
    change (layoutClass s (c.renumber g)).map _ = _
    rw [layoutClass_renumber hg, layoutDeclaration]
    cases layoutClass s c with
    | error fault => rfl
    | ok l =>
      have hrecord : s.record (l.renumber g) = s.record l := by
        rw [Settled.record, Settled.record, ClassLayout.renumber, Class.renumber_name]
      exact congrArg (fun settled => Except.ok (settled, _)) hrecord
  | _ => rfl

end Layout

/-- The layout of a renumbered program is the renumbered layout. --/
theorem layout_renumber {g : Int → Int} (hg : g 0 = 0) (target : Target) (p : Program) :
    layout target (p.renumber g) = (layout target p).renumber g := by
  have hnotices : ∀ items : List (Declaration × List Notice),
      (items.map fun item => (item.1.renumber g, item.2.map (Notice.renumber g))).flatMap (·.2) =
        (items.flatMap (·.2)).map (Notice.renumber g) := fun items => by
    rw [List.flatMap_map, List.map_flatMap]
  unfold layout
  rw [Program.renumber, Trail.feed_change (Layout.layoutDeclaration_renumber hg)]
  obtain ⟨settled, items, fault⟩ := Trail.feed Layout.layoutDeclaration (.initial target) p.declarations
  cases fault with
  | some stopped =>
    dsimp only [Trail.change, Option.map_some]
    rw [hnotices]
    simp only [LaidOut.renumber, List.map_append]
    rfl
  | none =>
    dsimp only [Trail.change, Option.map_none]
    rw [hnotices]
    have hprogram : Program.mk ((items.map fun item =>
        (item.1.renumber g, item.2.map (Notice.renumber g))).map (·.1)) = Program.renumber g ⟨items.map (·.1)⟩ := by
      rw [Program.renumber, List.map_map, List.map_map]
      rfl
    rw [hprogram]
    rfl

end Overlay
