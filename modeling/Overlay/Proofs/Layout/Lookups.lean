import Overlay.Proofs.Layout.Placements

/-! What the layout of a class looks up: the sizes and the virtual tables of its bases, and the sizes of its fields. The
    size of a pad is never looked up, as a field stands behind it. Where two states of a layout give the same answers, the
    class has the same layout in both. -/

namespace Overlay
namespace Layout

/-- Two states of a layout for one target give the same answers to what a class looks up. --/
structure SameAnswers (s s' : Settled) (c : Class) : Prop where
  target : s'.sizes.target = s.sizes.target
  baseSize : ∀ base ∈ c.bases, s'.baseSize? base = s.baseSize? base
  tableSize : ∀ base ∈ c.bases, s'.tableSize? base = s.tableSize? base
  fieldSize : ∀ v ∈ c.fields, s'.sizes.sizeOf? v.type = s.sizes.sizeOf? v.type

section
variable {s s' : Settled} {c : Class}

/-! ### Where a class begins -/

theorem mapM_congr {α β : Type} {f g : α → Option β} : ∀ {as : List α}, (∀ a ∈ as, f a = g a) → as.mapM f = as.mapM g
  | [], _ => rfl
  | a :: as, h => by
    rw [List.mapM_cons, List.mapM_cons, h a List.mem_cons_self, mapM_congr fun a ha => h a (List.mem_cons_of_mem _ ha)]

theorem SameAnswers.fieldsBegin (h : SameAnswers s s' c) : fieldsBegin s' c = fieldsBegin s c := by
  have htables : c.bases.any s'.hasTable = c.bases.any s.hasTable := by
    rw [Bool.eq_iff_iff, List.any_eq_true, List.any_eq_true]
    refine exists_congr fun base => and_congr_right fun hbase => ?_
    rw [Settled.hasTable, Settled.hasTable, h.tableSize base hbase]
  rw [Layout.fieldsBegin, Layout.fieldsBegin, h.target, mapM_congr h.baseSize, htables]

theorem SameAnswers.tableBegin (h : SameAnswers s s' c) : tableBegin s' c = tableBegin s c := by
  have hbases := h.tableSize
  unfold Layout.tableBegin
  split
  · rfl
  · rename_i base others hc
    exact hbases base (hc ▸ List.mem_cons_self)

/-! ### Members -/

theorem sizeOfVariable?_congr {sizes sizes' : SizeTable} {v : Variable} (h : sizes'.sizeOf? v.type = sizes.sizeOf? v.type) :
    sizes'.sizeOfVariable? v = sizes.sizeOfVariable? v := by
  rw [SizeTable.sizeOfVariable?, h]
  rfl

theorem SameAnswers.placeMember (h : SameAnswers s s' c) (cursors : Cursors) {d : Declaration} (hd : d ∈ c.members) :
    placeMember s'.sizes c.name cursors d = placeMember s.sizes c.name cursors d := by
  cases d with
  | ofVariable v =>
    have hv := h.fieldSize v (Class.mem_fields.mpr hd)
    -- Only the size of the field itself is looked up, where the field is already placed.
    have hafter : ∀ offset : Nat, FieldCursor.after s'.sizes { v with offset := some offset } offset =
        .after s.sizes { v with offset := some offset } offset := fun offset => by
      rw [FieldCursor.after, FieldCursor.after, sizeOfVariable?_congr (by exact hv)]
    simp only [Layout.placeMember, placeField, hafter]
  | ofFunction f => simp only [Layout.placeMember, h.target]
  | _ => rfl

theorem SameAnswers.placeMembers (h : SameAnswers s s' c) (cursors : Cursors) :
    placeMembers s'.sizes c.name cursors c.members = placeMembers s.sizes c.name cursors c.members :=
  Trail.feed_congr (fun cursors _ hd => h.placeMember cursors hd) cursors

/-- The last field in the place of a member is the member itself: a pad only stands before a field. --/
theorem MemberPlace.lastField {sizes : SizeTable} {cursors next : Cursors} {d : Declaration} {out : List Declaration}
    (place : MemberPlace sizes cursors d out next) {v : Variable}
    (hlast : (out.filterMap Declaration.toVariable?).getLast? = some v) : ∃ w, d = .ofVariable w ∧ w.type = v.type := by
  cases place with
  | @field w offset _ place =>
    refine ⟨w, rfl, ?_⟩
    cases place <;> cases hlast <;> rfl
  | slot isVirtual place =>
    rw [place.no_fields] at hlast
    cases hlast
  | function | rawBlock => cases hlast

/-- The last field of placed members has the type of a declared one. --/
theorem Placed.lastField {sizes : SizeTable} {cursors last : Cursors} {members out : List Declaration}
    (placed : Placed sizes cursors members out last) {v : Variable}
    (hlast : (out.filterMap Declaration.toVariable?).getLast? = some v) :
    ∃ w, .ofVariable w ∈ members ∧ w.type = v.type := by
  induction placed with
  | nil => cases hlast
  | @cons _ _ _ d members out rest place _ ih =>
    rw [List.filterMap_append, List.getLast?_append, Option.or_eq_some_iff] at hlast
    rcases hlast with hrest | ⟨-, hfirst⟩
    · obtain ⟨w, hw, htype⟩ := ih hrest
      exact ⟨w, List.mem_cons_of_mem _ hw, htype⟩
    · obtain ⟨w, rfl, htype⟩ := place.lastField hfirst
      exact ⟨w, List.mem_cons_self, htype⟩

/-! ### Classes -/

theorem SameAnswers.classSize? (h : SameAnswers s s' c) {resolved : Class}
    (hlast : ∀ v, resolved.fields.getLast? = some v → ∃ w ∈ c.fields, w.type = v.type) (next : Option Int) :
    classSize? s'.sizes resolved next = classSize? s.sizes resolved next := by
  have hsize : resolved.size? s'.sizes.sizeOfVariable? = resolved.size? s.sizes.sizeOfVariable? := by
    unfold Class.size?
    cases hv : resolved.fields.getLast? with
    | none => rfl
    | some v =>
      obtain ⟨w, hw, htype⟩ := hlast v hv
      have hv : s'.sizes.sizeOf? v.type = s.sizes.sizeOf? v.type := by rw [← htype, h.fieldSize w hw]
      simp only [Option.bind_eq_bind, Option.bind_some, sizeOfVariable?_congr hv]
  rw [Layout.classSize?, hsize]
  rfl

/-- A class has the same layout where it gets the same answers. --/
theorem layoutClass_congr (hc : c.WellBound) (h : SameAnswers s s' c) : layoutClass s' c = layoutClass s c := by
  unfold layoutClass
  dsimp only
  rw [h.fieldsBegin, h.tableBegin, h.placeMembers, h.target]
  cases hfault : (placeMembers s.sizes c.name ⟨⟨fieldsBegin s c, none⟩, tableBegin s c⟩ c.members).2.fault with
  | some fault => rfl
  | none =>
    have hplaced := placed_of_placeMembers hc.members hfault
    dsimp only
    rw [h.classSize?]
    intro v hv
    obtain ⟨w, hw, htype⟩ := hplaced.lastField hv
    exact ⟨w, Class.mem_fields.mpr hw, htype⟩

end
end Layout
end Overlay
