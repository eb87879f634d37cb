import Overlay.Proofs.Layout.Fields

/-! Why layouts fail. No field can begin below zero, as all sizes that a layout settles are positive, and slots have
    the size of a pointer; so a layout fails only where a member is misplaced. -/

namespace Overlay

/-- The fault of a member that cannot have its place. --/
def LayoutFault.IsMisplaced (fault : LayoutFault) : Prop :=
  ∃ cause className member line, fault = .misplaced cause className member line

namespace Layout

/-- The fault of a member that cannot have its place in a class: it gives the member by its name and its line. --/
inductive MisplacedMember (className : String) : Declaration → LayoutFault → Prop where
  | field {v : Variable} (cause : Misplacement) :
      MisplacedMember className (.ofVariable v) (.misplaced cause className v.name v.line)
  | slot {f : Function} (isVirtual : f.isVirtual = true) (cause : Misplacement) :
      MisplacedMember className (.ofFunction f) (.misplaced cause className f.name f.line)

theorem MisplacedMember.isMisplaced {className : String} {d : Declaration} {fault : LayoutFault}
    (h : MisplacedMember className d fault) : fault.IsMisplaced := by
  cases h <;> exact ⟨_, _, _, _, rfl⟩

/-- Whether the object is filled up to no less than its beginning. --/
def Cursors.FromZero (cursors : Cursors) : Prop := ∀ n, cursors.field.next = some n → 0 ≤ n

section
variable {sizes : SizeTable} {className : String} {fault : LayoutFault}

/-! ### One member -/

theorem bindField_of_nonneg {value : Int} (h : 0 ≤ value) : bindField value = .ok value.toNat :=
  bindField_eq_ok_iff.mpr (Int.toNat_of_nonneg h).symm

theorem fieldOffset_fault {cursor : FieldCursor} {v : Variable} (hnext : ∀ n, cursor.next = some n → 0 ≤ n)
    (h : fieldOffset className cursor v = .error fault) : MisplacedMember className (.ofVariable v) fault := by
  unfold fieldOffset at h
  dsimp only at h
  split at h
  · split at h <;> cases h
    exact .field _
  · split at h <;> cases h
    exact .field _
  · cases h
  · rename_i next _ hcursor
    rw [bindField_of_nonneg (hnext next hcursor)] at h
    cases h
  · cases h
    exact .field _

theorem padBefore_ok {next : Option Int} (hnext : ∀ n, next = some n → 0 ≤ n) (offset : Nat) :
    ∃ pads, padBefore next offset = .ok pads := by
  unfold padBefore
  split
  · rename_i start
    rw [bindField_of_nonneg (hnext start rfl)]
    split <;> exact ⟨_, rfl⟩
  · exact ⟨_, rfl⟩

theorem placeField_fault {cursor : FieldCursor} {v : Variable} (hnext : ∀ n, cursor.next = some n → 0 ≤ n)
    (h : placeField sizes className cursor v = .error fault) : MisplacedMember className (.ofVariable v) fault := by
  unfold placeField at h
  split at h
  · rename_i found hoffset
    cases h
    exact fieldOffset_fault hnext hoffset
  · rename_i offset _
    obtain ⟨pads, hpads⟩ := padBefore_ok hnext offset
    rw [hpads] at h
    cases h

theorem placeSlot_fault {word : Int} (hword : 0 < word) {cursor : Option Int} {f : Function}
    (isVirtual : f.isVirtual = true) (h : placeSlot word className cursor f = .error fault) :
    MisplacedMember className (.ofFunction f) fault := by
  unfold placeSlot at h
  split at h
  · cases h
  · split at h
    · cases h
    · rw [if_neg (by omega)] at h
      split at h
      · cases h
        exact .slot isVirtual _
      · split at h
        · cases h
        · split at h <;> cases h
          exact .slot isVirtual _

theorem placeMember_fault (hword : 0 < sizes.target.pointerSize) {cursors : Cursors} (hcursors : cursors.FromZero)
    {d : Declaration} (h : placeMember sizes className cursors d = .error fault) : MisplacedMember className d fault := by
  unfold placeMember at h
  split at h
  · rename_i v
    cases hv : placeField sizes className cursors.field v with
    | error found =>
      rw [hv] at h
      cases h
      exact placeField_fault hcursors hv
    | ok placed =>
      rw [hv] at h
      cases h
  · split at h
    · rename_i f isVirtual
      cases hf : placeSlot sizes.target.pointerSize className cursors.slot f with
      | error found =>
        rw [hf] at h
        cases h
        exact placeSlot_fault hword isVirtual hf
      | ok placed =>
        rw [hf] at h
        cases h
    · cases h
  · cases h

theorem MemberPlace.fromZero {word : Int} (hsizes : sizes.Growing word) (hword : 0 < word) {cursors next : Cursors}
    {d : Declaration} {out : List Declaration} (hd : d.MemberBound) (hcursors : cursors.FromZero)
    (place : MemberPlace sizes cursors d out next) : next.FromZero := by
  cases place with
  | @field v offset out place =>
    intro n hn
    obtain ⟨size, hsize, rfl⟩ := Option.map_eq_some_iff.mp hn
    have hlength : ({ v with offset := some offset } : Variable).length = none := hd.length
    rw [sizeOfVariable?_of_declared hlength] at hsize
    have := sizeOf?_pos hsizes hword hsize
    omega
  | slot | function | rawBlock => exact hcursors

theorem placeMember_fromZero {word : Int} (hsizes : sizes.Growing word) (hword : 0 < word) {members : List Declaration}
    (hmembers : ∀ d ∈ members, d.MemberBound) : ∀ cursors : Cursors, ∀ d ∈ members, ∀ next items, cursors.FromZero →
      placeMember sizes className cursors d = .ok (next, items) → next.FromZero := by
  intro cursors d hd next items hcursors hstep
  obtain ⟨placement, -, place⟩ := placeMember_eq_ok (hmembers d hd) hstep
  exact place.fromZero hsizes hword (hmembers d hd) hcursors

/-! ### Classes -/

theorem mapM_some_forall {α β : Type} {f : α → Option β} {P : β → Prop} (hf : ∀ a b, f a = some b → P b) :
    ∀ {as : List α} {bs : List β}, as.mapM f = some bs → ∀ b ∈ bs, P b
  | [], bs, h => by
    cases h
    simp
  | a :: as, bs, h => by
    simp only [List.mapM_cons, bind, Option.bind_eq_some_iff, pure, Option.some.injEq] at h
    obtain ⟨b, hb, rest, hrest, rfl⟩ := h
    exact List.forall_mem_cons.mpr ⟨hf a b hb, mapM_some_forall hf hrest⟩

theorem foldl_add_nonneg {ns : List Int} (h : ∀ n ∈ ns, 0 ≤ n) {start : Int} (hstart : 0 ≤ start) :
    0 ≤ ns.foldl (· + ·) start := by
  induction ns generalizing start with
  | nil => exact hstart
  | cons n ns ih =>
    exact ih (fun m hm => h m (List.mem_cons_of_mem _ hm)) (Int.add_nonneg hstart (h n List.mem_cons_self))

theorem fieldsBegin_nonneg {word : Int} (hword : 0 < word) {s : Settled} (hs : s.sizes.Growing word) {c : Class} {n : Int}
    (h : fieldsBegin s c = some n) : 0 ≤ n := by
  have hpointer : s.sizes.target.pointerSize = word := by rw [hs.target]; rfl
  unfold fieldsBegin at h
  dsimp only at h
  rw [hpointer] at h
  split at h
  · cases h
    split <;> omega
  · obtain ⟨bases, hbases, rfl⟩ := Option.map_eq_some_iff.mp h
    have hbase : ∀ name size, s.baseSize? name = some size → 0 ≤ size := by
      intro name size hsize
      unfold Settled.baseSize? at hsize
      split at hsize
      · exact Int.le_of_lt (sizeOf?_pos hs hword hsize)
      · cases hsize
    have hsum := foldl_add_nonneg (mapM_some_forall hbase hbases) (Int.le_refl 0)
    split <;> omega

theorem layoutClass_fault {word : Int} (hword : 0 < word) {s : Settled} (hs : s.sizes.Growing word) {c : Class}
    (hc : c.WellBound) {found : ClassFault} (h : layoutClass s c = .error found) : found.fault.IsMisplaced := by
  have hpointer : 0 < s.sizes.target.pointerSize := by rw [hs.target]; exact hword
  unfold layoutClass at h
  dsimp only at h
  split at h
  · rename_i fault hfault
    cases h
    refine Trail.feed_fault (placeMember_fromZero hs hword hc.members) ?_ (fun n hn => fieldsBegin_nonneg hword hs hn)
      hfault
    exact fun cursors d _ fault hcursors hstep => (placeMember_fault hpointer hcursors hstep).isMisplaced
  · cases h

end

/-! ### Programs -/

/-- The layout of a program as builds seal it fails only where a member is misplaced. --/
theorem layout_fault {word : Int} (hword : 0 < word) {p : Program} (hp : p.WellBound) {fault : LayoutFault}
    (h : (layout (.ofPointerSize word) p).program = .error fault) : fault.IsMisplaced := by
  unfold layout at h
  dsimp only at h
  split at h
  · rename_i found hfound
    cases h
    have hkeeps := layoutDeclaration_keeps (P := fun s => s.sizes.Growing word) fun s c hc l hs hl =>
      record_growing hword hs (hp.declarations _ hc) hl
    refine Trail.feed_fault (Q := fun found => found.fault.IsMisplaced) hkeeps ?_ (initial_growing word) hfound
    intro s d hd found hs hstep
    obtain ⟨c, rfl, hl⟩ := layoutDeclaration_eq_error hstep
    exact layoutClass_fault hword hs (hp.declarations _ hd) hl
  · cases h

end Layout
end Overlay
