import Overlay.Proofs.Layout.Interleaving
import Overlay.Proofs.Layout.Order

/-! Layouts of programs that are laid out already. A second layout meets the pads of the first as members, and virtual
    functions that no longer declare the offsets of their slots. Where every class derives from earlier classes alone,
    the start of every virtual table is known; then each member and each pad is placed where the cursor stands, so that
    the second layout keeps all of them and settles the same sizes. The induction is along the members, and then along
    the stages of the two layouts. -/

namespace Overlay

/-- Every class derives from classes alone that are declared before it. --/
def Program.DerivesInOrder (p : Program) : Prop :=
  ∀ i c, p.declarations[i]? = some (.ofClass c) → ∀ base ∈ c.bases, p.DeclaresBefore i base

namespace Layout
open Trail (Repeats)

/-! ### One member -/

section
variable {sizes : SizeTable} {className : String} {word : Int}

/-- The start of the next slot is known, and a slot can begin there. --/
def Cursors.OnTable (word : Int) (cursors : Cursors) : Prop := ∃ start, cursors.slot = some start ∧ SlotStart word start

theorem repeats_field {cursors : Cursors} {v : Variable} {offset : Nat} (given : v.offset = some offset)
    (place : FieldPlace cursors.field v offset [.ofVariable v]) :
    Repeats (placeMember sizes className) (·.members) cursors [.ofVariable v]
      { cursors with field := .after sizes v offset } := by
  have hv : { v with offset := some offset } = v := by rw [← given]
  obtain ⟨notices, h⟩ := place.placeField_eq sizes className
  rw [hv] at h
  exact .single (a := ⟨[.ofVariable v], notices⟩) (by rw [placeMember, h]; rfl) rfl

/-- A placed field keeps its place, and so does the pad before it. --/
theorem FieldPlace.repeats (h : sizes.Growing word) {cursors : Cursors} {v : Variable} {offset : Nat}
    {out : List Declaration} (place : FieldPlace cursors.field v offset out) :
    Repeats (placeMember sizes className) (·.members) cursors out
      { cursors with field := .after sizes { v with offset := some offset } offset } := by
  cases place with
  | above unknown given above => exact repeats_field rfl (.above unknown rfl above)
  | adjacent next given => exact repeats_field rfl (.adjacent next fun n hn => (Option.some.inj hn).symm)
  | @padded start next gap given =>
    have pad : FieldPlace cursors.field (.pad start (offset - start)) start [.ofVariable (.pad start (offset - start))] :=
      .adjacent next fun n hn => (Option.some.inj hn).symm
    -- The pad ends where the field behind it begins.
    have hnext : (FieldCursor.after sizes (.pad start (offset - start)) start).next = some (offset : Int) := by
      rw [FieldCursor.after, sizeOfVariable?_pad h, Option.map_some, Int.add_comm, Int.sub_add_cancel]
    exact (repeats_field rfl pad).append
      (repeats_field rfl (.adjacent hnext fun n hn => (Option.some.inj hn).symm))

theorem repeats_slotPad {cursors : Cursors} {slot : Nat} {start : Int} (known : cursors.slot = some start) :
    Repeats (placeMember sizes className) (·.members) cursors [.ofFunction (.pad slot)]
      { cursors with slot := some (start + sizes.target.pointerSize) } :=
  .single (a := .kept _) (by rw [placeMember, known]; rfl) rfl

theorem repeats_slotPads {cursors : Cursors} {start : Int} (known : cursors.slot = some start) (n : Nat) :
    Repeats (placeMember sizes className) (·.members) cursors
      ((List.range n).map fun (k : Nat) => .ofFunction (.pad (start + k * sizes.target.pointerSize).toNat))
      { cursors with slot := some (start + n * sizes.target.pointerSize) } := by
  induction n with
  | zero =>
    have hsame : { cursors with slot := some (start + (0 : Nat) * sizes.target.pointerSize) } = cursors := by
      simp [← known]
    rw [hsame]
    exact .nil cursors
  | succ n ih =>
    rw [List.range_succ, List.map_append, Int.natCast_succ, Int.add_mul, Int.one_mul, ← Int.add_assoc]
    exact ih.append (repeats_slotPad rfl)

theorem repeats_slot (hword : 0 < sizes.target.pointerSize) {cursors : Cursors} {f : Function}
    (isVirtual : f.isVirtual = true) (isPad : f.isPad = false) (unbound : f.address = none) {start : Int}
    (known : cursors.slot = some start) :
    Repeats (placeMember sizes className) (·.members) cursors [.ofFunction f]
      { cursors with slot := some (start + sizes.target.pointerSize) } := by
  have place : SlotPlace sizes.target.pointerSize (some start) f [placedSlot f]
      (some (start + sizes.target.pointerSize)) := .next unbound
  have hplaced : placedSlot f = .ofFunction f := by rw [placedSlot, ← unbound]
  refine .single (a := ⟨[placedSlot f], []⟩) ?_ (by rw [hplaced])
  rw [placeMember, if_pos isVirtual, known, place.placeSlot_eq className hword isPad]
  rfl

/-- A placed virtual function keeps its slot, and so do the pads before it. --/
theorem SlotPlace.repeats (hword : 0 < sizes.target.pointerSize) {cursors : Cursors}
    (onTable : cursors.OnTable sizes.target.pointerSize) {f : Function} (isVirtual : f.isVirtual = true)
    (isPad : f.isPad = false) {out : List Declaration} {next : Option Int}
    (place : SlotPlace sizes.target.pointerSize cursors.slot f out next) :
    Repeats (placeMember sizes className) (·.members) cursors out { cursors with slot := next } := by
  obtain ⟨start, known, hstart⟩ := onTable
  cases place with
  | next given =>
    rw [known]
    exact repeats_slot (f := { f with address := none }) hword isVirtual isPad rfl known
  | first unknown =>
    rw [unknown] at known
    cases known
  | @padded start' offset known' given aligned above =>
    obtain rfl : start' = start := by simpa [known] using known'.symm
    obtain ⟨n, hn⟩ := hstart.distance hword aligned above
    have hpads : slotPads sizes.target.pointerSize start' offset = (List.range n).map fun (k : Nat) =>
        .ofFunction (.pad (start' + k * sizes.target.pointerSize).toNat) := by
      rw [slotPads, slotsBetween_eq hword hn, List.map_map]
      rfl
    rw [hpads, hn]
    exact (repeats_slotPads known n).append (repeats_slot (f := { f with address := none }) hword isVirtual isPad rfl rfl)

theorem MemberPlace.repeats (h : sizes.Growing word) (hword : 0 < word) {cursors next : Cursors}
    (onTable : cursors.OnTable word) {d : Declaration} (hd : d.MemberBound) {out : List Declaration}
    (place : MemberPlace sizes cursors d out next) :
    Repeats (placeMember sizes className) (·.members) cursors out next := by
  have hpointer : sizes.target.pointerSize = word := by rw [h.target]; rfl
  cases place with
  | field place => exact place.repeats h
  | slot isVirtual place => exact place.repeats (hpointer ▸ hword) (hpointer ▸ onTable) isVirtual hd.1.isPad
  | function notVirtual =>
    exact .single (a := .kept _) (by rw [placeMember, if_neg (by simp [notVirtual])]) rfl
  | rawBlock r => exact .single (a := .kept _) rfl rfl

theorem MemberPlace.onTable (h : sizes.Growing word) (hword : 0 < word) {cursors next : Cursors}
    (onTable : cursors.OnTable word) {d : Declaration} (hd : d.MemberBound) {out : List Declaration}
    (place : MemberPlace sizes cursors d out next) : next.OnTable word := by
  cases place with
  | @slot f out slot isVirtual place =>
    have hpointer : sizes.target.pointerSize = word := by rw [h.target]; rfl
    obtain ⟨start, known, hstart⟩ := onTable
    rw [known, hpointer] at place
    obtain ⟨-, hnext⟩ := place.fills hword hstart isVirtual hd.1.isPad
    exact ⟨_, hnext, hstart.add hword _⟩
  | _ => exact onTable

/-- Placed members keep their places. --/
theorem Placed.repeats (h : sizes.Growing word) (hword : 0 < word) {cursors last : Cursors}
    (onTable : cursors.OnTable word) {members out : List Declaration} (hmembers : ∀ d ∈ members, d.MemberBound)
    (placed : Placed sizes cursors members out last) :
    Repeats (placeMember sizes className) (·.members) cursors out last := by
  induction placed with
  | nil => exact .nil _
  | cons place _ ih =>
    have hd := hmembers _ List.mem_cons_self
    exact (place.repeats h hword onTable hd).append
      (ih (place.onTable h hword onTable hd) fun d hd => hmembers d (List.mem_cons_of_mem _ hd))

end

/-! ### Classes -/

section
variable {word : Int} {s : Settled} {c : Class} {l : ClassLayout}

theorem Slotted.entries_eq_nil {cursor last : Option Int} {declared entries : List Function}
    (h : Slotted word cursor declared entries last) : entries = [] ↔ declared = [] := by
  cases h with
  | nil => exact Iff.rfl
  | @cons _ _ _ f out declared entries isVirtual isPad place _ =>
    have hout : virtuals out ≠ [] := by
      have hplaced := virtuals_placedSlot isVirtual
      cases place <;> simp [virtuals_append, hplaced]
    simp [hout]

theorem startOf_resolved (hs : s.Slotting word) (hc : c.WellBound) (hl : layoutClass s c = .ok l) :
    startOf s l.resolved = startOf s c := by
  obtain ⟨_, _, -, hresolved, -, -⟩ := placed_of_layoutClass hc hl
  have hbases : l.resolved.bases = c.bases := by rw [hresolved]
  have hasVirtual : l.resolved.hasVirtual = c.hasVirtual := by
    rw [Bool.eq_iff_iff, hasVirtual_iff, hasVirtual_iff, ne_eq, ne_eq,
      (slotted_of_layoutClass hs hc hl).entries_eq_nil]
  simp only [startOf, fieldsBegin, tableBegin, hbases, hasVirtual]

/-- A class that is laid out is its own layout, if the start of its table is known. --/
theorem layoutClass_repeats (hs : s.Slotting word) (hsizes : s.sizes.Growing word) (hword : 0 < word) (hc : c.WellBound)
    {start : Int} (known : tableBegin s c = some start) (hl : layoutClass s c = .ok l) :
    ∃ l', layoutClass s l.resolved = .ok l' ∧ l'.resolved = l.resolved ∧ s.record l' = s.record l := by
  obtain ⟨members, last, placed, hresolved, hsize, htable⟩ := placed_of_layoutClass hc hl
  have onTable : (startOf s c).OnTable word := ⟨start, known, tableBegin_slotStart hs known⟩
  have repeats : Repeats (placeMember s.sizes l.resolved.name) (·.members) (startOf s c) members last :=
    placed.repeats hsizes hword onTable hc.members
  obtain ⟨items, run, again⟩ := repeats
  have hmembers : l.resolved.members = members := by rw [hresolved]
  rw [← startOf_resolved hs hc hl, ← hmembers] at run
  obtain ⟨l', hl', hresolved', hsize', htable'⟩ := layoutClass_of_runs run
  have hagain : l'.resolved = l.resolved := by
    rw [hresolved', hresolved, placedMembers, again]
  refine ⟨l', hl', hagain, ?_⟩
  simp only [Settled.record, hagain, hsize', hsize, htable', htable]

end

/-! ### Programs -/

theorem layout_of_repeats {target : Target} {q : Program} {last : Settled}
    (h : Repeats layoutDeclaration (fun item => [item.1]) (.initial target) q.declarations last) :
    (layout target q).program = .ok q ∧ (layout target q).settled = last := by
  obtain ⟨items, run, again⟩ := h
  have hitems : items.map (·.1) = q.declarations := by rw [← again, List.map_eq_flatMap]
  rw [layout_settled, Trail.runs_iff.mp run]
  refine ⟨?_, rfl⟩
  unfold layout
  dsimp only
  rw [Trail.runs_iff.mp run]
  exact congrArg (fun ds => Except.ok (Program.mk ds)) hitems

section
variable {word : Int} {p q : Program} (hp : p.WellBound) (hword : 0 < word)
variable (hq : (layout (.ofPointerSize word) p).program = .ok q) (declared : p.DerivesInOrder)
include hp hword hq declared

/-- The start of every virtual table is known where every class derives from earlier classes alone. --/
theorem exists_tableStart {i : Nat} : ∀ {c : Class}, p.declarations[i]? = some (.ofClass c) →
    ∃ start, TableStart (.ofPointerSize word) p i c start := by
  induction i using Nat.strong_induction_on with
  | h i ih =>
    intro c hc
    cases hbases : c.bases with
    | nil => exact ⟨0, .root hbases⟩
    | cons name others =>
      have hname := declared i c hc name (by rw [hbases]; exact List.mem_cons_self)
      obtain ⟨j, before, base, hbase, rfl⟩ := declaresBefore_iff.mp hname
      -- The table of the first base ends at a known place, as it begins at one.
      obtain ⟨n, hn⟩ := (recordedTable?_known hp hword hq hbase).mpr (Or.inl (ih j before hbase))
      exact ⟨n, .derived (by rw [hbases]; rfl) before hbase hn⟩

/-- A declaration that is laid out stays as it is, and takes the second layout from stage to stage of the first. --/
theorem layoutDeclaration_repeats {i : Nat} {d : Declaration} (hd : q.declarations[i]? = some d) :
    Repeats layoutDeclaration (fun item => [item.1]) (settledBefore (.ofPointerSize word) p i) [d]
      (settledBefore (.ofPointerSize word) p (i + 1)) := by
  rcases declaration_of_layout hq hd with ⟨c, l, hc, hl, rfl⟩ | ⟨hother, hclass⟩
  · have hlt : i < p.declarations.length := (List.getElem?_eq_some_iff.mp hc).1
    obtain ⟨start, hstart⟩ := exists_tableStart hp hword hq declared hc
    obtain ⟨l', hl', hresolved, hrecord⟩ := layoutClass_repeats (settledBefore_slotting hp hword i)
      (settledBefore_growing hp hword i) hword (hp.declarations _ (List.mem_of_getElem? hc))
      ((tableStart_iff hp hq (Nat.le_of_lt hlt)).mp hstart) hl
    obtain ⟨l₁, hl₁, -, hstage⟩ := layout_class hq hc
    obtain rfl : l = l₁ := Except.ok.inj (hl.symm.trans hl₁)
    rw [hstage, ← hrecord]
    refine .single (a := (.ofClass l'.resolved, l'.notices)) ?_ (by rw [hresolved])
    rw [layoutDeclaration, hl']
    rfl
  · rw [(layout_other hq hother hclass).2]
    refine .single (a := (d, [])) ?_ rfl
    cases d with
    | ofClass c => cases hclass
    | _ => rfl

theorem stages_repeat (i : Nat) (hi : i ≤ q.declarations.length) :
    Repeats layoutDeclaration (fun item => [item.1]) (.initial (.ofPointerSize word)) (q.declarations.take i)
      (settledBefore (.ofPointerSize word) p i) := by
  induction i with
  | zero =>
    rw [settledBefore_zero]
    exact .nil _
  | succ i ih =>
    have hd := List.getElem?_eq_getElem hi
    rw [List.take_add_one, hd]
    exact (ih (Nat.le_of_succ_le hi)).append (layoutDeclaration_repeats hp hword hq declared hd)

end

/-- The layout of a program in which every class derives from earlier classes alone is its own layout: laid out again, it
    stays as it is, and the same sizes are settled for all classes and their virtual tables. --/
theorem layout_idempotent {word : Int} (hword : 0 < word) {strict : Bool} {events : Trail TreeFault Event} {p q : Program}
    (built : (build strict events).program = .ok p) (declared : p.DerivesInOrder)
    (laidOut : (layout (.ofPointerSize word) p).program = .ok q) :
    (layout (.ofPointerSize word) q).program = .ok q ∧
      (layout (.ofPointerSize word) q).settled = (layout (.ofPointerSize word) p).settled := by
  have run := stages_repeat (wellBound_of_build built) hword laidOut declared _ (Nat.le_refl _)
  rw [List.take_length, length_declarations laidOut, settledBefore_length] at run
  exact layout_of_repeats run

theorem layout_idempotent_node : (0 : Int) < 4 ∧ (build true ⟨nodeEvents, none⟩).program = .ok nodeProgram ∧
    nodeProgram.DerivesInOrder ∧ (layout (.ofPointerSize 4) nodeProgram).program = .ok nodeLaidOut ∧
    (layout (.ofPointerSize 4) nodeLaidOut).program = .ok nodeLaidOut ∧
    (layout (.ofPointerSize 4) nodeLaidOut).settled = (layout (.ofPointerSize 4) nodeProgram).settled := by
  have built : (build true ⟨nodeEvents, none⟩).program = .ok nodeProgram := rfl
  have declared : nodeProgram.DerivesInOrder := by
    rintro (_ | _ | i) c hc base hbase
    · cases hc
      cases hbase
    · cases hc
      obtain rfl : base = "Base" := by simpa [nodeClass] using hbase
      decide
    · cases hc
  exact ⟨by decide, built, declared, layout_node, layout_idempotent (by decide) built declared layout_node⟩

end Layout
end Overlay
