import Overlay.Layout.Classes
import Overlay.Proofs.Build.WellBound

/-! How the members of a class are placed. Each member takes the place that its cursor, its own offset and the sizes
    allow, behind the pads that fill the space before it; the members of a class are placed one after the other. -/

namespace Overlay
namespace Layout

/-! ### One field -/

/-- A field as it is placed. --/
def placedField (v : Variable) (offset : Nat) : Declaration := .ofVariable { v with offset := some offset }

/-- How a field gets its offset: above the field before, whose size is unknown; where the field before ends; or
    after a gap, which a pad fills. --/
inductive FieldPlace (cursor : FieldCursor) (v : Variable) (offset : Nat) : List Declaration → Prop where
  | above (unknown : cursor.next = none) (given : v.offset = some offset)
      (above : ∀ last, cursor.last = some last → last < offset) : FieldPlace cursor v offset [placedField v offset]
  | adjacent (next : cursor.next = some (offset : Int)) (given : ∀ n, v.offset = some n → n = offset) :
      FieldPlace cursor v offset [placedField v offset]
  | padded {start : Nat} (next : cursor.next = some (start : Int)) (gap : start < offset)
      (given : v.offset = some offset) :
      FieldPlace cursor v offset [.ofVariable (.pad start (offset - start)), placedField v offset]

section
variable {sizes : SizeTable} {className : String}

theorem bindField_eq_ok_iff {value : Int} {n : Nat} : bindField value = .ok n ↔ value = n := by
  unfold bindField bind?
  split
  · rename_i k hk
    split at hk
    · cases hk
    · cases hk
      simp only [Except.ok.injEq]
      omega
  · rename_i binding hk
    split at hk
    · simp only [reduceCtorEq, false_iff]
      omega
    · cases hk

theorem fieldOffset_eq_ok {cursor : FieldCursor} {v : Variable} {offset : Nat}
    (h : fieldOffset className cursor v = .ok offset) :
    (cursor.next = none ∧ v.offset = some offset ∧ ∀ last, cursor.last = some last → last < offset) ∨
    (∃ next, cursor.next = some next ∧ ((v.offset = some offset ∧ next ≤ offset) ∨ (v.offset = none ∧ next = offset))) := by
  unfold fieldOffset at h
  dsimp only at h
  split at h
  · rename_i given next hgiven hnext
    split at h
    · cases h
    · cases h
      exact Or.inr ⟨next, hnext, Or.inl ⟨hgiven, by omega⟩⟩
  · rename_i given last hgiven hnext hlast
    split at h
    · cases h
    · cases h
      refine Or.inl ⟨hnext, hgiven, fun last' h' => ?_⟩
      rw [hlast] at h'
      cases h'
      omega
  · rename_i given hgiven hnext hlast
    cases h
    exact Or.inl ⟨hnext, hgiven, by simp [hlast]⟩
  · rename_i next hgiven hnext
    exact Or.inr ⟨next, hnext, Or.inr ⟨hgiven, bindField_eq_ok_iff.mp h⟩⟩
  · cases h

theorem padBefore_eq_ok {start : Int} {offset : Nat} {pads : List Declaration}
    (h : padBefore (some start) offset = .ok pads) :
    (offset ≤ start ∧ pads = []) ∨
    ∃ n : Nat, start = n ∧ n < offset ∧ pads = [.ofVariable (.pad n (offset - n))] := by
  unfold padBefore at h
  dsimp only at h
  split at h
  · rename_i hlt
    cases hbind : bindField start with
    | error fault =>
      rw [hbind] at h
      cases h
    | ok n =>
      obtain rfl := bindField_eq_ok_iff.mp hbind
      rw [hbind] at h
      cases h
      exact Or.inr ⟨n, rfl, by omega, rfl⟩
  · rename_i hge
    cases h
    exact Or.inl ⟨by omega, rfl⟩

theorem placeField_eq_ok {cursor next : FieldCursor} {v : Variable} {placement : Placement}
    (h : placeField sizes className cursor v = .ok (next, placement)) :
    ∃ offset, next = .after sizes { v with offset := some offset } offset ∧
      FieldPlace cursor v offset placement.members := by
  unfold placeField at h
  split at h
  · cases h
  · rename_i offset hoffset
    split at h
    · cases h
    · rename_i pads hpads
      cases h
      refine ⟨offset, rfl, ?_⟩
      rcases fieldOffset_eq_ok hoffset with ⟨hnext, hgiven, habove⟩ | ⟨start, hnext, hplace⟩
      · rw [hnext] at hpads
        cases hpads
        exact .above hnext hgiven habove
      · rw [hnext] at hpads
        rcases padBefore_eq_ok hpads with ⟨hle, rfl⟩ | ⟨n, rfl, hlt, rfl⟩
        · rcases hplace with ⟨hgiven, hge⟩ | ⟨hgiven, rfl⟩
          · refine .adjacent (by rw [hnext, show start = offset by omega]) fun n hn => ?_
            rw [hgiven] at hn
            exact (Option.some.inj hn).symm
          · exact .adjacent hnext (by simp [hgiven])
        · -- Only a given offset can lie above the end of the field before.
          rcases hplace with ⟨hgiven, -⟩ | ⟨-, heq⟩
          · exact .padded hnext hlt hgiven
          · omega

variable (sizes className) in
/-- A field that has a place is placed there. --/
theorem FieldPlace.placeField_eq {cursor : FieldCursor} {v : Variable} {offset : Nat} {out : List Declaration}
    (place : FieldPlace cursor v offset out) : ∃ notices, placeField sizes className cursor v =
      .ok (.after sizes { v with offset := some offset } offset, ⟨out, notices⟩) := by
  unfold placeField
  cases place with
  | above unknown given above =>
    have hoffset : fieldOffset className cursor v = .ok offset := by
      unfold fieldOffset
      cases hlast : cursor.last with
      | none => simp only [given, unknown]
      | some last =>
        have := above last hlast
        simp only [given, unknown]
        rw [if_neg (by omega)]
    simp only [hoffset, unknown, padBefore]
    exact ⟨_, rfl⟩
  | adjacent next given =>
    have hoffset : fieldOffset className cursor v = .ok offset := by
      unfold fieldOffset
      cases hgiven : v.offset with
      | none =>
        simp only [next]
        exact bindField_eq_ok_iff.mpr rfl
      | some n =>
        obtain rfl := given n hgiven
        simp only [next]
        rw [if_neg (by omega)]
    have hpads : padBefore cursor.next offset = .ok [] := by
      simp only [next, padBefore]
      rw [if_neg (by omega)]
    simp only [hoffset, hpads]
    exact ⟨_, rfl⟩
  | @padded start next gap given =>
    have hoffset : fieldOffset className cursor v = .ok offset := by
      simp only [fieldOffset, given, next]
      rw [if_neg (by omega)]
    have hpads : padBefore cursor.next offset = .ok [.ofVariable (.pad start (offset - start))] := by
      simp only [next, padBefore]
      rw [if_pos (by omega), bindField_eq_ok_iff.mpr rfl]
      rfl
    simp only [hoffset, hpads]
    exact ⟨_, rfl⟩

end

/-! ### One slot -/

/-- A virtual function as it is placed. --/
def placedSlot (f : Function) : Declaration := .ofFunction { f with address := none }

/-- The pads in the slots from `start` up to `offset`. --/
def slotPads (word start : Int) (offset : Nat) : List Declaration :=
  (slotsBetween start offset word).map fun slot => .ofFunction (.pad slot)

/-- How a virtual function gets its slot: the next one, or the one at the offset that it has declared, behind pads if
    the next one is known. --/
inductive SlotPlace (word : Int) (cursor : Option Int) (f : Function) : List Declaration → Option Int → Prop where
  | next (given : f.address = none) : SlotPlace word cursor f [placedSlot f] (cursor.map (· + word))
  | first {offset : Nat} (unknown : cursor = none) (given : f.address = some offset) (aligned : word ∣ offset) :
      SlotPlace word cursor f [placedSlot f] (some (offset + word))
  | padded {start : Int} {offset : Nat} (known : cursor = some start) (given : f.address = some offset)
      (aligned : word ∣ offset) (above : start ≤ offset) :
      SlotPlace word cursor f (slotPads word start offset ++ [placedSlot f]) (some (offset + word))

theorem SlotPlace.no_fields {word : Int} {cursor slot : Option Int} {f : Function} {out : List Declaration}
    (place : SlotPlace word cursor f out slot) : out.filterMap Declaration.toVariable? = [] := by
  cases place <;> simp [placedSlot, slotPads, List.filterMap_map, Declaration.toVariable?]

theorem placeSlot_eq_ok {word : Int} {className : String} {cursor next : Option Int} {f : Function}
    {placement : Placement} (hpad : f.isPad = false) (h : placeSlot word className cursor f = .ok (next, placement)) :
    SlotPlace word cursor f placement.members next := by
  unfold placeSlot at h
  rw [if_neg (by simp [hpad])] at h
  split at h
  · rename_i hgiven
    cases h
    exact .next hgiven
  · rename_i offset hgiven
    split at h
    · cases h
    · rename_i hword
      split at h
      · cases h
      · rename_i haligned
        have hdvd : word ∣ offset := Int.dvd_of_fmod_eq_zero (by simpa using haligned)
        split at h
        · cases h
          exact .first rfl hgiven hdvd
        · split at h
          · cases h
          · rename_i hge
            cases h
            refine .padded rfl hgiven hdvd ?_
            omega

/-- A virtual function that has a slot is placed there. --/
theorem SlotPlace.placeSlot_eq {word : Int} (className : String) {cursor next : Option Int} {f : Function}
    {out : List Declaration} (hword : 0 < word) (hpad : f.isPad = false) (place : SlotPlace word cursor f out next) :
    placeSlot word className cursor f = .ok (next, ⟨out, []⟩) := by
  have hzero : word ≠ 0 := by omega
  unfold placeSlot
  rw [if_neg (by simp [hpad])]
  cases place with
  | next given =>
    rw [given]
    rfl
  | first unknown given aligned =>
    simp only [given, unknown]
    rw [if_neg hzero, if_neg (by simpa using Int.fmod_eq_zero_of_dvd aligned)]
    rfl
  | padded known given aligned above =>
    simp only [given, known]
    rw [if_neg hzero, if_neg (by simpa using Int.fmod_eq_zero_of_dvd aligned), if_neg (by omega)]
    rfl

/-! ### Members -/

/-- How a member is placed. --/
inductive MemberPlace (sizes : SizeTable) (cursors : Cursors) : Declaration → List Declaration → Cursors → Prop where
  | field {v : Variable} {offset : Nat} {out : List Declaration} (place : FieldPlace cursors.field v offset out) :
      MemberPlace sizes cursors (.ofVariable v) out
        { cursors with field := .after sizes { v with offset := some offset } offset }
  | slot {f : Function} {out : List Declaration} {slot : Option Int} (isVirtual : f.isVirtual = true)
      (place : SlotPlace sizes.target.pointerSize cursors.slot f out slot) :
      MemberPlace sizes cursors (.ofFunction f) out { cursors with slot }
  | function {f : Function} (notVirtual : f.isVirtual = false) :
      MemberPlace sizes cursors (.ofFunction f) [.ofFunction f] cursors
  | rawBlock (r : RawBlock) : MemberPlace sizes cursors (.ofRawBlock r) [.ofRawBlock r] cursors

/-- How members are placed one after the other: with the cursors before the first and after the last. --/
inductive Placed (sizes : SizeTable) : Cursors → List Declaration → List Declaration → Cursors → Prop where
  | nil (cursors : Cursors) : Placed sizes cursors [] [] cursors
  | cons {cursors next last : Cursors} {d : Declaration} {members out rest : List Declaration}
      (place : MemberPlace sizes cursors d out next) (others : Placed sizes next members rest last) :
      Placed sizes cursors (d :: members) (out ++ rest) last

section
variable {sizes : SizeTable} {className : String}

/-- What holds of the members in the place of every declared one holds of all of them. --/
theorem Placed.forall_mem {P : Declaration → Prop} {cursors last : Cursors} {members out : List Declaration}
    (placed : Placed sizes cursors members out last)
    (h : ∀ d ∈ members, ∀ {cursors next : Cursors} {out : List Declaration}, MemberPlace sizes cursors d out next →
      ∀ e ∈ out, P e) : ∀ e ∈ out, P e := by
  induction placed with
  | nil => simp
  | @cons _ _ _ d _ out _ place _ ih =>
    intro e he
    rcases List.mem_append.mp he with he | he
    · exact h d List.mem_cons_self place e he
    · exact ih (fun d hd => h d (List.mem_cons_of_mem _ hd)) e he

theorem placeMember_eq_ok {cursors next : Cursors} {d : Declaration} {items : List Placement} (hd : d.MemberBound)
    (h : placeMember sizes className cursors d = .ok (next, items)) :
    ∃ placement, items = [placement] ∧ MemberPlace sizes cursors d placement.members next := by
  cases d with
  | ofVariable v =>
    simp only [placeMember] at h
    cases hv : placeField sizes className cursors.field v with
    | error fault =>
      rw [hv] at h
      cases h
    | ok placed =>
      obtain ⟨field, placement⟩ := placed
      rw [hv] at h
      cases h
      obtain ⟨offset, rfl, hplace⟩ := placeField_eq_ok hv
      exact ⟨placement, rfl, .field hplace⟩
  | ofFunction f =>
    simp only [placeMember] at h
    split at h
    · rename_i hvirtual
      cases hf : placeSlot sizes.target.pointerSize className cursors.slot f with
      | error fault =>
        rw [hf] at h
        cases h
      | ok placed =>
        obtain ⟨slot, placement⟩ := placed
        rw [hf] at h
        cases h
        exact ⟨placement, rfl, .slot hvirtual (placeSlot_eq_ok hd.1.isPad hf)⟩
    · rename_i hvirtual
      cases h
      exact ⟨_, rfl, .function (by simpa using hvirtual)⟩
  | ofRawBlock r =>
    cases h
    exact ⟨_, rfl, .rawBlock r⟩
  | ofClass c => exact hd.elim
  | ofParameter p => exact hd.elim

theorem placed_of_placeMembers : ∀ {members : List Declaration} {cursors : Cursors}, (∀ d ∈ members, d.MemberBound) →
    (placeMembers sizes className cursors members).2.fault = none →
    Placed sizes cursors members ((placeMembers sizes className cursors members).2.items.flatMap (·.members))
      (placeMembers sizes className cursors members).1
  | [], cursors, _, _ => .nil cursors
  | d :: members, cursors, hmembers, hfault => by
    unfold placeMembers at hfault ⊢
    cases hd : placeMember sizes className cursors d with
    | error fault =>
      rw [Trail.feed_cons_error hd] at hfault
      cases hfault
    | ok next =>
      obtain ⟨next, items⟩ := next
      obtain ⟨placement, rfl, hplace⟩ := placeMember_eq_ok (hmembers d List.mem_cons_self) hd
      rw [Trail.feed_cons_ok hd] at hfault ⊢
      have hrest := placed_of_placeMembers (fun d hd => hmembers d (List.mem_cons_of_mem _ hd)) hfault
      unfold placeMembers at hrest
      simpa using Placed.cons hplace hrest

end

/-! ### Classes -/

/-- Where the cursors stand before the first member of a class. --/
def startOf (s : Settled) (c : Class) : Cursors := ⟨⟨fieldsBegin s c, none⟩, tableBegin s c⟩

/-- The layout of a class places its members from the start of its fields and of its virtual table on; the last
    cursors give its sizes. --/
theorem placed_of_layoutClass {s : Settled} {c : Class} {l : ClassLayout} (hc : c.WellBound)
    (h : layoutClass s c = .ok l) : ∃ members last, Placed s.sizes (startOf s c) c.members members last ∧
      l.resolved = { c with members } ∧ l.size = classSize? s.sizes l.resolved last.field.next ∧
      l.tableSize = last.slot := by
  have hplaced : (placeMembers s.sizes c.name (startOf s c) c.members).2.fault = none → Placed s.sizes (startOf s c)
    c.members _ _ := placed_of_placeMembers hc.members
  unfold layoutClass at h
  dsimp only at h
  split at h
  · cases h
  · rename_i hfault
    cases h
    exact ⟨_, _, hplaced hfault, rfl, rfl, rfl⟩

end Layout
end Overlay
