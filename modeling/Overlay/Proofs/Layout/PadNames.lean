import Mathlib.Logic.Relation
import Overlay.Proofs.Layout.DeclaredSlots
import Overlay.Proofs.Layout.Pads
import Overlay.Proofs.Text.Hexadecimal

/-! Names of pads. A pad is named for the place that it fills, so the pads of one class have names of their own: no two
    of them fill one place. The pads of a virtual table have other names than those of the tables that it continues,
    along the line of first bases. But names that are declared are never looked at, nor are the tables of other bases
    than the first: there a pad may have the name of another function, and stand for its slot instead of one of its
    own. --/

namespace Overlay

/-! ### Names -/

/-- The name that a member is declared with. Raw blocks have none. --/
def Declaration.memberName? : Declaration → Option String
  | .ofFunction f => some f.name
  | .ofVariable v => some v.name
  | _ => none

namespace Layout
open Relation (TransGen ReflTransGen)

/-- The name of the pad of a slot. --/
def slotPadName (slot : Nat) : String := "vpad_" ++ Hexadecimal.lower slot

/-- The name of the pad of a field that begins at `offset`. --/
def fieldPadName (offset : Nat) : String := "pad_" ++ Hexadecimal.lower offset

theorem slotPadName_injective {m n : Nat} (h : slotPadName m = slotPadName n) : m = n :=
  Hexadecimal.lower_injective (by simpa [slotPadName] using h)

theorem fieldPadName_injective {m n : Nat} (h : fieldPadName m = fieldPadName n) : m = n :=
  Hexadecimal.lower_injective (by simpa [fieldPadName] using h)

theorem slotPadName_ne_fieldPadName (slot offset : Nat) : slotPadName slot ≠ fieldPadName offset := by
  intro h
  have hlists := congrArg String.toList h
  simp [slotPadName, fieldPadName] at hlists

/-! ### Pads of a virtual table -/

section
variable {word start size : Int} {declared entries : List Function}

/-- A pad of a table that is filled is bound to the slot in which it stands, and named for it. --/
theorem FillsTable.pad (h : FillsTable word start declared entries) {k : Nat} {e : Function}
    (he : entries[k]? = some e) (isPad : e.isPad = true) :
    ∃ slot : Nat, slot = start + k * word ∧ e.address = some slot ∧ e.name = slotPadName slot := by
  obtain ⟨origins, -, hlength, hslots⟩ := h
  obtain ⟨o, ho⟩ : ∃ o, origins[k]? = some o :=
    ⟨_, List.getElem?_eq_getElem (hlength ▸ (List.getElem?_eq_some_iff.mp he).1)⟩
  cases hslots k o e ho he with
  | pad here _ address name => exact ⟨_, here, address, name⟩
  | declared noPad =>
    rw [noPad] at isPad
    cases isPad

/-- Entries whose pads stand in slots from `start` up to `size`: behind some that are no pads, they fill the table. --/
structure PadsBetween (word start size : Int) (entries : List Function) : Prop where
  filled : ∃ leading rest declared, entries = leading ++ rest ∧ (∀ e ∈ leading, e.isPad = false) ∧
    FillsTable word start declared rest ∧ size = start + word * rest.length

theorem PadsBetween.slot (h : PadsBetween word start size entries) (hword : 0 < word) {e : Function} (he : e ∈ entries)
    (isPad : e.isPad = true) :
    ∃ slot : Nat, e.address = some slot ∧ e.name = slotPadName slot ∧ start ≤ slot ∧ slot < size := by
  obtain ⟨leading, rest, declared, rfl, noPads, fills, rfl⟩ := h.filled
  rcases List.mem_append.mp he with he | he
  · rw [noPads e he] at isPad
    cases isPad
  · obtain ⟨k, hk⟩ := List.getElem?_of_mem he
    obtain ⟨slot, hslot, address, name⟩ := fills.pad hk isPad
    have hlt : k < rest.length := (List.getElem?_eq_some_iff.mp hk).1
    have hnonneg : 0 ≤ (k : Int) * word := Int.mul_nonneg (by omega) (by omega)
    have hbelow : (k : Int) * word < rest.length * word := Int.mul_lt_mul_of_pos_right (by omega) hword
    rw [Int.mul_comm word]
    exact ⟨slot, address, name, by omega, by omega⟩

/-- No two pads of a table have one name. --/
theorem PadsBetween.pairwise (h : PadsBetween word start size entries) (hword : 0 < word) :
    entries.Pairwise fun e g => e.isPad = true → g.isPad = true → e.name ≠ g.name := by
  obtain ⟨leading, rest, declared, rfl, noPads, fills, -⟩ := h.filled
  rw [List.pairwise_append]
  have vacuous : ∀ e ∈ leading, ∀ g : Function, e.isPad = true → g.isPad = true → e.name ≠ g.name := by
    intro e he g isPad
    rw [noPads e he] at isPad
    cases isPad
  refine ⟨?_, ?_, fun e he g _ => vacuous e he g⟩
  · exact List.pairwise_of_forall_mem_list fun e he g _ => vacuous e he g
  · rw [List.pairwise_iff_getElem]
    intro i j hi hj hij isPad isPad' hname
    obtain ⟨slot, hslot, -, name⟩ := fills.pad (List.getElem?_eq_getElem hi) isPad
    obtain ⟨slot', hslot', -, name'⟩ := fills.pad (List.getElem?_eq_getElem hj) isPad'
    obtain rfl := slotPadName_injective (name.symm.trans (hname.trans name'))
    have hlt : (i : Int) * word < j * word := Int.mul_lt_mul_of_pos_right (by omega) hword
    omega

end

/-! ### Tables along a line of first bases -/

/-- The table of the class at `i` goes on from that of the class at `k`, its first base. --/
def Continues (p : Program) (i k : Nat) : Prop := ∃ c base, FirstBase p i k c base

section
variable {word : Int} {p q : Program} {i : Nat} {c r : Class}

/-- Where no start is known and no function declares its slot, there are no pads. --/
theorem Slotted.noPads {last : Option Int} {declared entries : List Function}
    (h : Slotted word none declared entries last) (unbound : ∀ f ∈ declared, f.address = none) :
    ∀ e ∈ entries, e.isPad = false := by
  generalize hcursor : (none : Option Int) = cursor at h
  induction h with
  | nil => simp
  | @cons cursor next last f out declared entries isVirtual isPad place _ ih =>
    subst hcursor
    have hf := unbound f List.mem_cons_self
    cases place with
    | first _ given | padded _ given => cases hf.symm.trans given
    | next =>
      refine List.forall_mem_append.mpr ⟨?_, ih (fun g hg => unbound g (List.mem_cons_of_mem _ hg)) rfl⟩
      rw [virtuals_placedSlot isVirtual]
      simp [isPad]

/-- The table of a class has no pads, or they lie between its start, if that is known, and the size that is recorded for
    it. --/
theorem pads_of_table (hp : p.WellBound) (hword : 0 < word) (hq : (layout (.ofPointerSize word) p).program = .ok q)
    (hc : p.declarations[i]? = some (.ofClass c)) (hr : q.declarations[i]? = some (.ofClass r)) :
    (∀ e ∈ r.virtualFunctions, e.isPad = false) ∨
    ∃ start size, recordedTable? (.ofPointerSize word) p c.name = some (some size) ∧
      PadsBetween word start size r.virtualFunctions ∧
      ∀ known, TableStart (.ofPointerSize word) p i c known → known = start := by
  have hlt : i < p.declarations.length := (List.getElem?_eq_some_iff.mp hc).1
  by_cases known : ∃ start, TableStart (.ofPointerSize word) p i c start
  · obtain ⟨start, hstart⟩ := known
    obtain ⟨-, fills, recorded⟩ := fills_of_tableStart hp hword hq hc hr hstart
    refine .inr ⟨start, _, recorded, ⟨[], _, _, rfl, by simp, fills, rfl⟩, fun other hother => ?_⟩
    have hbegin := (tableStart_iff hp hq (Nat.le_of_lt hlt)).mp hstart
    exact Option.some.inj (((tableStart_iff hp hq (Nat.le_of_lt hlt)).mp hother).symm.trans hbegin)
  · have unknown : ∀ start, ¬TableStart (.ofPointerSize word) p i c start := fun start h => known ⟨start, h⟩
    cases first : c.virtualFunctions.findSome? (·.address) with
    | none =>
      obtain ⟨size, -, slotted⟩ := slotted_of_layout hp hword hq hc hr
      have hbegin : tableBegin (settledBefore (.ofPointerSize word) p i) c = none :=
        Option.eq_none_iff_forall_not_mem.mpr fun start h =>
          unknown start ((tableStart_iff hp hq (Nat.le_of_lt hlt)).mpr h)
      rw [hbegin] at slotted
      exact .inl (slotted.noPads (List.findSome?_eq_none_iff.mp first))
    | some offset =>
      obtain ⟨leading, f, more, hfunctions, unbound, given, -⟩ := findSome?_address first
      obtain ⟨rest, hrest, -, fills, recorded⟩ :=
        fills_of_first_offset hp hword hq hc hr unknown hfunctions unbound given
      have noPads : ∀ g ∈ leading, g.isPad = false := fun g hg => by
        have hmem : g ∈ c.virtualFunctions := by rw [hfunctions]; exact List.mem_append_left _ hg
        have hbound : c.WellBound := hp.declarations _ (List.mem_of_getElem? hc)
        exact (hbound.members _ (Class.mem_allFunctions.mp (List.mem_of_mem_filter hmem))).1.isPad
      exact .inr ⟨offset, _, recorded, ⟨leading, rest, _, hrest, noPads, fills, rfl⟩, fun start h =>
        absurd h (unknown start)⟩

/-- Along the line of first bases every pad lies below the end of the table, which is known if there is a pad. --/
theorem table_beyond_pad (hp : p.WellBound) (hword : 0 < word)
    (hq : (layout (.ofPointerSize word) p).program = .ok q) {j : Nat} {b rb : Class}
    (hb : p.declarations[j]? = some (.ofClass b)) (hrb : q.declarations[j]? = some (.ofClass rb)) {g : Function}
    (hg : g ∈ rb.virtualFunctions) (isPad : g.isPad = true) (line : ReflTransGen (Continues p) i j)
    (hc : p.declarations[i]? = some (.ofClass c)) : ∃ (size : Int) (slot : Nat),
      recordedTable? (.ofPointerSize word) p c.name = some (some size) ∧ g.name = slotPadName slot ∧ slot < size := by
  induction line using ReflTransGen.head_induction_on generalizing c with
  | refl =>
    rw [hb] at hc
    cases hc
    rcases pads_of_table hp hword hq hb hrb with noPads | ⟨start, size, recorded, between, -⟩
    · rw [noPads g hg] at isPad
      cases isPad
    · obtain ⟨slot, -, name, -, below⟩ := between.slot hword hg isPad
      exact ⟨size, slot, recorded, name, below⟩
  | @head i k first _ ih =>
    obtain ⟨c', base, first⟩ := first
    rw [first.declared] at hc
    cases hc
    obtain ⟨size, slot, recorded, name, below⟩ := ih first.baseDeclared
    obtain ⟨l, -, hr, -⟩ := layout_class hq first.declared
    have hstart : TableStart (.ofPointerSize word) p i c size :=
      .derived first.primary first.before first.baseDeclared recorded
    obtain ⟨-, -, recorded'⟩ := fills_of_tableStart hp hword hq first.declared hr hstart
    refine ⟨_, slot, recorded', name, ?_⟩
    have hnonneg : 0 ≤ word * l.resolved.virtualFunctions.length := Int.mul_nonneg (by omega) (by omega)
    omega

/-- No pad has the name of a pad of a table that its own table continues. --/
theorem pad_name_ne_along_line (hp : p.WellBound) (hword : 0 < word)
    (hq : (layout (.ofPointerSize word) p).program = .ok q) (hc : p.declarations[i]? = some (.ofClass c))
    (hr : q.declarations[i]? = some (.ofClass r)) {e : Function} (he : e ∈ r.virtualFunctions) (isPad : e.isPad = true)
    {j : Nat} {b rb : Class} (hb : p.declarations[j]? = some (.ofClass b))
    (hrb : q.declarations[j]? = some (.ofClass rb)) {g : Function} (hg : g ∈ rb.virtualFunctions)
    (isPad' : g.isPad = true) (line : TransGen (Continues p) i j) : g.name ≠ e.name := by
  obtain ⟨k, ⟨c', base, first⟩, line⟩ := TransGen.head'_iff.mp line
  rw [first.declared] at hc
  cases hc
  obtain ⟨size, slot, recorded, name, below⟩ := table_beyond_pad hp hword hq hb hrb hg isPad' line first.baseDeclared
  have hstart : TableStart (.ofPointerSize word) p i c size :=
    .derived first.primary first.before first.baseDeclared recorded
  rcases pads_of_table hp hword hq first.declared hr with noPads | ⟨start, size', -, between, known⟩
  · rw [noPads e he] at isPad
    cases isPad
  · obtain ⟨slot', -, name', above, -⟩ := between.slot hword he isPad
    obtain rfl := known size hstart
    intro hname
    obtain rfl := slotPadName_injective (name.symm.trans (hname.trans name'))
    omega

end

/-! ### Pads of a class -/

theorem FieldOrPad.eq_pad {v : Variable} (h : FieldOrPad v) (isPad : v.isPad = true) :
    ∃ (offset : Nat) (size : Int), 0 < size ∧ v = .pad offset size := by
  rcases h with ⟨noPad, -⟩ | pad
  · rw [noPad] at isPad
    cases isPad
  · exact pad

/-- No two pads among fields that follow one another have one name, as they do not overlap. --/
theorem Tiled.padNames {word : Int} {sizes : SizeTable} (h : sizes.Growing word) (hword : 0 < word)
    {start last : FieldCursor} {fields : List Variable} (tiled : Tiled sizes start fields last)
    (hfields : ∀ v ∈ fields, FieldOrPad v) :
    fields.Pairwise fun v w => v.isPad = true → w.isPad = true → v.name ≠ w.name := by
  rw [List.pairwise_iff_getElem]
  intro i j hi hj hij isPad isPad' hname
  obtain ⟨offset, size, positive, hv⟩ := (hfields _ (List.getElem_mem hi)).eq_pad isPad
  obtain ⟨offset', size', -, hw⟩ := (hfields _ (List.getElem_mem hj)).eq_pad isPad'
  obtain ⟨m, n, hm, hn, ends⟩ := (tiled.tilesObject h hword hfields).disjoint i j _ _ hij
    (List.getElem?_eq_getElem hi) (List.getElem?_eq_getElem hj)
  rw [hv, hw] at hname
  rw [hv] at hm ends
  rw [hw] at hn
  have same : offset = offset' := fieldPadName_injective hname
  obtain rfl : offset = m := Option.some.inj hm
  obtain rfl : offset' = n := Option.some.inj hn
  have := ends size (sizeOfVariable?_pad h offset size)
  omega

/-- Pads among the functions of a class are virtual. --/
theorem GroupedClass.pad_virtual {c r : Class} (h : GroupedClass c r) {f : Function} (hf : .ofFunction f ∈ r.members)
    (isPad : f.isPad = true) : f ∈ r.virtualFunctions := by
  obtain ⟨before, after, hmembers⟩ := List.append_of_mem hf
  obtain ⟨d, -, padding, -⟩ := h.padded.pads _ _ _ hmembers isPad
  cases padding with
  | slot _ padVirtual => exact List.mem_filter.mpr ⟨Class.mem_allFunctions.mpr hf, padVirtual⟩

/-- A member that is no pad is declared. --/
theorem Grouped.declared {members out : List Declaration} (h : Grouped members out) {e : Declaration} (he : e ∈ out)
    (noPad : e.isPad = false) : ∃ d ∈ members, Filled d e := by
  induction h with
  | nil => cases he
  | @cons d _ members pads rest padding filled _ _ ih =>
    rcases List.mem_append.mp he with he | he
    · rw [(padding e he).isPad] at noPad
      cases noPad
    · rcases List.mem_cons.mp he with rfl | he
      · exact ⟨d, List.mem_cons_self, filled⟩
      · obtain ⟨d', hd', filled'⟩ := ih he
        exact ⟨d', List.mem_cons_of_mem _ hd', filled'⟩

theorem GroupedClass.declared_virtual {c r : Class} (h : GroupedClass c r) {g : Function}
    (hg : g ∈ r.virtualFunctions) (noPad : g.isPad = false) :
    ∃ f ∈ c.virtualFunctions, g = { f with address := none } := by
  obtain ⟨hall, isVirtual⟩ := List.mem_filter.mp hg
  obtain ⟨d, hd, filled⟩ := h.members.declared (Class.mem_allFunctions.mp hall) noPad
  cases filled with
  | slot isVirtual' => exact ⟨_, List.mem_filter.mpr ⟨Class.mem_allFunctions.mpr hd, isVirtual'⟩, rfl⟩
  | function notVirtual =>
    rw [notVirtual] at isVirtual
    cases isVirtual

section
variable {word : Int} {p q : Program} {i : Nat} {c r : Class}

theorem grouped_at (hp : p.WellBound) {target : Target} (hq : (layout target p).program = .ok q)
    (hc : p.declarations[i]? = some (.ofClass c)) (hr : q.declarations[i]? = some (.ofClass r)) : GroupedClass c r := by
  obtain ⟨l, hl, hr', -⟩ := layout_class hq hc
  rw [hr] at hr'
  cases hr'
  exact groupedClass_of_layoutClass (hp.declarations _ (List.mem_of_getElem? hc)) hl

section
variable (hp : p.WellBound) (hword : 0 < word) (hq : (layout (.ofPointerSize word) p).program = .ok q)
  (hc : p.declarations[i]? = some (.ofClass c)) (hr : q.declarations[i]? = some (.ofClass r))
include hp hword hq hc hr

/-- A pad in a table is bound to the slot that it is named for. --/
theorem slot_of_pad {e : Function} (he : e ∈ r.virtualFunctions) (isPad : e.isPad = true) :
    ∃ slot : Nat, e.address = some slot ∧ e.name = slotPadName slot := by
  rcases pads_of_table hp hword hq hc hr with noPads | ⟨start, size, -, between, -⟩
  · rw [noPads e he] at isPad
    cases isPad
  · obtain ⟨slot, address, name, -⟩ := between.slot hword he isPad
    exact ⟨slot, address, name⟩

/-- The name of a pad in a table is not that of a pad between the fields. --/
theorem slot_pad_ne_field_pad {f : Function} (hf : .ofFunction f ∈ r.members) (isPad : f.isPad = true) {v : Variable}
    (hv : .ofVariable v ∈ r.members) (isPad' : v.isPad = true) : f.name ≠ v.name := by
  have hf' := (grouped_at hp hq hc hr).pad_virtual hf isPad
  obtain ⟨slot, -, name⟩ := slot_of_pad hp hword hq hc hr hf' isPad
  have hfield := fieldOrPad_of_layout hp hq (Program.mem_classes.mpr (List.mem_of_getElem? hr)) v
    (Class.mem_fields.mpr hv)
  obtain ⟨offset, size, -, rfl⟩ := hfield.eq_pad isPad'
  rw [name]
  exact slotPadName_ne_fieldPadName slot offset

theorem slot_pads_pairwise :
    r.virtualFunctions.Pairwise fun f g => f.isPad = true → g.isPad = true → f.name ≠ g.name := by
  rcases pads_of_table hp hword hq hc hr with noPads | ⟨start, size, -, between, -⟩
  · exact List.pairwise_of_forall_mem_list fun f hf g _ isPad => by simp [noPads f hf] at isPad
  · exact between.pairwise hword

theorem field_pads_pairwise :
    r.fields.Pairwise fun v w => v.isPad = true → w.isPad = true → v.name ≠ w.name := by
  have hfields := fieldOrPad_of_layout hp hq (Program.mem_classes.mpr (List.mem_of_getElem? hr))
  obtain ⟨l, hl, hr', -⟩ := layout_class hq hc
  rw [hr] at hr'
  cases hr'
  have hbound : c.WellBound := hp.declarations _ (List.mem_of_getElem? hc)
  obtain ⟨members, last, placed, hresolved, -⟩ := placed_of_layoutClass hbound hl
  have hmembers : l.resolved.fields = members.filterMap Declaration.toVariable? := by rw [hresolved]; rfl
  have growing := settledBefore_growing hp hword i
  rw [hmembers] at hfields ⊢
  exact (placed.tiled growing).padNames growing hword hfields

/-- No two pads of a class have one name. --/
theorem pads_pairwise :
    r.members.Pairwise fun d e => d.isPad = true → e.isPad = true → d.memberName? ≠ e.memberName? := by
  have slots := slot_pads_pairwise hp hword hq hc hr
  have places := field_pads_pairwise hp hword hq hc hr
  rw [Class.virtualFunctions, Class.allFunctions, List.pairwise_filter, List.pairwise_filterMap] at slots
  rw [Class.fields, List.pairwise_filterMap] at places
  have isVirtual : ∀ f, .ofFunction f ∈ r.members → f.isPad = true → f.isVirtual = true := fun f hf isPad =>
    (List.mem_filter.mp ((grouped_at hp hq hc hr).pad_virtual hf isPad)).2
  refine (slots.and places).imp_of_mem fun {d e} hd he both isPad isPad' hname => ?_
  obtain ⟨slots, places⟩ := both
  cases d with
  | ofFunction f =>
    cases e with
    | ofFunction g =>
      exact slots f rfl g rfl (isVirtual f hd isPad) (isVirtual g he isPad') isPad isPad' (Option.some.inj hname)
    | ofVariable w => exact slot_pad_ne_field_pad hp hword hq hc hr hd isPad he isPad' (Option.some.inj hname)
    | _ => cases isPad'
  | ofVariable v =>
    cases e with
    | ofFunction g => exact slot_pad_ne_field_pad hp hword hq hc hr he isPad' hd isPad (Option.some.inj hname).symm
    | ofVariable w => exact places v rfl w rfl isPad isPad' (Option.some.inj hname)
    | _ => cases isPad'
  | _ => cases isPad

end
end

/-- How an entry `g` in the table of the class at `j`, declared as `b`, is told from the pad `pad` in the table of the
    class at `i`. If it is a pad as well, it has the same name exactly if it is for the same slot, which it is not where
    the table with `pad` continues the one with `g`. If it is no pad, it is declared. --/
structure ToldApart (p : Program) (i j : Nat) (b : Class) (pad g : Function) : Prop where
  slot : g.isPad = true → (g.name = pad.name ↔ g.address = pad.address)
  line : g.isPad = true → TransGen (Continues p) i j → g.name ≠ pad.name
  declared : g.isPad = false → ∃ f ∈ b.virtualFunctions, g = { f with address := none }

/-- In a class that is laid out, a member with the name of a pad is that pad, or it is declared. And an entry of any table
    with the name of a pad in the table of the class is a declared function, or the pad for the same slot of a table that
    the table of the class does not continue. --/
theorem pads_told_apart {word : Int} (hword : 0 < word) {strict : Bool} {events : Trail TreeFault Event} {p q : Program}
    (built : (build strict events).program = .ok p) (laidOut : (layout (.ofPointerSize word) p).program = .ok q)
    {i : Nat} {c r : Class} (hc : p.declarations[i]? = some (.ofClass c))
    (hr : q.declarations[i]? = some (.ofClass r)) :
    (∀ before pad after, r.members = before ++ pad :: after → pad.isPad = true → ∀ e ∈ before ++ after,
      e.memberName? = pad.memberName? → e.isPad = false ∧ ∃ d ∈ c.members, Filled d e) ∧
    ∀ pad ∈ r.virtualFunctions, pad.isPad = true → ∀ (j : Nat) (b rb : Class),
      p.declarations[j]? = some (.ofClass b) → q.declarations[j]? = some (.ofClass rb) →
      ∀ g ∈ rb.virtualFunctions, ToldApart p i j b pad g := by
  have hp := wellBound_of_build built
  have hgrouped := grouped_at hp laidOut hc hr
  constructor
  · intro before pad after hmembers isPad e he hname
    have hpairwise := pads_pairwise hp hword laidOut hc hr
    rw [hmembers, List.pairwise_append, List.pairwise_cons] at hpairwise
    obtain ⟨-, ⟨behind, -⟩, ahead⟩ := hpairwise
    have noPad : e.isPad = false := by
      rw [← Bool.not_eq_true]
      intro isPad'
      rcases List.mem_append.mp he with he | he
      · exact ahead e he pad List.mem_cons_self isPad' isPad hname
      · exact behind e he isPad isPad' hname.symm
    have hmem : e ∈ r.members := by
      rw [hmembers]
      exact (List.mem_append.mp he).elim (List.mem_append_left _)
        fun h => List.mem_append_right _ (List.mem_cons_of_mem _ h)
    exact ⟨noPad, hgrouped.members.declared hmem noPad⟩
  · intro pad hpad isPad j b rb hb hrb g hg
    refine ⟨fun isPad' => ?_, fun isPad' line => ?_, (grouped_at hp laidOut hb hrb).declared_virtual hg⟩
    · obtain ⟨slot, address, name⟩ := slot_of_pad hp hword laidOut hc hr hpad isPad
      obtain ⟨slot', address', name'⟩ := slot_of_pad hp hword laidOut hb hrb hg isPad'
      rw [address, address', name, name', Option.some.injEq]
      exact ⟨slotPadName_injective, congrArg slotPadName⟩
    · exact pad_name_ne_along_line hp hword laidOut hc hr hpad isPad hb hrb hg isPad' line

/-! A class with two bases, the second of which has a pad in the slot of a pad of the class. -/

def secondBaseSource : String :=
  "class A { virtual int a(); };\nclass B { virtual int b() @ 0x8; };\nclass C : A, B { virtual int c() @ 0x8; };"

def secondBaseFile : FileNode :=
  ⟨[.ofClass ⟨"A", [], [.ofFunction (virtualNode "a" ⟨1, 11⟩ ⟨1, 19⟩)], ⟨1, 1⟩⟩,
    .ofClass ⟨"B", [], [.ofFunction { virtualNode "b" ⟨2, 11⟩ ⟨2, 19⟩ with address := some ⟨"0x8", ⟨2, 29⟩⟩ }], ⟨2, 1⟩⟩,
    .ofClass ⟨"C", ["A", "B"],
      [.ofFunction { virtualNode "c" ⟨3, 18⟩ ⟨3, 26⟩ with address := some ⟨"0x8", ⟨3, 36⟩⟩ }], ⟨3, 1⟩⟩], ⟨1, 1⟩⟩

def firstBaseClass : Class := ⟨"A", [], [.ofFunction (virtualFunction "a" none 1)], 1⟩

def secondBaseClass : Class := ⟨"B", [], [.ofFunction (virtualFunction "b" (some 8) 2)], 2⟩

def secondBaseResolved : Class :=
  ⟨"B", [], [.ofFunction (.pad 0), .ofFunction (.pad 4), .ofFunction (virtualFunction "b" none 2)], 2⟩

def joinedClass : Class := ⟨"C", ["A", "B"], [.ofFunction (virtualFunction "c" (some 8) 3)], 3⟩

def joinedResolved : Class :=
  ⟨"C", ["A", "B"], [.ofFunction (.pad 4), .ofFunction (virtualFunction "c" none 3)], 3⟩

def secondBaseProgram : Program := ⟨[.ofClass firstBaseClass, .ofClass secondBaseClass, .ofClass joinedClass]⟩

def secondBaseLaidOut : Program := ⟨[.ofClass firstBaseClass, .ofClass secondBaseResolved, .ofClass joinedResolved]⟩

theorem built_secondBase : (build true (secondBaseFile.events none)).program = .ok secondBaseProgram := by
  with_unfolding_all rfl

theorem layout_secondBase : (layout (.ofPointerSize 4) secondBaseProgram).program = .ok secondBaseLaidOut := by
  with_unfolding_all rfl

theorem pads_told_apart_secondBase : (0 : Int) < 4 ∧
    (build true (secondBaseFile.events none)).program = .ok secondBaseProgram ∧
    (layout (.ofPointerSize 4) secondBaseProgram).program = .ok secondBaseLaidOut ∧
    (∀ e ∈ [Declaration.ofFunction (virtualFunction "c" none 3)], e.memberName? = some "vpad_4" →
      e.isPad = false ∧ ∃ d ∈ joinedClass.members, Filled d e) ∧
    ∀ g ∈ secondBaseResolved.virtualFunctions, ToldApart secondBaseProgram 2 1 secondBaseClass (.pad 4) g := by
  obtain ⟨members, tables⟩ := pads_told_apart (by decide) built_secondBase layout_secondBase (i := 2) rfl rfl
  exact ⟨by decide, built_secondBase, layout_secondBase, members [] (.ofFunction (.pad 4)) _ rfl rfl,
    tables (.pad 4) List.mem_cons_self rfl 1 _ _ rfl rfl⟩

set_option maxRecDepth 2000 in
/-- A pad of the class has the name of a pad of its second base. --/
theorem pad_named_as_in_second_base : parse (lex secondBaseSource).tokens = .ok secondBaseFile ∧
    (build true (secondBaseFile.events none)).program = .ok secondBaseProgram ∧
    (layout (.ofPointerSize 4) secondBaseProgram).program = .ok secondBaseLaidOut ∧
    "B" ∈ joinedClass.bases ∧
    ∃ pad ∈ joinedResolved.virtualFunctions, pad.isPad = true ∧
      ∃ g ∈ secondBaseResolved.virtualFunctions, g.name = pad.name :=
  ⟨by with_unfolding_all rfl, built_secondBase, layout_secondBase, by decide, .pad 4, List.mem_cons_self, rfl, .pad 4,
    List.mem_cons_of_mem _ List.mem_cons_self, rfl⟩

end Layout
end Overlay
