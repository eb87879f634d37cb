import Mathlib.Data.List.Chain
import Overlay.Proofs.Layout.Faults
import Overlay.Proofs.Layout.Interleaving

/-! Classes that cannot be laid out. What a class asks for is said without a cursor: its fields have offsets, and its
    virtual functions slots, that keep those that are declared and follow one another. A layout places members one by
    one and never takes back a place; still it rejects no class that has such places, as the place of a member without
    one of its own is the only one that it can have. So a layout fails exactly where a class has no such places, and
    it does so at the first member that leaves none to it and to those before it. -/

namespace Overlay
namespace Layout
open Trail (Runs)

/-! ### What a class asks for -/

/-- A field at its offset behind another one: not below the end of the other, if the size of that one is known, and
    above its offset otherwise; and at that end exactly, unless the field declares its offset. --/
structure FieldBehind (sizeOf : Variable → Option Int) (a b : Variable × Int) : Prop where
  known : ∀ size, sizeOf a.1 = some size → a.2 + size ≤ b.2
  unknown : sizeOf a.1 = none → a.2 < b.2
  implicit : b.1.offset = none → ∃ size, sizeOf a.1 = some size ∧ b.2 = a.2 + size

/-- Offsets for fields that begin at `start`, if that is known. --/
structure OffsetsFit (sizeOf : Variable → Option Int) (start : Option Int) (placed : List (Variable × Int)) : Prop where
  kept : ∀ v n, (v, n) ∈ placed → ∀ offset : Nat, v.offset = some offset → n = offset
  first : ∀ v n, placed.head? = some (v, n) → ∀ k, start = some k → k ≤ n
  behind : placed.IsChain (FieldBehind sizeOf)

/-- Slots of `word` bytes for virtual functions whose table goes on at `start`, if that is known. From there on, or from
    the first slot that is declared on, a function takes the slot behind the one before it, and only one that declares
    its slot takes a later one. --/
structure SlotsFit (word : Int) (start : Option Int) (placed : List (Function × Int)) : Prop where
  kept : ∀ f n, (f, n) ∈ placed → ∀ offset : Nat, f.address = some offset → n = offset ∧ word ∣ n
  first : ∀ f n, placed.head? = some (f, n) → ∀ k, start = some k → k ≤ n ∧ (f.address = none → n = k)
  behind : ∀ before f m g n after, placed = before ++ (f, m) :: (g, n) :: after →
    (start.isSome ∨ ∃ h ∈ before ++ [(f, m)], h.1.address.isSome) → m + word ≤ n ∧ (g.address = none → n = m + word)

/-- There are offsets for the fields among members of a class, and slots for the virtual functions among them. --/
structure HasPlaces (s : Settled) (c : Class) (members : List Declaration) : Prop where
  offsets : ∃ placed, placed.map (·.1) = members.filterMap Declaration.toVariable? ∧
    OffsetsFit s.sizes.sizeOfVariable? (fieldsBegin s c) placed
  slots : ∃ placed, placed.map (·.1) = virtuals members ∧
    SlotsFit s.sizes.target.pointerSize (tableBegin s c) placed

/-! ### Fields -/

/-- An offset that a field can have behind a cursor. --/
structure FieldFits (cursor : FieldCursor) (v : Variable) (offset : Nat) : Prop where
  kept : ∀ n, v.offset = some n → n = offset
  known : ∀ k, cursor.next = some k → k ≤ offset
  unknown : cursor.next = none → ∀ last, cursor.last = some last → last < offset
  implicit : v.offset = none → cursor.next = some (offset : Int)

theorem fieldPlace_iff {cursor : FieldCursor} (hcursor : ∀ k, cursor.next = some k → 0 ≤ k) {v : Variable} {offset : Nat} :
    (∃ out, FieldPlace cursor v offset out) ↔ FieldFits cursor v offset := by
  constructor
  · rintro ⟨out, place⟩
    cases place with
    | above unknown given above =>
      exact ⟨by simp [given], by simp [unknown], fun _ => above, by simp [given]⟩
    | adjacent next given =>
      exact ⟨given, by simp [next], by simp [next], fun _ => next⟩
    | padded next gap given =>
      refine ⟨by simp [given], fun k hk => ?_, by simp [next], by simp [given]⟩
      rw [next] at hk
      cases hk
      omega
  · intro fits
    cases hnext : cursor.next with
    | none =>
      cases given : v.offset with
      | none =>
        have := fits.implicit given
        rw [hnext] at this
        cases this
      | some n =>
        obtain rfl := fits.kept n given
        exact ⟨_, .above hnext given (fits.unknown hnext)⟩
    | some start =>
      obtain ⟨start, rfl⟩ := Int.eq_ofNat_of_zero_le (hcursor start hnext)
      rcases Nat.lt_or_ge start offset with gap | ge
      · -- Only a declared offset lies above the end of the field before.
        cases given : v.offset with
        | none =>
          have := fits.implicit given
          rw [hnext, Option.some.injEq] at this
          omega
        | some n =>
          obtain rfl := fits.kept n given
          exact ⟨_, .padded hnext gap given⟩
      · have hle := fits.known start hnext
        obtain rfl : start = offset := by omega
        exact ⟨_, .adjacent hnext fits.kept⟩

section
variable {sizes : SizeTable} {className : String}

theorem fieldStep_iff {cursor next : FieldCursor} {v : Variable} :
    (∃ items, fieldStep sizes className cursor v = .ok (next, items)) ↔
      ∃ offset : Nat, (∃ out, FieldPlace cursor v offset out) ∧ next = .after sizes v offset := by
  constructor
  · rintro ⟨items, h⟩
    obtain ⟨placed, hplaced, hstep⟩ := map_eq_ok h
    obtain ⟨offset, hafter, place⟩ := placeField_eq_ok hplaced
    cases hstep
    exact ⟨offset, ⟨_, place⟩, hafter⟩
  · rintro ⟨offset, ⟨out, place⟩, rfl⟩
    obtain ⟨notices, h⟩ := place.placeField_eq sizes className
    exact ⟨_, by rw [fieldStep, h]; rfl⟩

/-- A field of known size ends at or above zero, and so does the cursor behind it. --/
theorem after_nonneg {a : Variable} {m : Nat} (hpos : ∀ k, sizes.sizeOfVariable? a = some k → 0 < k) :
    ∀ k, (FieldCursor.after sizes a m).next = some k → 0 ≤ k := by
  intro k hk
  obtain ⟨size, hsize, rfl⟩ := Option.map_eq_some_iff.mp hk
  have := hpos size hsize
  omega

theorem fieldFits_after_iff {a v : Variable} {m n : Nat} : FieldFits (.after sizes a m) v n ↔
    (∀ offset : Nat, v.offset = some offset → (n : Int) = offset) ∧
      FieldBehind sizes.sizeOfVariable? (a, m) (v, n) := by
  have hnext : ∀ k, (FieldCursor.after sizes a m).next = some k ↔
      ∃ size, sizes.sizeOfVariable? a = some size ∧ k = m + size := fun k =>
    Option.map_eq_some_iff.trans (exists_congr fun _ => and_congr_right fun _ => eq_comm)
  have hnone : (FieldCursor.after sizes a m).next = none ↔ sizes.sizeOfVariable? a = none := by
    simp [FieldCursor.after]
  constructor
  · rintro ⟨kept, known, unknown, implicit⟩
    refine ⟨fun offset h => by rw [kept offset h], fun size h => known _ ((hnext _).mpr ⟨size, h, rfl⟩), fun h => ?_,
      fun h => (hnext n).mp (implicit h)⟩
    have := unknown (hnone.mpr h) m rfl
    exact Int.ofNat_lt.mpr this
  · rintro ⟨kept, known, unknown, implicit⟩
    refine ⟨fun offset h => ?_, fun k hk => ?_, fun h last hlast => ?_, fun h => (hnext n).mpr (implicit h)⟩
    · have := kept offset h
      omega
    · obtain ⟨size, hsize, rfl⟩ := (hnext k).mp hk
      exact known size hsize
    · cases hlast
      exact Int.ofNat_lt.mp (unknown (hnone.mp h))

variable (className) in
/-- Fields run behind a field exactly if they have offsets behind it. --/
theorem fields_behind_iff {fields : List Variable} {a : Variable} {m : Nat}
    (hpos : ∀ v ∈ a :: fields, ∀ k, sizes.sizeOfVariable? v = some k → 0 < k) :
    (∃ items last, Runs (fieldStep sizes className) (.after sizes a m) fields items last) ↔
      ∃ placed : List (Variable × Int), placed.map (·.1) = fields ∧
        (∀ v n, (v, n) ∈ placed → ∀ offset : Nat, v.offset = some offset → n = offset) ∧
        ((a, (m : Int)) :: placed).IsChain (FieldBehind sizes.sizeOfVariable?) := by
  induction fields generalizing a m with
  | nil => exact iff_of_true ⟨_, _, .nil _⟩ ⟨[], rfl, by simp, List.isChain_singleton _⟩
  | cons v fields ih =>
    have hafter := after_nonneg (m := m) (hpos a List.mem_cons_self)
    have hfields : ∀ w ∈ v :: fields, ∀ k, sizes.sizeOfVariable? w = some k → 0 < k :=
      fun w hw => hpos w (List.mem_cons_of_mem _ hw)
    constructor
    · rintro ⟨items, last, run⟩
      cases run with
      | cons head tail =>
        obtain ⟨n, place, rfl⟩ := fieldStep_iff.mp ⟨_, head⟩
        obtain ⟨kept, behind⟩ := fieldFits_after_iff.mp ((fieldPlace_iff hafter).mp place)
        obtain ⟨placed, rfl, hkept, chain⟩ := (ih hfields).mp ⟨_, _, tail⟩
        refine ⟨(v, n) :: placed, rfl, fun w k hw => ?_, List.isChain_cons_cons.mpr ⟨behind, chain⟩⟩
        rcases List.mem_cons.mp hw with heq | hw
        · cases heq
          exact kept
        · exact hkept w k hw
    · rintro ⟨placed, hmap, hkept, chain⟩
      obtain ⟨⟨w, n⟩, placed, rfl, rfl, rfl⟩ := List.map_eq_cons_iff.mp hmap
      obtain ⟨behind, chain⟩ := List.isChain_cons_cons.mp chain
      have kept := hkept w n List.mem_cons_self
      obtain ⟨n, rfl⟩ : ∃ k : Nat, n = k := by
        cases given : w.offset with
        | some offset => exact ⟨offset, kept offset given⟩
        | none =>
          obtain ⟨size, hsize, rfl⟩ := behind.implicit given
          exact Int.eq_ofNat_of_zero_le (hafter _ (by rw [FieldCursor.after, hsize]; rfl))
      have place := (fieldPlace_iff hafter).mpr (fieldFits_after_iff.mpr ⟨kept, behind⟩)
      obtain ⟨items, head⟩ := fieldStep_iff.mpr ⟨n, place, rfl⟩
      obtain ⟨more, last, tail⟩ :=
        (ih hfields).mpr ⟨placed, rfl, fun v k hv => hkept v k (List.mem_cons_of_mem _ hv), chain⟩
      exact ⟨_, _, .cons head tail⟩

variable (className) in
/-- Fields run from the start of the fields on exactly if they have offsets. --/
theorem fields_iff {fields : List Variable} {start : Option Int} (hstart : ∀ k, start = some k → 0 ≤ k)
    (hpos : ∀ v ∈ fields, ∀ k, sizes.sizeOfVariable? v = some k → 0 < k)
    (bound : ∀ v, fields.head? = some v → v.offset.isSome) :
    (∃ items last, Runs (fieldStep sizes className) ⟨start, none⟩ fields items last) ↔
      ∃ placed, placed.map (·.1) = fields ∧ OffsetsFit sizes.sizeOfVariable? start placed := by
  cases fields with
  | nil => exact iff_of_true ⟨_, _, .nil _⟩ ⟨[], rfl, by simp, by simp, List.isChain_nil⟩
  | cons v fields =>
    obtain ⟨offset, given⟩ := Option.isSome_iff_exists.mp (bound v rfl)
    constructor
    · rintro ⟨items, last, run⟩
      cases run with
      | cons head tail =>
        obtain ⟨n, place, rfl⟩ := fieldStep_iff.mp ⟨_, head⟩
        have fits := (fieldPlace_iff hstart).mp place
        obtain ⟨placed, rfl, hkept, chain⟩ := (fields_behind_iff className hpos).mp ⟨_, _, tail⟩
        refine ⟨(v, n) :: placed, rfl, fun w k hw => ?_, fun w k hw => ?_, chain⟩
        · rcases List.mem_cons.mp hw with heq | hw
          · cases heq
            exact fun offset h => congrArg _ (fits.kept offset h).symm
          · exact hkept w k hw
        · cases hw
          exact fits.known
    · rintro ⟨placed, hmap, hfit⟩
      obtain ⟨⟨w, n⟩, placed, rfl, rfl, rfl⟩ := List.map_eq_cons_iff.mp hmap
      change w.offset = some offset at given
      obtain rfl := hfit.kept w n List.mem_cons_self offset given
      have fits : FieldFits ⟨start, none⟩ w offset :=
        ⟨by simp [given], hfit.first w offset rfl, by simp, by simp [given]⟩
      obtain ⟨items, head⟩ := fieldStep_iff.mpr ⟨offset, (fieldPlace_iff hstart).mpr fits, rfl⟩
      obtain ⟨more, last, tail⟩ := (fields_behind_iff className hpos).mpr
        ⟨placed, rfl, fun v k hv => hfit.kept v k (List.mem_cons_of_mem _ hv), hfit.behind⟩
      exact ⟨_, _, .cons head tail⟩

end

/-! ### Virtual functions -/

/-- A slot that a virtual function can have behind a cursor. --/
structure SlotFits (word : Int) (cursor : Option Int) (f : Function) (n : Int) : Prop where
  kept : ∀ offset : Nat, f.address = some offset → n = offset ∧ word ∣ n
  known : ∀ k, cursor = some k → k ≤ n ∧ (f.address = none → n = k)

/-- The slot behind a virtual function at `n`, once a slot is known. --/
def slotAfter (word : Int) (cursor : Option Int) (f : Function) (n : Int) : Option Int :=
  if cursor.isSome ∨ f.address.isSome then some (n + word) else none

section
variable {word : Int}

theorem slotAfter_isSome {cursor : Option Int} {f : Function} {n : Int} :
    (slotAfter word cursor f n).isSome ↔ cursor.isSome ∨ f.address.isSome := by
  unfold slotAfter
  split <;> simp_all

theorem slotAfter_eq_some {cursor : Option Int} {f : Function} {n k : Int} (h : slotAfter word cursor f n = some k) :
    k = n + word := by
  unfold slotAfter at h
  split at h <;> cases h
  rfl

theorem slotPlace_iff {cursor next : Option Int} {f : Function} :
    (∃ out, SlotPlace word cursor f out next) ↔ ∃ n, SlotFits word cursor f n ∧ next = slotAfter word cursor f n := by
  constructor
  · rintro ⟨out, place⟩
    cases place with
    | next given =>
      cases cursor with
      | none => exact ⟨0, ⟨by simp [given], by simp⟩, by simp [slotAfter, given]⟩
      | some start => exact ⟨start, ⟨by simp [given], by simp⟩, by simp [slotAfter]⟩
    | @first offset unknown given aligned =>
      exact ⟨offset, ⟨by simpa [given] using aligned, by simp [unknown]⟩, by simp [slotAfter, given]⟩
    | @padded start offset known given aligned above =>
      exact ⟨offset, ⟨by simpa [given] using aligned, by simp [known, given, above]⟩, by simp [slotAfter, given]⟩
  · rintro ⟨n, fits, rfl⟩
    cases given : f.address with
    | some offset =>
      obtain ⟨rfl, aligned⟩ := fits.kept offset given
      have hafter : slotAfter word cursor f offset = some (offset + word) := by simp [slotAfter, given]
      rw [hafter]
      cases cursor with
      | none => exact ⟨_, .first rfl given aligned⟩
      | some start => exact ⟨_, .padded rfl given aligned (fits.known start rfl).1⟩
    | none =>
      have hafter : slotAfter word cursor f n = cursor.map (· + word) := by
        cases cursor with
        | none => simp [slotAfter, given]
        | some start => simp [slotAfter, (fits.known start rfl).2 given]
      rw [hafter]
      exact ⟨_, .next given⟩

theorem slotsFit_cons {cursor : Option Int} {f : Function} {n : Int} {placed : List (Function × Int)} :
    SlotsFit word cursor ((f, n) :: placed) ↔
      SlotFits word cursor f n ∧ SlotsFit word (slotAfter word cursor f n) placed := by
  constructor
  · rintro ⟨kept, first, behind⟩
    refine ⟨⟨kept f n List.mem_cons_self, first f n rfl⟩, fun g k hg => kept g k (List.mem_cons_of_mem _ hg), ?_, ?_⟩
    · intro g m hg k hk
      obtain ⟨after, rfl⟩ := List.head?_eq_some_iff.mp hg
      have hknown : (slotAfter word cursor f n).isSome := by rw [hk]; rfl
      obtain rfl := slotAfter_eq_some hk
      refine behind [] f n g m after rfl ?_
      simpa using slotAfter_isSome.mp hknown
    · rintro before g m h k after rfl known
      refine behind ((f, n) :: before) g m h k after rfl ?_
      rcases known with known | ⟨e, he, known⟩
      · rcases slotAfter_isSome.mp known with known | known
        · exact Or.inl known
        · exact Or.inr ⟨_, List.mem_cons_self, known⟩
      · exact Or.inr ⟨e, List.mem_cons_of_mem _ he, known⟩
  · rintro ⟨fits, kept, first, behind⟩
    refine ⟨fun g k hg => ?_, fun g k hg => ?_, ?_⟩
    · rcases List.mem_cons.mp hg with heq | hg
      · cases heq
        exact fits.kept
      · exact kept g k hg
    · cases hg
      exact fits.known
    · intro before g m h k after heq known
      cases before with
      | nil =>
        obtain ⟨hhead, rfl⟩ := List.cons.inj heq
        cases hhead
        refine first h k rfl _ (if_pos ?_)
        simpa using known
      | cons e before =>
        obtain ⟨rfl, rfl⟩ := List.cons.inj heq
        refine behind before g m h k after rfl ?_
        rcases known with known | ⟨e, he, known⟩
        · exact Or.inl (slotAfter_isSome.mpr (Or.inl known))
        · rcases List.mem_cons.mp he with rfl | he
          · exact Or.inl (slotAfter_isSome.mpr (Or.inr known))
          · exact Or.inr ⟨e, he, known⟩

variable {sizes : SizeTable} (className : String)

/-- Virtual functions run exactly if they have slots. --/
theorem slots_iff (hword : 0 < sizes.target.pointerSize) {functions : List Function}
    (noPads : ∀ f ∈ functions, f.isPad = false) {cursor : Option Int} :
    (∃ items last, Runs (slotStep sizes className) cursor functions items last) ↔
      ∃ placed, placed.map (·.1) = functions ∧ SlotsFit sizes.target.pointerSize cursor placed := by
  induction functions generalizing cursor with
  | nil => exact iff_of_true ⟨_, _, .nil _⟩ ⟨[], rfl, by simp, by simp, by simp⟩
  | cons f functions ih =>
    have noPad := noPads f List.mem_cons_self
    have others : ∀ g ∈ functions, g.isPad = false := fun g hg => noPads g (List.mem_cons_of_mem _ hg)
    constructor
    · rintro ⟨items, last, run⟩
      cases run with
      | cons head tail =>
        obtain ⟨placement, hplaced, hstep⟩ := map_eq_ok head
        cases hstep
        obtain ⟨n, fits, hnext⟩ := slotPlace_iff.mp ⟨_, placeSlot_eq_ok noPad hplaced⟩
        rw [hnext] at tail
        obtain ⟨placed, rfl, hfit⟩ := (ih others).mp ⟨_, _, tail⟩
        exact ⟨(f, n) :: placed, rfl, slotsFit_cons.mpr ⟨fits, hfit⟩⟩
    · rintro ⟨placed, hmap, hfit⟩
      obtain ⟨⟨g, n⟩, placed, rfl, rfl, rfl⟩ := List.map_eq_cons_iff.mp hmap
      obtain ⟨fits, hfit⟩ := slotsFit_cons.mp hfit
      obtain ⟨out, place⟩ := slotPlace_iff.mpr ⟨n, fits, rfl⟩
      obtain ⟨items, last, tail⟩ := (ih others).mpr ⟨placed, rfl, hfit⟩
      have head : slotStep sizes className cursor g =
          .ok (slotAfter sizes.target.pointerSize cursor g n, virtuals out) := by
        rw [slotStep, place.placeSlot_eq className hword noPad]
        rfl
      exact ⟨_, _, .cons head tail⟩

end

/-! ### Classes -/

theorem noPads_of_bound {members : List Declaration} (hmembers : ∀ d ∈ members, d.MemberBound) :
    ∀ f ∈ virtuals members, f.isPad = false := by
  intro f hf
  obtain ⟨d, hd, hf⟩ := List.mem_filterMap.mp (List.mem_filter.mp hf).1
  obtain rfl := Declaration.toFunction?_eq_some_iff.mp hf
  exact (hmembers _ hd).1.isPad

section
variable {word : Int} {s : Settled} {c : Class} (hword : 0 < word) (hs : s.sizes.Growing word)
include hword hs

theorem size_pos_of_bound {members : List Declaration} (hmembers : ∀ d ∈ members, d.MemberBound) :
    ∀ v ∈ members.filterMap Declaration.toVariable?, ∀ k, s.sizes.sizeOfVariable? v = some k → 0 < k := by
  intro v hv k hk
  obtain ⟨d, hd, hv⟩ := List.mem_filterMap.mp hv
  obtain rfl := Declaration.toVariable?_eq_some_iff.mp hv
  have declared : v.Declared := hmembers _ hd
  rw [sizeOfVariable?_of_declared declared.length] at hk
  exact sizeOf?_pos hs hword hk

variable (hc : c.WellBound)
include hc

/-- The first members of a class run exactly if they have places. --/
theorem runs_iff_hasPlaces {members : List Declaration} (leading : members <+: c.members) :
    (∃ items last, Runs (placeMember s.sizes c.name) (startOf s c) members items last) ↔ HasPlaces s c members := by
  have hbound : ∀ d ∈ members, d.MemberBound := fun d hd => hc.members d (leading.subset hd)
  have first : ∀ v, (members.filterMap Declaration.toVariable?).head? = some v → v.offset.isSome := by
    intro v hv
    obtain ⟨others, hothers⟩ := leading
    refine hc.first v ?_
    rw [Class.fields, ← hothers, List.filterMap_append, List.head?_append, hv, Option.some_or]
  have hpointer : 0 < s.sizes.target.pointerSize := by rw [hs.target]; exact hword
  have hfields := fields_iff c.name (fun k => fieldsBegin_nonneg hword hs (c := c))
    (size_pos_of_bound hword hs hbound) first
  have noPads := noPads_of_bound hbound
  constructor
  · rintro ⟨items, last, run⟩
    exact ⟨hfields.mp ⟨_, _, fields_run run⟩, (slots_iff c.name hpointer noPads).mp ⟨_, _, slots_run run⟩⟩
  · rintro ⟨offsets, slots⟩
    obtain ⟨fields, field, fieldsRun⟩ := hfields.mpr offsets
    obtain ⟨functions, slot, slotsRun⟩ := (slots_iff c.name hpointer noPads).mpr slots
    obtain ⟨items, run⟩ := members_run fieldsRun slotsRun
    exact ⟨items, _, run⟩

/-- A class is laid out exactly if it has places for its members. --/
theorem layoutClass_ok_iff : (∃ l, layoutClass s c = .ok l) ↔ HasPlaces s c c.members := by
  rw [← runs_iff_hasPlaces hword hs hc (List.prefix_refl _)]
  constructor
  · rintro ⟨l, hl⟩
    obtain ⟨items, last, run, -⟩ := runs_of_layoutClass hl
    exact ⟨items, last, run⟩
  · rintro ⟨items, last, run⟩
    obtain ⟨l, hl, -⟩ := layoutClass_of_runs run
    exact ⟨l, hl⟩

/-- A class is rejected at the first member that leaves no places for it and the members before it. --/
theorem misfit_of_layoutClass {found : ClassFault} (hl : layoutClass s c = .error found) :
    ∃ before d, before ++ [d] <+: c.members ∧ HasPlaces s c before ∧ ¬HasPlaces s c (before ++ [d]) ∧
      MisplacedMember c.name d found.fault := by
  have hfault : (Trail.feed (placeMember s.sizes c.name) (startOf s c) c.members).2.fault = some found.fault := by
    unfold layoutClass at hl
    dsimp only at hl
    split at hl
    · rename_i fault hfault
      cases hl
      exact hfault
    · cases hl
  obtain ⟨before, d, after, cursors, hmembers, hbefore, hstep⟩ := Trail.feed_fault_iff.mp hfault
  have leading : before ++ [d] <+: c.members := ⟨after, by rw [hmembers]; simp⟩
  have hbound : ∀ d ∈ before, d.MemberBound := fun d hd => hc.members d (by rw [hmembers]; simp [hd])
  obtain ⟨items, run⟩ := Trail.reach_eq_ok_iff.mp hbefore
  have fits := (runs_iff_hasPlaces hword hs hc ((List.prefix_append before [d]).trans leading)).mp ⟨_, _, run⟩
  refine ⟨before, d, leading, fits, fun places => ?_, ?_⟩
  · obtain ⟨items, last, run⟩ := (runs_iff_hasPlaces hword hs hc leading).mpr places
    have hreach := Trail.reach_eq_ok_iff.mpr ⟨items, run⟩
    rw [Trail.reach_append, hbefore] at hreach
    change Trail.reach (placeMember s.sizes c.name) cursors [d] = _ at hreach
    rw [Trail.reach_cons, hstep] at hreach
    cases hreach
  · have hpointer : 0 < s.sizes.target.pointerSize := by rw [hs.target]; exact hword
    have hcursors : (Trail.feed (placeMember s.sizes c.name) (startOf s c) before).1.FromZero :=
      Trail.feed_keeps (placeMember_fromZero hs hword hbound) fun n hn => fieldsBegin_nonneg hword hs hn
    rw [Trail.runs_iff.mp run] at hcursors
    exact placeMember_fault hpointer hcursors hstep

end

/-! ### Programs -/

section
variable {target : Target} {p : Program}

theorem settledBefore_first {i j : Nat} (h : j ≤ i) : settledBefore target (p.first i) j = settledBefore target p j := by
  rw [settledBefore_eq, settledBefore_eq, Program.first, List.take_take, Nat.min_eq_left h]

/-- A layout that fails does so at a class, after it has laid out all declarations before it. --/
theorem class_of_layout_error {fault : LayoutFault} (h : (layout target p).program = .error fault) :
    ∃ i c found q, p.declarations[i]? = some (.ofClass c) ∧ (layout target (p.first i)).program = .ok q ∧
      layoutClass (settledBefore target p i) c = .error found ∧ found.fault = fault := by
  unfold layout at h
  dsimp only at h
  split at h
  · rename_i found hfound
    cases h
    obtain ⟨before, d, after, s, hdeclarations, hbefore, hstep⟩ := Trail.feed_fault_iff.mp hfound
    obtain ⟨c, rfl, hl⟩ := layoutDeclaration_eq_error hstep
    obtain ⟨items, run⟩ := Trail.reach_eq_ok_iff.mp hbefore
    have hfirst : p.declarations.take before.length = before := by rw [hdeclarations, List.take_left]
    have hfeed : Trail.feed layoutDeclaration (.initial target) (p.first before.length).declarations = (s, .whole items) := by
      rw [Program.first, hfirst]
      exact Trail.runs_iff.mp run
    have hlayout : (layout target (p.first before.length)).program = .ok ⟨items.map (·.1)⟩ := by
      unfold layout
      dsimp only
      rw [hfeed]
      rfl
    have hsettled : settledBefore target p before.length = s := by
      rw [settledBefore, layout_settled, hfeed]
    exact ⟨before.length, c, found, _, by rw [hdeclarations, List.getElem?_append_right (Nat.le_refl _)]; simp, hlayout,
      by rw [hsettled, hl], rfl⟩
  · cases h

end

/-- The member `d` of the class at `i`, behind the members `before`, is the first of a program without a place: the
    classes before have places for all of their members, and the class has them for those before the member, but not
    for the member as well. --/
structure FirstMisfit (target : Target) (p : Program) (i : Nat) (c : Class) (before : List Declaration)
    (d : Declaration) : Prop where
  declared : p.declarations[i]? = some (.ofClass c)
  leading : before ++ [d] <+: c.members
  earlier : ∀ j < i, ∀ b, p.declarations[j]? = some (.ofClass b) → HasPlaces (settledBefore target p j) b b.members
  fits : HasPlaces (settledBefore target p i) c before
  misfit : ¬HasPlaces (settledBefore target p i) c (before ++ [d])

/-- The layout of every program that is built fails exactly if some class has no places for its members, by what is
    settled about the classes before it. The fault is then that of the first member without a place, and gives the name
    and the line of that member. --/
theorem layout_rejects_misfits {word : Int} (hword : 0 < word) {strict : Bool} {events : Trail TreeFault Event}
    {p : Program} (built : (build strict events).program = .ok p) :
    ((∃ fault, (layout (.ofPointerSize word) p).program = .error fault) ↔
      ∃ i c, p.declarations[i]? = some (.ofClass c) ∧
        ¬HasPlaces (settledBefore (.ofPointerSize word) p i) c c.members) ∧
    ∀ fault, (layout (.ofPointerSize word) p).program = .error fault →
      ∃ i c before d, FirstMisfit (.ofPointerSize word) p i c before d ∧ MisplacedMember c.name d fault := by
  have hp := wellBound_of_build built
  have laidOut_iff : ∀ {i : Nat} {c : Class}, p.declarations[i]? = some (.ofClass c) →
      ((∃ l, layoutClass (settledBefore (.ofPointerSize word) p i) c = .ok l) ↔
        HasPlaces (settledBefore (.ofPointerSize word) p i) c c.members) :=
    fun hc => layoutClass_ok_iff hword (settledBefore_growing hp hword _) (hp.declarations _ (List.mem_of_getElem? hc))
  refine ⟨⟨?_, ?_⟩, ?_⟩
  · rintro ⟨fault, hfault⟩
    obtain ⟨i, c, found, -, hc, -, hl, -⟩ := class_of_layout_error hfault
    refine ⟨i, c, hc, fun places => ?_⟩
    obtain ⟨l, hl'⟩ := (laidOut_iff hc).mpr places
    rw [hl] at hl'
    cases hl'
  · rintro ⟨i, c, hc, misfit⟩
    cases h : (layout (.ofPointerSize word) p).program with
    | error fault => exact ⟨fault, rfl⟩
    | ok q =>
      obtain ⟨l, hl, -⟩ := layout_class h hc
      exact absurd ((laidOut_iff hc).mp ⟨l, hl⟩) misfit
  · intro fault hfault
    obtain ⟨i, c, found, q, hc, hfirst, hl, rfl⟩ := class_of_layout_error hfault
    obtain ⟨before, d, leading, fits, misfit, hd⟩ := misfit_of_layoutClass hword (settledBefore_growing hp hword i)
      (hp.declarations _ (List.mem_of_getElem? hc)) hl
    refine ⟨i, c, before, d, ⟨hc, leading, fun j hj b hb => ?_, fits, misfit⟩, hd⟩
    obtain ⟨l, hl, -⟩ := layout_class hfirst ((getElem?_first hj).trans hb)
    rw [settledBefore_first (Nat.le_of_lt hj)] at hl
    exact (laidOut_iff hb).mp ⟨l, hl⟩

/-! A class with a field that declares an offset inside of the field before it. -/

def clashEvents : List Event :=
  [⟨.ofClass, .opening, 1, "", ["Clash"]⟩, .opens .ofVariable 2 "", .opens .ofPlainType 2 "int",
   .opens .ofAddress 2 "0x0", .closes .ofVariable 2 "a", .opens .ofVariable 3 "", .opens .ofPlainType 3 "int",
   .opens .ofAddress 3 "0x2", .closes .ofVariable 3 "b", .closes .ofClass 1 ""]

def clashProgram : Program :=
  ⟨[.ofClass ⟨"Clash", [], [.ofVariable (declaredField "a" "int" (some 0) 2),
    .ofVariable (declaredField "b" "int" (some 2) 3)], 1⟩]⟩

theorem layout_rejects_clash : (0 : Int) < 4 ∧ (build true ⟨clashEvents, none⟩).program = .ok clashProgram ∧
    (layout (.ofPointerSize 4) clashProgram).program = .error (.misplaced (.overlapsField 2 4) "Clash" "b" 3) ∧
    (∃ i c, clashProgram.declarations[i]? = some (.ofClass c) ∧
      ¬HasPlaces (settledBefore (.ofPointerSize 4) clashProgram i) c c.members) ∧
    ∃ i c before d, FirstMisfit (.ofPointerSize 4) clashProgram i c before d ∧
      MisplacedMember c.name d (.misplaced (.overlapsField 2 4) "Clash" "b" 3) := by
  have built : (build true ⟨clashEvents, none⟩).program = .ok clashProgram := rfl
  have failed : (layout (.ofPointerSize 4) clashProgram).program =
      .error (.misplaced (.overlapsField 2 4) "Clash" "b" 3) := by with_unfolding_all rfl
  obtain ⟨rejects, misfit⟩ := layout_rejects_misfits (show (0 : Int) < 4 by decide) built
  exact ⟨by decide, built, failed, rejects.mp ⟨_, failed⟩, misfit _ failed⟩

end Layout
end Overlay
