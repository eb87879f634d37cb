import Overlay.Proofs.Layout.Recorded

/-! The virtual tables of classes that are laid out. Entries take one slot of a word each from the start of the table
    on: a function that has declared the offset of its slot stands in that slot, and a pad is named for the slot that
    it fills. So along a chain of first bases the slots of all tables are those from zero on, each of them once. -/

namespace Overlay
namespace Layout

/-- The virtual functions among declarations. --/
def virtuals (ds : List Declaration) : List Function := (ds.filterMap Declaration.toFunction?).filter Function.isVirtual

/-- What stands in the slot at `offset`: a pad for that slot, or a declared function, which is there at the offset
    that it has declared, if it has, and bound to no address any more. --/
inductive InSlot (offset : Int) : Option Function → Function → Prop where
  | pad {slot : Nat} {e : Function} (here : slot = offset) (isPad : e.isPad = true) (address : e.address = some slot)
      (name : e.name = "vpad_" ++ Hexadecimal.lower slot) : InSlot offset none e
  | declared {f : Function} (isPad : f.isPad = false) (here : ∀ a : Nat, f.address = some a → a = offset) :
      InSlot offset (some f) { f with address := none }

/-- Entries that fill a virtual table slot by slot from `start` on: the declared functions in order, with pads
    between them. --/
def FillsTable (word start : Int) (declared entries : List Function) : Prop :=
  ∃ origins : List (Option Function), origins.filterMap id = declared ∧ origins.length = entries.length ∧
    ∀ (k : Nat) (o : Option Function) (e : Function), origins[k]? = some o → entries[k]? = some e →
      InSlot (start + k * word) o e

section
variable {word : Int}

theorem FillsTable.nil (start : Int) : FillsTable word start [] [] := ⟨[], rfl, rfl, by simp⟩

theorem FillsTable.single {start : Int} {o : Option Function} {e : Function} (h : InSlot start o e) :
    FillsTable word start o.toList [e] := by
  refine ⟨[o], by cases o <;> rfl, rfl, fun k o' e' ho he => ?_⟩
  cases k with
  | succ k => simp at ho
  | zero =>
    obtain rfl : o = o' := by simpa using ho
    obtain rfl : e = e' := by simpa using he
    simpa using h

/-- A function that has declared its slot fills that slot. --/
theorem FillsTable.declared {f : Function} (isPad : f.isPad = false) {offset : Nat} (given : f.address = some offset) :
    FillsTable word offset [f] [{ f with address := none }] := by
  refine .single (o := some f) (.declared isPad fun a ha => ?_)
  rw [given] at ha
  cases ha
  rfl

theorem FillsTable.append {start : Int} {declared entries declared' entries' : List Function}
    (h : FillsTable word start declared entries)
    (h' : FillsTable word (start + word * entries.length) declared' entries') :
    FillsTable word start (declared ++ declared') (entries ++ entries') := by
  obtain ⟨origins, rfl, hlength, hslots⟩ := h
  obtain ⟨origins', rfl, hlength', hslots'⟩ := h'
  refine ⟨origins ++ origins', by simp, by simp [hlength, hlength'], fun k o e ho he => ?_⟩
  by_cases hk : k < entries.length
  · rw [List.getElem?_append_left (by omega)] at ho he
    exact hslots k o e ho he
  · rw [List.getElem?_append_right (by omega), hlength] at ho
    rw [List.getElem?_append_right (by omega)] at he
    have hin := hslots' (k - entries.length) o e ho he
    have hoffset : start + word * entries.length + ((k - entries.length : Nat) : Int) * word = start + k * word := by
      rw [Int.natCast_sub (by omega), Int.sub_mul, Int.mul_comm word]
      omega
    rwa [hoffset] at hin

/-! ### Pads -/

theorem pad_inSlot (slot : Nat) : InSlot slot none (.pad slot) := .pad rfl rfl rfl rfl

theorem pads_fill (hword : 0 < word) {start : Int} (hstart : 0 ≤ start) (n : Nat) :
    FillsTable word start [] ((List.range n).map fun (k : Nat) => Function.pad (start + k * word).toNat) := by
  induction n with
  | zero => exact .nil start
  | succ n ih =>
    have hslot : 0 ≤ start + n * word := Int.add_nonneg hstart (Int.mul_nonneg (by omega) (by omega))
    have hlast : FillsTable word (start + n * word) [] [Function.pad (start + n * word).toNat] := by
      have hin := pad_inSlot (start + n * word).toNat
      rw [Int.toNat_of_nonneg hslot] at hin
      exact .single (o := none) hin
    rw [List.range_succ, List.map_append]
    refine ih.append ?_
    rw [List.length_map, List.length_range, Int.mul_comm word]
    exact hlast

/-- Between two slots stand as many pads as words. --/
theorem slotsBetween_eq (hword : 0 < word) {start : Int} {offset n : Nat} (hn : (offset : Int) = start + n * word) :
    slotsBetween start offset word = (List.range n).map fun (k : Nat) => (start + k * word).toNat := by
  have hcount : ((offset - start + word - 1) / word).toNat = n := by
    rw [hn, show start + n * word - start + word - 1 = (word - 1) + n * word by omega,
      Int.add_mul_ediv_right _ _ (by omega), Int.ediv_eq_zero_of_lt (by omega) (by omega)]
    omega
  rw [slotsBetween, if_pos hword, hcount]

/-! ### Virtual functions along the cursor -/

/-- Virtual functions that are placed one after the other, from one cursor to another. --/
inductive Slotted (word : Int) : Option Int → List Function → List Function → Option Int → Prop where
  | nil (cursor : Option Int) : Slotted word cursor [] [] cursor
  | cons {cursor next last : Option Int} {f : Function} {out : List Declaration} {declared entries : List Function}
      (isVirtual : f.isVirtual = true) (isPad : f.isPad = false) (place : SlotPlace word cursor f out next)
      (others : Slotted word next declared entries last) :
      Slotted word cursor (f :: declared) (virtuals out ++ entries) last

theorem virtuals_append (ds es : List Declaration) : virtuals (ds ++ es) = virtuals ds ++ virtuals es := by
  simp [virtuals]

theorem virtuals_cons_virtual {f : Function} (isVirtual : f.isVirtual = true) (ds : List Declaration) :
    virtuals (.ofFunction f :: ds) = f :: virtuals ds := by
  simp [virtuals, Declaration.toFunction?, isVirtual]

theorem virtuals_cons_nonvirtual {f : Function} (notVirtual : f.isVirtual = false) (ds : List Declaration) :
    virtuals (.ofFunction f :: ds) = virtuals ds := by
  simp [virtuals, Declaration.toFunction?, notVirtual]

theorem virtuals_placedSlot {f : Function} (h : f.isVirtual = true) :
    virtuals [placedSlot f] = [{ f with address := none }] := by
  have hplaced : ({ f with address := none } : Function).isVirtual = true := h
  simp only [virtuals, placedSlot, List.filterMap_cons, Declaration.toFunction?, List.filterMap_nil,
    List.filter_cons, hplaced, if_true, List.filter_nil]

theorem virtuals_slotPads (start : Int) (offset : Nat) :
    virtuals (slotPads word start offset) = (slotsBetween start offset word).map Function.pad := by
  have hpads : (slotPads word start offset).filterMap Declaration.toFunction? =
      (slotsBetween start offset word).map Function.pad := by
    simp [slotPads, List.filterMap_map, Function.comp_def, Declaration.toFunction?]
  rw [virtuals, hpads, List.filter_eq_self]
  intro f hf
  obtain ⟨slot, -, rfl⟩ := List.mem_map.mp hf
  rfl

theorem Placed.slotted {sizes : SizeTable} {cursors last : Cursors} {members out : List Declaration}
    (placed : Placed sizes cursors members out last) (hmembers : ∀ d ∈ members, d.MemberBound) :
    Slotted sizes.target.pointerSize cursors.slot (virtuals members) (virtuals out) last.slot := by
  induction placed with
  | nil => exact .nil _
  | @cons _ _ _ d members out rest place _ ih =>
    have hrest := ih fun d hd => hmembers d (List.mem_cons_of_mem _ hd)
    have hd := hmembers d List.mem_cons_self
    rw [virtuals_append]
    cases place with
    | @field v offset out place =>
      have hout : virtuals out = [] := by
        cases place <;> rfl
      rw [hout]
      exact hrest
    | @slot f out slot isVirtual place =>
      rw [virtuals_cons_virtual isVirtual]
      exact .cons isVirtual hd.1.isPad place hrest
    | @function f notVirtual =>
      rw [virtuals_cons_nonvirtual notVirtual, virtuals_cons_nonvirtual notVirtual]
      exact hrest
    | rawBlock r => exact hrest

/-! ### Known starts -/

/-- A place in a table where a slot can begin. --/
structure SlotStart (word : Int) (start : Int) : Prop where
  nonneg : 0 ≤ start
  aligned : word ∣ start

/-- A slot at or above another one is a number of words away from it. --/
theorem SlotStart.distance (hword : 0 < word) {start : Int} (hstart : SlotStart word start) {offset : Nat}
    (aligned : word ∣ offset) (above : start ≤ offset) : ∃ n : Nat, (offset : Int) = start + n * word := by
  obtain ⟨k, hk⟩ := Int.dvd_sub aligned hstart.aligned
  have hk0 : 0 ≤ k := by
    by_contra hneg
    have : word * k < 0 := Int.mul_neg_of_pos_of_neg hword (by omega)
    omega
  refine ⟨k.toNat, ?_⟩
  rw [Int.toNat_of_nonneg hk0, Int.mul_comm]
  omega

theorem SlotPlace.fills (hword : 0 < word) {start : Int} (hstart : SlotStart word start) {f : Function}
    (isVirtual : f.isVirtual = true) (isPad : f.isPad = false) {out : List Declaration} {next : Option Int}
    (place : SlotPlace word (some start) f out next) :
    FillsTable word start [f] (virtuals out) ∧ next = some (start + word * (virtuals out).length) := by
  cases place with
  | next given =>
    rw [virtuals_placedSlot isVirtual]
    refine ⟨.single (o := some f) (.declared isPad fun a ha => ?_), by simp⟩
    rw [given] at ha
    cases ha
  | first unknown => cases unknown
  | @padded start offset known given aligned above =>
    cases known
    obtain ⟨n, hn⟩ := hstart.distance hword aligned above
    have hpads : (virtuals (slotPads word start offset)) =
        (List.range n).map fun (k : Nat) => Function.pad (start + k * word).toNat := by
      rw [virtuals_slotPads, slotsBetween_eq hword hn, List.map_map]
      rfl
    rw [virtuals_append, hpads, virtuals_placedSlot isVirtual]
    have hf : FillsTable word offset [f] [{ f with address := none }] := .declared isPad given
    rw [hn] at hf
    constructor
    · refine (pads_fill hword hstart.nonneg n).append ?_
      rwa [List.length_map, List.length_range, Int.mul_comm word]
    · simp only [List.length_append, List.length_map, List.length_range, List.length_singleton, hn]
      rw [Int.natCast_add, Int.mul_add, Int.mul_comm word n]
      simp [Int.add_assoc]

theorem SlotStart.add (hword : 0 < word) {start : Int} (h : SlotStart word start) (n : Nat) :
    SlotStart word (start + word * n) where
  nonneg := Int.add_nonneg h.nonneg (Int.mul_nonneg (by omega) (by omega))
  aligned := Int.dvd_add h.aligned (Int.dvd_mul_right word n)

/-- From a known start on, virtual functions and their pads fill the table. --/
theorem Slotted.fills (hword : 0 < word) {start : Int} (hstart : SlotStart word start) {last : Option Int}
    {declared entries : List Function} (h : Slotted word (some start) declared entries last) :
    FillsTable word start declared entries ∧ last = some (start + word * entries.length) := by
  generalize hcursor : some start = cursor at h
  induction h generalizing start with
  | nil =>
    subst hcursor
    exact ⟨.nil start, by simp⟩
  | @cons _ next last f out declared entries isVirtual isPad place others ih =>
    subst hcursor
    obtain ⟨hplace, hnext⟩ := place.fills hword hstart isVirtual isPad
    obtain ⟨hfills, hlast⟩ := ih (hstart.add hword _) hnext.symm
    -- The cursor behind the first function is where the others start.
    refine ⟨hplace.append hfills, ?_⟩
    rw [hlast, List.length_append, Int.natCast_add, Int.mul_add, Int.add_assoc]

/-- From an unknown start on, virtual functions stay as they are until one declares the offset of its slot, and fill
    the table from there. --/
theorem Slotted.fills_from (hword : 0 < word) {leading more entries : List Function} {f : Function} {offset : Nat}
    {last : Option Int} (h : Slotted word none (leading ++ f :: more) entries last)
    (hleading : ∀ g ∈ leading, g.address = none) (hf : f.address = some offset) :
    ∃ rest, entries = leading ++ rest ∧ word ∣ offset ∧ FillsTable word offset (f :: more) rest ∧
      last = some (offset + word * rest.length) := by
  induction leading generalizing entries with
  | nil =>
    cases h with
    | @cons _ next _ _ out _ entries isVirtual isPad place others =>
      cases place with
      | next given => simp [hf] at given
      | padded known => cases known
      | @first offset' unknown given aligned =>
        -- From here on the cursor is known, as if the table began at this slot.
        obtain rfl : offset = offset' := by simpa [hf] using given
        rw [virtuals_placedSlot isVirtual]
        have hstart : SlotStart word offset := ⟨by omega, aligned⟩
        have hin : FillsTable word offset [f] [{ f with address := none }] := .declared isPad hf
        have hnext := hstart.add hword 1
        simp only [Int.natCast_one, Int.mul_one] at hnext
        obtain ⟨hfills, hlast⟩ := others.fills hword hnext
        refine ⟨_ :: entries, rfl, aligned, hin.append (by simpa using hfills), ?_⟩
        rw [hlast, List.length_cons, Nat.add_comm, Int.natCast_add, Int.mul_add, Int.add_assoc]
        simp
  | cons g leading ih =>
    have hg : g.address = none := hleading g List.mem_cons_self
    cases h with
    | @cons _ next _ _ out _ entries isVirtual isPad place others =>
      cases place with
      | first unknown given => simp [hg] at given
      | padded known => cases known
      | next given =>
        obtain ⟨rest, rfl, hrest⟩ := ih others fun g' hg' => hleading g' (List.mem_cons_of_mem _ hg')
        refine ⟨rest, ?_, hrest⟩
        rw [virtuals_placedSlot isVirtual, ← given]
        rfl

theorem SlotPlace.slotStart (hword : 0 < word) {cursor next : Option Int} {f : Function} {out : List Declaration}
    (isVirtual : f.isVirtual = true) (isPad : f.isPad = false) (place : SlotPlace word cursor f out next)
    (hcursor : ∀ n, cursor = some n → SlotStart word n) : ∀ n, next = some n → SlotStart word n := by
  cases cursor with
  | some start =>
    have hstart := hcursor start rfl
    obtain ⟨-, rfl⟩ := place.fills hword hstart isVirtual isPad
    rintro n ⟨⟩
    exact hstart.add hword _
  | none =>
    cases place with
    | next given => simp
    | padded known => cases known
    | @first offset unknown given aligned =>
      rintro n ⟨⟩
      have hstart : SlotStart word offset := ⟨by omega, aligned⟩
      simpa using hstart.add hword 1

theorem Slotted.slotStart (hword : 0 < word) {cursor last : Option Int} {declared entries : List Function}
    (h : Slotted word cursor declared entries last) (hcursor : ∀ n, cursor = some n → SlotStart word n) :
    ∀ n, last = some n → SlotStart word n := by
  induction h with
  | nil => exact hcursor
  | cons isVirtual isPad place _ ih => exact ih (place.slotStart hword isVirtual isPad hcursor)

/-- An entry that is no pad is bound to no address. --/
theorem Slotted.unbound {cursor last : Option Int} {declared entries : List Function}
    (h : Slotted word cursor declared entries last) : ∀ e ∈ entries, e.isPad = false → e.address = none := by
  induction h with
  | nil => simp
  | @cons cursor next last f out declared entries isVirtual isPad place _ ih =>
    intro e he hpad
    rcases List.mem_append.mp he with he | he
    · have hplaced : ∀ g ∈ virtuals [placedSlot f], g.address = none := by
        rw [virtuals_placedSlot isVirtual]
        simp
      cases place with
      | next | first => exact hplaced e he
      | @padded start offset =>
        rw [virtuals_append, List.mem_append, virtuals_slotPads] at he
        rcases he with he | he
        · obtain ⟨slot, -, rfl⟩ := List.mem_map.mp he
          cases hpad
        · exact hplaced e he
    · exact ih e he hpad

/-! ### Tables of classes -/

/-- The size in bytes that a layout records for the virtual table of a class, if it records one: a number, or that
    the size is unknown. --/
def recordedTable? (target : Target) (p : Program) (name : String) : Option (Option Int) :=
  (layout target p).settled.tables.lookup name

/-- A known start for the virtual table of the class at `i`: zero without bases, or else the size of the table of its
    first base, which is an earlier class. --/
inductive TableStart (target : Target) (p : Program) (i : Nat) (c : Class) : Int → Prop where
  | root (noBases : c.bases = []) : TableStart target p i c 0
  | derived {j : Nat} {base : Class} {size : Int} (primary : c.bases.head? = some base.name) (before : j < i)
      (declared : p.declarations[j]? = some (.ofClass base))
      (recorded : recordedTable? target p base.name = some (some size)) : TableStart target p i c size

/-- The virtual functions along a chain of first bases, from a class without bases to the class at `i`: as they are
    declared, and as they are laid out. --/
inductive PrimaryChain (p q : Program) : Nat → List Function → List Function → Prop where
  | root {i : Nat} {c resolved : Class} (declared : p.declarations[i]? = some (.ofClass c))
      (laidOut : q.declarations[i]? = some (.ofClass resolved)) (noBases : c.bases = []) :
      PrimaryChain p q i c.virtualFunctions resolved.virtualFunctions
  | derived {i j : Nat} {base c resolved : Class} {functions entries : List Function}
      (declared : p.declarations[i]? = some (.ofClass c)) (laidOut : q.declarations[i]? = some (.ofClass resolved))
      (before : j < i) (baseDeclared : p.declarations[j]? = some (.ofClass base))
      (primary : c.bases.head? = some base.name) (chain : PrimaryChain p q j functions entries) :
      PrimaryChain p q i (functions ++ c.virtualFunctions) (entries ++ resolved.virtualFunctions)

variable {p q : Program}

theorem tableStart_iff {target : Target} (hp : p.WellBound) (hq : (layout target p).program = .ok q) {i : Nat}
    (hi : i ≤ p.declarations.length) {c : Class} {start : Int} :
    TableStart target p i c start ↔ tableBegin (settledBefore target p i) c = some start := by
  have hlookup : ∀ name, (settledBefore target p i).tableSize? name = some start ↔ ∃ j < i, ∃ base,
      p.declarations[j]? = some (.ofClass base) ∧ base.name = name ∧ recordedTable? target p name = some (some start) :=
    fun name => by
      rw [Settled.tableSize?, Option.join_eq_some_iff]
      exact tableLedger.lookup_eq_some_iff hq hp.names hi
  constructor
  · intro h
    cases h with
    | root noBases => rw [tableBegin, noBases]
    | @derived j base _ primary before declared recorded =>
      obtain ⟨others, hbases⟩ := List.head?_eq_some_iff.mp primary
      rw [tableBegin, hbases]
      exact (hlookup _).mpr ⟨j, before, base, declared, rfl, recorded⟩
  · intro h
    unfold tableBegin at h
    split at h
    · rename_i noBases
      cases h
      exact .root noBases
    · rename_i name others hbases
      obtain ⟨j, before, base, declared, rfl, recorded⟩ := (hlookup _).mp h
      exact .derived (by rw [hbases]; rfl) before declared recorded

/-- Tables while a layout for pointers of `word` bytes goes on: one can go on where a table that is settled ends. --/
structure Settled.Slotting (word : Int) (s : Settled) : Prop where
  target : s.sizes.target = .ofPointerSize word
  starts : ∀ name n, s.tableSize? name = some n → SlotStart word n

theorem slotted_of_layoutClass {s : Settled} (hs : s.Slotting word) {c : Class} (hc : c.WellBound) {l : ClassLayout}
    (hl : layoutClass s c = .ok l) :
    Slotted word (tableBegin s c) c.virtualFunctions l.resolved.virtualFunctions l.tableSize := by
  obtain ⟨members, last, placed, hresolved, -, htable⟩ := placed_of_layoutClass hc hl
  have slotted := placed.slotted hc.members
  rw [hs.target] at slotted
  rw [hresolved, htable]
  exact slotted

theorem tableBegin_slotStart {s : Settled} (hs : s.Slotting word) {c : Class} {n : Int}
    (hn : tableBegin s c = some n) : SlotStart word n := by
  unfold tableBegin at hn
  split at hn
  · cases hn
    exact ⟨Int.le_refl 0, Int.dvd_zero word⟩
  · exact hs.starts _ n hn

theorem settledBefore_slotting (hp : p.WellBound) (hword : 0 < word) (i : Nat) :
    (settledBefore (.ofPointerSize word) p i).Slotting word := by
  refine settledBefore_keeps (P := Settled.Slotting word) ⟨rfl, fun name n h => by cases h⟩ ?_ i
  intro s c hc l hs hl
  refine ⟨hs.target, fun name n hn => ?_⟩
  have hrecord := tableLedger.lookup_record hl name
  change (s.record l).tables.lookup name = _ at hrecord
  rw [Settled.tableSize?, hrecord] at hn
  split at hn
  · have slotted := slotted_of_layoutClass hs (hp.declarations _ hc) hl
    exact slotted.slotStart hword (fun n => tableBegin_slotStart hs) n hn
  · exact hs.starts name n hn

/-- The virtual functions of a class, with the size that is recorded for its table. --/
theorem slotted_of_layout (hp : p.WellBound) (hword : 0 < word) (hq : (layout (.ofPointerSize word) p).program = .ok q)
    {i : Nat} {c resolved : Class} (hc : p.declarations[i]? = some (.ofClass c))
    (hi : q.declarations[i]? = some (.ofClass resolved)) :
    ∃ size, recordedTable? (.ofPointerSize word) p c.name = some size ∧
      Slotted word (tableBegin (settledBefore (.ofPointerSize word) p i) c) c.virtualFunctions
        resolved.virtualFunctions size := by
  obtain ⟨l, hl, hq', -⟩ := layout_class hq hc
  obtain rfl : l.resolved = resolved := by
    rw [hi] at hq'
    cases hq'
    rfl
  refine ⟨l.tableSize, ?_, slotted_of_layoutClass (settledBefore_slotting hp hword i)
    (hp.declarations _ (List.mem_of_getElem? hc)) hl⟩
  rw [recordedTable?, ← settledBefore_length]
  exact tableLedger.lookup_eq_of_lt hq hp.names hc hl (List.getElem?_eq_some_iff.mp hc).1

/-- A class whose table has a known start fills it, and the size that is recorded is where its table ends. --/
theorem fills_of_tableStart (hp : p.WellBound) (hword : 0 < word)
    (hq : (layout (.ofPointerSize word) p).program = .ok q) {i : Nat} {c resolved : Class}
    (hc : p.declarations[i]? = some (.ofClass c)) (hi : q.declarations[i]? = some (.ofClass resolved)) {start : Int}
    (hstart : TableStart (.ofPointerSize word) p i c start) :
    word ∣ start ∧ FillsTable word start c.virtualFunctions resolved.virtualFunctions ∧
      recordedTable? (.ofPointerSize word) p c.name =
        some (some (start + word * resolved.virtualFunctions.length)) := by
  have hlt : i < p.declarations.length := (List.getElem?_eq_some_iff.mp hc).1
  have hbegin := (tableStart_iff hp hq (Nat.le_of_lt hlt)).mp hstart
  obtain ⟨size, hsize, slotted⟩ := slotted_of_layout hp hword hq hc hi
  rw [hbegin] at slotted
  have hslotStart := tableBegin_slotStart (settledBefore_slotting hp hword i) hbegin
  obtain ⟨hfills, rfl⟩ := slotted.fills hword hslotStart
  exact ⟨hslotStart.aligned, hfills, hsize⟩

/-- A class whose table has no known start fills it from the first offset on that a virtual function declares. --/
theorem fills_of_first_offset (hp : p.WellBound) (hword : 0 < word)
    (hq : (layout (.ofPointerSize word) p).program = .ok q) {i : Nat} {c resolved : Class}
    (hc : p.declarations[i]? = some (.ofClass c)) (hi : q.declarations[i]? = some (.ofClass resolved))
    (hstart : ∀ start, ¬TableStart (.ofPointerSize word) p i c start) {leading more : List Function} {f : Function}
    {offset : Nat} (hfunctions : c.virtualFunctions = leading ++ f :: more)
    (hleading : ∀ g ∈ leading, g.address = none) (hf : f.address = some offset) :
    ∃ rest, resolved.virtualFunctions = leading ++ rest ∧ word ∣ offset ∧ FillsTable word offset (f :: more) rest ∧
      recordedTable? (.ofPointerSize word) p c.name = some (some (offset + word * rest.length)) := by
  have hlt : i < p.declarations.length := (List.getElem?_eq_some_iff.mp hc).1
  have hbegin : tableBegin (settledBefore (.ofPointerSize word) p i) c = none :=
    Option.eq_none_iff_forall_not_mem.mpr fun start h =>
      hstart start ((tableStart_iff hp hq (Nat.le_of_lt hlt)).mpr h)
  obtain ⟨size, hsize, slotted⟩ := slotted_of_layout hp hword hq hc hi
  rw [hbegin, hfunctions] at slotted
  obtain ⟨rest, hrest, hdvd, hfills, rfl⟩ := slotted.fills_from hword hleading hf
  exact ⟨rest, hrest, hdvd, hfills, hsize⟩

/-- Along a chain of first bases the slots are those from zero on. --/
theorem PrimaryChain.fills (hp : p.WellBound) (hword : 0 < word)
    (hq : (layout (.ofPointerSize word) p).program = .ok q) {i : Nat} {functions entries : List Function}
    (chain : PrimaryChain p q i functions entries) : FillsTable word 0 functions entries ∧
      ∀ c, p.declarations[i]? = some (.ofClass c) →
        recordedTable? (.ofPointerSize word) p c.name = some (some (word * entries.length)) := by
  induction chain with
  | @root i c resolved declared laidOut noBases =>
    obtain ⟨-, hfills, hsize⟩ := fills_of_tableStart hp hword hq declared laidOut (.root noBases)
    refine ⟨hfills, fun c' hc' => ?_⟩
    rw [declared] at hc'
    cases hc'
    simpa using hsize
  | @derived i j base c resolved functions entries declared laidOut before baseDeclared primary _ ih =>
    obtain ⟨hbase, hbaseSize⟩ := ih
    have hstart : TableStart (.ofPointerSize word) p i c (word * entries.length) :=
      .derived primary before baseDeclared (hbaseSize base baseDeclared)
    obtain ⟨-, hfills, hsize⟩ := fills_of_tableStart hp hword hq declared laidOut hstart
    refine ⟨hbase.append (by simpa using hfills), fun c' hc' => ?_⟩
    rw [declared] at hc'
    cases hc'
    rw [hsize, List.length_append, Int.natCast_add, Int.mul_add]

end

/-- The virtual tables of all classes that are laid out are filled slot by slot: from their start on where it is
    known, and otherwise from the first offset on that a virtual function declares; so the tables along a chain of
    first bases have every slot from zero on once. --/
theorem tables_fill_slots {word : Int} (hword : 0 < word) {strict : Bool} {events : Trail TreeFault Event}
    {p q : Program} (built : (build strict events).program = .ok p)
    (laidOut : (layout (.ofPointerSize word) p).program = .ok q) {i : Nat} {resolved : Class}
    (hi : q.declarations[i]? = some (.ofClass resolved)) :
    ∃ c, p.declarations[i]? = some (.ofClass c) ∧
      (∀ start, TableStart (.ofPointerSize word) p i c start → word ∣ start ∧
        FillsTable word start c.virtualFunctions resolved.virtualFunctions ∧
        recordedTable? (.ofPointerSize word) p c.name =
          some (some (start + word * resolved.virtualFunctions.length))) ∧
      ((∀ start, ¬TableStart (.ofPointerSize word) p i c start) →
        ∀ (leading : List Function) (f : Function) (more : List Function) (offset : Nat),
          c.virtualFunctions = leading ++ f :: more → (∀ g ∈ leading, g.address = none) → f.address = some offset →
          ∃ rest, resolved.virtualFunctions = leading ++ rest ∧ word ∣ offset ∧
            FillsTable word offset (f :: more) rest ∧
            recordedTable? (.ofPointerSize word) p c.name = some (some (offset + word * rest.length))) ∧
      (∀ e ∈ resolved.virtualFunctions, e.isPad = false → e.address = none) ∧
      ∀ functions entries, PrimaryChain p q i functions entries → FillsTable word 0 functions entries := by
  have hp := wellBound_of_build built
  obtain ⟨c, l, hc, -, -⟩ := class_of_layout laidOut hi
  obtain ⟨size, -, slotted⟩ := slotted_of_layout hp hword laidOut hc hi
  refine ⟨c, hc, fun start hstart => fills_of_tableStart hp hword laidOut hc hi hstart, ?_, slotted.unbound,
    fun functions entries chain => (chain.fills hp hword laidOut).1⟩
  intro hstart leading f more offset hfunctions hleading hf
  exact fills_of_first_offset hp hword laidOut hc hi hstart hfunctions hleading hf

/-! A class with one virtual function, and one derived from it whose own function leaves two slots free. -/

def nodeEvents : List Event :=
  [⟨.ofClass, .opening, 1, "", ["Base"]⟩, .opens .ofFunction 2 "size", .opens .ofModifier 2 "virtual",
   .opens .ofReturnType 2 "int", .closes .ofFunction 2 "", .closes .ofClass 1 "",
   ⟨.ofClass, .opening, 4, "", ["Node", "Base"]⟩, .opens .ofFunction 5 "child", .opens .ofModifier 5 "virtual",
   .opens .ofReturnType 5 "int", .opens .ofAddress 5 "0xc", .closes .ofFunction 5 "", .closes .ofClass 4 ""]

def virtualFunction (name : String) (address : Option Nat) (line : Int) : Function :=
  { Function.opened name line with returnType := "int", modifier := .virtual, address }

def sizeClass : Class := ⟨"Base", [], [.ofFunction (virtualFunction "size" none 2)], 1⟩

def nodeClass : Class := ⟨"Node", ["Base"], [.ofFunction (virtualFunction "child" (some 12) 5)], 4⟩

def nodeProgram : Program := ⟨[.ofClass sizeClass, .ofClass nodeClass]⟩

def nodeResolved : Class :=
  { nodeClass with
    members := [.ofFunction (.pad 4), .ofFunction (.pad 8), .ofFunction (virtualFunction "child" none 5)] }

def nodeLaidOut : Program := ⟨[.ofClass sizeClass, .ofClass nodeResolved]⟩

theorem layout_node : (layout (.ofPointerSize 4) nodeProgram).program = .ok nodeLaidOut := by
  with_unfolding_all rfl

theorem tables_fill_node : (0 : Int) < 4 ∧ (build true ⟨nodeEvents, none⟩).program = .ok nodeProgram ∧
    (layout (.ofPointerSize 4) nodeProgram).program = .ok nodeLaidOut ∧
    FillsTable 4 0 [virtualFunction "size" none 2, virtualFunction "child" (some 12) 5]
      [virtualFunction "size" none 2, .pad 4, .pad 8, virtualFunction "child" none 5] := by
  have built : (build true ⟨nodeEvents, none⟩).program = .ok nodeProgram := rfl
  obtain ⟨c, -, -, -, -, hchain⟩ := tables_fill_slots (by decide) built layout_node (i := 1) rfl
  have base : nodeProgram.declarations[0]? = some (.ofClass sizeClass) := rfl
  have node : nodeProgram.declarations[1]? = some (.ofClass nodeClass) := rfl
  have chain : PrimaryChain nodeProgram nodeLaidOut 0 sizeClass.virtualFunctions sizeClass.virtualFunctions :=
    .root base rfl rfl
  have resolved : nodeLaidOut.declarations[1]? = some (.ofClass nodeResolved) := rfl
  exact ⟨by decide, built, layout_node, hchain _ _ (.derived node resolved (by decide) base rfl chain)⟩

end Layout
end Overlay
