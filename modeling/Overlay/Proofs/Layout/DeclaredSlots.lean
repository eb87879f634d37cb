import Overlay.Proofs.Layout.TablePointers

/-! Slots that virtual functions declare. One start of the table makes all offsets true that the functions of a class
    declare, as every entry behind the first of these functions is a word behind the one before it. That start is no
    less than zero, so that every function has room for the entries before it, where the layout knows the start of the
    table. Where it does not, the functions before the first that declares an offset take no slots, and there is room
    for them only if this offset leaves it. -/

namespace Overlay
namespace Layout

/-- The entry at `k` of a table stands for the declared function `f`: it is no pad, and as many entries before it are
    no pads as functions are declared before `f`. --/
structure StandsFor (declared entries : List Function) (k : Nat) (f : Function) : Prop where
  entry : ∃ e, entries[k]? = some e ∧ e.isPad = false
  order : declared[((entries.take k).filter fun e => !e.isPad).length]? = some f

/-- The declared offsets are those of a table that begins at `start`. --/
def BeginsAt (word start : Int) (declared entries : List Function) : Prop :=
  ∀ (k : Nat) (f : Function) (offset : Nat), StandsFor declared entries k f → f.address = some offset →
    offset = start + k * word

/-- Every function that declares its offset has room for the entries before it. --/
def HasRoom (word : Int) (declared entries : List Function) : Prop :=
  ∀ (k : Nat) (f : Function) (offset : Nat), StandsFor declared entries k f → f.address = some offset →
    k * word ≤ offset

/-- The first function that declares its offset leaves room for the functions before it. --/
def LeadsWithRoom (word : Int) (declared : List Function) : Prop :=
  ∀ offset : Nat, declared.findSome? (·.address) = some offset →
    (declared.takeWhile (·.address.isNone)).length * word ≤ offset

section
variable {word start : Int} {declared entries : List Function}

/-! ### Functions in a table -/

theorem InSlot.isNone {offset : Int} {o : Option Function} {e : Function} (h : InSlot offset o e) :
    o.isNone = e.isPad := by
  cases h with
  | pad here isPad => exact isPad.symm
  | declared isPad => exact isPad.symm

/-- A pad before an entry does not change what the entry stands for. --/
theorem standsFor_pad {e : Function} (isPad : e.isPad = true) {k : Nat} {f : Function} :
    StandsFor declared (e :: entries) (k + 1) f ↔ StandsFor declared entries k f := by
  have hfilter : ((e :: entries).take (k + 1)).filter (fun e => !e.isPad) =
      (entries.take k).filter fun e => !e.isPad := by
    rw [List.take_succ_cons, List.filter_cons_of_neg (by simp [isPad])]
  exact ⟨fun ⟨entry, order⟩ => ⟨entry, hfilter ▸ order⟩, fun ⟨entry, order⟩ => ⟨entry, hfilter ▸ order⟩⟩

/-- Any other entry before it stands for a function before it. --/
theorem standsFor_cons {e g : Function} (noPad : e.isPad = false) {k : Nat} {f : Function} :
    StandsFor (g :: declared) (e :: entries) (k + 1) f ↔ StandsFor declared entries k f := by
  have hlength : (((e :: entries).take (k + 1)).filter fun e => !e.isPad).length =
      ((entries.take k).filter fun e => !e.isPad).length + 1 := by
    rw [List.take_succ_cons, List.filter_cons_of_pos (by simp [noPad]), List.length_cons]
  constructor
  · rintro ⟨entry, order⟩
    rw [hlength, List.getElem?_cons_succ] at order
    exact ⟨entry, order⟩
  · rintro ⟨entry, order⟩
    refine ⟨entry, ?_⟩
    rwa [hlength, List.getElem?_cons_succ]

theorem standsFor_iff {origins : List (Option Function)}
    (same : List.Forall₂ (fun (o : Option Function) (e : Function) => o.isNone = e.isPad) origins entries) {k : Nat}
    {f : Function} : StandsFor (origins.filterMap id) entries k f ↔ origins[k]? = some (some f) := by
  induction same generalizing k with
  | nil => exact ⟨fun ⟨⟨_, entry, _⟩, _⟩ => by simp at entry, fun h => by simp at h⟩
  | @cons o e origins entries head _ ih =>
    cases o with
    | none =>
      have isPad : e.isPad = true := head.symm
      cases k with
      | zero =>
        refine ⟨fun ⟨⟨e', entry, noPad⟩, _⟩ => ?_, fun h => by simp at h⟩
        obtain rfl : e = e' := by simpa using entry
        simp [isPad] at noPad
      | succ k => exact (standsFor_pad isPad).trans ih
    | some g =>
      have noPad : e.isPad = false := head.symm
      cases k with
      | zero => exact ⟨fun h => congrArg some h.order, fun h => ⟨⟨e, rfl, noPad⟩, Option.some.inj h⟩⟩
      | succ k => exact (standsFor_cons noPad).trans ih

theorem StandsFor.mem {k : Nat} {f : Function} (h : StandsFor declared entries k f) : f ∈ declared :=
  List.mem_of_getElem? h.order

/-! ### Tables that are filled from a start on -/

theorem FillsTable.origins (h : FillsTable word start declared entries) : ∃ origins : List (Option Function),
    (∀ k f, StandsFor declared entries k f ↔ origins[k]? = some (some f)) ∧ origins.filterMap id = declared ∧
      ∀ (k : Nat) (o : Option Function), origins[k]? = some o → ∃ e, InSlot (start + k * word) o e := by
  obtain ⟨origins, rfl, hlength, hslots⟩ := h
  have same : List.Forall₂ (fun (o : Option Function) (e : Function) => o.isNone = e.isPad) origins entries := by
    rw [List.forall₂_iff_get]
    refine ⟨hlength, fun k ho he => ?_⟩
    exact (hslots k _ _ (List.getElem?_eq_getElem ho) (List.getElem?_eq_getElem he)).isNone
  refine ⟨origins, fun k f => standsFor_iff same, rfl, fun k o ho => ?_⟩
  have hk : k < entries.length := hlength ▸ (List.getElem?_eq_some_iff.mp ho).1
  exact ⟨_, hslots k o _ ho (List.getElem?_eq_getElem hk)⟩

theorem FillsTable.beginsAt (h : FillsTable word start declared entries) : BeginsAt word start declared entries := by
  obtain ⟨origins, hstands, -, hslots⟩ := h.origins
  intro k f offset hf given
  obtain ⟨e, hin⟩ := hslots k _ ((hstands k f).mp hf)
  cases hin with
  | declared isPad here => exact here offset given

theorem FillsTable.exists_standsFor (h : FillsTable word start declared entries) {f : Function} (hf : f ∈ declared) :
    ∃ k, StandsFor declared entries k f := by
  obtain ⟨origins, hstands, rfl, -⟩ := h.origins
  obtain ⟨o, ho, hof⟩ := List.mem_filterMap.mp hf
  obtain rfl : o = some f := hof
  obtain ⟨k, hk⟩ := List.getElem?_of_mem ho
  exact ⟨k, (hstands k f).mpr hk⟩

/-! ### Functions before the first offset -/

section
variable {leading rest : List Function} (noPads : ∀ g ∈ leading, g.isPad = false)
include noPads

theorem standsFor_append {k : Nat} {f : Function} :
    StandsFor (leading ++ declared) (leading ++ rest) (leading.length + k) f ↔ StandsFor declared rest k f := by
  have hfilter : leading.filter (fun e => !e.isPad) = leading :=
    List.filter_eq_self.mpr fun g hg => by simp [noPads g hg]
  have hcount : (((leading ++ rest).take (leading.length + k)).filter fun e => !e.isPad).length =
      leading.length + ((rest.take k).filter fun e => !e.isPad).length := by
    rw [List.take_length_add_append, List.filter_append, hfilter, List.length_append]
  have hentry : (leading ++ rest)[leading.length + k]? = rest[k]? := by
    rw [List.getElem?_append_right (by omega), Nat.add_sub_cancel_left]
  have horder : (leading ++ declared)[leading.length + ((rest.take k).filter fun e => !e.isPad).length]? =
      declared[((rest.take k).filter fun e => !e.isPad).length]? := by
    rw [List.getElem?_append_right (by omega), Nat.add_sub_cancel_left]
  constructor
  · rintro ⟨entry, order⟩
    rw [hentry] at entry
    rw [hcount, horder] at order
    exact ⟨entry, order⟩
  · rintro ⟨entry, order⟩
    refine ⟨by rwa [hentry], ?_⟩
    rwa [hcount, horder]

theorem StandsFor.mem_leading {k : Nat} {f : Function} (h : StandsFor (leading ++ declared) (leading ++ rest) k f)
    (hk : k < leading.length) : f ∈ leading := by
  have hfilter : (leading.take k).filter (fun e => !e.isPad) = leading.take k :=
    List.filter_eq_self.mpr fun g hg => by simp [noPads g (List.mem_of_mem_take hg)]
  have order := h.order
  rw [List.take_append_of_le_length (Nat.le_of_lt hk), hfilter, List.length_take_of_le (Nat.le_of_lt hk),
    List.getElem?_append_left hk] at order
  exact List.mem_of_getElem? order

/-- Functions that declare no offsets, before a table that begins with one that does, begin as many words earlier. --/
theorem BeginsAt.behind (unbound : ∀ g ∈ leading, g.address = none) (h : BeginsAt word start declared rest) :
    BeginsAt word (start - leading.length * word) (leading ++ declared) (leading ++ rest) := by
  intro k f offset hf given
  by_cases hk : k < leading.length
  · rw [unbound f (hf.mem_leading noPads hk)] at given
    cases given
  · obtain ⟨j, rfl⟩ := Nat.exists_eq_add_of_le (Nat.le_of_not_lt hk)
    have hoffset := h j f offset ((standsFor_append noPads).mp hf) given
    rw [hoffset, Int.natCast_add, Int.add_mul]
    omega

end

/-! ### Room -/

theorem BeginsAt.hasRoom (h : BeginsAt word start declared entries) (nonneg : 0 ≤ start) :
    HasRoom word declared entries := by
  intro k f offset hf given
  have := h k f offset hf given
  omega

theorem findSome?_address {offset : Nat} (h : declared.findSome? (·.address) = some offset) :
    ∃ leading f more, declared = leading ++ f :: more ∧ (∀ g ∈ leading, g.address = none) ∧
      f.address = some offset ∧ (declared.takeWhile (·.address.isNone)).length = leading.length := by
  obtain ⟨leading, f, more, rfl, hf, hleading⟩ := List.findSome?_eq_some_iff.mp h
  refine ⟨leading, f, more, rfl, hleading, hf, ?_⟩
  rw [List.takeWhile_append_of_pos fun g hg => by simp [hleading g hg], List.takeWhile_cons_of_neg (by simp [hf]),
    List.append_nil]

end

/-! ### Classes -/

section
variable {word : Int} {p q : Program} {i : Nat} {c resolved : Class}

theorem beginsAt_of_tableStart (hp : p.WellBound) (hword : 0 < word)
    (hq : (layout (.ofPointerSize word) p).program = .ok q) (hc : p.declarations[i]? = some (.ofClass c))
    (hi : q.declarations[i]? = some (.ofClass resolved)) {start : Int}
    (hstart : TableStart (.ofPointerSize word) p i c start) :
    SlotStart word start ∧ BeginsAt word start c.virtualFunctions resolved.virtualFunctions := by
  have hlt : i < p.declarations.length := (List.getElem?_eq_some_iff.mp hc).1
  obtain ⟨-, fills, -⟩ := fills_of_tableStart hp hword hq hc hi hstart
  have hbegin := (tableStart_iff hp hq (Nat.le_of_lt hlt)).mp hstart
  exact ⟨tableBegin_slotStart (settledBefore_slotting hp hword i) hbegin, fills.beginsAt⟩

/-- Where the start of the table is not known, the declared offsets are those of a start that lies before the first of
    them by the functions that stand there, if need be below zero. --/
theorem beginsAt_of_first_offset (hp : p.WellBound) (hword : 0 < word)
    (hq : (layout (.ofPointerSize word) p).program = .ok q) (hc : p.declarations[i]? = some (.ofClass c))
    (hi : q.declarations[i]? = some (.ofClass resolved))
    (hstart : ∀ start, ¬TableStart (.ofPointerSize word) p i c start) {offset n : Nat}
    (first : c.virtualFunctions.findSome? (·.address) = some offset)
    (hn : (c.virtualFunctions.takeWhile (·.address.isNone)).length = n) :
    word ∣ offset - n * word ∧ BeginsAt word (offset - n * word) c.virtualFunctions resolved.virtualFunctions ∧
      ∃ f, StandsFor c.virtualFunctions resolved.virtualFunctions n f ∧ f.address = some offset := by
  obtain ⟨leading, f, more, hfunctions, unbound, given, hlength⟩ := findSome?_address first
  obtain rfl : leading.length = n := hlength.symm.trans hn
  obtain ⟨rest, hrest, aligned, fills, -⟩ :=
    fills_of_first_offset hp hword hq hc hi hstart hfunctions unbound given
  have hbound : c.WellBound := hp.declarations _ (List.mem_of_getElem? hc)
  have noPads : ∀ g ∈ leading, g.isPad = false := fun g hg => by
    have hmem : g ∈ c.virtualFunctions := by rw [hfunctions]; exact List.mem_append_left _ hg
    exact (hbound.members _ (Class.mem_allFunctions.mp (List.mem_of_mem_filter hmem))).1.isPad
  rw [hrest, hfunctions]
  refine ⟨Int.dvd_sub aligned (Int.dvd_mul_left _ _), fills.beginsAt.behind noPads unbound, f, ?_, given⟩
  -- What declares the offset that its table begins at stands in the first slot of it.
  obtain ⟨k, hk⟩ := fills.exists_standsFor List.mem_cons_self
  have hoffset := fills.beginsAt k f offset hk given
  have hmul : (k : Int) * word = 0 := by omega
  obtain rfl : k = 0 := by
    rcases Int.mul_eq_zero.mp hmul with h | h <;> omega
  exact (standsFor_append noPads).mpr hk

theorem exists_beginsAt (hp : p.WellBound) (hword : 0 < word)
    (hq : (layout (.ofPointerSize word) p).program = .ok q) (hc : p.declarations[i]? = some (.ofClass c))
    (hi : q.declarations[i]? = some (.ofClass resolved)) : ∃ start : Int, word ∣ start ∧
      BeginsAt word start c.virtualFunctions resolved.virtualFunctions ∧
      (0 ≤ start ↔ (∃ n, TableStart (.ofPointerSize word) p i c n) ∨ LeadsWithRoom word c.virtualFunctions) ∧
      (HasRoom word c.virtualFunctions resolved.virtualFunctions → 0 ≤ start) := by
  by_cases known : ∃ n, TableStart (.ofPointerSize word) p i c n
  · obtain ⟨start, hstart⟩ := known
    obtain ⟨slotStart, begins⟩ := beginsAt_of_tableStart hp hword hq hc hi hstart
    exact ⟨start, slotStart.aligned, begins, iff_of_true slotStart.nonneg (Or.inl ⟨start, hstart⟩),
      fun _ => slotStart.nonneg⟩
  · have unknown : ∀ start, ¬TableStart (.ofPointerSize word) p i c start := fun start h => known ⟨start, h⟩
    cases first : c.virtualFunctions.findSome? (·.address) with
    | none =>
      have unbound : ∀ f ∈ c.virtualFunctions, f.address = none := List.findSome?_eq_none_iff.mp first
      refine ⟨0, Int.dvd_zero word, fun k f offset hf given => ?_, iff_of_true (Int.le_refl 0) (Or.inr ?_),
        fun _ => Int.le_refl 0⟩
      · rw [unbound f hf.mem] at given
        cases given
      · intro offset given
        rw [first] at given
        cases given
    | some offset =>
      obtain ⟨aligned, begins, f, hf, given⟩ := beginsAt_of_first_offset hp hword hq hc hi unknown first rfl
      have hleads : LeadsWithRoom word c.virtualFunctions ↔
          (c.virtualFunctions.takeWhile (·.address.isNone)).length * word ≤ offset := by
        simp [LeadsWithRoom, first]
      refine ⟨_, aligned, begins, ?_, fun room => ?_⟩
      · rw [hleads]
        simp [known]
      · have := room _ f offset hf given
        omega

end

/-- In every class that is laid out, the functions that declare the offsets of their slots have room for the entries
    before them exactly where one start of the table, no less than zero, makes all of these offsets true at once. They
    have it wherever the start of the table is known, and otherwise if the first of them leaves room for the functions
    before it. --/
theorem declared_slots_have_room {word : Int} (hword : 0 < word) {strict : Bool} {events : Trail TreeFault Event}
    {p q : Program} (built : (build strict events).program = .ok p)
    (laidOut : (layout (.ofPointerSize word) p).program = .ok q) {i : Nat} {c resolved : Class}
    (hc : p.declarations[i]? = some (.ofClass c)) (hi : q.declarations[i]? = some (.ofClass resolved)) :
    (HasRoom word c.virtualFunctions resolved.virtualFunctions ↔
      (∃ start, TableStart (.ofPointerSize word) p i c start) ∨ LeadsWithRoom word c.virtualFunctions) ∧
    (HasRoom word c.virtualFunctions resolved.virtualFunctions ↔
      ∃ start, SlotStart word start ∧ BeginsAt word start c.virtualFunctions resolved.virtualFunctions) := by
  obtain ⟨start, aligned, begins, hstart, hroom⟩ := exists_beginsAt (wellBound_of_build built) hword laidOut hc hi
  constructor
  · exact ⟨fun room => hstart.mp (hroom room), fun h => begins.hasRoom (hstart.mpr h)⟩
  · exact ⟨fun room => ⟨start, ⟨hroom room, aligned⟩, begins⟩, fun ⟨_, slotStart, h⟩ => h.hasRoom slotStart.nonneg⟩

/-! A class below one that is not declared, with a function that declares its slot behind two others. -/

def behindSource : String :=
  "class D : Outside { virtual int f(); virtual int g(); virtual int h() @ 0x4; };"

def behindFile (text : String) : FileNode :=
  ⟨[.ofClass ⟨"D", ["Outside"],
      [.ofFunction (virtualNode "f" ⟨1, 21⟩ ⟨1, 29⟩), .ofFunction (virtualNode "g" ⟨1, 38⟩ ⟨1, 46⟩),
       .ofFunction { virtualNode "h" ⟨1, 55⟩ ⟨1, 63⟩ with address := some ⟨text, ⟨1, 73⟩⟩ }], ⟨1, 1⟩⟩], ⟨1, 1⟩⟩

def behindFunctions (offset : Option Nat) : List Function :=
  [virtualFunction "f" none 1, virtualFunction "g" none 1, virtualFunction "h" offset 1]

def behindClass (offset : Option Nat) : Class :=
  ⟨"D", ["Outside"], (behindFunctions offset).map .ofFunction, 1⟩

def behindProgram (offset : Option Nat) : Program := ⟨[.ofClass (behindClass offset)]⟩

theorem declared_slots_behind : (0 : Int) < 4 ∧
    (build true ((behindFile "0xc").events none)).program = .ok (behindProgram (some 12)) ∧
    (layout (.ofPointerSize 4) (behindProgram (some 12))).program = .ok (behindProgram none) ∧
    HasRoom 4 (behindFunctions (some 12)) (behindFunctions none) ∧
    ∃ start, SlotStart 4 start ∧ BeginsAt 4 start (behindFunctions (some 12)) (behindFunctions none) := by
  have built : (build true ((behindFile "0xc").events none)).program = .ok (behindProgram (some 12)) := by
    with_unfolding_all rfl
  have laidOut : (layout (.ofPointerSize 4) (behindProgram (some 12))).program = .ok (behindProgram none) := by
    with_unfolding_all rfl
  obtain ⟨room, start⟩ := declared_slots_have_room (by decide) built laidOut (i := 0) rfl rfl
  have hroom := room.mpr (Or.inr fun offset first => by cases first; decide)
  exact ⟨by decide, built, laidOut, hroom, start.mp hroom⟩

/-- A function that declares the second slot of its table is laid out behind two others all the same, as the start of
    the table is not known: no table that begins at zero or above has it there. --/
theorem declared_slot_lacks_room : parse (lex behindSource).tokens = .ok (behindFile "0x4") ∧
    (build true ((behindFile "0x4").events none)).program = .ok (behindProgram (some 4)) ∧
    (layout (.ofPointerSize 4) (behindProgram (some 4))).program = .ok (behindProgram none) ∧
    StandsFor (behindFunctions (some 4)) (behindFunctions none) 2 (virtualFunction "h" (some 4) 1) ∧
    ¬HasRoom 4 (behindFunctions (some 4)) (behindFunctions none) ∧
    ∀ start, BeginsAt 4 start (behindFunctions (some 4)) (behindFunctions none) → start < 0 := by
  have stands : StandsFor (behindFunctions (some 4)) (behindFunctions none) 2 (virtualFunction "h" (some 4) 1) :=
    ⟨⟨_, rfl, rfl⟩, rfl⟩
  refine ⟨by with_unfolding_all rfl, by with_unfolding_all rfl, by with_unfolding_all rfl, stands,
    fun room => absurd (room 2 _ 4 stands rfl) (by decide), fun start begins => ?_⟩
  have := begins 2 _ 4 stands rfl
  omega

end Layout
end Overlay
