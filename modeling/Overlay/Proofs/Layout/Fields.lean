import Overlay.Proofs.Layout.Recorded
import Overlay.Proofs.Layout.Sizes

/-! The fields of a class that is laid out. They follow one another from the start of the fields on: a field begins
    where the one before it ends, if the size of that one is known, and above its beginning otherwise. So fields do
    not overlap, and the class ends where its last field does. -/

namespace Overlay
namespace Layout

/-! ### Fields along the cursor -/

/-- Fields that follow one another from one cursor to another. --/
inductive Tiled (sizes : SizeTable) : FieldCursor → List Variable → FieldCursor → Prop where
  | nil (cursor : FieldCursor) : Tiled sizes cursor [] cursor
  | cons {cursor last : FieldCursor} {v : Variable} {offset : Nat} {fields : List Variable}
      (bound : v.offset = some offset) (next : ∀ n, cursor.next = some n → n = offset)
      (above : cursor.next = none → ∀ n, cursor.last = some n → n < offset)
      (others : Tiled sizes (.after sizes v offset) fields last) : Tiled sizes cursor (v :: fields) last

/-- A field of a class that is laid out: one that is declared, or a pad. --/
def FieldOrPad (v : Variable) : Prop :=
  (v.isPad = false ∧ v.length = none) ∨ ∃ (start : Nat) (size : Int), 0 < size ∧ v = .pad start size

section
variable {word : Int} {sizes : SizeTable}

theorem Tiled.append {c d e : FieldCursor} {fields others : List Variable} (h : Tiled sizes c fields d)
    (h' : Tiled sizes d others e) : Tiled sizes c (fields ++ others) e := by
  induction h with
  | nil => exact h'
  | cons bound next above _ ih => exact .cons bound next above (ih h')

theorem FieldPlace.tiled (h : sizes.Growing word) {cursor : FieldCursor} {v : Variable} {offset : Nat}
    {out : List Declaration} (place : FieldPlace cursor v offset out) :
    Tiled sizes cursor (out.filterMap Declaration.toVariable?)
      (.after sizes { v with offset := some offset } offset) := by
  cases place with
  | above unknown given above =>
    exact .cons rfl (by simp [unknown]) (fun _ => above) (.nil _)
  | adjacent next given =>
    refine .cons rfl (fun n hn => ?_) (by simp [next]) (.nil _)
    rw [next] at hn
    exact (Option.some.inj hn).symm
  | @padded start next gap given =>
    refine .cons rfl (fun n hn => ?_) (by simp [next]) (.cons rfl (fun n hn => ?_) (fun hn => ?_) (.nil _))
    · rw [next] at hn
      exact (Option.some.inj hn).symm
    · -- The pad ends where the field behind it begins.
      simp only [FieldCursor.after, sizeOfVariable?_pad h, Option.map_some, Option.some.injEq] at hn
      omega
    · simp [FieldCursor.after, sizeOfVariable?_pad h] at hn

theorem FieldPlace.fieldOrPad {cursor : FieldCursor} {v : Variable} {offset : Nat} {out : List Declaration}
    (hv : v.Declared) (place : FieldPlace cursor v offset out) : ∀ w, .ofVariable w ∈ out → FieldOrPad w := by
  have hplaced : FieldOrPad { v with offset := some offset } := Or.inl ⟨hv.isPad, hv.length⟩
  intro w hw
  cases place with
  | above | adjacent =>
    cases List.mem_singleton.mp hw
    exact hplaced
  | @padded start next gap given =>
    rcases List.mem_pair.mp hw with hw | hw
    · cases hw
      exact Or.inr ⟨start, _, by omega, rfl⟩
    · cases hw
      exact hplaced

theorem MemberPlace.tiled (h : sizes.Growing word) {cursors next : Cursors} {d : Declaration} {out : List Declaration}
    (place : MemberPlace sizes cursors d out next) :
    Tiled sizes cursors.field (out.filterMap Declaration.toVariable?) next.field := by
  cases place with
  | field place => exact place.tiled h
  | slot isVirtual place =>
    rw [place.no_fields]
    exact .nil _
  | function notVirtual => exact .nil _
  | rawBlock r => exact .nil _

theorem Placed.tiled (h : sizes.Growing word) {cursors last : Cursors} {members out : List Declaration}
    (placed : Placed sizes cursors members out last) :
    Tiled sizes cursors.field (out.filterMap Declaration.toVariable?) last.field := by
  induction placed with
  | nil => exact .nil _
  | cons place _ ih =>
    rw [List.filterMap_append]
    exact (place.tiled h).append ih

theorem MemberPlace.fieldOrPad {cursors next : Cursors} {d : Declaration} {out : List Declaration} (hd : d.MemberBound)
    (place : MemberPlace sizes cursors d out next) : ∀ v, .ofVariable v ∈ out → FieldOrPad v := by
  intro v hv
  cases place with
  | field place => exact place.fieldOrPad hd v hv
  | slot isVirtual place =>
    have hv' : v ∈ out.filterMap Declaration.toVariable? := List.mem_filterMap.mpr ⟨_, hv, rfl⟩
    rw [place.no_fields] at hv'
    cases hv'
  | function notVirtual => cases List.mem_singleton.mp hv
  | rawBlock r => cases List.mem_singleton.mp hv

/-- All fields of a class that is laid out are declared or pads. --/
theorem Placed.fieldOrPad {cursors last : Cursors} {members out : List Declaration}
    (placed : Placed sizes cursors members out last) (hmembers : ∀ d ∈ members, d.MemberBound) :
    ∀ v ∈ out.filterMap Declaration.toVariable?, FieldOrPad v := by
  have hall : ∀ e ∈ out, ∀ v, e = .ofVariable v → FieldOrPad v :=
    placed.forall_mem fun d hd _ _ _ place e he v hv => place.fieldOrPad (hmembers d hd) v (hv ▸ he)
  intro v hv
  obtain ⟨e, he, hvar⟩ := List.mem_filterMap.mp hv
  cases e with
  | ofVariable w =>
    cases hvar
    exact hall _ he v rfl
  | _ => cases hvar

theorem fieldOrPad_of_layout {target : Target} {p q : Program} (hp : p.WellBound)
    (h : (layout target p).program = .ok q) {c : Class} (hc : c ∈ q.classes) : ∀ v ∈ c.fields, FieldOrPad v := by
  obtain ⟨i, hi⟩ := List.getElem?_of_mem (Program.mem_classes.mp hc)
  obtain ⟨c', l, hc', hl, rfl⟩ := class_of_layout h hi
  have hbound : c'.WellBound := hp.declarations _ (List.mem_of_getElem? hc')
  obtain ⟨members, last, placed, hresolved, -, -⟩ := placed_of_layoutClass hbound hl
  rw [hresolved]
  exact placed.fieldOrPad hbound.members

/-! ### Sizes of fields and classes -/

theorem FieldOrPad.size_pos (h : sizes.Growing word) (hword : 0 < word) {v : Variable} (hv : FieldOrPad v) {n : Int}
    (hn : sizes.sizeOfVariable? v = some n) : 0 < n := by
  rcases hv with ⟨-, hlength⟩ | ⟨start, size, hsize, rfl⟩
  · rw [sizeOfVariable?_of_declared hlength] at hn
    exact sizeOf?_pos h hword hn
  · rw [sizeOfVariable?_pad h, Option.some.injEq] at hn
    omega

theorem classSize?_pos (h : sizes.Growing word) (hword : 0 < word) {c : Class} (hfields : ∀ v ∈ c.fields, FieldOrPad v)
    {next : Option Int} {n : Int} (hn : classSize? sizes c next = some n) : 0 < n := by
  unfold classSize? at hn
  split at hn
  · simpa using (Option.filter_eq_some_iff.mp hn).2
  · obtain ⟨last, offset, size, hlast, -, hsize, rfl⟩ := size?_eq_some_iff.mp hn
    have hpos := (hfields last (List.mem_of_getLast? hlast)).size_pos h hword hsize
    omega

/-- What is settled with a class that is laid out is positive, too. --/
theorem record_growing (hword : 0 < word) {s : Settled} (hs : s.sizes.Growing word) {c : Class} (hc : c.WellBound)
    {l : ClassLayout} (hl : layoutClass s c = .ok l) : (s.record l).sizes.Growing word := by
  obtain ⟨members, last, placed, hresolved, hsize, -⟩ := placed_of_layoutClass hc hl
  refine ⟨hs.target, hs.classes, fun name n hn => ?_⟩
  have hrecord := sizeLedger.lookup_record hl name
  change (s.record l).sizes.settled.lookup name = _ at hrecord
  rw [hrecord] at hn
  split at hn
  · refine classSize?_pos hs hword ?_ (hsize.symm.trans (Option.some.inj hn))
    rw [hresolved]
    exact placed.fieldOrPad hc.members
  · exact hs.positive name n hn

theorem initial_growing (word : Int) : (Settled.initial (.ofPointerSize word)).sizes.Growing word :=
  ⟨rfl, rfl, fun name n h => by cases h⟩

/-- The sizes that a layout settles are positive at every stage. --/
theorem settledBefore_growing {p : Program} (hp : p.WellBound) (hword : 0 < word) (i : Nat) :
    (settledBefore (.ofPointerSize word) p i).sizes.Growing word :=
  settledBefore_keeps (P := fun s => s.sizes.Growing word) (initial_growing word)
    (fun _ _ hc _ hs hl => record_growing hword hs (hp.declarations _ hc) hl) i

/-! ### Known sizes -/

/-- The size that a layout records for a class, if it records one: a number, or that the size is unknown. --/
def recordedSize? (target : Target) (p : Program) (name : String) : Option (Option Int) :=
  (layout target p).settled.sizes.settled.lookup name

/-- The sizes of types that are known when the class at `i` is laid out: those of pointers, of primitives, and those
    that are recorded for earlier classes. --/
inductive SizeKnown (target : Target) (p : Program) (i : Nat) (type : String) : Int → Prop where
  | pointer (isPointer : IsPointerText type) : SizeKnown target p i type target.pointerSize
  | primitive {n : Int} (noPointer : ¬IsPointerText type)
      (size : target.primitives.lookup (Text.strip type) = some n) : SizeKnown target p i type n
  | earlier {n : Int} {j : Nat} {c : Class} (noPointer : ¬IsPointerText type)
      (noPrimitive : target.primitives.lookup (Text.strip type) = none) (before : j < i)
      (declared : p.declarations[j]? = some (.ofClass c)) (named : c.name = Text.strip type)
      (size : recordedSize? target p c.name = some (some n)) : SizeKnown target p i type n

/-- The size of a field that is known when the class at `i` is laid out: that of its type, as many times as an array
    has elements. --/
def FieldSizeKnown (target : Target) (p : Program) (i : Nat) (v : Variable) (n : Int) : Prop :=
  ∃ size, SizeKnown target p i v.type size ∧ n = v.sizeFrom size

theorem sizeKnown_iff {p q : Program} (hp : p.WellBound) (hword : 0 < word)
    (hq : (layout (.ofPointerSize word) p).program = .ok q) {i : Nat} (hi : i ≤ p.declarations.length) {type : String}
    {n : Int} : SizeKnown (.ofPointerSize word) p i type n ↔
      (settledBefore (.ofPointerSize word) p i).sizes.sizeOf? type = some n := by
  rw [sizeOf?_eq_some_iff (settledBefore_growing hp hword i)]
  constructor
  · intro h
    cases h with
    | pointer isPointer => exact Or.inl ⟨isPointer, rfl⟩
    | primitive noPointer size => exact Or.inr (Or.inl ⟨noPointer, size⟩)
    | earlier noPointer noPrimitive before declared named size =>
      exact Or.inr (Or.inr ⟨noPointer, noPrimitive,
        (sizeLedger.lookup_eq_some_iff hq hp.names hi).mpr ⟨_, before, _, declared, named, named ▸ size⟩⟩)
  · rintro (⟨isPointer, rfl⟩ | ⟨noPointer, size⟩ | ⟨noPointer, noPrimitive, hsettled⟩)
    · exact .pointer isPointer
    · exact .primitive noPointer size
    · obtain ⟨j, before, c, declared, named, size⟩ := (sizeLedger.lookup_eq_some_iff hq hp.names hi).mp hsettled
      exact .earlier noPointer noPrimitive before declared named (named ▸ size)

theorem fieldSizeKnown_iff {p q : Program} (hp : p.WellBound) (hword : 0 < word)
    (hq : (layout (.ofPointerSize word) p).program = .ok q) {i : Nat} (hi : i ≤ p.declarations.length) {v : Variable}
    {n : Int} : FieldSizeKnown (.ofPointerSize word) p i v n ↔
      (settledBefore (.ofPointerSize word) p i).sizes.sizeOfVariable? v = some n := by
  simp only [FieldSizeKnown, sizeKnown_iff hp hword hq hi, SizeTable.sizeOfVariable?, Option.map_eq_some_iff]
  exact exists_congr fun _ => and_congr_right fun _ => eq_comm

/-! ### The object -/

/-- Fields that tile an object from `start` on; `Size` tells the sizes that are known of them. --/
structure TilesObject (Size : Variable → Int → Prop) (start : Option Int) (fields : List Variable) : Prop where
  bound : ∀ v ∈ fields, v.offset.isSome
  first : ∀ v n, fields.head? = some v → start = some n → ∃ offset : Nat, v.offset = some offset ∧ offset = n
  adjacent : ∀ (i : Nat) (a b : Variable), fields[i]? = some a → fields[i + 1]? = some b → ∃ m n : Nat,
    a.offset = some m ∧ b.offset = some n ∧ (∀ k, Size a k → n = m + k) ∧ ((∀ k, ¬Size a k) → m < n)
  disjoint : ∀ (i j : Nat) (a b : Variable), i < j → fields[i]? = some a → fields[j]? = some b → ∃ m n : Nat,
    a.offset = some m ∧ b.offset = some n ∧ ∀ k, Size a k → m + k ≤ n
  pads : ∀ v ∈ fields, v.isPad → ∃ n, v.length = some n ∧ 0 < n

theorem Tiled.bound {c d : FieldCursor} {fields : List Variable} (h : Tiled sizes c fields d) :
    ∀ v ∈ fields, v.offset.isSome := by
  induction h with
  | nil => simp
  | cons bound next above _ ih =>
    intro v hv
    rcases List.mem_cons.mp hv with rfl | hv
    · simp [bound]
    · exact ih v hv

theorem Tiled.adjacent {c d : FieldCursor} {fields : List Variable} (h : Tiled sizes c fields d) {i : Nat}
    {a b : Variable} (ha : fields[i]? = some a) (hb : fields[i + 1]? = some b) : ∃ m n : Nat, a.offset = some m ∧
      b.offset = some n ∧ (∀ k, sizes.sizeOfVariable? a = some k → n = m + k) ∧
      (sizes.sizeOfVariable? a = none → m < n) := by
  induction h generalizing i with
  | nil => simp at ha
  | @cons _ _ v offset _ bound _ _ others ih =>
    cases i with
    | succ i => exact ih ha hb
    | zero =>
      obtain rfl : v = a := by simpa using ha
      cases others with
      | nil => simp at hb
      | @cons _ _ w offset' _ bound' next above _ =>
        obtain rfl : w = b := by simpa using hb
        refine ⟨offset, offset', bound, bound', fun k hk => ?_, fun hk => ?_⟩
        · exact (next (offset + k) (by simp [FieldCursor.after, hk])).symm
        · exact above (by simp [FieldCursor.after, hk]) offset rfl

theorem Tiled.last {c d : FieldCursor} {fields : List Variable} (h : Tiled sizes c fields d) {v : Variable}
    (hv : fields.getLast? = some v) : ∃ offset : Nat, v.offset = some offset ∧ d = .after sizes v offset := by
  induction h with
  | nil => cases hv
  | @cons _ _ w offset fields bound _ _ others ih =>
    cases fields with
    | nil =>
      obtain rfl : w = v := by simpa using hv
      cases others
      exact ⟨offset, bound, rfl⟩
    | cons x fields => exact ih (by simpa [List.getLast?_cons_cons] using hv)

/-- Offsets never fall, as no size that is known is below zero. --/
theorem Tiled.offset_le {c d : FieldCursor} {fields : List Variable} (h : Tiled sizes c fields d)
    (hpos : ∀ v ∈ fields, ∀ k, sizes.sizeOfVariable? v = some k → 0 < k) {i j : Nat} (hij : i ≤ j) {a b : Variable}
    (ha : fields[i]? = some a) (hb : fields[j]? = some b) {m n : Nat} (hm : a.offset = some m)
    (hn : b.offset = some n) : m ≤ n := by
  -- Along the fields from `a` on, each begins no lower than the one before it.
  induction hij generalizing b n with
  | refl =>
    rw [ha] at hb
    cases hb
    rw [hm] at hn
    cases hn
    exact Nat.le_refl _
  | @step j _ ih =>
    obtain ⟨x, hx⟩ : ∃ x, fields[j]? = some x :=
      ⟨_, List.getElem?_eq_getElem (Nat.lt_of_succ_lt (List.getElem?_eq_some_iff.mp hb).1)⟩
    obtain ⟨o, n', ho, hn', hknown, hunknown⟩ := h.adjacent hx hb
    rw [hn] at hn'
    cases hn'
    have hle := ih hx ho
    cases hsize : sizes.sizeOfVariable? x with
    | none => exact Nat.le_trans hle (Nat.le_of_lt (hunknown hsize))
    | some k =>
      have hk := hpos x (List.mem_of_getElem? hx) k hsize
      have := hknown k hsize
      omega

theorem Tiled.tilesObject (h : sizes.Growing word) (hword : 0 < word) {c d : FieldCursor} {fields : List Variable}
    (tiled : Tiled sizes c fields d) (hfields : ∀ v ∈ fields, FieldOrPad v) :
    TilesObject (fun v n => sizes.sizeOfVariable? v = some n) c.next fields where
  bound := tiled.bound
  first := fun v n hv hn => by
    cases tiled with
    | nil => cases hv
    | @cons _ _ w offset _ bound next _ _ =>
      obtain rfl : w = v := by simpa using hv
      exact ⟨offset, bound, (next n hn).symm⟩
  adjacent := fun i a b ha hb => by
    obtain ⟨m, n, hm, hn, hknown, hunknown⟩ := tiled.adjacent ha hb
    exact ⟨m, n, hm, hn, hknown, fun hk => hunknown (Option.eq_none_iff_forall_not_mem.mpr hk)⟩
  disjoint := fun i j a b hij ha hb => by
    have hpos : ∀ v ∈ fields, ∀ k, sizes.sizeOfVariable? v = some k → 0 < k :=
      fun v hv k => (hfields v hv).size_pos h hword
    obtain ⟨x, hx⟩ : ∃ x, fields[i + 1]? = some x :=
      ⟨_, List.getElem?_eq_getElem (Nat.lt_of_le_of_lt hij (List.getElem?_eq_some_iff.mp hb).1)⟩
    obtain ⟨m, o, hm, ho, hknown, -⟩ := tiled.adjacent ha hx
    obtain ⟨n, hn⟩ := Option.isSome_iff_exists.mp (tiled.bound b (List.mem_of_getElem? hb))
    refine ⟨m, n, hm, hn, fun k hk => ?_⟩
    have hle := tiled.offset_le hpos hij hx hb ho hn
    have := hknown k hk
    omega
  pads := fun v hv hpad => by
    rcases hfields v hv with ⟨hplain, -⟩ | ⟨start, size, hsize, rfl⟩
    · rw [hplain] at hpad
      cases hpad
    · exact ⟨size, rfl, hsize⟩

/-- A size that a layout records for a class: where the last field ends, or for a class without fields the start of
    the fields, if there is something before it. --/
def EndsObject (Size : Variable → Int → Prop) (start : Option Int) (fields : List Variable) (size : Option Int) : Prop :=
  (∀ last, fields.getLast? = some last → ∀ n, size = some n ↔
    ∃ (offset : Nat) (k : Int), last.offset = some offset ∧ Size last k ∧ n = offset + k) ∧
  (fields = [] → ∀ n, size = some n ↔ start = some n ∧ 0 < n)

theorem Tiled.endsObject {c : Class} {start last : FieldCursor} (tiled : Tiled sizes start c.fields last) :
    EndsObject (fun v n => sizes.sizeOfVariable? v = some n) start.next c.fields
      (classSize? sizes c last.next) := by
  refine ⟨fun v hv n => ?_, fun hnil n => ?_⟩
  · have hne : c.fields.isEmpty = false := by
      cases hc : c.fields with
      | nil => simp [hc] at hv
      | cons => rfl
    rw [classSize?, hne, if_neg (by simp), size?_eq_some_iff]
    constructor
    · rintro ⟨v', offset, k, hv', hoffset, hk, rfl⟩
      rw [hv] at hv'
      cases hv'
      exact ⟨offset, k, hoffset, hk, rfl⟩
    · rintro ⟨offset, k, hoffset, hk, rfl⟩
      exact ⟨v, offset, k, hv, hoffset, hk, rfl⟩
  · rw [hnil] at tiled
    cases tiled
    rw [classSize?, hnil, if_pos List.isEmpty_nil, Option.filter_eq_some_iff]
    simp

end

/-- The fields of every class that is laid out, its pads among them, tile its objects, and the size that is recorded
    for the class is where they end. --/
theorem fields_tile_objects {word : Int} (hword : 0 < word) {strict : Bool} {events : Trail TreeFault Event}
    {p q : Program} (built : (build strict events).program = .ok p)
    (laidOut : (layout (.ofPointerSize word) p).program = .ok q) {i : Nat} {resolved : Class}
    (hi : q.declarations[i]? = some (.ofClass resolved)) :
    ∃ c, p.declarations[i]? = some (.ofClass c) ∧
      TilesObject (FieldSizeKnown (.ofPointerSize word) p i)
        (fieldsBegin (settledBefore (.ofPointerSize word) p i) c) resolved.fields ∧
      ∃ size, recordedSize? (.ofPointerSize word) p resolved.name = some size ∧
        EndsObject (FieldSizeKnown (.ofPointerSize word) p i)
          (fieldsBegin (settledBefore (.ofPointerSize word) p i) c) resolved.fields size := by
  have hp := wellBound_of_build built
  have growing := settledBefore_growing hp hword i
  obtain ⟨c, l, hc, hl, rfl⟩ := class_of_layout laidOut hi
  have hlt : i < p.declarations.length := (List.getElem?_eq_some_iff.mp hc).1
  have hbound : c.WellBound := hp.declarations _ (List.mem_of_getElem? hc)
  obtain ⟨members, last, placed, hresolved, hsize, -⟩ := placed_of_layoutClass hbound hl
  have hmembers : l.resolved.fields = members.filterMap Declaration.toVariable? := by rw [hresolved]; rfl
  have tiled := placed.tiled growing
  rw [← hmembers] at tiled
  have hfields : ∀ v ∈ l.resolved.fields, FieldOrPad v := hmembers ▸ placed.fieldOrPad hbound.members
  have hSize : FieldSizeKnown (.ofPointerSize word) p i =
      fun v n => (settledBefore (.ofPointerSize word) p i).sizes.sizeOfVariable? v = some n := by
    funext v n
    exact propext (fieldSizeKnown_iff hp hword laidOut (Nat.le_of_lt hlt))
  rw [hSize]
  refine ⟨c, hc, tiled.tilesObject growing hword hfields, l.size, ?_, hsize ▸ tiled.endsObject⟩
  rw [recordedSize?, resolved_name hl, ← settledBefore_length]
  exact sizeLedger.lookup_eq_of_lt laidOut hp.names hc hl hlt

/-! A class of four bytes, and one derived from it with a gap before its first field. -/

def pointEvents : List Event :=
  [⟨.ofClass, .opening, 1, "", ["Base"]⟩, .opens .ofVariable 2 "", .opens .ofPlainType 2 "int",
   .opens .ofAddress 2 "0x0", .closes .ofVariable 2 "id", .closes .ofClass 1 "",
   ⟨.ofClass, .opening, 4, "", ["Point", "Base"]⟩, .opens .ofVariable 5 "", .opens .ofPlainType 5 "short",
   .opens .ofAddress 5 "0x8", .closes .ofVariable 5 "x", .opens .ofVariable 6 "", .opens .ofPointer 6 "Point",
   .closes .ofVariable 6 "next", .closes .ofClass 4 ""]

def declaredField (name type : String) (offset : Option Nat) (line : Int) : Variable :=
  { Variable.opened line with name, type, offset }

def baseClass : Class := ⟨"Base", [], [.ofVariable (declaredField "id" "int" (some 0) 2)], 1⟩

def pointProgram : Program :=
  ⟨[.ofClass baseClass,
    .ofClass ⟨"Point", ["Base"], [.ofVariable (declaredField "x" "short" (some 8) 5),
      .ofVariable (declaredField "next" "Point*" none 6)], 4⟩]⟩

def pointResolved : Class :=
  ⟨"Point", ["Base"], [.ofVariable (.pad 4 4), .ofVariable (declaredField "x" "short" (some 8) 5),
    .ofVariable (declaredField "next" "Point*" (some 10) 6)], 4⟩

theorem layout_point : (layout (.ofPointerSize 4) pointProgram).program =
    .ok ⟨[.ofClass baseClass, .ofClass pointResolved]⟩ := by
  with_unfolding_all rfl

theorem fields_tile_point : (0 : Int) < 4 ∧ (build true ⟨pointEvents, none⟩).program = .ok pointProgram ∧
    (layout (.ofPointerSize 4) pointProgram).program = .ok ⟨[.ofClass baseClass, .ofClass pointResolved]⟩ ∧
    ∃ c, pointProgram.declarations[1]? = some (.ofClass c) ∧
      TilesObject (FieldSizeKnown (.ofPointerSize 4) pointProgram 1)
        (fieldsBegin (settledBefore (.ofPointerSize 4) pointProgram 1) c) pointResolved.fields ∧
      ∃ size, recordedSize? (.ofPointerSize 4) pointProgram "Point" = some size ∧
        EndsObject (FieldSizeKnown (.ofPointerSize 4) pointProgram 1)
          (fieldsBegin (settledBefore (.ofPointerSize 4) pointProgram 1) c) pointResolved.fields size :=
  have built : (build true ⟨pointEvents, none⟩).program = .ok pointProgram := rfl
  ⟨by decide, built, layout_point, fields_tile_objects (by decide) built layout_point (i := 1) rfl⟩

end Layout
end Overlay
