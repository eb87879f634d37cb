import Mathlib.Algebra.Ring.Int.Defs
import Overlay.Proofs.Build.Names
import Overlay.Proofs.Layout.Fields
import Overlay.Proofs.Layout.Tables

/-! Pointers to virtual tables. A class begins with its bases, and then has a pointer to its virtual table, if it
    declares virtual functions and none of its bases is known to have a table. Such a table is known along the line of
    the first bases alone, down to a class without bases or with a slot that it has declared. So a pointer is never
    missing; but where a base has its virtual functions from another base than the first, or below a class that is not
    declared, the pointer is there a second time. -/

namespace Overlay
namespace Layout

/-! ### Virtual functions of bases -/

/-- The classes that declare virtual functions or inherit them, through any of the classes that they derive from. --/
inductive Polymorphic (p : Program) : String → Prop where
  | declares {c : Class} (declared : .ofClass c ∈ p.declarations) (isVirtual : c.hasVirtual = true) :
      Polymorphic p c.name
  | inherits {c : Class} {base : String} (declared : .ofClass c ∈ p.declarations) (derived : base ∈ c.bases)
      (ofBase : Polymorphic p base) : Polymorphic p c.name

/-- The class at `i` has a first base at `j`, which is declared before it. --/
structure FirstBase (p : Program) (i j : Nat) (c base : Class) : Prop where
  declared : p.declarations[i]? = some (.ofClass c)
  primary : c.bases.head? = some base.name
  before : j < i
  baseDeclared : p.declarations[j]? = some (.ofClass base)

/-- The class at `i` has a virtual table of known size: on the line of its first bases there is a class without bases,
    or before that one with a virtual function that declares its slot. --/
inductive TableKnown (p : Program) : Nat → Prop where
  | root {i : Nat} {c : Class} (declared : p.declarations[i]? = some (.ofClass c)) (noBases : c.bases = []) :
      TableKnown p i
  | slot {i : Nat} {c : Class} {f : Function} (declared : p.declarations[i]? = some (.ofClass c))
      (isVirtual : f ∈ c.virtualFunctions) (given : f.address.isSome) : TableKnown p i
  | derived {i j : Nat} {c base : Class} (first : FirstBase p i j c base) (ofBase : TableKnown p j) : TableKnown p i

/-- The class at `i` is known to have a virtual table with slots: on the line of its first bases there is a class with a
    table of known size that declares a virtual function. --/
inductive CarriesTable (p : Program) : Nat → Prop where
  | declares {i : Nat} {c : Class} (declared : p.declarations[i]? = some (.ofClass c))
      (isVirtual : c.hasVirtual = true) (known : TableKnown p i) : CarriesTable p i
  | derived {i j : Nat} {c base : Class} (first : FirstBase p i j c base) (ofBase : CarriesTable p j) :
      CarriesTable p i

/-- The class at `i` has its virtual functions along the line of its first bases, all of which are declared in order:
    another base is polymorphic only if the first one is. --/
inductive PrimaryLine (p : Program) : Nat → Prop where
  | root {i : Nat} {c : Class} (declared : p.declarations[i]? = some (.ofClass c)) (noBases : c.bases = []) :
      PrimaryLine p i
  | derived {i j : Nat} {c base : Class} (first : FirstBase p i j c base)
      (others : ∀ name ∈ c.bases, Polymorphic p name → Polymorphic p base.name) (ofBase : PrimaryLine p j) :
      PrimaryLine p i

section
variable {p : Program}

theorem FirstBase.mem {i j : Nat} {c base : Class} (h : FirstBase p i j c base) : base.name ∈ c.bases :=
  List.mem_of_mem_head? h.primary

/-- A table is carried only by a class that is polymorphic. --/
theorem CarriesTable.polymorphic {i : Nat} (h : CarriesTable p i) :
    ∀ c, p.declarations[i]? = some (.ofClass c) → Polymorphic p c.name := by
  induction h with
  | declares declared isVirtual _ =>
    intro c hc
    rw [declared] at hc
    cases hc
    exact .declares (List.mem_of_getElem? declared) isVirtual
  | derived first _ ih =>
    intro c hc
    rw [first.declared] at hc
    cases hc
    exact .inherits (List.mem_of_getElem? first.declared) first.mem (ih _ first.baseDeclared)

theorem PrimaryLine.tableKnown {i : Nat} (h : PrimaryLine p i) : TableKnown p i := by
  induction h with
  | root declared noBases => exact .root declared noBases
  | derived first _ _ ih => exact .derived first ih

theorem eq_of_name (names : (p.classes.map (·.name)).Nodup) {i : Nat} {c d : Class}
    (hc : p.declarations[i]? = some (.ofClass c)) (hd : .ofClass d ∈ p.declarations) (hname : d.name = c.name) :
    d = c := by
  obtain ⟨j, hj⟩ := List.getElem?_of_mem hd
  by_cases hij : i = j
  · subst hij
    rw [hc] at hj
    cases hj
    rfl
  · exact absurd hname.symm (name_ne_of_ne names hij hc hj)

/-- A class with its virtual functions along its first bases carries a table if it is polymorphic. --/
theorem PrimaryLine.carriesTable (names : (p.classes.map (·.name)).Nodup) {i : Nat} (h : PrimaryLine p i) :
    ∀ c, p.declarations[i]? = some (.ofClass c) → Polymorphic p c.name → CarriesTable p i := by
  induction h with
  | @root i c declared noBases =>
    intro c' hc' hpoly
    rw [declared] at hc'
    cases hc'
    generalize hname : c.name = name at hpoly
    cases hpoly with
    | declares declared' isVirtual =>
      obtain rfl := eq_of_name names declared declared' hname.symm
      exact .declares declared isVirtual (.root declared noBases)
    | inherits declared' derived =>
      obtain rfl := eq_of_name names declared declared' hname.symm
      rw [noBases] at derived
      cases derived
  | @derived i j c base first others line ih =>
    intro c' hc' hpoly
    rw [first.declared] at hc'
    cases hc'
    generalize hname : c.name = name at hpoly
    cases hpoly with
    | declares declared' isVirtual =>
      obtain rfl := eq_of_name names first.declared declared' hname.symm
      exact .declares first.declared isVirtual (.derived first line.tableKnown)
    | inherits declared' derived ofBase =>
      obtain rfl := eq_of_name names first.declared declared' hname.symm
      exact .derived first (ih base first.baseDeclared (others _ derived ofBase))

/-! ### Sizes of tables -/

variable {word : Int}

theorem SlotPlace.next_pos (hword : 0 < word) {cursor next : Option Int} {f : Function} {out : List Declaration}
    (place : SlotPlace word cursor f out next) (hcursor : ∀ n, cursor = some n → 0 ≤ n) :
    ∀ n, next = some n → 0 < n := by
  intro n hn
  cases place with
  | next given =>
    obtain ⟨start, hstart, rfl⟩ := Option.map_eq_some_iff.mp hn
    have := hcursor start hstart
    omega
  | first | padded =>
    cases hn
    omega

theorem SlotPlace.next_known {cursor next : Option Int} {f : Function} {out : List Declaration}
    (place : SlotPlace word cursor f out next) : next.isSome ↔ cursor.isSome ∨ f.address.isSome := by
  cases place with
  | next given => simp [given]
  | first unknown given => simp [given]
  | padded known given => simp [given]

/-- The end of a table is known if its start is, or if one of its functions declares its slot. --/
theorem Slotted.last_known {cursor last : Option Int} {declared entries : List Function}
    (h : Slotted word cursor declared entries last) :
    last.isSome ↔ cursor.isSome ∨ ∃ f ∈ declared, f.address.isSome := by
  induction h with
  | nil => simp
  | cons _ _ place _ ih =>
    rw [ih, place.next_known]
    simp [or_assoc]

theorem Slotted.last_of_nil {cursor last : Option Int} {entries : List Function}
    (h : Slotted word cursor [] entries last) : last = cursor := by
  cases h
  rfl

/-- A table with a function does not end at zero. --/
theorem Slotted.last_pos (hword : 0 < word) {cursor last : Option Int} {declared entries : List Function}
    (h : Slotted word cursor declared entries last) (hcursor : ∀ n, cursor = some n → 0 ≤ n) (hne : declared ≠ []) :
    ∀ n, last = some n → 0 < n := by
  induction h with
  | nil => exact absurd rfl hne
  | @cons _ _ _ _ _ declared _ _ _ place others ih =>
    have hnext := place.next_pos hword hcursor
    cases declared with
    | nil =>
      rw [others.last_of_nil]
      exact hnext
    | cons => exact ih (fun n hn => Int.le_of_lt (hnext n hn)) (List.cons_ne_nil _ _)

section
variable {q : Program}

theorem hasVirtual_iff {c : Class} : c.hasVirtual = true ↔ c.virtualFunctions ≠ [] := by
  simp [Class.hasVirtual, Class.virtualFunctions, List.filter_eq_nil_iff]

/-- The start of a table is known without bases, and otherwise with the end of the table of the first base. --/
theorem tableStart_known {target : Target} {i : Nat} {c : Class} (hc : p.declarations[i]? = some (.ofClass c))
    {n : Int} : TableStart target p i c n ↔ (c.bases = [] ∧ n = 0) ∨
      ∃ j base, FirstBase p i j c base ∧ recordedTable? target p base.name = some (some n) := by
  constructor
  · intro h
    cases h with
    | root noBases => exact Or.inl ⟨noBases, rfl⟩
    | derived primary before declared recorded => exact Or.inr ⟨_, _, ⟨hc, primary, before, declared⟩, recorded⟩
  · rintro (⟨noBases, rfl⟩ | ⟨j, base, first, recorded⟩)
    · exact .root noBases
    · exact .derived first.primary first.before first.baseDeclared recorded

/-- The size of the table of a class is recorded if its start is known or a virtual function declares its slot. --/
theorem recordedTable?_known (hp : p.WellBound) (hword : 0 < word)
    (hq : (layout (.ofPointerSize word) p).program = .ok q) {i : Nat} {c : Class}
    (hc : p.declarations[i]? = some (.ofClass c)) :
    (∃ n, recordedTable? (.ofPointerSize word) p c.name = some (some n)) ↔
      (∃ start, TableStart (.ofPointerSize word) p i c start) ∨ ∃ f ∈ c.virtualFunctions, f.address.isSome := by
  obtain ⟨l, -, hresolved, -⟩ := layout_class hq hc
  obtain ⟨size, hsize, slotted⟩ := slotted_of_layout hp hword hq hc hresolved
  have hlt := (List.getElem?_eq_some_iff.mp hc).1
  simp only [tableStart_iff hp hq (Nat.le_of_lt hlt), ← Option.isSome_iff_exists]
  rw [← slotted.last_known, hsize]
  simp [Option.isSome_iff_exists]

/-- The size of the table of a class is recorded exactly where the declarations let it be known. --/
theorem tableKnown_iff (hp : p.WellBound) (hword : 0 < word) (hq : (layout (.ofPointerSize word) p).program = .ok q)
    {i : Nat} : ∀ {c : Class}, p.declarations[i]? = some (.ofClass c) →
      (TableKnown p i ↔ ∃ n, recordedTable? (.ofPointerSize word) p c.name = some (some n)) := by
  -- A first base is declared before, so the induction is on the place of the class.
  induction i using Nat.strong_induction_on with
  | h i ih =>
    intro c hc
    rw [recordedTable?_known hp hword hq hc]
    simp only [tableStart_known hc]
    constructor
    · intro h
      cases h with
      | root declared noBases =>
        rw [hc] at declared
        cases declared
        exact Or.inl ⟨0, Or.inl ⟨noBases, rfl⟩⟩
      | slot declared isVirtual given =>
        rw [hc] at declared
        cases declared
        exact Or.inr ⟨_, isVirtual, given⟩
      | @derived _ j d base first ofBase =>
        obtain rfl : d = c := by simpa [hc] using first.declared.symm
        obtain ⟨n, hn⟩ := (ih j first.before first.baseDeclared).mp ofBase
        exact Or.inl ⟨n, Or.inr ⟨j, base, first, hn⟩⟩
    · rintro (⟨n, ⟨noBases, -⟩ | ⟨j, base, first, hn⟩⟩ | ⟨f, isVirtual, given⟩)
      · exact .root hc noBases
      · exact .derived first ((ih j first.before first.baseDeclared).mpr ⟨n, hn⟩)
      · exact .slot hc isVirtual given

/-- The table that is recorded for a class has slots exactly where the declarations say that the class carries one. --/
theorem carriesTable_iff (hp : p.WellBound) (hword : 0 < word) (hq : (layout (.ofPointerSize word) p).program = .ok q)
    {i : Nat} : ∀ {c : Class}, p.declarations[i]? = some (.ofClass c) →
      (CarriesTable p i ↔ ∃ n, recordedTable? (.ofPointerSize word) p c.name = some (some n) ∧ n ≠ 0) := by
  induction i using Nat.strong_induction_on with
  | h i ih =>
    intro c hc
    obtain ⟨l, -, hresolved, -⟩ := layout_class hq hc
    obtain ⟨size, hsize, slotted⟩ := slotted_of_layout hp hword hq hc hresolved
    have hlt := (List.getElem?_eq_some_iff.mp hc).1
    have hnonneg : ∀ n, tableBegin (settledBefore (.ofPointerSize word) p i) c = some n → 0 ≤ n :=
      fun n hn => (tableBegin_slotStart (settledBefore_slotting hp hword i) hn).nonneg
    constructor
    · intro h
      cases h with
      | declares declared isVirtual known =>
        obtain rfl : _ = c := by simpa [hc] using declared.symm
        obtain ⟨n, hn⟩ := (tableKnown_iff hp hword hq hc).mp known
        rw [hsize] at hn
        have hpos := slotted.last_pos hword hnonneg (hasVirtual_iff.mp isVirtual) n (Option.some.inj hn)
        exact ⟨n, hsize.trans hn, by omega⟩
      | @derived _ j d base first ofBase =>
        obtain rfl : d = c := by simpa [hc] using first.declared.symm
        obtain ⟨m, hm, hne⟩ := (ih j first.before first.baseDeclared).mp ofBase
        have hstart := (tableStart_known hc).mpr (Or.inr ⟨j, base, first, hm⟩)
        obtain ⟨-, -, hrecorded⟩ := fills_of_tableStart hp hword hq hc hresolved hstart
        have hbase := hnonneg m ((tableStart_iff hp hq (Nat.le_of_lt hlt)).mp hstart)
        have hslots : 0 ≤ word * l.resolved.virtualFunctions.length := Int.mul_nonneg (by omega) (by omega)
        exact ⟨_, hrecorded, by omega⟩
    · rintro ⟨n, hn, hne⟩
      by_cases hvirtual : c.hasVirtual = true
      · exact .declares hc hvirtual ((tableKnown_iff hp hword hq hc).mpr ⟨n, hn⟩)
      · -- A class without virtual functions has the table of its first base.
        have hnone : c.virtualFunctions = [] := not_not.mp fun hne => hvirtual (hasVirtual_iff.mpr hne)
        rw [hsize, Option.some.injEq] at hn
        rw [hnone, hn] at slotted
        have hbegin := slotted.last_of_nil.symm
        rcases (tableStart_known hc).mp ((tableStart_iff hp hq (Nat.le_of_lt hlt)).mpr hbegin) with
          ⟨-, rfl⟩ | ⟨j, base, first, hrecorded⟩
        · exact absurd rfl hne
        · exact .derived first ((ih j first.before first.baseDeclared).mpr ⟨n, hrecorded, hne⟩)

end

/-! ### Earlier declarations -/

theorem getElem?_first {i j : Nat} (h : j < i) : (p.first i).declarations[j]? = p.declarations[j]? :=
  List.getElem?_take_of_lt h

theorem wellBound_first (hp : p.WellBound) (i : Nat) : (p.first i).WellBound where
  names := hp.names.sublist (((List.take_sublist i p.declarations).filterMap _).map _)
  declarations := fun d hd => hp.declarations d (List.mem_of_mem_take hd)

section
variable {p' : Program} {i : Nat}

theorem FirstBase.congr {j : Nat} {c base : Class} (h : FirstBase p i j c base)
    (agree : ∀ k ≤ i, p'.declarations[k]? = p.declarations[k]?) : FirstBase p' i j c base :=
  ⟨(agree i (Nat.le_refl i)).trans h.declared, h.primary, h.before,
    (agree j (Nat.le_of_lt h.before)).trans h.baseDeclared⟩

theorem TableKnown.congr (h : TableKnown p i) (agree : ∀ k ≤ i, p'.declarations[k]? = p.declarations[k]?) :
    TableKnown p' i := by
  induction h with
  | root declared noBases => exact .root ((agree _ (Nat.le_refl _)).trans declared) noBases
  | slot declared isVirtual given => exact .slot ((agree _ (Nat.le_refl _)).trans declared) isVirtual given
  | derived first _ ih =>
    exact .derived (first.congr agree) (ih fun k hk => agree k (Nat.le_trans hk (Nat.le_of_lt first.before)))

/-- Whether a class carries a table is said by the declarations up to the class. --/
theorem CarriesTable.congr (h : CarriesTable p i) (agree : ∀ k ≤ i, p'.declarations[k]? = p.declarations[k]?) :
    CarriesTable p' i := by
  induction h with
  | declares declared isVirtual known =>
    exact .declares ((agree _ (Nat.le_refl _)).trans declared) isVirtual (known.congr agree)
  | derived first _ ih =>
    exact .derived (first.congr agree) (ih fun k hk => agree k (Nat.le_trans hk (Nat.le_of_lt first.before)))

end

theorem carriesTable_first {i j : Nat} (h : j < i) : CarriesTable (p.first i) j ↔ CarriesTable p j :=
  ⟨fun hj => hj.congr fun _ hk => (getElem?_first (Nat.lt_of_le_of_lt hk h)).symm,
    fun hj => hj.congr fun _ hk => getElem?_first (Nat.lt_of_le_of_lt hk h)⟩

/-! ### Starts of fields -/

/-- The size of an earlier class by its name: that of the primitive type of this name, if there is one, and otherwise
    the one that is recorded. --/
inductive BaseSize (target : Target) (earlier : Program) (name : String) : Int → Prop where
  | primitive {c : Class} {n : Int} (declared : .ofClass c ∈ earlier.declarations) (named : c.name = name)
      (size : target.primitives.lookup name = some n) : BaseSize target earlier name n
  | recorded {c : Class} {n : Int} (declared : .ofClass c ∈ earlier.declarations) (named : c.name = name)
      (noPrimitive : target.primitives.lookup name = none)
      (size : recordedSize? target earlier name = some (some n)) : BaseSize target earlier name n

theorem BaseSize.declared {target : Target} {earlier : Program} {name : String} {n : Int}
    (h : BaseSize target earlier name n) : ∃ c : Class, .ofClass c ∈ earlier.declarations ∧ c.name = name := by
  cases h with
  | primitive declared named => exact ⟨_, declared, named⟩
  | recorded declared named => exact ⟨_, declared, named⟩

section
variable {earlier q : Program}

theorem baseSize?_eq (hp : earlier.WellBound) (hword : 0 < word)
    (hq : (layout (.ofPointerSize word) earlier).program = .ok q) (hnames : ∀ c ∈ earlier.classes, IsName c.name)
    {name : String} {n : Int} (h : BaseSize (.ofPointerSize word) earlier name n) :
    (layout (.ofPointerSize word) earlier).settled.baseSize? name = some n := by
  obtain ⟨c, hc, rfl⟩ := h.declared
  have hname : IsName c.name := hnames c (List.mem_filterMap.mpr ⟨_, hc, rfl⟩)
  obtain ⟨j, hj⟩ := List.getElem?_of_mem hc
  obtain ⟨l, hl, -, -⟩ := layout_class hq hj
  have htable := tableLedger.lookup_eq_of_lt hq hp.names hj hl (List.getElem?_eq_some_iff.mp hj).1
  rw [settledBefore_length] at htable
  change (layout (.ofPointerSize word) earlier).settled.tables.lookup c.name = _ at htable
  have growing := settledBefore_growing hp hword earlier.declarations.length
  rw [settledBefore_length] at growing
  rw [Settled.baseSize?, htable, Option.isSome_some, if_pos rfl, hname.sizeOf?_eq_some_iff growing]
  cases h with
  | primitive _ _ size => exact Or.inl size
  | recorded _ _ noPrimitive size => exact Or.inr ⟨noPrimitive, size⟩

theorem hasTable_iff (hp : earlier.WellBound) (hword : 0 < word)
    (hq : (layout (.ofPointerSize word) earlier).program = .ok q) {j : Nat} {c : Class}
    (hc : earlier.declarations[j]? = some (.ofClass c)) :
    (layout (.ofPointerSize word) earlier).settled.hasTable c.name = true ↔ CarriesTable earlier j := by
  rw [carriesTable_iff hp hword hq hc, Settled.hasTable, Settled.tableSize?, recordedTable?]
  cases hlookup : (layout (.ofPointerSize word) earlier).settled.tables.lookup c.name with
  | none => simp
  | some size => cases size <;> simp

theorem exists_of_forall₂ {α β : Type} {R : α → β → Prop} {as : List α} {bs : List β} (h : List.Forall₂ R as bs) :
    ∀ a ∈ as, ∃ b, R a b := by
  induction h with
  | nil => simp
  | cons hab _ ih => exact List.forall_mem_cons.mpr ⟨⟨_, hab⟩, ih⟩

theorem mapM_of_forall₂ {α β : Type} {f : α → Option β} {as : List α} {bs : List β}
    (h : List.Forall₂ (fun a b => f a = some b) as bs) : as.mapM f = some bs := by
  induction h with
  | nil => rfl
  | cons hab _ ih => simp [List.mapM_cons, hab, ih]

/-- The class at `i` has virtual functions, and none of its bases carries a table. --/
def ReservesPointer (p : Program) (i : Nat) (c : Class) : Prop :=
  c.hasVirtual = true ∧ ∀ j < i, ∀ base, p.declarations[j]? = some (.ofClass base) → base.name ∈ c.bases →
    ¬CarriesTable p j

/-- A start of fields behind bases of `total` bytes, and behind a pointer as well if one is reserved. --/
def BeginsBehind (word total : Int) (reserved : Prop) (start : Option Int) : Prop :=
  (reserved → start = some (total + word)) ∧ (¬reserved → start = some total)

theorem fieldsBegin_behind (hp : p.WellBound) (hword : 0 < word) {i : Nat}
    (hq : (layout (.ofPointerSize word) (p.first i)).program = .ok q)
    (hnames : ∀ c ∈ (p.first i).classes, IsName c.name) {c : Class} {sizes : List Int}
    (bases : List.Forall₂ (BaseSize (.ofPointerSize word) (p.first i)) c.bases sizes) :
    BeginsBehind word sizes.sum (ReservesPointer p i c)
      (fieldsBegin (settledBefore (.ofPointerSize word) p i) c) := by
  have he := wellBound_first hp i
  have hstart : fieldsBegin (settledBefore (.ofPointerSize word) p i) c = some (sizes.sum +
      if c.hasVirtual && !c.bases.any (settledBefore (.ofPointerSize word) p i).hasTable then word else 0) := by
    have hsizes := mapM_of_forall₂ (bases.imp fun _ _ => baseSize?_eq he hword hq hnames)
    unfold fieldsBegin
    rw [(settledBefore_growing hp hword i).target]
    split
    · rename_i hnil
      rw [List.isEmpty_iff.mp hnil] at bases ⊢
      cases bases
      simp [Target.ofPointerSize]
    · rw [settledBefore, hsizes, List.sum_eq_foldl]
      rfl
  have hreserves : ReservesPointer p i c ↔
      (c.hasVirtual && !c.bases.any (settledBefore (.ofPointerSize word) p i).hasTable) = true := by
    rw [ReservesPointer, Bool.and_eq_true, Bool.not_eq_true', List.any_eq_false]
    refine and_congr_right fun _ => ⟨fun h name hname => ?_, fun h j hj base hbase hmem => ?_⟩
    · obtain ⟨n, hn⟩ := exists_of_forall₂ bases name hname
      obtain ⟨base, hbase, rfl⟩ := hn.declared
      obtain ⟨j, hj⟩ := List.getElem?_of_mem hbase
      have hlt : j < i := Nat.lt_of_lt_of_le (List.getElem?_eq_some_iff.mp hj).1 (List.length_take_le _ _)
      rw [settledBefore, hasTable_iff he hword hq hj, carriesTable_first hlt]
      exact h j hlt base (getElem?_first hlt ▸ hj) hname
    · rw [← carriesTable_first hj, ← hasTable_iff he hword hq ((getElem?_first hj).trans hbase)]
      exact h _ hmem
  rw [BeginsBehind, hreserves, hstart]
  refine ⟨fun h => by rw [if_pos h], fun h => by rw [if_neg h, Int.add_zero]⟩

end
end

/-- The fields of every class of a source whose bases are all earlier classes of known size, in a layout that gets as
    far as the class, begin behind the bases, and behind a pointer to a virtual table as well if the class has virtual
    functions and no base carries a table. The pointer is there whenever the class is the first to have virtual
    functions; and it is there only then, if the bases have theirs along the line of their first bases. --/
theorem fields_begin_behind_bases {word : Int} (hword : 0 < word) {strict : Bool} {source : String} {file : FileNode}
    {p q : Program} (parsed : parse (lex source).tokens = .ok file)
    (built : (build strict (file.events none)).program = .ok p) {i : Nat} {c : Class}
    (_ : p.declarations[i]? = some (.ofClass c))
    (reached : (layout (.ofPointerSize word) (p.first i)).program = .ok q) {sizes : List Int}
    (bases : List.Forall₂ (BaseSize (.ofPointerSize word) (p.first i)) c.bases sizes) :
    BeginsBehind word sizes.sum (ReservesPointer p i c) (fieldsBegin (settledBefore (.ofPointerSize word) p i) c) ∧
    (c.hasVirtual = true ∧ (∀ name ∈ c.bases, ¬Polymorphic p name) → ReservesPointer p i c) ∧
    ((∀ j < i, ∀ base, p.declarations[j]? = some (.ofClass base) → base.name ∈ c.bases → PrimaryLine p j) →
      BeginsBehind word sizes.sum (c.hasVirtual = true ∧ ∀ name ∈ c.bases, ¬Polymorphic p name)
        (fieldsBegin (settledBefore (.ofPointerSize word) p i) c)) := by
  have hp := wellBound_of_build built
  have hnames : ∀ c ∈ (p.first i).classes, IsName c.name := fun c hc =>
    isName_of_build parsed built c (((List.take_sublist i p.declarations).filterMap _).subset hc)
  have hbegins := fieldsBegin_behind hp hword reached hnames bases
  have hfirst : c.hasVirtual = true ∧ (∀ name ∈ c.bases, ¬Polymorphic p name) → ReservesPointer p i c :=
    fun ⟨hvirtual, hnone⟩ => ⟨hvirtual, fun j _ base hbase hmem hcarries =>
      hnone _ hmem (hcarries.polymorphic base hbase)⟩
  refine ⟨hbegins, hfirst, fun hlines => ?_⟩
  have honly : ReservesPointer p i c ↔ c.hasVirtual = true ∧ ∀ name ∈ c.bases, ¬Polymorphic p name := by
    refine ⟨fun ⟨hvirtual, hnone⟩ => ⟨hvirtual, fun name hname hpoly => ?_⟩, hfirst⟩
    obtain ⟨n, hn⟩ := exists_of_forall₂ bases name hname
    obtain ⟨base, hbase, rfl⟩ := hn.declared
    obtain ⟨j, hj⟩ := List.getElem?_of_mem hbase
    have hlt : j < i := Nat.lt_of_lt_of_le (List.getElem?_eq_some_iff.mp hj).1 (List.length_take_le _ _)
    rw [getElem?_first hlt] at hj
    exact hnone j hlt base hj hname ((hlines j hlt base hj hname).carriesTable hp.names base hj hpoly)
  rwa [← honly]

/-! A class with two bases, the first of which has a virtual function; and a class with a base that has one below a
    class that is not declared. -/

def virtualNode (name : String) (start type : Position) : FunctionNode :=
  { name, returnType := ⟨"int", 0, type⟩, parameters := [], modifier := some "virtual", callingConvention := none,
    address := none, position := start }

def fieldNode (name text : String) (start literal : Position) : VariableNode :=
  ⟨name, ⟨"int", 0, start⟩, some ⟨text, literal⟩, start⟩

def pairSource : String :=
  "class A { virtual int f(); int x @ 0x4; };\nclass B { int y @ 0x0; };\nclass C : A, B { virtual int g(); };"

def pairFile : FileNode :=
  ⟨[.ofClass ⟨"A", [],
      [.ofFunction (virtualNode "f" ⟨1, 11⟩ ⟨1, 19⟩), .ofVariable (fieldNode "x" "0x4" ⟨1, 28⟩ ⟨1, 36⟩)], ⟨1, 1⟩⟩,
    .ofClass ⟨"B", [], [.ofVariable (fieldNode "y" "0x0" ⟨2, 11⟩ ⟨2, 19⟩)], ⟨2, 1⟩⟩,
    .ofClass ⟨"C", ["A", "B"], [.ofFunction (virtualNode "g" ⟨3, 18⟩ ⟨3, 26⟩)], ⟨3, 1⟩⟩], ⟨1, 1⟩⟩

def firstOfPair : Class :=
  ⟨"A", [], [.ofFunction (virtualFunction "f" none 1), .ofVariable (declaredField "x" "int" (some 4) 1)], 1⟩

def secondOfPair : Class := ⟨"B", [], [.ofVariable (declaredField "y" "int" (some 0) 2)], 2⟩

def classOfPair : Class := ⟨"C", ["A", "B"], [.ofFunction (virtualFunction "g" none 3)], 3⟩

def pairProgram : Program := ⟨[.ofClass firstOfPair, .ofClass secondOfPair, .ofClass classOfPair]⟩

theorem parse_pair : parse (lex pairSource).tokens = .ok pairFile := by
  with_unfolding_all rfl

theorem built_pair : (build true (pairFile.events none)).program = .ok pairProgram := by
  with_unfolding_all rfl

theorem layout_pair : (layout (.ofPointerSize 4) (pairProgram.first 2)).program =
    .ok ⟨[.ofClass firstOfPair, .ofClass secondOfPair]⟩ := by
  with_unfolding_all rfl

theorem laidOut_pair : (layout (.ofPointerSize 4) pairProgram).program = .ok pairProgram := by
  with_unfolding_all rfl

theorem fields_begin_behind_pair : parse (lex pairSource).tokens = .ok pairFile ∧
    (build true (pairFile.events none)).program = .ok pairProgram ∧
    pairProgram.declarations[2]? = some (.ofClass classOfPair) ∧
    (layout (.ofPointerSize 4) (pairProgram.first 2)).program = .ok ⟨[.ofClass firstOfPair, .ofClass secondOfPair]⟩ ∧
    List.Forall₂ (BaseSize (.ofPointerSize 4) (pairProgram.first 2)) classOfPair.bases [8, 4] ∧
    (∀ j < 2, ∀ base, pairProgram.declarations[j]? = some (.ofClass base) → base.name ∈ classOfPair.bases →
      PrimaryLine pairProgram j) ∧
    fieldsBegin (settledBefore (.ofPointerSize 4) pairProgram 2) classOfPair = some 12 := by
  have hfirst : BaseSize (.ofPointerSize 4) (pairProgram.first 2) "A" 8 :=
    .recorded (c := firstOfPair) (by simp [pairProgram, Program.first]) rfl (by decide) (by with_unfolding_all rfl)
  have hsecond : BaseSize (.ofPointerSize 4) (pairProgram.first 2) "B" 4 :=
    .recorded (c := secondOfPair) (by simp [pairProgram, Program.first]) rfl (by decide) (by with_unfolding_all rfl)
  have bases : List.Forall₂ (BaseSize (.ofPointerSize 4) (pairProgram.first 2)) classOfPair.bases [8, 4] :=
    .cons hfirst (.cons hsecond .nil)
  have hlines : ∀ j < 2, ∀ base, pairProgram.declarations[j]? = some (.ofClass base) →
      base.name ∈ classOfPair.bases → PrimaryLine pairProgram j := by
    rintro (_ | _ | j) hj base hbase -
    · exact .root (c := firstOfPair) rfl rfl
    · exact .root (c := secondOfPair) rfl rfl
    · omega
  have declared : pairProgram.declarations[2]? = some (.ofClass classOfPair) := rfl
  obtain ⟨-, -, hlaw⟩ := fields_begin_behind_bases (by decide) parse_pair built_pair declared layout_pair bases
  refine ⟨parse_pair, built_pair, declared, layout_pair, bases, hlines, (hlaw hlines).2 ?_⟩
  rintro ⟨-, hnone⟩
  refine hnone "A" (by simp [classOfPair]) ?_
  exact .declares (c := firstOfPair) (by simp [pairProgram]) (by decide)

def outsideSource : String :=
  "class B : Outside { virtual int f(); int x @ 0x10; };\nclass D : B { virtual int g(); };"

def outsideFile : FileNode :=
  ⟨[.ofClass ⟨"B", ["Outside"],
      [.ofFunction (virtualNode "f" ⟨1, 21⟩ ⟨1, 29⟩), .ofVariable (fieldNode "x" "0x10" ⟨1, 38⟩ ⟨1, 46⟩)], ⟨1, 1⟩⟩,
    .ofClass ⟨"D", ["B"], [.ofFunction (virtualNode "g" ⟨2, 15⟩ ⟨2, 23⟩)], ⟨2, 1⟩⟩], ⟨1, 1⟩⟩

def outsideBase : Class :=
  ⟨"B", ["Outside"], [.ofFunction (virtualFunction "f" none 1), .ofVariable (declaredField "x" "int" (some 16) 1)], 1⟩

def outsideClass : Class := ⟨"D", ["B"], [.ofFunction (virtualFunction "g" none 2)], 2⟩

def outsideProgram : Program := ⟨[.ofClass outsideBase, .ofClass outsideClass]⟩

/-- A class of which the base has virtual functions, and which begins its fields behind a second pointer all the same,
    as the table of the base has no known size. --/
theorem reserves_pointer_twice : parse (lex outsideSource).tokens = .ok outsideFile ∧
    (build true (outsideFile.events none)).program = .ok outsideProgram ∧
    (∃ q, (layout (.ofPointerSize 4) outsideProgram).program = .ok q) ∧
    List.Forall₂ (BaseSize (.ofPointerSize 4) (outsideProgram.first 1)) outsideClass.bases [20] ∧
    outsideClass.hasVirtual = true ∧ Polymorphic outsideProgram "B" ∧
    fieldsBegin (settledBefore (.ofPointerSize 4) outsideProgram 1) outsideClass = some (20 + 4) := by
  have hbase : BaseSize (.ofPointerSize 4) (outsideProgram.first 1) "B" 20 :=
    .recorded (c := outsideBase) (by simp [outsideProgram, Program.first]) rfl (by decide) (by with_unfolding_all rfl)
  have laidOut : (layout (.ofPointerSize 4) outsideProgram).program = .ok outsideProgram := by with_unfolding_all rfl
  refine ⟨by with_unfolding_all rfl, by with_unfolding_all rfl, ⟨_, laidOut⟩, .cons hbase .nil, by decide, ?_,
    by with_unfolding_all rfl⟩
  exact .declares (c := outsideBase) (by simp [outsideProgram]) (by decide)

end Layout
end Overlay
