import Overlay.Proofs.Layout.Interleaving

/-! What a layout changes. It keeps every declaration in its place, and every member of a class in the order of the
    members; it adds pads between members and fills in the bindings of fields and virtual functions. Pads stand directly
    before the member that they make room for: one of their kind, which has declared its place. -/

namespace Overlay

/-- Whether a declaration is a pad. --/
def Declaration.isPad : Declaration → Bool
  | .ofFunction f => f.isPad
  | .ofVariable v => v.isPad
  | _ => false

/-- The declarations that are no pads. --/
def unpadded (ds : List Declaration) : List Declaration := ds.filter fun d => !d.isPad

theorem unpadded_append (ds es : List Declaration) : unpadded (ds ++ es) = unpadded ds ++ unpadded es :=
  List.filter_append ..

namespace Layout

/-! ### Changed members -/

/-- A member as it is declared and as it is laid out. A field has an offset then, its own if it has declared one; a
    virtual function has no address any more; and all else stays as it is. --/
inductive Filled : Declaration → Declaration → Prop where
  | field {v : Variable} {offset : Nat} (own : ∀ n, v.offset = some n → n = offset) :
      Filled (.ofVariable v) (.ofVariable { v with offset := some offset })
  | slot {f : Function} (isVirtual : f.isVirtual = true) : Filled (.ofFunction f) (.ofFunction { f with address := none })
  | function {f : Function} (notVirtual : f.isVirtual = false) : Filled (.ofFunction f) (.ofFunction f)
  | rawBlock (r : RawBlock) : Filled (.ofRawBlock r) (.ofRawBlock r)

/-- A pad, and a member of its kind that has declared its place. --/
inductive PadFor : Declaration → Declaration → Prop where
  | field {w v : Variable} (isPad : w.isPad = true) (given : v.offset.isSome) : PadFor (.ofVariable w) (.ofVariable v)
  | slot {g f : Function} (isPad : g.isPad = true) (padVirtual : g.isVirtual = true) (isVirtual : f.isVirtual = true)
      (given : f.address.isSome) : PadFor (.ofFunction g) (.ofFunction f)

theorem PadFor.isPad {pad d : Declaration} (h : PadFor pad d) : pad.isPad = true := by
  cases h with
  | field isPad => exact isPad
  | slot isPad => exact isPad

/-- The members of a class as they are laid out, each behind the pads for it. --/
inductive Grouped : List Declaration → List Declaration → Prop where
  | nil : Grouped [] []
  | cons {d e : Declaration} {members pads rest : List Declaration} (padding : ∀ pad ∈ pads, PadFor pad d)
      (filled : Filled d e) (noPad : e.isPad = false) (others : Grouped members rest) :
      Grouped (d :: members) (pads ++ e :: rest)

/-! ### Placed members are grouped -/

section
variable {sizes : SizeTable}

theorem FieldPlace.grouped {cursor : FieldCursor} {v : Variable} {offset : Nat} {out : List Declaration}
    (noPad : v.isPad = false) (place : FieldPlace cursor v offset out) :
    ∃ pads e, out = pads ++ [e] ∧ (∀ pad ∈ pads, PadFor pad (.ofVariable v)) ∧ Filled (.ofVariable v) e ∧
      e.isPad = false := by
  cases place with
  | above unknown given above =>
    refine ⟨[], _, rfl, by simp, .field fun n hn => ?_, noPad⟩
    rw [given] at hn
    exact (Option.some.inj hn).symm
  | adjacent next given => exact ⟨[], _, rfl, by simp, .field given, noPad⟩
  | padded next gap given =>
    refine ⟨[_], _, rfl, fun pad hpad => ?_, .field fun n hn => ?_, noPad⟩
    · obtain rfl := List.mem_singleton.mp hpad
      exact .field rfl (by simp [given])
    · rw [given] at hn
      exact (Option.some.inj hn).symm

theorem SlotPlace.grouped {word : Int} {cursor slot : Option Int} {f : Function} {out : List Declaration}
    (isVirtual : f.isVirtual = true) (noPad : f.isPad = false) (place : SlotPlace word cursor f out slot) :
    ∃ pads e, out = pads ++ [e] ∧ (∀ pad ∈ pads, PadFor pad (.ofFunction f)) ∧ Filled (.ofFunction f) e ∧
      e.isPad = false := by
  cases place with
  | next | first => exact ⟨[], _, rfl, by simp, .slot isVirtual, noPad⟩
  | padded known given aligned above =>
    refine ⟨_, _, rfl, fun pad hpad => ?_, .slot isVirtual, noPad⟩
    obtain ⟨slot, -, rfl⟩ := List.mem_map.mp hpad
    exact .slot rfl rfl isVirtual (by simp [given])

theorem MemberPlace.grouped {cursors next : Cursors} {d : Declaration} {out : List Declaration} (hd : d.MemberBound)
    (place : MemberPlace sizes cursors d out next) :
    ∃ pads e, out = pads ++ [e] ∧ (∀ pad ∈ pads, PadFor pad d) ∧ Filled d e ∧ e.isPad = false := by
  cases place with
  | field place => exact place.grouped hd.isPad
  | slot isVirtual place => exact place.grouped isVirtual hd.1.isPad
  | function notVirtual => exact ⟨[], _, rfl, by simp, .function notVirtual, hd.1.isPad⟩
  | rawBlock r => exact ⟨[], _, rfl, by simp, .rawBlock r, rfl⟩

theorem Placed.grouped {cursors last : Cursors} {members out : List Declaration}
    (placed : Placed sizes cursors members out last) (hmembers : ∀ d ∈ members, d.MemberBound) : Grouped members out := by
  induction placed with
  | nil => exact .nil
  | cons place _ ih =>
    obtain ⟨pads, e, rfl, padding, filled, noPad⟩ := place.grouped (hmembers _ List.mem_cons_self)
    rw [List.append_assoc]
    exact .cons padding filled noPad (ih fun d hd => hmembers d (List.mem_cons_of_mem _ hd))

end

/-! ### Grouped members -/

section
variable {members out : List Declaration}

theorem unpadded_pads {d : Declaration} {pads : List Declaration} (padding : ∀ pad ∈ pads, PadFor pad d) :
    unpadded pads = [] := by
  rw [unpadded, List.filter_eq_nil_iff]
  intro pad hpad
  simp [(padding pad hpad).isPad]

theorem unpadded_cons {e : Declaration} (noPad : e.isPad = false) (ds : List Declaration) :
    unpadded (e :: ds) = e :: unpadded ds := by
  simp [unpadded, noPad]

/-- Without the pads, members that are grouped are the declared ones with their bindings filled in. --/
theorem Grouped.filled (h : Grouped members out) : List.Forall₂ Filled members (unpadded out) := by
  induction h with
  | nil => exact .nil
  | cons padding filled noPad _ ih =>
    rw [unpadded_append, unpadded_pads padding, List.nil_append, unpadded_cons noPad]
    exact .cons filled ih

/-- The members behind a pad begin with the other pads for a member, then this member as it is laid out. --/
inductive LeadsTo (d : Declaration) : List Declaration → Prop where
  | intro {pads rest : List Declaration} {e : Declaration} (padding : ∀ pad ∈ pads, PadFor pad d) (filled : Filled d e)
      (noPad : e.isPad = false) : LeadsTo d (pads ++ e :: rest)

/-- A pad stands before the member with as many members before it as there are before the pad. --/
theorem Grouped.padFor (h : Grouped members out) {before after : List Declaration} {pad : Declaration}
    (hout : out = before ++ pad :: after) (isPad : pad.isPad = true) :
    ∃ d, members[(unpadded before).length]? = some d ∧ PadFor pad d ∧ LeadsTo d after := by
  induction h generalizing before with
  | nil => simp at hout
  | @cons d e members pads rest padding filled noPad _ ih =>
    rcases List.append_eq_append_iff.mp hout with ⟨behind, rfl, hrest⟩ | ⟨more, rfl, hmore⟩
    · -- The pad is not among those of the first member, so it is among those of the others.
      cases behind with
      | nil =>
        cases hrest
        rw [noPad] at isPad
        cases isPad
      | cons e' behind =>
        obtain ⟨rfl, hothers⟩ := List.cons.inj hrest
        obtain ⟨d', hd', hpad, leads⟩ := ih hothers
        refine ⟨d', ?_, hpad, leads⟩
        rw [unpadded_append, unpadded_pads padding, List.nil_append, unpadded_cons noPad]
        exact hd'
    · cases more with
      | nil =>
        cases hmore
        rw [noPad] at isPad
        cases isPad
      | cons pad' more =>
        cases hmore
        have padding' : ∀ p ∈ before, PadFor p d := fun p hp => padding p (List.mem_append_left _ hp)
        refine ⟨d, by rw [unpadded_pads padding']; rfl, padding _ (by simp), ?_⟩
        exact .intro (fun p hp => padding p (by simp [hp])) filled noPad

end

/-! ### Classes and programs -/

/-- A class as it is declared and as it is laid out, member by member. --/
structure GroupedClass (c r : Class) : Prop where
  name : r.name = c.name
  bases : r.bases = c.bases
  line : r.line = c.line
  members : Grouped c.members r.members

/-- A class as it is declared and as it is laid out: without its pads it has the declared members with their bindings
    filled in, and every pad leads to the member that it stands before. --/
structure PaddedClass (c r : Class) : Prop where
  name : r.name = c.name
  bases : r.bases = c.bases
  line : r.line = c.line
  members : List.Forall₂ Filled c.members (unpadded r.members)
  pads : ∀ before pad after, r.members = before ++ pad :: after → pad.isPad = true →
    ∃ d, c.members[(unpadded before).length]? = some d ∧ PadFor pad d ∧ LeadsTo d after

theorem GroupedClass.padded {c r : Class} (h : GroupedClass c r) : PaddedClass c r :=
  ⟨h.name, h.bases, h.line, h.members.filled, fun _ _ _ hout isPad => h.members.padFor hout isPad⟩

/-- A declaration of a program and the one that it is laid out as, with a relation between classes. --/
inductive LaidOutAs (ofClass : Class → Class → Prop) : Declaration → Declaration → Prop where
  | ofClass {c r : Class} (h : ofClass c r) : LaidOutAs ofClass (.ofClass c) (.ofClass r)
  | other {d : Declaration} (noClass : d.toClass? = none) : LaidOutAs ofClass d d

theorem LaidOutAs.imp {R S : Class → Class → Prop} (h : ∀ c r, R c r → S c r) {d e : Declaration}
    (laidOut : LaidOutAs R d e) : LaidOutAs S d e := by
  cases laidOut with
  | ofClass hclass => exact .ofClass (h _ _ hclass)
  | other noClass => exact .other noClass

section
variable {target : Target} {p q : Program}

theorem groupedClass_of_layoutClass {s : Settled} {c : Class} {l : ClassLayout} (hc : c.WellBound)
    (h : layoutClass s c = .ok l) : GroupedClass c l.resolved := by
  obtain ⟨members, last, placed, hresolved, -, -⟩ := placed_of_layoutClass hc h
  rw [hresolved]
  exact ⟨rfl, rfl, rfl, placed.grouped hc.members⟩

theorem grouped_of_layout (hp : p.WellBound) (laidOut : (layout target p).program = .ok q) :
    List.Forall₂ (LaidOutAs GroupedClass) p.declarations q.declarations := by
  rw [List.forall₂_iff_get]
  refine ⟨(length_declarations laidOut).symm, fun i hi hi' => ?_⟩
  have hd : p.declarations[i]? = some p.declarations[i] := List.getElem?_eq_getElem hi
  rcases declaration_of_layout laidOut (List.getElem?_eq_getElem hi') with ⟨c, l, hc, hl, hq⟩ | ⟨hsame, noClass⟩
  · have hmem : .ofClass c ∈ p.declarations := List.mem_of_getElem? hc
    rw [hd, Option.some.injEq] at hc
    simp only [List.get_eq_getElem, hc, hq]
    exact .ofClass (groupedClass_of_layoutClass (hp.declarations _ hmem) hl)
  · rw [hd, Option.some.injEq] at hsame
    simp only [List.get_eq_getElem, hsame]
    exact .other noClass

/-- The layout of a program that a build gives keeps its declarations in order. It changes classes only, and these by
    pads and by bindings that it fills in; and every pad leads to a member of its kind that has declared its place. --/
theorem layout_adds_pads {strict : Bool} {events : Trail TreeFault Event} (built : (build strict events).program = .ok p)
    (laidOut : (layout target p).program = .ok q) :
    List.Forall₂ (LaidOutAs PaddedClass) p.declarations q.declarations := by
  refine (grouped_of_layout (wellBound_of_build built) laidOut).imp fun d e h => ?_
  cases h with
  | ofClass h => exact .ofClass h.padded
  | other noClass => exact .other noClass

end

/-! The class with a pad before a field and one before a slot, from its events. -/

def shapeEvents : List Event :=
  [⟨.ofClass, .opening, 1, "", ["Shape"]⟩, .opens .ofVariable 2 "", .opens .ofPlainType 2 "int",
   .opens .ofAddress 2 "0x8", .closes .ofVariable 2 "kind", .opens .ofRawBlock 3 "\x60\x60\x60 notes \x60\x60\x60",
   .opens .ofFunction 4 "area", .opens .ofModifier 4 "virtual", .opens .ofReturnType 4 "int",
   .opens .ofAddress 4 "0x4", .closes .ofFunction 4 "", .opens .ofVariable 5 "", .opens .ofPlainType 5 "short",
   .closes .ofVariable 5 "id", .closes .ofClass 1 ""]

theorem layout_adds_pads_shape : (build true ⟨shapeEvents, none⟩).program = .ok shapeProgram ∧
    (layout (.ofPointerSize 4) shapeProgram).program = .ok ⟨[.ofClass shapeResolved]⟩ ∧
    List.Forall₂ (LaidOutAs PaddedClass) shapeProgram.declarations [.ofClass shapeResolved] := by
  have built : (build true ⟨shapeEvents, none⟩).program = .ok shapeProgram := rfl
  exact ⟨built, layout_shape, layout_adds_pads built layout_shape⟩

end Layout
end Overlay
