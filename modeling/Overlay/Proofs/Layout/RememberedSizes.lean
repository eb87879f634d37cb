import Mathlib.Logic.Relation
import Overlay.Proofs.Layout.LastFields

/-! Sizes that are remembered. A query follows last fields from class to class and remembers what it finds for each of
    them, also that a size is not known; and it asks no class a second time on its way, so that it ends where a class
    contains itself. What it remembers might be wrong on another way, on which it would ask that class. It never is: on
    a way that comes back to a class, no class has a size. So all queries give the sizes that the chains of last fields
    say, whatever has been asked before. -/

namespace Overlay
namespace SizeTable
open Relation (TransGen)

/-! ### Chains of last fields -/

/-- A name that is that of a class, and of no pointer or primitive: the last class of the name has `last` as its last
    field, which is bound to `offset`. --/
structure EndsWith (target : Target) (classes : List Class) (name : String) (last : Variable) (offset : Nat) : Prop where
  noDirect : direct? target [] name = none
  lastField : ∃ c, lastClass? classes name = some c ∧ c.fields.getLast? = some last ∧ last.offset = some offset

/-- The size of a type by the chain of last fields from the type on, down to a pointer or a primitive. The names of the
    classes before it on the chain are `seen`; none of them is on the rest of the chain again. --/
inductive ChainSize (target : Target) (classes : List Class) : List String → String → Int → Prop where
  | pointer {seen : List String} {type : String} (isPointer : IsPointerText type) :
      ChainSize target classes seen type target.pointerSize
  | primitive {seen : List String} {type : String} {n : Int} (noPointer : ¬IsPointerText type)
      (size : target.primitives.lookup (Text.strip type) = some n) : ChainSize target classes seen type n
  | ofClass {seen : List String} {type : String} {last : Variable} {offset : Nat} {n : Int}
      (ends : EndsWith target classes (Text.strip type) last offset) (fresh : Text.strip type ∉ seen)
      (rest : ChainSize target classes (Text.strip type :: seen) last.type n) :
      ChainSize target classes seen type (offset + last.sizeFrom n)

/-- The name of the class behind another one on a chain. --/
def Next (target : Target) (classes : List Class) (name next : String) : Prop :=
  ∃ last offset, EndsWith target classes name last offset ∧ next = Text.strip last.type

section
variable {target : Target} {classes : List Class}

theorem direct?_pointer {type : String} (isPointer : IsPointerText type) :
    direct? target [] (Text.strip type) = some (some target.pointerSize) := if_pos isPointer

theorem direct?_primitive {type : String} (noPointer : ¬IsPointerText type) {n : Int}
    (size : target.primitives.lookup (Text.strip type) = some n) :
    direct? target [] (Text.strip type) = some (some n) := by
  unfold IsPointerText at noPointer
  rw [direct?, if_neg noPointer, size]

/-- A size that is found at once is that of a pointer or a primitive. --/
theorem direct?_nil_eq_some {type : String} {size : Option Int}
    (h : direct? target [] (Text.strip type) = some size) :
    (IsPointerText type ∧ size = some target.pointerSize) ∨
      ¬IsPointerText type ∧ ∃ n, target.primitives.lookup (Text.strip type) = some n ∧ size = some n := by
  by_cases isPointer : IsPointerText type
  · rw [direct?_pointer isPointer] at h
    exact Or.inl ⟨isPointer, (Option.some.inj h).symm⟩
  · have noPointer := isPointer
    unfold IsPointerText at isPointer
    rw [direct?, if_neg isPointer] at h
    split at h
    · rename_i n hprimitive
      exact Or.inr ⟨noPointer, n, hprimitive, (Option.some.inj h).symm⟩
    · cases h

theorem EndsWith.unique {name : String} {last last' : Variable} {offset offset' : Nat}
    (h : EndsWith target classes name last offset) (h' : EndsWith target classes name last' offset') :
    last' = last ∧ offset' = offset := by
  obtain ⟨c, hclass, hlast, hoffset⟩ := h.lastField
  obtain ⟨c', hclass', hlast', hoffset'⟩ := h'.lastField
  obtain rfl : c = c' := Option.some.inj (hclass.symm.trans hclass')
  obtain rfl : last = last' := Option.some.inj (hlast.symm.trans hlast')
  exact ⟨rfl, Option.some.inj (hoffset'.symm.trans hoffset)⟩

theorem Next.unique {name next next' : String} (h : Next target classes name next)
    (h' : Next target classes name next') : next' = next := by
  obtain ⟨last, offset, ends, rfl⟩ := h
  obtain ⟨last', offset', ends', rfl⟩ := h'
  rw [(ends.unique ends').1]

theorem chainSize_of_direct {seen : List String} {type : String} {size : Option Int}
    (h : direct? target [] (Text.strip type) = some size) {n : Int} :
    size = some n ↔ ChainSize target classes seen type n := by
  constructor
  · rintro rfl
    rcases direct?_nil_eq_some h with ⟨isPointer, heq⟩ | ⟨noPointer, k, hk, heq⟩
    · cases heq
      exact .pointer isPointer
    · cases heq
      exact .primitive noPointer hk
  · intro chain
    cases chain with
    | pointer isPointer => exact Option.some.inj (h.symm.trans (direct?_pointer isPointer))
    | primitive noPointer hk => exact Option.some.inj (h.symm.trans (direct?_primitive noPointer hk))
    | ofClass ends => cases h.symm.trans ends.noDirect

theorem chainSize_of_class {seen : List String} {type : String} (h : direct? target [] (Text.strip type) = none)
    {n : Int} : ChainSize target classes seen type n ↔ ∃ last offset k,
      EndsWith target classes (Text.strip type) last offset ∧ Text.strip type ∉ seen ∧
        ChainSize target classes (Text.strip type :: seen) last.type k ∧ n = offset + last.sizeFrom k := by
  constructor
  · intro chain
    cases chain with
    | pointer isPointer => cases h.symm.trans (direct?_pointer isPointer)
    | primitive noPointer size => cases h.symm.trans (direct?_primitive noPointer size)
    | ofClass ends fresh rest => exact ⟨_, _, _, ends, fresh, rest, rfl⟩
  · rintro ⟨last, offset, k, ends, fresh, rest, rfl⟩
    exact .ofClass ends fresh rest

/-- Types of one name have the same size. --/
theorem ChainSize.congr {seen : List String} {type type' : String} {n : Int} (same : Text.strip type' = Text.strip type)
    (h : ChainSize target classes seen type n) : ChainSize target classes seen type' n := by
  cases h with
  | pointer isPointer => exact .pointer (by rwa [IsPointerText, same])
  | primitive noPointer size => exact .primitive (by rwa [IsPointerText, same]) (by rwa [same])
  | ofClass ends fresh rest => exact .ofClass (by rwa [same]) (by rwa [same]) (by rwa [same])

/-! ### Chains that come back -/

/-- A chain that comes to an end does not come back to where it begins. --/
theorem ChainSize.acyclic {seen : List String} {type : String} {n : Int} (h : ChainSize target classes seen type n) :
    ¬TransGen (Next target classes) (Text.strip type) (Text.strip type) := by
  have leaf : ∀ {type : String} {size : Option Int}, direct? target [] (Text.strip type) = some size →
      ¬TransGen (Next target classes) (Text.strip type) (Text.strip type) := by
    intro type size hdirect cycle
    obtain ⟨next, ⟨last, offset, ends, -⟩, -⟩ := TransGen.head'_iff.mp cycle
    cases hdirect.symm.trans ends.noDirect
  induction h with
  | pointer isPointer => exact leaf (direct?_pointer isPointer)
  | primitive noPointer size => exact leaf (direct?_primitive noPointer size)
  | @ofClass seen type last offset n ends _ _ ih =>
    intro cycle
    -- There is one way on from the class, and a cycle through it is one through the class behind it.
    have step : Next target classes (Text.strip type) (Text.strip last.type) := ⟨last, offset, ends, rfl⟩
    obtain ⟨next, hnext, back⟩ := TransGen.head'_iff.mp cycle
    obtain rfl := step.unique hnext
    exact ih (.tail' back step)

/-- Classes from which a chain leads to its beginning are not on the chain. --/
theorem ChainSize.fresh {seen seen' : List String} {type : String} {n : Int} (h : ChainSize target classes seen type n)
    (behind : ∀ name ∈ seen', TransGen (Next target classes) name (Text.strip type)) :
    ChainSize target classes seen' type n := by
  induction h generalizing seen' with
  | pointer isPointer => exact .pointer isPointer
  | primitive noPointer size => exact .primitive noPointer size
  | @ofClass seen type last offset n ends fresh rest ih =>
    have step : Next target classes (Text.strip type) (Text.strip last.type) := ⟨last, offset, ends, rfl⟩
    refine .ofClass ends (fun hmem => ?_) (ih (List.forall_mem_cons.mpr ⟨.single step, fun name hname => ?_⟩))
    · exact (ChainSize.ofClass ends fresh rest).acyclic (behind _ hmem)
    · exact (behind name hname).tail step

/-! ### The size of a type -/

/-- The classes with other names than those that are asked for already. --/
def unasked (classes : List Class) (seen : List String) : List Class := classes.filter fun c => c.name ∉ seen

theorem unasked_nil : unasked classes [] = classes := List.filter_eq_self.mpr (by simp)

theorem otherClasses_unasked {seen : List String} {name : String} :
    otherClasses (unasked classes seen) name = unasked classes (name :: seen) := by
  unfold otherClasses unasked
  rw [List.filter_filter]
  refine List.filter_congr fun c _ => ?_
  simp only [List.mem_cons, not_or, Bool.decide_and, bne, decide_not, beq_eq_decide]

theorem lastClass?_unasked {seen : List String} {name : String} {c : Class} :
    lastClass? (unasked classes seen) name = some c ↔ name ∉ seen ∧ lastClass? classes name = some c := by
  unfold lastClass? unasked
  rw [← List.filter_reverse, List.find?_filter]
  by_cases hmem : name ∈ seen
  · have hnone : ∀ d ∈ classes.reverse, ¬(decide (d.name ∉ seen) = true ∧ (d.name == name) = true) := by
      rintro d - ⟨fresh, hname⟩
      exact of_decide_eq_true fresh (eq_of_beq hname ▸ hmem)
    rw [List.find?_eq_none.mpr fun d hd => by simpa using hnone d hd]
    simp [hmem]
  · have same : (fun d : Class => decide (decide (d.name ∉ seen) = true ∧ (d.name == name) = true)) =
        fun d => d.name == name := by
      funext d
      by_cases hname : d.name = name <;> simp [hname, hmem]
    rw [same]
    simp [hmem]

/-- The size that is computed from the classes that are not asked for is that of the chain. --/
theorem sizeAmong_iff {seen : List String} {type : String} {n : Int} :
    sizeAmong target [] (unasked classes seen) type = some n ↔ ChainSize target classes seen type n := by
  induction hlength : (unasked classes seen).length using Nat.strongRecOn generalizing seen type n with
  | ind length ih =>
    rw [sizeAmong]
    cases hdirect : direct? target [] (Text.strip type) with
    | some size => exact chainSize_of_direct hdirect
    | none =>
      rw [chainSize_of_class hdirect]
      dsimp only
      split
      · rename_i hclass
        simp only [reduceCtorEq, false_iff]
        rintro ⟨last, offset, k, ends, fresh, -⟩
        obtain ⟨c, hc, -⟩ := ends.lastField
        rw [lastClass?_unasked.mpr ⟨fresh, hc⟩] at hclass
        cases hclass
      · rename_i c hclass
        obtain ⟨fresh, hc⟩ := lastClass?_unasked.mp hclass
        have hlt := otherClasses_length_lt hclass
        rw [otherClasses_unasked] at hlt ⊢
        rw [size?_eq_some_iff]
        constructor
        · rintro ⟨last, offset, size, hlast, hoffset, hsize, rfl⟩
          obtain ⟨k, hk, rfl⟩ := Option.map_eq_some_iff.mp hsize
          exact ⟨last, offset, k, ⟨hdirect, c, hc, hlast, hoffset⟩, fresh, (ih _ (hlength ▸ hlt) rfl).mp hk, rfl⟩
        · rintro ⟨last, offset, k, ends, -, rest, rfl⟩
          obtain ⟨c', hc', hlast, hoffset⟩ := ends.lastField
          obtain rfl : c = c' := Option.some.inj (hc.symm.trans hc')
          have hk := (ih _ (hlength ▸ hlt) rfl).mpr rest
          exact ⟨last, offset, last.sizeFrom k, hlast, hoffset, by rw [hk]; rfl, rfl⟩

/-- The size of a type that is computed without remembering anything is that of its chain. --/
theorem sizeOf?_ofProgram {p : Program} {type : String} {n : Int} :
    (ofProgram target p).sizeOf? type = some n ↔ ChainSize target p.classes [] type n := by
  rw [← sizeAmong_iff, unasked_nil]
  rfl

/-! ### Remembered sizes -/

/-- What is remembered of every type is the size that its chain says. --/
def Remembers (target : Target) (classes : List Class) (settled : List (String × Option Int)) : Prop :=
  ∀ type size, settled.lookup (Text.strip type) = some size →
    ∀ n, size = some n ↔ ChainSize target classes [] type n

variable {settled : List (String × Option Int)}

theorem Remembers.nil : Remembers target classes [] := fun _ _ h => by cases h

theorem Remembers.cons {type : String} {size : Option Int} (h : Remembers target classes settled)
    (hsize : ∀ n, size = some n ↔ ChainSize target classes [] type n) :
    Remembers target classes ((Text.strip type, size) :: settled) := by
  intro type' size' hlookup n
  rw [List.lookup_cons] at hlookup
  split at hlookup
  · rename_i hname
    have same : Text.strip type' = Text.strip type := eq_of_beq hname
    obtain rfl := Option.some.inj hlookup
    exact (hsize n).trans ⟨fun chain => chain.congr same, fun chain => chain.congr same.symm⟩
  · exact h type' size' hlookup n

/-- A name of no class that ends at a known place has no size. --/
theorem chainSize_of_no_end {type : String} (h : direct? target [] (Text.strip type) = none)
    (noEnd : ∀ last offset, ¬EndsWith target classes (Text.strip type) last offset) (n : Int) :
    none = some n ↔ ChainSize target classes [] type n := by
  rw [chainSize_of_class h]
  exact ⟨(nomatch ·), fun ⟨last, offset, _, ends, _⟩ => absurd ends (noEnd last offset)⟩

/-- The size of a class is where its last field ends. --/
theorem chainSize_of_ends {type : String} {last : Variable} {offset : Nat}
    (ends : EndsWith target classes (Text.strip type) last offset) {size : Option Int}
    (hsize : ∀ k, size = some k ↔ ChainSize target classes [] last.type k) (n : Int) :
    (size.map fun k => offset + last.sizeFrom k) = some n ↔ ChainSize target classes [] type n := by
  have step : Next target classes (Text.strip type) (Text.strip last.type) := ⟨last, offset, ends, rfl⟩
  rw [chainSize_of_class ends.noDirect, Option.map_eq_some_iff]
  constructor
  · rintro ⟨k, hk, rfl⟩
    have rest : ChainSize target classes [Text.strip type] last.type k :=
      ((hsize k).mp hk).fresh (by simpa using .single step)
    exact ⟨last, offset, k, ends, List.not_mem_nil, rest, rfl⟩
  · rintro ⟨last', offset', k, ends', -, rest, rfl⟩
    obtain ⟨rfl, rfl⟩ := ends.unique ends'
    exact ⟨k, (hsize k).mpr (rest.fresh (by simp)), rfl⟩

/-- What a query for a type does, and what it gives and remembers: by a size that is known, by a name of no class, by a
    class without a last field that is bound, and by a class with one. --/
inductive QueryStep (target : Target) (settled : List (String × Option Int)) (classes : List Class) (type : String) :
    Option Int × List (String × Option Int) → Prop where
  | known {size : Option Int} (found : direct? target settled (Text.strip type) = some size) :
      QueryStep target settled classes type (size, settled)
  | noClass (notFound : direct? target settled (Text.strip type) = none)
      (undeclared : lastClass? classes (Text.strip type) = none) : QueryStep target settled classes type (none, settled)
  | noEnd {c : Class} (notFound : direct? target settled (Text.strip type) = none)
      (declared : lastClass? classes (Text.strip type) = some c)
      (unbound : ∀ last offset, c.fields.getLast? = some last → last.offset ≠ some offset) :
      QueryStep target settled classes type (none, (Text.strip type, none) :: settled)
  | ofClass {c : Class} {last : Variable} {offset : Nat} {size : Option Int} {known : List (String × Option Int)}
      (notFound : direct? target settled (Text.strip type) = none)
      (declared : lastClass? classes (Text.strip type) = some c) (lastField : c.fields.getLast? = some last)
      (bound : last.offset = some offset)
      (inner : queryAmong target settled (otherClasses classes (Text.strip type)) last.type = (size, known)) :
      QueryStep target settled classes type (size.map fun n => offset + last.sizeFrom n,
        (Text.strip type, size.map fun n => offset + last.sizeFrom n) :: known)

theorem queryAmong_step {type : String} :
    QueryStep target settled classes type (queryAmong target settled classes type) := by
  rw [queryAmong]
  dsimp only
  split
  · rename_i size found
    exact .known found
  · rename_i notFound
    split
    · rename_i undeclared
      exact .noClass notFound undeclared
    · rename_i c declared
      split
      · rename_i hlast
        exact .noEnd notFound declared fun last offset h => by simp [hlast] at h
      · rename_i last hlast
        split
        · rename_i hoffset
          refine .noEnd notFound declared fun last' offset h => ?_
          obtain rfl : last = last' := Option.some.inj (hlast.symm.trans h)
          simp [hoffset]
        · rename_i offset hoffset
          exact .ofClass notFound declared hlast hoffset rfl

/-- A size that is known at once is that of a chain. --/
theorem Remembers.direct (h : Remembers target classes settled) {type : String} {size : Option Int}
    (found : direct? target settled (Text.strip type) = some size) (n : Int) :
    size = some n ↔ ChainSize target classes [] type n := by
  cases hdirect : direct? target [] (Text.strip type) with
  | some size' =>
    obtain rfl : size' = size := Option.some.inj ((direct?_of_nil hdirect).symm.trans found)
    exact chainSize_of_direct hdirect
  | none =>
    rw [direct?_eq_lookup hdirect] at found
    exact h type size found n

theorem direct?_nil_eq_none {name : String} (h : direct? target settled name = none) : direct? target [] name = none := by
  cases hdirect : direct? target [] name with
  | none => rfl
  | some size => cases h.symm.trans (direct?_of_nil hdirect)

/-- A query among the classes that are not asked for on its way gives the size that the chain says, if those that are
    asked for lead to the type; and what it remembers is that of chains again. --/
theorem queryAmong_remembers {seen : List String} {type : String} (remembers : Remembers target classes settled)
    (behind : ∀ name ∈ seen, TransGen (Next target classes) name (Text.strip type)) :
    (∀ n, (queryAmong target settled (unasked classes seen) type).1 = some n ↔ ChainSize target classes [] type n) ∧
      Remembers target classes (queryAmong target settled (unasked classes seen) type).2 := by
  induction hlength : (unasked classes seen).length using Nat.strongRecOn generalizing seen type with
  | ind length ih =>
    have step : QueryStep target settled (unasked classes seen) type _ := queryAmong_step
    generalize queryAmong target settled (unasked classes seen) type = answer at step
    cases step with
    | known found => exact ⟨remembers.direct found, remembers⟩
    | noClass notFound undeclared =>
      refine ⟨fun n => ⟨(nomatch ·), fun chain => ?_⟩, remembers⟩
      obtain ⟨last, offset, _, ends, -⟩ := (chainSize_of_class (direct?_nil_eq_none notFound)).mp chain
      obtain ⟨c, hc, -⟩ := ends.lastField
      -- There is a class of this name, so that it is asked for already: the chain comes back to it.
      by_cases hseen : Text.strip type ∈ seen
      · exact absurd (behind _ hseen) chain.acyclic
      · rw [lastClass?_unasked.mpr ⟨hseen, hc⟩] at undeclared
        cases undeclared
    | @noEnd c notFound declared unbound =>
      obtain ⟨-, hc⟩ := lastClass?_unasked.mp declared
      have hsize : ∀ n, none = some n ↔ ChainSize target classes [] type n :=
        chainSize_of_no_end (direct?_nil_eq_none notFound) fun last offset ends => by
          obtain ⟨c', hc', hlast, hoffset⟩ := ends.lastField
          obtain rfl : c = c' := Option.some.inj (hc.symm.trans hc')
          exact unbound last offset hlast hoffset
      exact ⟨hsize, remembers.cons hsize⟩
    | @ofClass c last offset size known notFound declared hlast hoffset inner =>
      obtain ⟨-, hc⟩ := lastClass?_unasked.mp declared
      have ends : EndsWith target classes (Text.strip type) last offset :=
        ⟨direct?_nil_eq_none notFound, c, hc, hlast, hoffset⟩
      have step : Next target classes (Text.strip type) (Text.strip last.type) := ⟨last, offset, ends, rfl⟩
      have hlt := otherClasses_length_lt declared
      rw [otherClasses_unasked] at hlt inner
      have rest := ih _ (hlength ▸ hlt)
        (List.forall_mem_cons.mpr ⟨.single step, fun name hname => (behind name hname).tail step⟩) rfl
      rw [inner] at rest
      have hsize := chainSize_of_ends ends rest.1
      exact ⟨hsize, rest.2.cons hsize⟩

end

/-! ### Queries -/

/-- What a table of sizes is asked for: the size of a type, or that of a variable. --/
inductive Query where
  | ofType (type : String)
  | ofVariable (v : Variable)

/-- The answer to a query, and the table that remembers it. --/
def Query.ask (s : SizeTable) : Query → Option Int × SizeTable
  | .ofType type => s.query type
  | .ofVariable v => s.queryVariable v

/-- The answers to queries that follow one another. --/
def answers (s : SizeTable) : List Query → List (Option Int)
  | [] => []
  | q :: queries => (q.ask s).1 :: (q.ask s).2.answers queries

/-- The size that chains of last fields say: that of a type, or for a variable as many times that as it has elements. --/
def Query.HasSize (target : Target) (p : Program) : Query → Int → Prop
  | .ofType type, n => ChainSize target p.classes [] type n
  | .ofVariable v, n => ∃ size, ChainSize target p.classes [] v.type size ∧ v.sizeFrom size = n

/-- A table that has answered queries about a program. --/
structure Asked (target : Target) (p : Program) (s : SizeTable) : Prop where
  ofTarget : s.target = target
  ofClasses : s.classes = p.classes
  remembers : Remembers target p.classes s.settled

section
variable {target : Target} {p : Program} {s : SizeTable}

theorem Asked.query (h : Asked target p s) (type : String) :
    (∀ n, (s.query type).1 = some n ↔ ChainSize target p.classes [] type n) ∧ Asked target p (s.query type).2 := by
  have hquery : s.query type = ((queryAmong target s.settled (unasked p.classes []) type).1,
      { s with settled := (queryAmong target s.settled (unasked p.classes []) type).2 }) := by
    rw [unasked_nil, ← h.ofClasses, ← h.ofTarget]
    rfl
  have behind : ∀ name ∈ ([] : List String), TransGen (Next target p.classes) name (Text.strip type) := by simp
  obtain ⟨hsize, hknown⟩ := queryAmong_remembers h.remembers behind
  rw [hquery]
  exact ⟨hsize, h.ofTarget, h.ofClasses, hknown⟩

theorem Asked.ask (h : Asked target p s) (q : Query) :
    (∀ n, (q.ask s).1 = some n ↔ q.HasSize target p n) ∧ Asked target p (q.ask s).2 := by
  cases q with
  | ofType type => exact h.query type
  | ofVariable v =>
    obtain ⟨hsize, hnext⟩ := h.query v.type
    refine ⟨fun n => ?_, hnext⟩
    change (s.query v.type).1.map v.sizeFrom = some n ↔ _
    rw [Option.map_eq_some_iff]
    exact exists_congr fun size => and_congr_left fun _ => hsize size

end

/-- Queries about the sizes of types and variables, asked of one table in any order and as often as one likes, are all
    answered by the sizes that the chains of last fields say, and by none where a chain says none. --/
theorem answers_are_chain_sizes (target : Target) (p : Program) (queries : List Query) :
    List.Forall₂ (fun q answer => ∀ n, answer = some n ↔ q.HasSize target p n) queries
      ((ofProgram target p).answers queries) := by
  have run : ∀ s : SizeTable, Asked target p s →
      List.Forall₂ (fun q answer => ∀ n, answer = some n ↔ q.HasSize target p n) queries (s.answers queries) := by
    induction queries with
    | nil => exact fun _ _ => .nil
    | cons q queries ih =>
      intro s hs
      obtain ⟨hanswer, hnext⟩ := hs.ask q
      exact .cons hanswer (ih _ hnext)
  exact run _ ⟨rfl, rfl, .nil⟩

end SizeTable
end Overlay
