import Overlay.Proofs.Layout.RememberedSizes

/-! Asking a table again. A table that has settled sizes gives a size by following last fields down to what is settled,
    and remembers on the way. Every class on such a way is one step further from what is settled than the class behind
    it, so a way that leads to a size never comes back to a class. What the table remembers is therefore what it would
    find, and no question changes the answer to another. --/

namespace Overlay
namespace SizeTable

/-! ### Sizes in so many steps -/

/-- The size of a name that a table finds at the end of `steps` last fields. --/
inductive SizeIn (s : SizeTable) : Nat → String → Int → Prop where
  | known {name : String} {n : Int} (found : direct? s.target s.settled name = some (some n)) : SizeIn s 0 name n
  | ofClass {steps : Nat} {name : String} {c : Class} {last : Variable} {offset : Nat} {n : Int}
      (unknown : direct? s.target s.settled name = none) (declared : lastClass? s.classes name = some c)
      (lastField : c.fields.getLast? = some last) (bound : last.offset = some offset)
      (rest : SizeIn s steps (Text.strip last.type) n) : SizeIn s (steps + 1) name (offset + last.sizeFrom n)

section
variable {s t : SizeTable} {name : String}

/-- A name has one size, in one number of steps. --/
theorem SizeIn.unique {steps steps' : Nat} {n n' : Int} (h : SizeIn s steps name n) (h' : SizeIn s steps' name n') :
    steps' = steps ∧ n' = n := by
  induction h generalizing steps' n' with
  | known found =>
    cases h' with
    | known found' => exact ⟨rfl, by simpa [found] using found'.symm⟩
    | ofClass unknown => cases found.symm.trans unknown
  | ofClass unknown declared lastField bound _ ih =>
    cases h' with
    | known found => cases found.symm.trans unknown
    | ofClass unknown' declared' lastField' bound' rest' =>
      cases declared.symm.trans declared'
      cases lastField.symm.trans lastField'
      cases bound.symm.trans bound'
      obtain ⟨rfl, rfl⟩ := ih rest'
      exact ⟨rfl, rfl⟩

/-- `HasSize s name size`: what the table finds for a name is `size`, which may be that no size is known. --/
def HasSize (s : SizeTable) (name : String) (size : Option Int) : Prop :=
  ∀ n, size = some n ↔ ∃ steps, SizeIn s steps name n

theorem HasSize.unique {size size' : Option Int} (h : HasSize s name size) (h' : HasSize s name size') : size' = size :=
  Option.ext fun n => (h' n).trans (h n).symm

theorem hasSize_of_known {size : Option Int} (found : direct? s.target s.settled name = some size) :
    HasSize s name size := by
  intro n
  constructor
  · rintro rfl
    exact ⟨0, .known found⟩
  · rintro ⟨steps, hsize⟩
    cases hsize with
    | known found' => exact Option.some.inj (found.symm.trans found')
    | ofClass unknown => cases found.symm.trans unknown

/-- A name that is not settled has no size unless its class has a last field that is bound. --/
theorem hasSize_none (unknown : direct? s.target s.settled name = none)
    (noEnd : ∀ c last offset, lastClass? s.classes name = some c → c.fields.getLast? = some last →
      last.offset ≠ some offset) : HasSize s name none := by
  refine fun n => ⟨(nomatch ·), ?_⟩
  rintro ⟨steps, hsize⟩
  cases hsize with
  | known found => cases found.symm.trans unknown
  | ofClass _ declared lastField bound => exact absurd bound (noEnd _ _ _ declared lastField)

/-- A class that is not settled ends where its last field does. --/
theorem hasSize_of_lastField {c : Class} {last : Variable} {offset : Nat} {size : Option Int}
    (unknown : direct? s.target s.settled name = none) (declared : lastClass? s.classes name = some c)
    (lastField : c.fields.getLast? = some last) (bound : last.offset = some offset)
    (rest : HasSize s (Text.strip last.type) size) : HasSize s name (size.map fun n => offset + last.sizeFrom n) := by
  intro n
  rw [Option.map_eq_some_iff]
  constructor
  · rintro ⟨k, hk, rfl⟩
    obtain ⟨steps, hsteps⟩ := (rest k).mp hk
    exact ⟨steps + 1, .ofClass unknown declared lastField bound hsteps⟩
  · rintro ⟨steps, hsize⟩
    cases hsize with
    | known found => cases found.symm.trans unknown
    | ofClass _ declared' lastField' bound' hrest =>
      cases declared.symm.trans declared'
      cases lastField.symm.trans lastField'
      cases bound.symm.trans bound'
      exact ⟨_, (rest _).mpr ⟨_, hrest⟩, rfl⟩

/-! ### Tables that remember -/

/-- A table that remembers, besides what `s` has settled, only what `s` finds. --/
structure Recalls (s t : SizeTable) : Prop where
  target : t.target = s.target
  classes : t.classes = s.classes
  kept : ∀ name size, direct? s.target s.settled name = some size → direct? s.target t.settled name = some size
  found : ∀ name size, direct? s.target t.settled name = some size → HasSize s name size

theorem Recalls.refl : Recalls s s := ⟨rfl, rfl, fun _ _ h => h, fun _ _ h => hasSize_of_known h⟩

theorem Recalls.unknown (h : Recalls s t) (hnone : direct? s.target t.settled name = none) :
    direct? s.target s.settled name = none := by
  cases hdirect : direct? s.target s.settled name with
  | none => rfl
  | some size => cases hnone.symm.trans (h.kept name size hdirect)

/-- Remembering one more size of those that `s` finds. --/
theorem Recalls.settle (h : Recalls s t) {size : Option Int} (hsize : HasSize s name size) :
    Recalls s (t.settle name size) := by
  have hcons (other : String) : direct? s.target (t.settle name size).settled other =
      direct? s.target t.settled other ∨
      other = name ∧ direct? s.target (t.settle name size).settled other = some size := by
    unfold direct? SizeTable.settle
    split
    · exact .inl rfl
    · split
      · exact .inl rfl
      · by_cases heq : other = name
        · exact .inr ⟨heq, by simp [heq]⟩
        · exact .inl (by rw [List.lookup_cons, beq_false_of_ne heq])
  refine ⟨h.target, h.classes, fun other size' hknown => ?_, fun other size' hknown => ?_⟩
  · rcases hcons other with hsame | ⟨rfl, hnew⟩
    · exact hsame.trans (h.kept other size' hknown)
    · rw [hnew, (hasSize_of_known hknown).unique hsize]
  · rcases hcons other with hsame | ⟨rfl, hnew⟩
    · exact h.found other size' (hsame.symm.trans hknown)
    · cases hnew.symm.trans hknown
      exact hsize

/-! ### Answers -/

/-- The classes that are asked for already lie further from what is settled than the name does. --/
def Behind (s : SizeTable) (seen : List String) (name : String) : Prop :=
  ∀ other ∈ seen, ∀ steps n steps' n', SizeIn s steps name n → SizeIn s steps' other n' → steps < steps'

theorem Behind.not_mem {seen : List String} (behind : Behind s seen name) {steps : Nat} {n : Int}
    (hsize : SizeIn s steps name n) : name ∉ seen := fun hmem =>
  Nat.lt_irrefl _ (behind name hmem _ _ _ _ hsize hsize)

theorem Behind.cons {seen : List String} (behind : Behind s seen name) {c : Class} {last : Variable} {offset : Nat}
    (unknown : direct? s.target s.settled name = none) (declared : lastClass? s.classes name = some c)
    (lastField : c.fields.getLast? = some last) (bound : last.offset = some offset) :
    Behind s (name :: seen) (Text.strip last.type) := by
  intro other hother steps n steps' n' hrest hsize
  have hname : SizeIn s (steps + 1) name _ := .ofClass unknown declared lastField bound hrest
  rcases List.mem_cons.mp hother with rfl | hother
  · rw [(hname.unique hsize).1]
    exact Nat.lt_succ_self steps
  · exact Nat.lt_of_succ_lt (behind other hother _ _ _ _ hname hsize)

/-- A query among the classes that are not asked for gives what the table finds, and remembers only such sizes. --/
theorem Recalls.queryAmong (h : Recalls s t) {seen : List String} {type : String}
    (behind : Behind s seen (Text.strip type)) :
    HasSize s (Text.strip type) (queryAmong s.target t.settled (unasked s.classes seen) type).1 ∧
      Recalls s { t with settled := (queryAmong s.target t.settled (unasked s.classes seen) type).2 } := by
  induction hlength : (unasked s.classes seen).length using Nat.strongRecOn generalizing seen type with
  | ind length ih =>
    have step : QueryStep s.target t.settled (unasked s.classes seen) type _ := queryAmong_step
    generalize SizeTable.queryAmong s.target t.settled (unasked s.classes seen) type = answer at step
    cases step with
    | known found => exact ⟨h.found _ _ found, h⟩
    | noClass notFound undeclared =>
      refine ⟨fun n => ⟨(nomatch ·), ?_⟩, h⟩
      rintro ⟨steps, hsize⟩
      have fresh := behind.not_mem hsize
      cases hsize with
      | known found => cases found.symm.trans (h.unknown notFound)
      | ofClass _ declared => cases undeclared.symm.trans (lastClass?_unasked.mpr ⟨fresh, declared⟩)
    | @noEnd c notFound declared unbound =>
      obtain ⟨-, hc⟩ := lastClass?_unasked.mp declared
      have hsize : HasSize s (Text.strip type) none := hasSize_none (h.unknown notFound) fun c' last offset hc' hlast => by
        cases hc.symm.trans hc'
        exact unbound last offset hlast
      exact ⟨hsize, h.settle hsize⟩
    | @ofClass c last offset size known notFound declared hlast hoffset inner =>
      obtain ⟨-, hc⟩ := lastClass?_unasked.mp declared
      have unknown := h.unknown notFound
      have hlt := otherClasses_length_lt declared
      rw [otherClasses_unasked] at hlt inner
      have rest := ih _ (hlength ▸ hlt) (behind.cons unknown hc hlast hoffset) rfl
      rw [inner] at rest
      have hsize := hasSize_of_lastField unknown hc hlast hoffset rest.1
      exact ⟨hsize, rest.2.settle hsize⟩

/-- A query gives the size that is computed without remembering it. --/
theorem queryAmong_fst {target : Target} {settled : List (String × Option Int)} {classes : List Class} {type : String} :
    (SizeTable.queryAmong target settled classes type).1 = sizeAmong target settled classes type := by
  induction hlength : classes.length using Nat.strongRecOn generalizing classes type with
  | ind length ih =>
    rw [SizeTable.queryAmong, sizeAmong]
    dsimp only
    split
    · rfl
    · split
      · rfl
      · rename_i c declared
        have hlt := otherClasses_length_lt declared
        simp only [Class.size?, Option.bind_eq_bind, Option.pure_def]
        cases c.fields.getLast? with
        | none => rfl
        | some last =>
          simp only [Option.bind_some]
          cases last.offset with
          | none => rfl
          | some offset =>
            simp only [ih _ (hlength ▸ hlt) rfl, Option.bind_some]
            cases sizeAmong target settled (otherClasses classes (Text.strip type)) last.type <;> rfl

end

variable {s t : SizeTable}

/-- Asking a table gives the size that it gave before anything was asked, and keeps this so. --/
theorem Recalls.query (h : Recalls s t) (type : String) :
    (t.query type).1 = s.sizeOf? type ∧ Recalls s (t.query type).2 := by
  have behind : Behind s [] (Text.strip type) := by simp [Behind]
  have first := (Recalls.refl (s := s)).queryAmong behind
  have now := h.queryAmong behind
  rw [unasked_nil, ← h.target, ← h.classes] at now
  rw [unasked_nil, queryAmong_fst] at first
  exact ⟨first.1.unique now.1, now.2⟩

end SizeTable
end Overlay
