import Overlay.Proofs.Build.WellBound
import Overlay.Proofs.Layout.Stages

/-! Sizes while a layout goes on. They are those of pointers, of primitives and of the classes that are laid out, and
    every size that is known is positive. Where class names are distinct, what a class settles stays settled. -/

namespace Overlay

theorem size?_eq_some_iff {c : Class} {sizeOf : Variable → Option Int} {n : Int} : c.size? sizeOf = some n ↔
    ∃ last offset size, c.fields.getLast? = some last ∧ last.offset = some offset ∧ sizeOf last = some size ∧
      n = offset + size := by
  simp only [Class.size?, bind, Option.bind_eq_some_iff, pure, Option.some.injEq]
  constructor
  · rintro ⟨last, hlast, offset, hoffset, size, hsize, rfl⟩
    exact ⟨last, offset, size, hlast, hoffset, hsize, rfl⟩
  · rintro ⟨last, offset, size, hlast, hoffset, hsize, rfl⟩
    exact ⟨last, hlast, offset, hoffset, size, hsize, rfl⟩

/-! ### Sizes of types -/

/-- Whether a type is a pointer. --/
def IsPointerText (type : String) : Prop := (Text.strip type).toList.getLast? = some '*'

instance (type : String) : Decidable (IsPointerText type) := inferInstanceAs (Decidable (_ = _))

theorem defaultPrimitives_pos {name : String} {n : Int} (h : Target.defaultPrimitives.lookup name = some n) : 0 < n := by
  have hall : ∀ entry ∈ Target.defaultPrimitives, 0 < entry.2 := by decide
  obtain ⟨before, after, heq, -⟩ := List.lookup_eq_some_iff.mp h
  exact hall (name, n) (by simp [heq])

/-- A table of sizes while a layout for pointers of `word` bytes goes on. --/
structure SizeTable.Growing (word : Int) (sizes : SizeTable) : Prop where
  target : sizes.target = .ofPointerSize word
  classes : sizes.classes = []
  positive : ∀ name n, sizes.settled.lookup name = some (some n) → 0 < n

section
variable {word : Int} {sizes : SizeTable}

theorem sizeOf?_eq_direct (h : sizes.classes = []) (type : String) :
    sizes.sizeOf? type = (SizeTable.direct? sizes.target sizes.settled (Text.strip type)).join := by
  rw [SizeTable.sizeOf?, SizeTable.sizeAmong]
  cases hd : SizeTable.direct? sizes.target sizes.settled (Text.strip type) with
  | some size => rfl
  | none =>
    rw [h]
    rfl

/-- A size is known of a pointer, a primitive, or a type that is settled and neither of the two. --/
theorem sizeOf?_eq_some_iff (h : sizes.Growing word) {type : String} {n : Int} : sizes.sizeOf? type = some n ↔
    (IsPointerText type ∧ n = word) ∨
    (¬IsPointerText type ∧ Target.defaultPrimitives.lookup (Text.strip type) = some n) ∨
    (¬IsPointerText type ∧ Target.defaultPrimitives.lookup (Text.strip type) = none ∧
      sizes.settled.lookup (Text.strip type) = some (some n)) := by
  rw [sizeOf?_eq_direct h.classes, SizeTable.direct?, h.target]
  unfold IsPointerText
  by_cases hstar : (Text.strip type).toList.getLast? = some '*'
  · rw [if_pos hstar]
    simp [hstar, Target.ofPointerSize, eq_comm]
  · rw [if_neg hstar]
    simp only [Target.ofPointerSize, hstar, false_and, false_or, not_false_eq_true, true_and]
    cases hprimitive : Target.defaultPrimitives.lookup (Text.strip type) with
    | some size => simp
    | none =>
      simp only [reduceCtorEq, false_or, true_and]
      cases sizes.settled.lookup (Text.strip type) <;> simp

theorem sizeOf?_pos (h : sizes.Growing word) (hword : 0 < word) {type : String} {n : Int}
    (hn : sizes.sizeOf? type = some n) : 0 < n := by
  rcases (sizeOf?_eq_some_iff h).mp hn with ⟨-, rfl⟩ | ⟨-, hprimitive⟩ | ⟨-, -, hsettled⟩
  · exact hword
  · exact defaultPrimitives_pos hprimitive
  · exact h.positive _ n hsettled

theorem sizeOf?_char (h : sizes.Growing word) : sizes.sizeOf? "char" = some 1 := by
  rw [sizeOf?_eq_some_iff h]
  exact Or.inr (Or.inl ⟨by decide +kernel, by decide +kernel⟩)

theorem sizeOfVariable?_of_declared {v : Variable} (hv : v.length = none) :
    sizes.sizeOfVariable? v = sizes.sizeOf? v.type := by
  unfold SizeTable.sizeOfVariable?
  cases sizes.sizeOf? v.type <;> simp [Variable.sizeFrom, hv]

theorem sizeOfVariable?_pad (h : sizes.Growing word) (offset : Nat) (size : Int) :
    sizes.sizeOfVariable? (.pad offset size) = some size := by
  have hchar : sizes.sizeOf? (Variable.pad offset size).type = some 1 := sizeOf?_char h
  rw [SizeTable.sizeOfVariable?, hchar]
  simp [Variable.sizeFrom, Variable.pad]

end
end Overlay
