import Overlay.Proofs.Layout.Recorded
import Overlay.Proofs.Layout.Sizes

/-! Sizes along last fields. A size that is asked for without a layout is followed from class to class, always to the
    type of the last field, down to a pointer or a primitive. A layout settles a size from that of the last field too,
    and knows more than the last fields on the way: the bases of a class without fields. So either may know a size that
    the other does not; but where both know one, it is the same. The induction is on the stage of the layout, as the
    class of a last field is settled before the class that has the field. -/

namespace Overlay

/-! ### One step along a last field -/

namespace SizeTable
variable {target : Target} {settled : List (String × Option Int)} {name : String}

theorem direct?_of_nil {size : Option Int} (h : direct? target [] name = some size) :
    direct? target settled name = some size := by
  unfold direct? at h ⊢
  split at h
  · rwa [if_pos ‹_›]
  · rw [if_neg ‹_›]
    split at h
    · exact h
    · cases h

theorem direct?_eq_lookup (h : direct? target [] name = none) : direct? target settled name = settled.lookup name := by
  unfold direct? at h ⊢
  split at h
  · cases h
  · rw [if_neg ‹_›]
    split at h
    · cases h
    · rfl

/-- A size that is known is found at once, or is that of a class: where its last field ends. --/
theorem sizeAmong_eq_some {classes : List Class} {type : String} {n : Int}
    (h : sizeAmong target settled classes type = some n) :
    direct? target settled (Text.strip type) = some (some n) ∨
    direct? target settled (Text.strip type) = none ∧ ∃ c last offset size,
      lastClass? classes (Text.strip type) = some c ∧ c.fields.getLast? = some last ∧ last.offset = some offset ∧
      sizeAmong target settled (otherClasses classes (Text.strip type)) last.type = some size ∧
      n = offset + last.sizeFrom size := by
  rw [sizeAmong] at h
  cases hdirect : direct? target settled (Text.strip type) with
  | some size =>
    rw [hdirect] at h
    exact Or.inl (congrArg some h)
  | none =>
    simp only [hdirect] at h
    split at h
    · cases h
    · rename_i c hclass
      obtain ⟨last, offset, k, hlast, hoffset, hk, rfl⟩ := size?_eq_some_iff.mp h
      obtain ⟨size, hsize, rfl⟩ := Option.map_eq_some_iff.mp hk
      exact Or.inr ⟨rfl, c, last, offset, size, hclass, hlast, hoffset, hsize, rfl⟩

end SizeTable

namespace Layout
variable {target : Target} {p q : Program}

/-! ### Classes that are laid out -/

theorem size_of_layoutClass {s : Settled} {c : Class} {l : ClassLayout} (h : layoutClass s c = .ok l) :
    ∃ next, l.size = classSize? s.sizes l.resolved next := by
  unfold layoutClass at h
  dsimp only at h
  split at h
  · cases h
  · cases h
    exact ⟨_, rfl⟩

theorem resolved_of_name (hq : (layout target p).program = .ok q) (names : (p.classes.map (·.name)).Nodup) {i : Nat}
    {c : Class} {l : ClassLayout} (hc : p.declarations[i]? = some (.ofClass c))
    (hl : layoutClass (settledBefore target p i) c = .ok l) {r : Class} (hr : r ∈ q.classes) (hname : r.name = c.name) :
    r = l.resolved := by
  obtain ⟨j, hj⟩ := List.getElem?_of_mem (Program.mem_classes.mp hr)
  obtain ⟨c', l', hc', hl', rfl⟩ := class_of_layout hq hj
  obtain rfl : j = i := by
    by_contra hne
    exact name_ne_of_ne names hne hc' hc ((resolved_name hl').symm.trans hname)
  obtain rfl : c' = c := by simpa [hc] using hc'.symm
  rw [hl] at hl'
  cases hl'
  rfl

theorem size_of_lastField {s : Settled} {c : Class} {l : ClassLayout} (hl : layoutClass s c = .ok l) {n : Int}
    (hn : l.size = some n) {last : Variable} (hlast : l.resolved.fields.getLast? = some last) {offset : Nat}
    (hoffset : last.offset = some offset) : ∃ size, s.sizes.sizeOf? last.type = some size ∧
      n = offset + last.sizeFrom size := by
  obtain ⟨next, hsize⟩ := size_of_layoutClass hl
  have hfields : ¬l.resolved.fields.isEmpty = true := by
    intro hempty
    rw [List.isEmpty_iff.mp hempty] at hlast
    cases hlast
  rw [hsize, classSize?, if_neg hfields] at hn
  obtain ⟨last', offset', k, hlast', hoffset', hk, rfl⟩ := size?_eq_some_iff.mp hn
  rw [hlast] at hlast'
  cases hlast'
  rw [hoffset] at hoffset'
  cases hoffset'
  obtain ⟨size, hsize, rfl⟩ := Option.map_eq_some_iff.mp hk
  exact ⟨size, hsize, rfl⟩

/-! ### The two sizes -/

/-- Where a stage of a layout knows a size, and the last fields of the classes that are laid out lead to one as well, it
    is the same size. --/
theorem sizes_agree (hq : (layout target p).program = .ok q) (names : (p.classes.map (·.name)).Nodup) {i : Nat}
    {type : String} {classes : List Class} (hclasses : classes ⊆ q.classes) {n m : Int}
    (hn : (settledBefore target p i).sizes.sizeOf? type = some n)
    (hm : SizeTable.sizeAmong target [] classes type = some m) : n = m := by
  induction i using Nat.strongRecOn generalizing type classes n m with
  | ind i ih =>
    rw [sizeOf?_eq_direct (settledBefore_sizes i).2, (settledBefore_sizes i).1] at hn
    rcases SizeTable.sizeAmong_eq_some hm with
      hdirect | ⟨hdirect, r, last, offset, size, hr, hlast, hoffset, hsize, rfl⟩
    · rw [SizeTable.direct?_of_nil hdirect] at hn
      exact (Option.some.inj hn).symm
    · rw [SizeTable.direct?_eq_lookup hdirect] at hn
      -- The class is settled at an earlier stage, and the last fields lead through what it was laid out as.
      have hentry := Option.join_eq_some_iff.mp hn
      obtain ⟨j, hj, c, hc, hname⟩ := sizeLedger.class_of_lookup hq hentry
      obtain ⟨l, hl, -, -⟩ := layout_class hq hc
      have hrecorded : l.size = some n := by
        have hlookup := sizeLedger.lookup_eq_of_lt hq names hc hl hj
        rw [hname] at hlookup
        exact Option.some.inj (hlookup.symm.trans hentry)
      have hmem : r ∈ q.classes := hclasses (by simpa using List.mem_of_find?_eq_some hr)
      have hrname : r.name = c.name := by
        rw [hname]
        simpa using List.find?_some hr
      obtain rfl := resolved_of_name hq names hc hl hmem hrname
      obtain ⟨size', hsize', rfl⟩ := size_of_lastField hl hrecorded hlast hoffset
      have hothers : otherClasses classes (Text.strip type) ⊆ q.classes := fun d hd =>
        hclasses (List.mem_of_mem_filter hd)
      rw [ih j hj hothers hsize' hsize]

/-- The size of a type by a layout, and its size by the program that is laid out, are the same where both are known. --/
theorem sizeOf?_agree (hq : (layout target p).program = .ok q) (names : (p.classes.map (·.name)).Nodup) {type : String}
    {n m : Int} (hn : (layout target p).sizes.sizeOf? type = some n)
    (hm : (SizeTable.ofProgram target q).sizeOf? type = some m) : n = m := by
  rw [LaidOut.sizes, ← settledBefore_length] at hn
  exact sizes_agree hq names (List.Subset.refl _) hn hm

end Layout
end Overlay
