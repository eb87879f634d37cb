import Overlay.Proofs.Build.Names

/-! What the classes of a source refer to: their bases and the types of their fields. Both are names as the lexer reads
    them, a type with stars behind it, so nothing is stripped from them when they are looked up. -/

namespace Overlay

/-- A class refers to its bases and to the types of its fields. --/
def Class.Refers (c : Class) (name : String) : Prop := name ∈ c.bases ∨ ∃ v ∈ c.fields, v.type = name

/-! ### Types as texts -/

theorem mem_withStars {name : String} {count : Int} {c : Char} (h : c ∈ (withStars name count).toList) :
    c ∈ name.toList ∨ c = '*' := by
  rw [withStars, String.pushn_eq_repeat_push] at h
  generalize count.toNat = n at h
  induction n with
  | zero => exact Or.inl h
  | succ n ih =>
    rw [Nat.repeat, String.toList_push, List.mem_append, List.mem_singleton] at h
    exact h.elim ih Or.inr

theorem strip_withStars {name : String} (h : IsName name) (count : Int) :
    Text.strip (withStars name count) = withStars name count := by
  have hblank : ∀ c ∈ (withStars name count).toList, Text.isBlank c = false := by
    intro c hc
    rcases mem_withStars hc with hc | rfl
    · exact isBlank_of_isNamePart (h.isNamePart c hc)
    · decide
  rw [Text.strip, Numeral.trimBlanks_eq_self hblank, String.ofList_toList]

/-! ### Classes of a source -/

section
variable {strict : Bool} {source : String} {file : FileNode} {p : Program}
  (parsed : parse (lex source).tokens = .ok file) (built : (build strict (file.events none)).program = .ok p)
include parsed built

/-- Nothing is stripped from what a class of a source refers to. --/
theorem strip_of_refers {c : Class} (hc : c ∈ p.classes) {name : String} (h : c.Refers name) : Text.strip name = name := by
  obtain ⟨node, hnode, rfl⟩ := node_of_class parsed built hc
  obtain ⟨ts, hts, hclass⟩ := classRule_of_parse parsed hnode
  rcases h with hbase | ⟨v, hv, rfl⟩
  · obtain ⟨t, ht, hkind, rfl⟩ := ClassRule.base hclass hbase
    exact (isName_of_mem_lex (hts ht) hkind).strip
  · obtain ⟨n, hn, hmember⟩ := List.mem_filterMap.mp (Class.mem_fields.mp hv)
    cases n with
    | ofVariable w =>
      cases hmember
      obtain ⟨t, ht, hkind, hname⟩ := ClassRule.fieldType hclass hn
      exact strip_withStars (hname ▸ isName_of_mem_lex (hts ht) hkind) _
    | _ => cases hmember

end
end Overlay
