import Mathlib.Data.List.Forall2
import Overlay.Header.Header

/-! The lines of a header, part by part. A rendering without a fault is that of its parts one after the other, and most
    writers write code only: labels, assertions and raw blocks come from classes and raw blocks alone. -/

namespace Overlay

/-! ### Parts of trails -/

namespace Trail
variable {ε α β : Type} {t u : Trail ε α} {items : List α}

theorem mem_append {a : α} : a ∈ (t ++ u).items ↔ a ∈ t.items ∨ t.fault = none ∧ a ∈ u.items := by
  obtain ⟨items, _ | fault⟩ := t
  · change a ∈ items ++ u.items ↔ _
    simp
  · change a ∈ items ↔ _
    simp

theorem fault_of_append (h : (t ++ u).fault = none) : t.fault = none ∧ u.fault = none := by
  obtain ⟨items, _ | fault⟩ := t
  · exact ⟨rfl, h⟩
  · cases h

theorem whole_of_fault (h : t.fault = none) : t = whole t.items := by
  rw [whole, ← h]

theorem append_eq_whole (h : t ++ u = whole items) :
    ∃ first more, t = whole first ∧ u = whole more ∧ items = first ++ more := by
  obtain ⟨first, fault⟩ := t
  cases fault with
  | some fault => cases congrArg Trail.fault h
  | none =>
    change (⟨first ++ u.items, u.fault⟩ : Trail ε α) = ⟨items, none⟩ at h
    injection h with hitems hfault
    exact ⟨first, u.items, rfl, whole_of_fault hfault, hitems.symm⟩

theorem mem_concatMap {f : β → Trail ε α} {a : α} : ∀ {bs : List β}, (concatMap f bs).fault = none →
    (a ∈ (concatMap f bs).items ↔ ∃ b ∈ bs, a ∈ (f b).items)
  | [], _ => by simp [concatMap, whole]
  | b :: bs, h => by
    obtain ⟨hb, hbs⟩ := fault_of_append h
    rw [concatMap, mem_append, mem_concatMap hbs]
    simp [hb]

theorem fault_of_concatMap {f : β → Trail ε α} {b : β} : ∀ {bs : List β}, (concatMap f bs).fault = none → b ∈ bs →
    (f b).fault = none
  | _ :: _, h, hb => by
    obtain ⟨hfirst, hothers⟩ := fault_of_append h
    rcases List.mem_cons.mp hb with rfl | hb
    · exact hfirst
    · exact fault_of_concatMap hothers hb

theorem concatMap_eq_whole {f : β → Trail ε α} : ∀ {bs : List β} {items : List α}, concatMap f bs = whole items →
    ∃ blocks, List.Forall₂ (fun b block => f b = whole block) bs blocks ∧ items = blocks.flatten
  | [], _, h => by
    cases h
    exact ⟨[], .nil, rfl⟩
  | _ :: _, _, h => by
    obtain ⟨first, more, hfirst, hmore, rfl⟩ := append_eq_whole h
    obtain ⟨blocks, hblocks, rfl⟩ := concatMap_eq_whole hmore
    exact ⟨first :: blocks, .cons hfirst hblocks, rfl⟩

theorem whole_append_whole (items more : List α) : (whole items ++ whole more : Trail ε α) = whole (items ++ more) := rfl

theorem whole_append_whole_append (items more : List α) (t : Trail ε α) :
    whole items ++ (whole more ++ t) = whole (items ++ more) ++ t := by
  rw [← append_assoc, whole_append_whole]

theorem concatMap_whole (f : β → α) (bs : List β) :
    concatMap (fun b => whole [f b]) bs = (whole (bs.map f) : Trail ε α) := by
  induction bs with
  | nil => rfl
  | cons b bs ih =>
    rw [concatMap, ih]
    rfl

/-- A trail that ends early is all that there is of it and what comes after it. --/
theorem append_of_fault {t : Trail ε α} {fault : ε} (h : t.fault = some fault) (u : Trail ε α) : t ++ u = t := by
  obtain ⟨items, _ | _⟩ := t
  · cases h
  · rfl

theorem concatMap_of_whole {f : β → Trail ε α} {bs : List β} {blocks : List (List α)}
    (h : List.Forall₂ (fun b block => f b = whole block) bs blocks) : concatMap f bs = whole blocks.flatten := by
  induction h with
  | nil => rfl
  | cons hb _ ih =>
    rw [concatMap, hb, ih]
    rfl

/-- Trails one after the other: either all of them are whole, or the first that is not ends them with its fault. --/
theorem concatMap_cases (f : β → Trail ε α) (bs : List β) :
    (∃ blocks, List.Forall₂ (fun b block => f b = whole block) bs blocks ∧ concatMap f bs = whole blocks.flatten) ∨
    ∃ before b after blocks fault, bs = before ++ b :: after ∧
      List.Forall₂ (fun b block => f b = whole block) before blocks ∧ (f b).fault = some fault ∧
      concatMap f bs = ⟨blocks.flatten ++ (f b).items, some fault⟩ := by
  induction bs with
  | nil => exact .inl ⟨[], .nil, rfl⟩
  | cons b bs ih =>
    rw [concatMap]
    cases hfault : (f b).fault with
    | some fault =>
      refine .inr ⟨[], b, bs, [], fault, rfl, .nil, hfault, ?_⟩
      rw [append_of_fault hfault, ← hfault]
      rfl
    | none =>
      have hwhole := whole_of_fault hfault
      rcases ih with ⟨blocks, hblocks, heq⟩ | ⟨before, c, after, blocks, fault, rfl, hblocks, hc, heq⟩
      · refine .inl ⟨(f b).items :: blocks, .cons hwhole hblocks, ?_⟩
        rw [heq, hwhole]
        rfl
      · refine .inr ⟨b :: before, c, after, (f b).items :: blocks, fault, rfl, .cons hwhole hblocks, hc, ?_⟩
        rw [heq, hwhole, whole_append, List.flatten_cons, List.append_assoc]
        rfl

end Trail

/-! ### Lines of code -/

/-- Lines of code and no other lines. --/
def CodeOnly (t : Rendering) : Prop := ∀ l ∈ t.items, ∃ depth text, l = .code depth text

namespace Header
variable {style : Style}

theorem codeOnly_append {t u : Rendering} (ht : CodeOnly t) (hu : CodeOnly u) : CodeOnly (t ++ u) := fun l hl => by
  rcases Trail.mem_append.mp hl with hl | ⟨-, hl⟩
  · exact ht l hl
  · exact hu l hl

theorem codeOnly_concatMap {α : Type} {f : α → Rendering} (h : ∀ a, CodeOnly (f a)) :
    ∀ {as : List α}, CodeOnly (Trail.concatMap f as)
  | [] => fun _ hl => by cases hl
  | a :: _ => codeOnly_append (h a) (codeOnly_concatMap h)

theorem codeOnly_stop {fault : RenderFault} : CodeOnly (Trail.stop fault) := fun _ hl => by cases hl

theorem codeOnly_trampoline {depth : Nat} {isMember : Bool} {f : Function} :
    CodeOnly (trampoline style depth isMember f) := by
  unfold trampoline
  split
  · simp [CodeOnly, Trail.whole, trampolineLines, HeaderLine.blank]
  · exact codeOnly_stop

theorem codeOnly_field {v : Variable} : CodeOnly (field style v) := by
  unfold field
  split
  · simp [CodeOnly, Trail.whole]
  · exact codeOnly_stop
  · exact codeOnly_stop

theorem codeOnly_global {v : Variable} : CodeOnly (global v) := by
  unfold global
  split
  · simp [CodeOnly, Trail.whole, HeaderLine.blank]
  · exact codeOnly_stop

theorem codeOnly_member {className : String} {d : Declaration} (noRawBlock : d.toRawBlock? = none) :
    CodeOnly (member style className d) := by
  cases d with
  | ofVariable v => exact codeOnly_field
  | ofFunction f =>
    unfold member
    dsimp only
    split
    · simp [CodeOnly, Trail.whole, virtualLine]
    · exact codeOnly_trampoline
  | ofRawBlock r => cases noRawBlock
  | ofClass | ofParameter => exact codeOnly_stop

theorem codeOnly_declaration {sizeOf? : String → Option Int} {d : Declaration} (noClass : d.toClass? = none)
    (noRawBlock : d.toRawBlock? = none) : CodeOnly (declaration style sizeOf? d) := by
  cases d with
  | ofClass c => cases noClass
  | ofFunction f => exact codeOnly_trampoline
  | ofVariable v => exact codeOnly_global
  | ofRawBlock r => cases noRawBlock
  | ofParameter p => exact codeOnly_stop

theorem codeOnly_opening {includes : List Include} {classNames : List String} :
    CodeOnly (opening style includes classNames) := by
  have hinclude : ∀ i, CodeOnly (includeLine i) := by
    rintro (path | _)
    · simp [CodeOnly, includeLine, Trail.whole]
    · exact codeOnly_stop
  have hblank : ∀ {α : Type} (group : List α), CodeOnly (.whole (blankAfter group)) := by
    intro α group
    unfold blankAfter
    split <;> simp [CodeOnly, Trail.whole, HeaderLine.blank]
  have hnames : CodeOnly (.whole (classNames.map classLine)) := by simp [CodeOnly, Trail.whole, classLine]
  refine codeOnly_append (codeOnly_append ?_ (codeOnly_concatMap hinclude)) ?_
  · simp [CodeOnly, Trail.whole, HeaderLine.blank]
  · exact codeOnly_append (codeOnly_append (hblank includes) hnames) (hblank classNames)

/-! ### Functions -/

theorem trampoline_eq_whole {depth : Nat} {isMember : Bool} {f : Function} {lines : List HeaderLine}
    (written : trampoline style depth isMember f = .whole lines) :
    ∃ address, f.address = some address ∧ lines = trampolineLines style depth isMember f address := by
  unfold trampoline at written
  cases haddress : f.address with
  | none =>
    rw [haddress] at written
    cases written
  | some address =>
    rw [haddress] at written
    cases written
    exact ⟨address, rfl, rfl⟩

end Header
end Overlay
