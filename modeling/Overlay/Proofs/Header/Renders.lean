import Overlay.Header.Header
import Overlay.Proofs.Layout.Placements
import Overlay.Proofs.Layout.Stages

/-! Headers of programs that are laid out. A layout leaves no field without an offset, and functions and free variables
    keep their addresses, so every declaration has lines, unless the number of elements of a field has more digits than
    can be written. -/

namespace Overlay

/-! ### Trails with one fault -/

namespace Trail
variable {ε α β : Type} {fault : ε} {P Q : Prop}

/-- A trail ends early if something is so, and then with this fault. --/
def FaultsIff (t : Trail ε α) (fault : ε) (P : Prop) : Prop := ∀ found, t.fault = some found ↔ found = fault ∧ P

theorem faultsIff_whole (items : List α) (h : ¬P) : (whole items).FaultsIff fault P := fun found => by
  simp [whole, h]

theorem faultsIff_stop (h : P) : (stop fault : Trail ε α).FaultsIff fault P := fun found => by
  simp [stop, h, eq_comm]

theorem FaultsIff.congr {t : Trail ε α} (h : t.FaultsIff fault P) (hPQ : P ↔ Q) : t.FaultsIff fault Q := fun found =>
  (h found).trans (and_congr_right fun _ => hPQ)

theorem FaultsIff.append {t u : Trail ε α} (ht : t.FaultsIff fault P) (hu : u.FaultsIff fault Q) :
    (t ++ u).FaultsIff fault (P ∨ Q) := by
  intro found
  obtain ⟨items, _ | first⟩ := t
  · have hP : ¬P := fun hP => by cases (ht fault).mpr ⟨rfl, hP⟩
    rw [or_iff_right hP]
    exact hu found
  · obtain ⟨rfl, hP⟩ := (ht first).mp rfl
    rw [or_iff_left_of_imp fun _ => hP]
    exact ht found

/-- What stands around a trail without a fault has no part in it. --/
theorem FaultsIff.within {t : Trail ε α} (h : t.FaultsIff fault P) (before after : List α) :
    (whole before ++ t ++ whole after).FaultsIff fault P :=
  ((faultsIff_whole before not_false).append h |>.append (faultsIff_whole after not_false)).congr (by simp)

theorem FaultsIff.concatMap {f : β → Trail ε α} {P : β → Prop} {bs : List β}
    (h : ∀ b ∈ bs, (f b).FaultsIff fault (P b)) : (concatMap f bs).FaultsIff fault (∃ b ∈ bs, P b) := by
  induction bs with
  | nil => exact faultsIff_whole _ (by simp)
  | cons b bs ih =>
    rw [Trail.concatMap, List.exists_mem_cons_iff]
    exact (h b List.mem_cons_self).append (ih fun b hb => h b (List.mem_cons_of_mem _ hb))

end Trail

/-! ### Declarations with lines -/

/-- A member that has lines: nothing that it needs is unbound. --/
def Declaration.MemberRenders : Declaration → Prop
  | .ofVariable v => v.offset.isSome
  | .ofFunction f => f.isVirtual = false → f.address.isSome
  | .ofRawBlock _ => True
  | _ => False

/-- A declaration that has lines. --/
def Declaration.Renders : Declaration → Prop
  | .ofClass c => ∀ d ∈ c.members, d.MemberRenders
  | .ofFunction f => f.address.isSome
  | .ofVariable v => v.offset.isSome
  | .ofRawBlock _ => True
  | .ofParameter _ => False

/-- A member with a number of elements that has more than `limit` digits. --/
def Declaration.MemberOverlong (limit : Option Nat) : Declaration → Prop
  | .ofVariable v => v.declarator? limit = none
  | _ => False

/-- A class with such a member. --/
def Declaration.Overlong (limit : Option Nat) : Declaration → Prop
  | .ofClass c => ∃ d ∈ c.members, d.MemberOverlong limit
  | _ => False

theorem Variable.declarator?_none_ne (v : Variable) : v.declarator? none ≠ none := by
  unfold Variable.declarator?
  split <;> nofun

theorem Declaration.not_overlong_none : ∀ d : Declaration, ¬d.Overlong none
  | .ofClass _, ⟨.ofVariable v, _, hv⟩ => v.declarator?_none_ne hv

namespace Header
variable {style : Style} {className : String}

theorem trampoline_faultsIff {f : Function} (h : f.address.isSome) (depth : Nat) (isMember : Bool) :
    (trampoline style depth isMember f).FaultsIff .tooManyDigits False := by
  obtain ⟨address, haddress⟩ := Option.isSome_iff_exists.mp h
  rw [trampoline, haddress]
  exact Trail.faultsIff_whole _ not_false

theorem field_faultsIff {v : Variable} (h : v.offset.isSome) :
    (field style v).FaultsIff .tooManyDigits (v.declarator? style.digitLimit = none) := by
  obtain ⟨offset, hoffset⟩ := Option.isSome_iff_exists.mp h
  rw [field, hoffset]
  cases hdeclarator : v.declarator? style.digitLimit with
  | some declarator => exact Trail.faultsIff_whole _ nofun
  | none => exact Trail.faultsIff_stop rfl

theorem global_faultsIff {v : Variable} (h : v.offset.isSome) : (global v).FaultsIff .tooManyDigits False := by
  obtain ⟨offset, hoffset⟩ := Option.isSome_iff_exists.mp h
  rw [global, hoffset]
  exact Trail.faultsIff_whole _ not_false

theorem member_faultsIff {d : Declaration} (h : d.MemberRenders) :
    (member style className d).FaultsIff .tooManyDigits (d.MemberOverlong style.digitLimit) := by
  cases d with
  | ofVariable v => exact field_faultsIff h
  | ofFunction f =>
    unfold member
    dsimp only
    split
    · exact Trail.faultsIff_whole _ not_false
    · rename_i hvirtual
      exact trampoline_faultsIff (h (by simpa using hvirtual)) 1 true
  | ofRawBlock r => exact Trail.faultsIff_whole _ not_false
  | ofClass | ofParameter => exact h.elim

theorem members_faultsIff : ∀ (isOpen : Bool) {ds : List Declaration}, (∀ d ∈ ds, d.MemberRenders) →
    (members style className isOpen ds).FaultsIff .tooManyDigits (∃ d ∈ ds, d.MemberOverlong style.digitLimit)
  | _, [], _ => Trail.faultsIff_whole _ (by simp)
  | isOpen, d :: ds, h => by
    have hds := members_faultsIff (accessAfter isOpen d) fun d hd => h d (List.mem_cons_of_mem _ hd)
    rw [members, List.exists_mem_cons_iff]
    refine (((Trail.faultsIff_whole _ not_false).append ?_).append hds).congr (by rw [false_or])
    exact member_faultsIff (h d List.mem_cons_self)

theorem declaration_faultsIff (sizeOf? : String → Option Int) {d : Declaration} (h : d.Renders) :
    (declaration style sizeOf? d).FaultsIff .tooManyDigits (d.Overlong style.digitLimit) := by
  cases d with
  | ofClass c => exact (members_faultsIff true h).within _ _
  | ofFunction f => exact trampoline_faultsIff h 0 false
  | ofVariable v => exact global_faultsIff h
  | ofRawBlock r => exact Trail.faultsIff_whole _ not_false
  | ofParameter => exact h.elim

theorem opening_faultsIff {includes : List Include} (h : ∀ i ∈ includes, i ≠ .missing) (classNames : List String) :
    (opening style includes classNames).FaultsIff .tooManyDigits False := by
  have hincludes : (Trail.concatMap includeLine includes).FaultsIff .tooManyDigits (∃ i ∈ includes, False) := by
    refine .concatMap fun i hi => ?_
    cases i with
    | path text => exact Trail.faultsIff_whole _ not_false
    | missing => exact absurd rfl (h _ hi)
  exact (hincludes.congr (by simp)).within _ _

end Header

section
variable {style : Style} {options : HeaderOptions} {p : Program}

theorem writeHeader_of_fault {sizes : Option SizeTable} (h : (headerLines style options sizes p).fault = none) :
    (writeHeader style options sizes p).code = .ok (headerText style (headerLines style options sizes p).items) := by
  simp only [writeHeader, h]

/-- A program of declarations that have lines has a header, unless a field of it has too many digits. --/
theorem writeHeader_eq_error_iff (hincludes : ∀ i ∈ options.includes, i ≠ .missing) (sizes : Option SizeTable)
    (hp : ∀ d ∈ p.declarations, d.Renders) {fault : RenderFault} :
    (writeHeader style options sizes p).code = .error fault ↔
      fault = .tooManyDigits ∧ ∃ d ∈ p.declarations, d.Overlong style.digitLimit := by
  have hlines : (headerLines style options sizes p).FaultsIff .tooManyDigits
      (∃ d ∈ p.declarations, d.Overlong style.digitLimit) :=
    ((Header.opening_faultsIff hincludes _).append
      (.concatMap fun d hd => Header.declaration_faultsIff _ (hp d hd))).congr (by rw [false_or])
  rw [← hlines fault]
  unfold writeHeader
  dsimp only
  split
  · rename_i found hfound
    rw [hfound, Except.error.injEq, Option.some.injEq]
  · rename_i hnone
    simp [hnone]

theorem writeHeader_ok (hlimit : style.digitLimit = none) (hincludes : ∀ i ∈ options.includes, i ≠ .missing)
    (sizes : Option SizeTable) (hp : ∀ d ∈ p.declarations, d.Renders) :
    ∃ code, (writeHeader style options sizes p).code = .ok code := by
  cases hcode : (writeHeader style options sizes p).code with
  | ok code => exact ⟨code, rfl⟩
  | error fault =>
    obtain ⟨-, d, -, hd⟩ := (writeHeader_eq_error_iff hincludes sizes hp).mp hcode
    exact absurd hd (hlimit ▸ d.not_overlong_none)

end

/-! ### Layouts -/

namespace Layout

theorem FieldPlace.renders {cursor : FieldCursor} {v : Variable} {offset : Nat} {out : List Declaration}
    (place : FieldPlace cursor v offset out) : ∀ d ∈ out, d.MemberRenders := by
  cases place with
  | above | adjacent => exact List.forall_mem_singleton.mpr rfl
  | padded => exact List.forall_mem_cons.mpr ⟨rfl, List.forall_mem_singleton.mpr rfl⟩

theorem SlotPlace.renders {word : Int} {cursor slot : Option Int} {f : Function} {out : List Declaration}
    (isVirtual : f.isVirtual = true) (place : SlotPlace word cursor f out slot) : ∀ d ∈ out, d.MemberRenders := by
  have hplaced : (placedSlot f).MemberRenders := fun hvirtual => by
    rw [show f.isVirtual = false from hvirtual] at isVirtual
    cases isVirtual
  cases place with
  | next | first => exact List.forall_mem_singleton.mpr hplaced
  | @padded start offset =>
    intro d hd
    rcases List.mem_append.mp hd with hd | hd
    · obtain ⟨slot, -, rfl⟩ := List.mem_map.mp hd
      exact fun _ => rfl
    · obtain rfl := List.mem_singleton.mp hd
      exact hplaced

theorem MemberPlace.renders {sizes : SizeTable} {cursors next : Cursors} {d : Declaration} {out : List Declaration}
    (hd : d.MemberBound) (place : MemberPlace sizes cursors d out next) : ∀ e ∈ out, e.MemberRenders := by
  cases place with
  | field place => exact place.renders
  | slot isVirtual place => exact place.renders isVirtual
  | function notVirtual => exact List.forall_mem_singleton.mpr hd.2
  | rawBlock r => exact List.forall_mem_singleton.mpr trivial

/-- Every declaration of a program that is laid out has lines. --/
theorem renders_of_layout {target : Target} {p q : Program} (hp : p.WellBound)
    (h : (layout target p).program = .ok q) : ∀ d ∈ q.declarations, d.Renders := by
  intro d hd
  obtain ⟨i, hi⟩ := List.getElem?_of_mem hd
  rcases declaration_of_layout h hi with ⟨c, l, hc, hl, rfl⟩ | ⟨hd, hclass⟩
  · have hbound : c.WellBound := hp.declarations _ (List.mem_of_getElem? hc)
    obtain ⟨members, last, placed, hresolved, -, -⟩ := placed_of_layoutClass hbound hl
    change ∀ d ∈ l.resolved.members, d.MemberRenders
    rw [hresolved]
    exact placed.forall_mem fun d hd => MemberPlace.renders (hbound.members d hd)
  · have hbound := hp.declarations d (List.mem_of_getElem? hd)
    cases d with
    | ofClass => cases hclass
    | ofFunction f => exact hbound.2.2
    | ofVariable v => exact hbound.2
    | ofRawBlock r => trivial
    | ofParameter => exact hbound.elim

end Layout
end Overlay
