import Overlay.Proofs.Header.Lines
import Overlay.Proofs.Layout.Pads

/-! The blocks of a header. The lines of a program that is laid out are those of the opening and then a block for each
    declaration; the lines of a class are a block for each declared member, with its pads and labels, between the opening
    and the closing of the class. Only the blocks of raw blocks hold raw code. -/

namespace Overlay

/-- Whether a line is the code of a raw block. --/
def HeaderLine.isRaw : HeaderLine → Bool
  | .raw _ => true
  | _ => false

/-- Lines without the code of a raw block. --/
def NoRaw (lines : List HeaderLine) : Prop := ∀ l ∈ lines, l.isRaw = false

theorem noRaw_append {lines more : List HeaderLine} (h : NoRaw lines) (h' : NoRaw more) : NoRaw (lines ++ more) :=
  List.forall_mem_append.mpr ⟨h, h'⟩

theorem CodeOnly.noRaw {t : Rendering} (h : CodeOnly t) {lines : List HeaderLine} (written : t = .whole lines) :
    NoRaw lines := by
  subst written
  intro l hl
  obtain ⟨depth, text, rfl⟩ := h l hl
  rfl

namespace Header
open Layout
variable {style : Style} {className : String}

/-! ### Lines of members -/

theorem members_append (isOpen : Bool) (ds es : List Declaration) : members style className isOpen (ds ++ es) =
    members style className isOpen ds ++ members style className (ds.foldl accessAfter isOpen) es := by
  induction ds generalizing isOpen with
  | nil => rfl
  | cons d ds ih =>
    rw [List.cons_append, members, members, ih, ← Trail.append_assoc]
    rfl

theorem members_rawBlock (isOpen : Bool) (r : RawBlock) :
    members style className isOpen [.ofRawBlock r] = .whole [.raw r.code] := by
  cases isOpen <;> rfl

theorem noRaw_members {ds : List Declaration} (h : ∀ d ∈ ds, d.toRawBlock? = none) {isOpen : Bool}
    {lines : List HeaderLine} (written : members style className isOpen ds = .whole lines) : NoRaw lines := by
  induction ds generalizing isOpen lines with
  | nil =>
    cases written
    simp [NoRaw]
  | cons d ds ih =>
    obtain ⟨before, more, hbefore, hmore, rfl⟩ := Trail.append_eq_whole written
    obtain ⟨label, first, hlabel, hfirst, rfl⟩ := Trail.append_eq_whole hbefore
    have labelNoRaw : NoRaw label := by
      cases hlabel
      unfold labelLines
      split <;> simp [NoRaw, HeaderLine.isRaw]
    exact noRaw_append (noRaw_append labelNoRaw ((codeOnly_member (h d List.mem_cons_self)).noRaw hfirst))
      (ih (fun e he => h e (List.mem_cons_of_mem _ he)) hmore)

theorem noRaw_classOpening (c : Class) : NoRaw (classOpening style c) := by
  intro l hl
  rcases List.mem_append.mp hl with hl | hl
  · obtain ⟨text, -, rfl⟩ := List.mem_map.mp hl
    rfl
  · obtain rfl := List.mem_singleton.mp hl
    rfl

theorem noRaw_classClosing (size : Option Int) (c : Class) : NoRaw (classClosing style size c) := by
  have pack : NoRaw (style.packClosing.map (.code 0)) := List.forall_mem_map.mpr fun _ _ => rfl
  have assertion : NoRaw (size.map (.assertion c.name)).toList := by
    cases size <;> simp [NoRaw, HeaderLine.isRaw]
  have blank : NoRaw [HeaderLine.blank] := by simp [NoRaw, HeaderLine.isRaw, HeaderLine.blank]
  exact noRaw_append (noRaw_append (List.forall_mem_cons.mpr ⟨rfl, assertion⟩) pack) blank

/-! ### Blocks of members -/

/-- The block of a declared member: its code for a raw block, and otherwise the lines of the member as it is laid out,
    behind its pads and with the labels that it needs. --/
inductive MemberBlock (style : Style) (className : String) : Declaration → List HeaderLine → Prop where
  | rawBlock (r : RawBlock) : MemberBlock style className (.ofRawBlock r) [.raw r.code]
  | other {d e : Declaration} {pads : List Declaration} {isOpen : Bool} {lines : List HeaderLine}
      (noRawBlock : d.toRawBlock? = none) (padding : ∀ pad ∈ pads, PadFor pad d) (filled : Filled d e)
      (written : members style className isOpen (pads ++ [e]) = .whole lines) (noRaw : NoRaw lines) :
      MemberBlock style className d lines

theorem memberBlock_of_group {d e : Declaration} {pads : List Declaration} (padding : ∀ pad ∈ pads, PadFor pad d)
    (filled : Filled d e) {isOpen : Bool} {lines : List HeaderLine}
    (written : members style className isOpen (pads ++ [e]) = .whole lines) : MemberBlock style className d lines := by
  have other (hd : d.toRawBlock? = none) (he : e.toRawBlock? = none) : MemberBlock style className d lines := by
    have hpads : ∀ pad ∈ pads, pad.toRawBlock? = none := fun pad hpad => by
      cases padding pad hpad <;> rfl
    have hgroup := List.forall_mem_append.mpr ⟨hpads, List.forall_mem_singleton.mpr he⟩
    exact .other hd padding filled written (noRaw_members hgroup written)
  cases filled with
  | rawBlock r =>
    -- No pad stands before a raw block.
    have hnil : pads = [] := List.eq_nil_iff_forall_not_mem.mpr fun pad hpad => by cases padding pad hpad
    rw [hnil, List.nil_append, members_rawBlock] at written
    cases written
    exact .rawBlock r
  | _ => exact other rfl rfl

theorem blocks_of_grouped {ds out : List Declaration} (grouped : Grouped ds out) {isOpen : Bool}
    {lines : List HeaderLine} (written : members style className isOpen out = .whole lines) :
    ∃ blocks, List.Forall₂ (MemberBlock style className) ds blocks ∧ lines = blocks.flatten := by
  induction grouped generalizing isOpen lines with
  | nil =>
    cases written
    exact ⟨[], .nil, rfl⟩
  | @cons d e _ pads rest padding filled _ _ ih =>
    rw [List.append_cons, members_append] at written
    obtain ⟨first, more, hfirst, hmore, rfl⟩ := Trail.append_eq_whole written
    obtain ⟨blocks, hblocks, rfl⟩ := ih hmore
    exact ⟨first :: blocks, .cons (memberBlock_of_group padding filled hfirst) hblocks, rfl⟩

/-! ### Blocks of declarations -/

/-- The block of a declaration: its code for a raw block, the blocks of its members in the body of a class, and the lines
    of any other declaration. --/
inductive Block (style : Style) (sizeOf? : String → Option Int) : Declaration → List HeaderLine → Prop where
  | rawBlock (r : RawBlock) : Block style sizeOf? (.ofRawBlock r) [.raw r.code]
  | ofClass {c : Class} {blocks : List (List HeaderLine)}
      (members : List.Forall₂ (MemberBlock style c.name) c.members blocks) :
      Block style sizeOf? (.ofClass c)
        (classOpening style c ++ blocks.flatten ++ classClosing style (sizeOf? c.name) c)
  | other {d : Declaration} {lines : List HeaderLine} (noClass : d.toClass? = none) (noRawBlock : d.toRawBlock? = none)
      (written : declaration style sizeOf? d = .whole lines) (noRaw : NoRaw lines) : Block style sizeOf? d lines

theorem block_of_laidOut {sizeOf? : String → Option Int} {d e : Declaration} (laidOut : LaidOutAs GroupedClass d e)
    {lines : List HeaderLine} (written : declaration style sizeOf? e = .whole lines) : Block style sizeOf? d lines := by
  cases laidOut with
  | @ofClass c r grouped =>
    have hopening : classOpening style r = classOpening style c := by
      simp only [classOpening, classHead, grouped.name, grouped.bases]
    have hclosing (size : Option Int) : classClosing style size r = classClosing style size c := by
      simp only [classClosing, grouped.name]
    rw [declaration, classLines, grouped.name, hopening, hclosing] at written
    obtain ⟨before, closing, hbefore, hclosed, rfl⟩ := Trail.append_eq_whole written
    obtain ⟨opening, body, hopened, hbody, rfl⟩ := Trail.append_eq_whole hbefore
    obtain ⟨blocks, hblocks, rfl⟩ := blocks_of_grouped grouped.members hbody
    cases hclosed
    cases hopened
    exact .ofClass hblocks
  | other noClass =>
    cases hraw : d.toRawBlock? with
    | some r =>
      cases d with
      | ofRawBlock r =>
        cases written
        exact .rawBlock r
      | _ => cases hraw
    | none => exact .other noClass hraw written ((codeOnly_declaration noClass hraw).noRaw written)

end Header
end Overlay
