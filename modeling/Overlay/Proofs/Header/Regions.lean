import Mathlib.Data.List.Chain
import Overlay.Proofs.Header.Lines

/-! The regions of a class. A line stands in the region of the last label before it. The body of a class opens with the
    label of a public region, a label stands only where the region changes, and each member is written in the region that
    is open after it: its own for a field or a function, and that of the member before it for a raw block. What is written
    of a member begins with the text that declares it. --/

namespace Overlay

/-! ### Labels -/

/-- The region whose label a line is. --/
def HeaderLine.label? : HeaderLine → Option Bool
  | .access isPublic => some isPublic
  | _ => none

/-- The regions whose labels are among lines, in order. --/
def labels (lines : List HeaderLine) : List Bool := lines.filterMap HeaderLine.label?

/-- The lines that are no labels, each with the region of the last label before it; `region` is that of the last label
    before all of them, if there is one. --/
def inRegions (region : Option Bool) : List HeaderLine → List (Option Bool × HeaderLine)
  | [] => []
  | .access isPublic :: rest => inRegions (some isPublic) rest
  | line :: rest => (region, line) :: inRegions region rest

/-- Lines without a label. --/
def NoLabel (lines : List HeaderLine) : Prop := ∀ l ∈ lines, l.label? = none

theorem labels_append (lines more : List HeaderLine) : labels (lines ++ more) = labels lines ++ labels more :=
  List.filterMap_append

theorem NoLabel.labels {lines : List HeaderLine} (h : NoLabel lines) : labels lines = [] :=
  List.filterMap_eq_nil_iff.mpr h

/-- Lines without a label stand in the region that is open before them, and leave it open. --/
theorem NoLabel.inRegions_append {lines : List HeaderLine} (h : NoLabel lines) (region : Option Bool)
    (more : List HeaderLine) : inRegions region (lines ++ more) = lines.map (region, ·) ++ inRegions region more := by
  induction lines with
  | nil => rfl
  | cons l lines ih =>
    have rest := ih fun m hm => h m (List.mem_cons_of_mem _ hm)
    cases l with
    | access => cases h _ List.mem_cons_self
    | code | assertion | raw => exact congrArg (List.cons _) rest

theorem NoLabel.inRegions {lines : List HeaderLine} (h : NoLabel lines) (region : Option Bool) :
    inRegions region lines = lines.map (region, ·) := by
  have := h.inRegions_append region []
  rwa [List.append_nil, Overlay.inRegions, List.append_nil] at this

theorem noLabel_append {lines more : List HeaderLine} (h : NoLabel lines) (h' : NoLabel more) : NoLabel (lines ++ more) :=
  List.forall_mem_append.mpr ⟨h, h'⟩

theorem CodeOnly.noLabel {t : Rendering} (h : CodeOnly t) {lines : List HeaderLine} (written : t = .whole lines) :
    NoLabel lines := by
  subst written
  intro l hl
  obtain ⟨depth, text, rfl⟩ := h l hl
  rfl

namespace Header
variable {style : Style} {className : String}

/-! ### Members -/

theorem noLabel_member {d : Declaration} {lines : List HeaderLine} (written : member style className d = .whole lines) :
    NoLabel lines := by
  cases hraw : d.toRawBlock? with
  | none => exact (codeOnly_member hraw).noLabel written
  | some r =>
    cases d with
    | ofRawBlock r =>
      cases written
      simp [NoLabel, HeaderLine.label?]
    | _ => cases hraw

/-- A text that declares a member. --/
def Declares (style : Style) : Declaration → String → Prop
  | .ofVariable v, text => ∃ offset declarator, v.offset = some offset ∧
      v.declarator? style.digitLimit = some declarator ∧
      text = style.indent ++ s!"{v.type} {declarator}; // offset {Hexadecimal.address offset}"
  | .ofFunction f, text => if f.isVirtual
      then text = style.indent ++ s!"virtual {f.returnType} {f.name}({parameterList f.parameters}) = 0;"
      else text = style.indent ++ (if f.isStatic then "static inline" else "inline") ++
        s!" {f.returnType} {f.name}({parameterList f.parameters})"
  | .ofRawBlock r, text => text = r.code
  | _, _ => False

theorem text_member {text : String} (h : text ≠ "") : (HeaderLine.code 1 text).text style = style.indent ++ text := by
  rw [HeaderLine.text_code 1 h]
  simp

theorem declares_trampoline {f : Function} (notVirtual : ¬f.isVirtual = true) {lines : List HeaderLine}
    (written : trampoline style 1 true f = .whole lines) :
    ∃ text others, lines.map (·.text style) = text :: others ∧ Declares style (.ofFunction f) text := by
  obtain ⟨address, -, rfl⟩ := trampoline_eq_whole written
  refine ⟨_, _, rfl, ?_⟩
  rw [Declares, if_neg notVirtual]
  refine (text_member (by simp [toString])).trans ?_
  simp [toString, String.append_assoc]

/-- The first line of a member declares it. --/
theorem declares_member {d : Declaration} {lines : List HeaderLine} (written : member style className d = .whole lines) :
    ∃ text others, lines.map (·.text style) = text :: others ∧ Declares style d text := by
  cases d with
  | ofVariable v =>
    simp only [member, field] at written
    split at written
    · rename_i offset declarator hoffset hdeclarator
      cases written
      exact ⟨_, _, rfl, offset, declarator, hoffset, hdeclarator, text_member (by simp [toString])⟩
    · cases written
    · cases written
  | ofFunction f =>
    rw [member] at written
    by_cases hvirtual : f.isVirtual = true
    · rw [if_pos hvirtual] at written
      cases written
      refine ⟨_, _, rfl, ?_⟩
      rw [Declares, if_pos hvirtual]
      exact text_member (by simp [toString])
    · rw [if_neg hvirtual] at written
      exact declares_trampoline hvirtual written
  | ofRawBlock r =>
    cases written
    exact ⟨_, _, rfl, HeaderLine.text_raw r.code⟩
  | ofClass | ofParameter => cases written

/-- The regions of members, after one in a region that is public or not. --/
def regions (isOpen : Bool) : List Declaration → List Bool
  | [] => []
  | d :: ds => accessAfter isOpen d :: regions (accessAfter isOpen d) ds

theorem regions_append (isOpen : Bool) (ds es : List Declaration) :
    regions isOpen (ds ++ es) = regions isOpen ds ++ regions (ds.foldl accessAfter isOpen) es := by
  induction ds generalizing isOpen with
  | nil => rfl
  | cons d ds ih => exact congrArg (List.cons _) (ih _)

/-- Members with the lines of each, in the region that is given with them. --/
def membersIn (regions : List Bool) (blocks : List (List HeaderLine)) : List (Option Bool × HeaderLine) :=
  (regions.zip blocks).flatMap fun (region, block) => block.map (some region, ·)

theorem inRegions_labelLines (isOpen isPublic : Bool) (more : List HeaderLine) :
    inRegions (some isOpen) (labelLines isOpen isPublic ++ more) = inRegions (some isPublic) more := by
  cases isOpen <;> cases isPublic <;> rfl

/-- What is written of members: each in its region, and a label only where the region changes. --/
theorem written_members {ds : List Declaration} {isOpen : Bool} {lines : List HeaderLine}
    (written : members style className isOpen ds = .whole lines) :
    ∃ blocks, List.Forall₂ (fun d block => member style className d = .whole block) ds blocks ∧
      (isOpen :: labels lines).IsChain (· ≠ ·) ∧
      ∀ more, inRegions (some isOpen) (lines ++ more) =
        membersIn (regions isOpen ds) blocks ++ inRegions (some (ds.foldl accessAfter isOpen)) more := by
  induction ds generalizing isOpen lines with
  | nil =>
    cases written
    exact ⟨[], .nil, List.isChain_singleton _, fun more => rfl⟩
  | cons d ds ih =>
    obtain ⟨before, rest, hbefore, hrest, rfl⟩ := Trail.append_eq_whole written
    obtain ⟨label, own, hlabel, hown, rfl⟩ := Trail.append_eq_whole hbefore
    obtain ⟨blocks, hblocks, hchain, hregions⟩ := ih hrest
    obtain rfl : labelLines isOpen (accessAfter isOpen d) = label := congrArg Trail.items hlabel
    have hnone := noLabel_member hown
    refine ⟨own :: blocks, .cons hown hblocks, ?_, fun more => ?_⟩
    · rw [labels_append, labels_append, hnone.labels, List.append_nil]
      unfold labelLines
      split
      · rename_i hsame
        rw [eq_of_beq hsame]
        exact hchain
      · rename_i hchange
        exact List.isChain_cons_cons.mpr ⟨fun heq => hchange (beq_iff_eq.mpr heq), hchain⟩
    · rw [List.append_assoc, List.append_assoc, inRegions_labelLines, hnone.inRegions_append, hregions more,
        ← List.append_assoc]
      rfl

/-! ### Classes -/

/-- The lines of a class before its body. --/
def classStart (style : Style) (c : Class) : List HeaderLine :=
  (style.packOpening ++ [classHead c, "\x7b"]).map (.code 0)

/-- The regions of a class as its lines give them. Its body opens with the label of a public region; no label follows
    another one of the same region; and behind the lines before its body, and before those after it, come the lines of its
    members in order, which begin by declaring them, those of each member in one region, of which `fits` says that it is
    right. --/
structure ClassRegions (style : Style) (size : Option Int) (c : Class) (fits : Declaration → Bool → Prop)
    (lines : List HeaderLine) : Prop where
  opens : ∃ body, lines = classStart style c ++ .access true :: body
  alternates : (labels lines).IsChain (· ≠ ·)
  members : ∃ (regions : List Bool) (blocks : List (List HeaderLine)) (last : Bool),
    List.Forall₂ fits c.members regions ∧
    List.Forall₂ (fun d block => member style c.name d = .whole block ∧
      ∃ text others, block.map (·.text style) = text :: others ∧ Declares style d text) c.members blocks ∧
    inRegions none lines = (classStart style c).map (none, ·) ++ membersIn regions blocks ++
      (classClosing style size c).map (some last, ·)

theorem noLabel_classStart (c : Class) : NoLabel (classStart style c) := List.forall_mem_map.mpr fun _ _ => rfl

theorem noLabel_classClosing (size : Option Int) (c : Class) : NoLabel (classClosing style size c) := by
  have pack : NoLabel (style.packClosing.map (.code 0)) := List.forall_mem_map.mpr fun _ _ => rfl
  have assertion : NoLabel (size.map (.assertion c.name)).toList := by
    cases size <;> simp [NoLabel, HeaderLine.label?]
  have blank : NoLabel [HeaderLine.blank] := by simp [NoLabel, HeaderLine.label?, HeaderLine.blank]
  exact noLabel_append (noLabel_append (List.forall_mem_cons.mpr ⟨rfl, assertion⟩) pack) blank

/-- The regions of a class are those that are open after each member, from a public one on. --/
theorem classRegions {size : Option Int} {c : Class} {fits : Declaration → Bool → Prop} {lines : List HeaderLine}
    (written : classLines style size c = .whole lines) (fit : List.Forall₂ fits c.members (regions true c.members)) :
    ClassRegions style size c fits lines := by
  obtain ⟨before, closing, hbefore, hclosing, rfl⟩ := Trail.append_eq_whole written
  obtain ⟨opening, body, hopening, hbody, rfl⟩ := Trail.append_eq_whole hbefore
  obtain ⟨blocks, hblocks, hchain, hregions⟩ := written_members hbody
  obtain rfl : classStart style c ++ [.access true] = opening := congrArg Trail.items hopening
  obtain rfl : classClosing style size c = closing := congrArg Trail.items hclosing
  have hstart : NoLabel (classStart style c) := noLabel_classStart c
  have hend : NoLabel (classClosing style size c) := noLabel_classClosing size c
  refine ⟨⟨body ++ classClosing style size c, by simp⟩, ?_,
    _, blocks, c.members.foldl accessAfter true, fit, hblocks.imp fun _ _ h => ⟨h, declares_member h⟩, ?_⟩
  · rw [labels_append, labels_append, labels_append, hstart.labels, hend.labels, List.append_nil]
    exact hchain
  · rw [List.append_assoc, List.append_assoc, hstart.inRegions_append, List.append_assoc]
    congr 1
    change inRegions (some true) (body ++ classClosing style size c) = _
    rw [hregions, hend.inRegions]

/-! ### Programs -/

/-- Whether a region is that of a member: the one that a field or a function says, and any for a raw block. --/
def OwnRegion : Declaration → Bool → Prop
  | .ofVariable v, region => region = v.isPublic
  | .ofFunction f, region => region = f.isPublic
  | _, _ => True

theorem ownRegion_regions (isOpen : Bool) (ds : List Declaration) : List.Forall₂ OwnRegion ds (regions isOpen ds) := by
  induction ds generalizing isOpen with
  | nil => exact .nil
  | cons d ds ih => exact .cons (by cases d <;> simp [OwnRegion, accessAfter]) (ih _)

/-- The lines of a program, those of the opening and then a block for each declaration, with the regions of each class. --/
def InRegions (style : Style) (options : HeaderOptions) (sizes : Option SizeTable) (p : Program)
    (fits : Declaration → Bool → Prop) (lines : List HeaderLine) : Prop :=
  ∃ opening blocks, lines = opening ++ blocks.flatten ∧
    Header.opening style options.includes (p.classes.map (·.name)) = .whole opening ∧
    List.Forall₂ (fun d block => declaration style (assertedSize style options sizes p) d = .whole block ∧
      ∀ c, d = .ofClass c → ClassRegions style (assertedSize style options sizes p c.name) c fits block)
      p.declarations blocks

theorem inRegions_of_written {options : HeaderOptions} {sizes : Option SizeTable} {p : Program}
    {fits : Declaration → Bool → Prop} {lines : List HeaderLine}
    (written : headerLines style options sizes p = .whole lines)
    (fit : ∀ c, .ofClass c ∈ p.declarations → List.Forall₂ fits c.members (regions true c.members)) :
    InRegions style options sizes p fits lines := by
  obtain ⟨opening, body, hopening, hbody, rfl⟩ := Trail.append_eq_whole written
  obtain ⟨blocks, hblocks, rfl⟩ := Trail.concatMap_eq_whole hbody
  refine ⟨opening, blocks, rfl, hopening, ?_⟩
  rw [List.forall₂_iff_get] at hblocks ⊢
  refine ⟨hblocks.1, fun i hi hi' => ⟨hblocks.2 i hi hi', ?_⟩⟩
  intro c hc
  have hmem : .ofClass c ∈ p.declarations := hc ▸ List.getElem_mem hi
  have hwritten := hblocks.2 i hi hi'
  rw [hc] at hwritten
  exact classRegions hwritten (fit c hmem)

end Header
end Overlay
