import Overlay.Header.Pen
import Overlay.Proofs.Header.Lines
import Overlay.Proofs.Layout.RecalledSizes

/-! What a pen writes. Each writer adds the lines of one part of a header and leaves the pen in a known place, or fails
    as the part does; what was written before it matters only through the place of the pen, and is never changed. A
    declaration begins and ends outside of classes, without an indent and in a public region, so a header is written
    declaration by declaration. --/

namespace Overlay
namespace Pen

/-! ### Places -/

/-- Where a pen stands: behind how many indents, and whether it is in a public region. --/
structure Place where
  depth : Int
  isPublic : Bool

/-- The place of a pen. --/
def place (pen : Pen) : Place := ⟨pen.depth, pen.isPublic⟩

/-- Outside of classes. --/
def outside : Place := ⟨0, true⟩

/-! ### Writing lines -/

/-- How a pen that writes the lines of `t` ends up: with all of them behind those that it has, in the place `b`, or with
    those before the fault of `t`, and that fault. It remembers only sizes that the table `s` gives. --/
inductive Wrote (style : Style) (s : SizeTable) (pen : Pen) (b : Place) (t : Rendering) :
    EStateM.Result RenderFault Pen Unit → Prop where
  | whole {next : Pen} (complete : t.fault = none) (lines : next.lines = pen.lines ++ t.items.map (·.text style))
      (there : next.place = b) (sizes : s.Recalls next.sizes) : Wrote style s pen b t (.ok () next)
  | early {next : Pen} {fault : RenderFault} (incomplete : t.fault = some fault)
      (lines : next.lines = pen.lines ++ t.items.map (·.text style)) : Wrote style s pen b t (.error fault next)

/-- `Writes style s a b w t`: whatever a pen in the place `a` has written, `w` writes `t` and ends in the place `b`. --/
def Writes (style : Style) (s : SizeTable) (a b : Place) (w : Writing Unit) (t : Rendering) : Prop :=
  ∀ pen : Pen, pen.place = a → s.Recalls pen.sizes → Wrote style s pen b t (w pen)

section
variable {style : Style} {s : SizeTable} {a b c : Place} {w w' : Writing Unit} {t u : Rendering}

theorem Writes.seq (first : Writes style s a b w t) (next : Writes style s b c w' u) :
    Writes style s a c (w >>= fun _ => w') (t ++ u) := by
  obtain ⟨items, fault⟩ := t
  intro pen hplace hsizes
  change Wrote style s pen c _ (EStateM.bind w (fun _ => w') pen)
  unfold EStateM.bind
  have hfirst := first pen hplace hsizes
  generalize w pen = result at hfirst
  cases hfirst with
  | early incomplete hlines =>
    cases incomplete
    exact .early rfl hlines
  | @whole middle complete hlines hthere hrecalls =>
    cases complete
    change Wrote style s pen c ⟨items ++ u.items, u.fault⟩ (w' middle)
    have hnext := next middle hthere hrecalls
    generalize w' middle = result at hnext
    cases hnext with
    | early incomplete hmore =>
      exact .early incomplete (by rw [hmore, hlines, List.map_append, List.append_assoc])
    | whole complete hmore hend hlast =>
      exact .whole complete (by rw [hmore, hlines, List.map_append, List.append_assoc]) hend hlast

theorem writes_pure : Writes style s a a (pure ()) (.whole []) := fun _ hplace hsizes =>
  .whole rfl (List.append_nil _).symm hplace hsizes

theorem writes_throw {fault : RenderFault} : Writes style s a b (throw fault) (.stop fault) := fun _ _ _ =>
  .early rfl (List.append_nil _).symm

/-- Writing each member of a list, if each leaves the pen where it was. --/
theorem writes_forM {α : Type} {write : α → Writing Unit} {render : α → Rendering}
    (each : ∀ x, Writes style s a a (write x) (render x)) (xs : List α) :
    Writes style s a a (xs.forM write) (Trail.concatMap render xs) := by
  induction xs with
  | nil => exact writes_pure
  | cons x xs ih => exact (each x).seq ih

/-! ### Strokes -/

variable {depth : Int} {isPublic : Bool}

theorem writes_line (text : String) :
    Writes style s ⟨depth, isPublic⟩ ⟨depth, isPublic⟩ (line style text) (.whole [.code depth.toNat text]) := by
  rintro pen hplace hsizes
  exact .whole rfl (by cases hplace; rfl) hplace hsizes

theorem writes_verbatim (code : String) : Writes style s a a (verbatim code) (.whole [.raw code]) := fun _ hplace hsizes =>
  .whole rfl rfl hplace hsizes

theorem writes_indentBy {steps : Int} (next : Int) (h : depth + steps = next) :
    Writes style s ⟨depth, isPublic⟩ ⟨next, isPublic⟩ (indentBy steps) (.whole []) := by
  rintro pen hplace hsizes
  exact .whole rfl (List.append_nil _).symm (by cases hplace; rw [← h]; rfl) hsizes

theorem writes_setRegion (next : Bool) :
    Writes style s ⟨depth, isPublic⟩ ⟨depth, next⟩ (setRegion next) (.whole []) := by
  rintro pen hplace hsizes
  exact .whole rfl (List.append_nil _).symm (by cases hplace; rfl) hsizes

/-- The answer to a question is the size that the table gave before anything was asked. --/
theorem writes_askSize {name : String} {next : Option Int → Writing Unit}
    (h : Writes style s a b (next (s.sizeOf? name)) t) : Writes style s a b (askSize name >>= next) t := by
  intro pen hplace hsizes
  obtain ⟨hanswer, hrecalls⟩ := hsizes.query name
  change Wrote style s pen b t (next (pen.sizes.query name).1 { pen with sizes := (pen.sizes.query name).2 })
  rw [hanswer]
  have hnext := h { pen with sizes := (pen.sizes.query name).2 } hplace hrecalls
  generalize next (s.sizeOf? name) _ = result at hnext
  cases hnext with
  | early incomplete hlines => exact .early incomplete hlines
  | whole complete hlines hend hlast => exact .whole complete hlines hend hlast

/-- Lines count only by their texts. --/
theorem Writes.congr (h : Writes style s a b w t) (texts : t.items.map (·.text style) = u.items.map (·.text style))
    (faults : t.fault = u.fault) : Writes style s a b w u := by
  intro pen hplace hsizes
  have hw := h pen hplace hsizes
  generalize w pen = result at hw ⊢
  cases hw with
  | whole complete hlines hend hlast => exact .whole (faults ▸ complete) (texts ▸ hlines) hend hlast
  | early incomplete hlines => exact .early (faults ▸ incomplete) (texts ▸ hlines)

theorem indented_zero (text : String) : style.indented 0 text = text := by
  unfold Style.indented
  split
  · rename_i hempty
    exact (String.isEmpty_iff.mp hempty).symm
  · exact String.empty_append

theorem writes_enterRegion (isOpen isPublic : Bool) : Writes style s ⟨1, isOpen⟩ ⟨1, isPublic⟩
    (enterRegion style isPublic) (.whole (Header.labelLines isOpen isPublic)) := by
  intro pen hplace hsizes
  have hregion : pen.isPublic = isOpen := congrArg Place.isPublic hplace
  have hchange : Writes style s ⟨1, isOpen⟩ ⟨1, isPublic⟩
      (do indentBy (-1); line style (HeaderLine.label isPublic); indentBy 1; setRegion isPublic)
      (.whole [.access isPublic]) :=
    ((writes_indentBy 0 rfl).seq <| (writes_line _).seq <| (writes_indentBy 1 rfl).seq <|
      writes_setRegion isPublic).congr (congrArg (· :: []) (indented_zero _)) rfl
  change Wrote style s pen _ _ ((if (pen.isPublic == isPublic) = true then pure () else _ : Writing Unit) pen)
  unfold Header.labelLines
  rw [hregion]
  split
  · rename_i hsame
    obtain rfl : isOpen = isPublic := eq_of_beq hsame
    exact writes_pure pen hplace hsizes
  · exact hchange pen hplace hsizes

/-! ### Functions and variables -/

theorem writes_trampoline (depth : Nat) (isMember : Bool) (f : Function) : Writes style s ⟨depth, isPublic⟩
    ⟨depth, isPublic⟩ (trampoline style isMember f) (Header.trampoline style depth isMember f) := by
  unfold trampoline Header.trampoline
  cases f.address with
  | none => exact writes_throw
  | some address =>
    dsimp only
    exact ((writes_line _).seq <| (writes_line _).seq <| (writes_indentBy (depth + 1) rfl).seq <|
      (writes_line _).seq <| (writes_line _).seq <| (writes_line _).seq <|
      (writes_indentBy depth (by omega)).seq <| (writes_line _).seq <| writes_line _).congr rfl rfl

theorem writes_field (v : Variable) :
    Writes style s ⟨1, isPublic⟩ ⟨1, isPublic⟩ (field style v) (Header.field style v) := by
  unfold field Header.field
  cases v.offset with
  | none => exact writes_throw
  | some offset =>
    cases v.declarator? style.digitLimit with
    | none => exact writes_throw
    | some declarator => exact writes_line _

theorem writes_global (v : Variable) : Writes style s outside outside (global style v) (Header.global v) := by
  unfold global Header.global
  cases v.offset with
  | none => exact writes_throw
  | some address => exact ((writes_line _).seq (writes_line _)).congr rfl rfl

/-! ### Classes -/

theorem writes_member (className : String) (isOpen : Bool) (d : Declaration) : Writes style s ⟨1, isOpen⟩
    ⟨1, Header.accessAfter isOpen d⟩ (member style className d)
    (.whole (Header.labelLines isOpen (Header.accessAfter isOpen d)) ++ Header.member style className d) := by
  cases d with
  | ofVariable v => exact (writes_enterRegion isOpen v.isPublic).seq (writes_field v)
  | ofFunction f =>
    refine (writes_enterRegion isOpen f.isPublic).seq ?_
    rw [Header.member]
    cases f.isVirtual with
    | true => exact writes_line _
    | false => exact writes_trampoline 1 true f
  | ofRawBlock r => cases isOpen <;> exact writes_verbatim r.code
  | ofClass | ofParameter => cases isOpen <;> exact writes_throw

/-- The members of a class, from the region that is open before the first to that of the last. --/
theorem writes_members (className : String) (isOpen : Bool) (ds : List Declaration) : Writes style s ⟨1, isOpen⟩
    ⟨1, ds.foldl Header.accessAfter isOpen⟩ (ds.forM (member style className))
    (Header.members style className isOpen ds) := by
  induction ds generalizing isOpen with
  | nil => exact writes_pure
  | cons d ds ih => exact (writes_member className isOpen d).seq (ih _)

theorem writes_lines (texts : List String) : Writes style s ⟨0, isPublic⟩ ⟨0, isPublic⟩ (texts.forM (line style))
    (.whole (texts.map (.code 0))) := by
  induction texts with
  | nil => exact writes_pure
  | cons text texts ih => exact ((writes_line text).seq ih).congr rfl rfl

/-- The size that is asserted of a class. --/
def assertion (options : HeaderOptions) (s : SizeTable) (name : String) : Option Int :=
  if options.sizeAssertions then s.sizeOf? name else none

theorem writes_assertSize (options : HeaderOptions) (name : String) : Writes style s ⟨0, isPublic⟩ ⟨0, isPublic⟩
    (assertSize style options name (s.sizeOf? name))
    (.whole ((assertion options s name).map (.assertion name)).toList) := by
  unfold assertSize assertion
  cases options.sizeAssertions with
  | false => exact writes_pure
  | true =>
    cases s.sizeOf? name with
    | none => exact writes_pure
    | some n => exact (writes_line _).congr (congrArg (· :: []) (indented_zero _)) rfl

/-- A class, from the outside and back. --/
theorem writes_ofClass (options : HeaderOptions) (c : Class) : Writes style s outside outside (ofClass style options c)
    (Header.classLines style (assertion options s c.name) c) := by
  have htrail : Header.classLines style (assertion options s c.name) c =
      .whole (style.packOpening.map (.code 0)) ++ (.whole [.code 0 (Header.classHead c)] ++ (.whole [.code 0 "\x7b"] ++
        (.whole [] ++ (.whole [] ++ (.whole (Header.labelLines false true) ++
          (Header.members style c.name true c.members ++ (.whole [] ++ (.whole [.code 0 "\x7d;"] ++
            (.whole ((assertion options s c.name).map (.assertion c.name)).toList ++
              (.whole (style.packClosing.map (.code 0)) ++ (.whole [.code 0 ""] ++ .whole []))))))))))) := by
    simp only [Header.classLines, Header.classOpening, Header.classClosing, Trail.append_assoc, Header.labelLines,
      HeaderLine.blank, Trail.whole_append_whole, Trail.whole_append_whole_append]
    simp
  rw [htrail]
  exact (writes_lines _).seq <| (writes_line _).seq <| (writes_line _).seq <|
    (writes_indentBy 1 rfl).seq <| (writes_setRegion false).seq <| (writes_enterRegion false true).seq <|
    (writes_members c.name true c.members).seq <| (writes_indentBy 0 rfl).seq <| (writes_line _).seq <|
    writes_askSize <| (writes_assertSize options c.name).seq <| (writes_lines _).seq <| (writes_line _).seq <|
    writes_setRegion true

/-! ### Declarations -/

theorem writes_declaration (options : HeaderOptions) (d : Declaration) : Writes style s outside outside
    (declaration style options d) (Header.declaration style (assertion options s) d) := by
  cases d with
  | ofClass c => exact writes_ofClass options c
  | ofFunction f => exact writes_trampoline 0 false f
  | ofVariable v => exact writes_global v
  | ofRawBlock r => exact writes_verbatim r.code
  | ofParameter p => exact writes_throw

theorem writes_includeLine (i : Include) : Writes style s outside outside (includeLine style i) (Header.includeLine i) := by
  cases i with
  | path text => exact writes_line _
  | missing => exact writes_throw

theorem writes_group {α : Type} {write : α → Writing Unit} {render : α → Rendering}
    (each : ∀ x, Writes style s outside outside (write x) (render x)) (members : List α) :
    Writes style s outside outside (group style write members)
      (Trail.concatMap render members ++ .whole (Header.blankAfter members)) := by
  cases members with
  | nil => exact writes_pure
  | cons x members => exact (writes_forM each (x :: members)).seq (writes_line "")

theorem writes_opening (includes : List Include) (classNames : List String) : Writes style s outside outside
    (opening style includes classNames) (Header.opening style includes classNames) := by
  have hclasses : Writes style s outside outside (group style (fun name => line style s!"class {name};") classNames)
      (Trail.concatMap (fun name => .whole [Header.classLine name]) classNames ++ .whole (Header.blankAfter classNames)) :=
    writes_group (fun name => writes_line _) classNames
  rw [Trail.concatMap_whole] at hclasses
  have htrail : Header.opening style includes classNames =
      .whole [.code 0 style.banner] ++ (.whole [.code 0 style.includeGuard] ++ (.whole [.code 0 ""] ++
        ((Trail.concatMap Header.includeLine includes ++ .whole (Header.blankAfter includes)) ++
          (.whole (classNames.map Header.classLine) ++ .whole (Header.blankAfter classNames))))) := by
    simp only [Header.opening, HeaderLine.blank, Trail.append_assoc, Trail.whole_append_whole,
      Trail.whole_append_whole_append]
    simp
  rw [htrail]
  exact (writes_line _).seq <| (writes_line _).seq <| (writes_line _).seq <|
    (writes_group writes_includeLine includes).seq hclasses

/-- An opening ends early only if the path of an include is missing. --/
theorem opening_fault {includes : List Include} {classNames : List String} {fault : RenderFault}
    (h : (Header.opening style includes classNames).fault = some fault) :
    .missing ∈ includes ∧ fault = .missingInclude := by
  unfold Header.opening at h
  rcases Trail.concatMap_cases Header.includeLine includes with
    ⟨blocks, -, heq⟩ | ⟨before, i, after, blocks, found, rfl, -, hi, heq⟩
  · rw [heq] at h
    cases h
  · rw [heq] at h
    cases i with
    | path => cases hi
    | missing =>
      cases hi
      cases h
      exact ⟨List.mem_append_right _ List.mem_cons_self, rfl⟩

/-- The opening of a header and some declarations after it. --/
theorem writes_through (options : HeaderOptions) (p : Program) (ds : List Declaration) : Writes style s outside outside
    (through style options p ds) (Header.opening style options.includes (p.classes.map (·.name)) ++
      Trail.concatMap (Header.declaration style (assertion options s)) ds) :=
  (writes_opening _ _).seq (writes_forM (writes_declaration options) ds)

end

/-! ### Headers -/

section
variable (style : Style) (options : HeaderOptions) (sizes : Option SizeTable) (p : Program)

/-- A pen before the first line of the header of a program. --/
def start : Pen := .new (sizes.getD (.ofProgram style.target p))

theorem wrote_through (ds : List Declaration) :
    Wrote style (start style sizes p).sizes (start style sizes p) outside
      (Header.opening style options.includes (p.classes.map (·.name)) ++
        Trail.concatMap (Header.declaration style (assertedSize style options sizes p)) ds)
      (through style options p ds (start style sizes p)) :=
  writes_through options p ds (start style sizes p) rfl .refl

/-- A header and the pen that writes it: they have the same lines, and the text of all of them or the fault behind
    them. --/
inductive WrittenBy (style : Style) (written : Written) : EStateM.Result RenderFault Pen Unit → Prop where
  | whole {pen : Pen} (lines : written.lines.map (·.text style) = pen.lines) (code : written.code = .ok pen.text) :
      WrittenBy style written (.ok () pen)
  | early {pen : Pen} {fault : RenderFault} (lines : written.lines.map (·.text style) = pen.lines)
      (code : written.code = .error fault) : WrittenBy style written (.error fault pen)

theorem writeHeader_writtenBy :
    WrittenBy style (writeHeader style options sizes p) (header style options p (start style sizes p)) := by
  have hwrote := wrote_through style options sizes p p.declarations
  change Wrote _ _ _ _ (headerLines style options sizes p) (header style options p (start style sizes p)) at hwrote
  generalize header style options p (start style sizes p) = result at hwrote
  unfold writeHeader
  dsimp only
  cases hwrote with
  | @whole pen complete hlines =>
    rw [complete]
    refine .whole hlines.symm ?_
    rw [text, hlines]
    rfl
  | early incomplete hlines =>
    rw [incomplete]
    exact .early hlines.symm rfl

end

end Pen

/-! ### Declarations on their own -/

/-- The size to look up for a declaration: that of its name, if it is a class. --/
def Declaration.lookedUp (sizeOf? : String → Option Int) : Declaration → Option Int
  | .ofClass c => sizeOf? c.name
  | _ => none

/-- The lines of a declaration on its own. They depend on the declaration, the spelling of the header and the size that
    is looked up for it, and on nothing that stands before or after it. --/
def Header.rendering (style : Style) (size : Option Int) (d : Declaration) : Rendering :=
  Header.declaration style (fun _ => size) d

theorem Header.rendering_lookedUp {style : Style} (sizeOf? : String → Option Int) :
    (fun d => Header.rendering style (d.lookedUp sizeOf?) d) = Header.declaration style sizeOf? := by
  funext d
  cases d <;> rfl

namespace Pen

theorem Wrote.of_whole {style : Style} {s : SizeTable} {pen : Pen} {b : Place} {items : List HeaderLine}
    {result : EStateM.Result RenderFault Pen Unit} (h : Wrote style s pen b (.whole items) result) :
    ∃ next, result = .ok () next ∧ next.place = b ∧ next.lines = pen.lines ++ items.map (·.text style) := by
  cases h with
  | whole _ hlines hend _ => exact ⟨_, rfl, hend, hlines⟩
  | early incomplete => cases incomplete

theorem Wrote.of_fault {style : Style} {s : SizeTable} {pen : Pen} {b : Place} {t : Rendering} {fault : RenderFault}
    {result : EStateM.Result RenderFault Pen Unit} (h : Wrote style s pen b t result) (hfault : t.fault = some fault) :
    ∃ next, result = .error fault next ∧ next.lines = pen.lines ++ t.items.map (·.text style) := by
  cases h with
  | whole complete => cases complete.symm.trans hfault
  | early incomplete hlines =>
    cases incomplete.symm.trans hfault
    exact ⟨_, rfl, hlines⟩

section
variable (style : Style) (options : HeaderOptions) (sizes : Option SizeTable) (p : Program)

/-- The lines of a declaration of the program. --/
def rendering (d : Declaration) : Rendering :=
  Header.rendering style (d.lookedUp (assertedSize style options sizes p)) d

/-- How the header of a program is composed of its opening and a block for each declaration, and where the pen is behind
    each of them; or how it ends early, at the first declaration whose own lines do, or in the opening if the path of an
    include is missing. --/
inductive Composed : EStateM.Result RenderFault Pen Unit → Prop where
  | whole {pen : Pen} {first : List HeaderLine} {blocks : List (List HeaderLine)}
      (opened : Header.opening style options.includes (p.classes.map (·.name)) = .whole first)
      (each : List.Forall₂ (fun d block => rendering style options sizes p d = .whole block) p.declarations blocks)
      (lines : pen.lines = (first ++ blocks.flatten).map (·.text style))
      (between : ∀ k, ∃ middle, through style options p (p.declarations.take k) (start style sizes p) = .ok () middle ∧
        middle.depth = 0 ∧ middle.isPublic = true ∧
        middle.lines = (first ++ (blocks.take k).flatten).map (·.text style)) : Composed (.ok () pen)
  | early {pen : Pen} {fault : RenderFault} {first : List HeaderLine} {before after : List Declaration}
      {d : Declaration} {blocks : List (List HeaderLine)}
      (opened : Header.opening style options.includes (p.classes.map (·.name)) = .whole first)
      (split : p.declarations = before ++ d :: after)
      (each : List.Forall₂ (fun e block => rendering style options sizes p e = .whole block) before blocks)
      (fails : (rendering style options sizes p d).fault = some fault)
      (lines : pen.lines = (first ++ blocks.flatten ++ (rendering style options sizes p d).items).map (·.text style)) :
      Composed (.error fault pen)
  | unopened {pen : Pen} (missing : .missing ∈ options.includes) : Composed (.error .missingInclude pen)

/-- Every header is composed so, and is what the pen writes. --/
theorem header_composed :
    WrittenBy style (writeHeader style options sizes p) (header style options p (start style sizes p)) ∧
    Composed style options sizes p (header style options p (start style sizes p)) := by
  refine ⟨writeHeader_writtenBy style options sizes p, ?_⟩
  have hwrote := wrote_through style options sizes p
  have hrender : rendering style options sizes p = Header.declaration style (assertedSize style options sizes p) :=
    Header.rendering_lookedUp _
  rw [← hrender] at hwrote
  have hheader := hwrote p.declarations
  change Wrote _ _ _ _ _ (header style options p (start style sizes p)) at hheader
  cases hopened : (Header.opening style options.includes (p.classes.map (·.name))).fault with
  | some fault =>
    rw [Trail.append_of_fault hopened] at hheader
    obtain ⟨pen, hpen, -⟩ := hheader.of_fault hopened
    rw [hpen]
    obtain ⟨missing, rfl⟩ := opening_fault hopened
    exact .unopened missing
  | none =>
    have hfirst := Trail.whole_of_fault hopened
    generalize (Header.opening style options.includes (p.classes.map (·.name))).items = first at hfirst
    rw [hfirst] at hwrote hheader
    rcases Trail.concatMap_cases (rendering style options sizes p) p.declarations with
      ⟨blocks, hblocks, heq⟩ | ⟨before, d, after, blocks, fault, hsplit, hblocks, hd, heq⟩
    · rw [heq] at hheader
      obtain ⟨pen, hpen, -, hlines⟩ := hheader.of_whole
      rw [hpen]
      refine .whole hfirst hblocks hlines fun k => ?_
      have hk := hwrote (p.declarations.take k)
      rw [Trail.concatMap_of_whole (List.forall₂_take k hblocks)] at hk
      obtain ⟨middle, hmiddle, hplace, hmore⟩ := hk.of_whole
      exact ⟨middle, hmiddle, congrArg Place.depth hplace, congrArg Place.isPublic hplace, hmore⟩
    · rw [heq] at hheader
      obtain ⟨pen, hpen, hlines⟩ := hheader.of_fault rfl
      rw [hpen]
      refine .early hfirst hsplit hblocks hd ?_
      rw [hlines, List.append_assoc]
      rfl

end
end Pen
end Overlay
