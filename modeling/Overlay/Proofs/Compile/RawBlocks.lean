import Overlay.Proofs.Compile.StepByStep
import Overlay.Proofs.Header.Blocks
import Overlay.Proofs.Tree.RawBlocks

/-! Raw blocks from a source to its header. The header holds the content of every raw block of the source as one line of
    its own, unchanged and in the order of the source: inside the class that the raw block stands in, or between the lines
    of the declarations before and after it. -/

namespace Overlay

/-! ### Raw blocks of declarations -/

/-- The raw blocks of a declaration, those of the members of a class included. --/
def Declaration.rawBlocks : Declaration → List RawBlock
  | .ofClass c => c.rawBlocks
  | d => d.toRawBlock?.toList

/-- The raw lines among lines, as they are written. --/
def rawTexts (style : Style) (lines : List HeaderLine) : List String :=
  (lines.filter (·.isRaw)).map (·.text style)

section
variable {style : Style}

theorem rawTexts_append (lines more : List HeaderLine) :
    rawTexts style (lines ++ more) = rawTexts style lines ++ rawTexts style more := by
  simp [rawTexts]

theorem NoRaw.rawTexts {lines : List HeaderLine} (h : NoRaw lines) : rawTexts style lines = [] := by
  rw [Overlay.rawTexts, List.filter_eq_nil_iff.mpr fun l hl => by simp [h l hl]]
  rfl

theorem Header.MemberBlock.rawTexts {className : String} {d : Declaration} {lines : List HeaderLine}
    (h : MemberBlock style className d lines) : rawTexts style lines = d.toRawBlock?.toList.map (·.code) := by
  cases h with
  | rawBlock r => rfl
  | other noRawBlock _ _ _ noRaw =>
    rw [noRaw.rawTexts, noRawBlock]
    rfl

theorem rawTexts_blocks {α : Type} {R : α → List HeaderLine → Prop} {codes : α → List String}
    (h : ∀ a block, R a block → rawTexts style block = codes a) {as : List α} {blocks : List (List HeaderLine)}
    (rel : List.Forall₂ R as blocks) : rawTexts style blocks.flatten = as.flatMap codes := by
  induction rel with
  | nil => rfl
  | cons head _ ih => rw [List.flatten_cons, rawTexts_append, h _ _ head, ih, List.flatMap_cons]

theorem Header.Block.rawTexts {sizeOf? : String → Option Int} {d : Declaration} {lines : List HeaderLine}
    (h : Block style sizeOf? d lines) : rawTexts style lines = d.rawBlocks.map (·.code) := by
  cases h with
  | rawBlock r => rfl
  | @ofClass c blocks members =>
    have hmembers : Overlay.rawTexts style blocks.flatten = c.rawBlocks.map (·.code) := by
      rw [rawTexts_blocks (R := MemberBlock style c.name) (fun _ _ => MemberBlock.rawTexts) members, Class.rawBlocks,
        List.filterMap_eq_flatMap_toList, List.map_flatMap]
    rw [rawTexts_append, rawTexts_append, (noRaw_classOpening c).rawTexts, (noRaw_classClosing _ c).rawTexts, hmembers,
      List.nil_append, List.append_nil]
    rfl
  | other noClass noRawBlock _ noRaw =>
    rw [noRaw.rawTexts]
    cases d with
    | ofClass => cases noClass
    | ofRawBlock => cases noRawBlock
    | _ => rfl

end

/-! ### Raw blocks of nodes -/

theorem Node.ownRawBlock_toMember (n : Node) :
    (n.toMember?.bind Declaration.toRawBlock?).toList = n.ownRawBlock.map RawBlockNode.toRawBlock := by
  cases n <;> rfl

/-- The declaration of a node has the raw blocks of the node. --/
theorem rawBlocks_toDeclaration {n : Node} {d : Declaration} (h : n.toDeclaration? = some d) :
    d.rawBlocks = n.rawBlocks.map RawBlockNode.toRawBlock := by
  cases n with
  | ofClass c =>
    cases h
    change (c.members.filterMap Node.toMember?).filterMap Declaration.toRawBlock? = _
    rw [List.filterMap_filterMap, List.filterMap_eq_flatMap_toList, Node.rawBlocks, List.map_flatMap]
    simp only [Node.ownRawBlock_toMember]
  | ofFunction | ofVariable | ofRawBlock =>
    cases h
    rfl
  | _ => cases h

/-! ### Blocks of a source -/

section
variable {α β γ : Type}

theorem forall₂_trans {R : α → β → Prop} {S : β → γ → Prop} {T : α → γ → Prop} (h : ∀ a b c, R a b → S b c → T a c)
    {as : List α} {bs : List β} {cs : List γ} (rel : List.Forall₂ R as bs) (rel' : List.Forall₂ S bs cs) :
    List.Forall₂ T as cs := by
  induction rel generalizing cs with
  | nil =>
    cases rel'
    exact .nil
  | cons head _ ih =>
    cases rel' with
    | cons head' tail' => exact .cons (h _ _ _ head head') (ih tail')

theorem forall₂_filterMap {f : α → Option β} : ∀ {as : List α}, (∀ a ∈ as, (f a).isSome) →
    List.Forall₂ (fun a b => f a = some b) as (as.filterMap f)
  | [], _ => .nil
  | a :: as, h => by
    obtain ⟨b, hb⟩ := Option.isSome_iff_exists.mp (h a List.mem_cons_self)
    rw [List.filterMap_cons_some hb]
    exact .cons hb (forall₂_filterMap fun a ha => h a (List.mem_cons_of_mem _ ha))

end

/-- The lines of a file: those of the opening, and then a block for each node of the tree. --/
def InBlocks (style : Style) (options : HeaderOptions) (file : FileNode) (lines : List HeaderLine) : Prop :=
  ∃ sizeOf? opening blocks, lines = opening ++ blocks.flatten ∧
    Header.opening style options.includes (file.program.classes.map (·.name)) = .whole opening ∧
    List.Forall₂ (fun n block => ∃ d, n.toDeclaration? = some d ∧ Header.Block style sizeOf? d block)
      file.declarations blocks

theorem InBlocks.rawTexts {style : Style} {options : HeaderOptions} {file : FileNode} {lines : List HeaderLine}
    (h : InBlocks style options file lines) :
    rawTexts style lines = (file.declarations.flatMap Node.rawBlocks).map (·.toRawBlock.code) := by
  obtain ⟨sizeOf?, opening, blocks, rfl, hopening, rel⟩ := h
  rw [rawTexts_append, (Header.codeOnly_opening.noRaw hopening).rawTexts, List.nil_append, List.map_flatMap]
  refine rawTexts_blocks (fun n block ⟨d, hd, hblock⟩ => ?_) rel
  rw [hblock.rawTexts, rawBlocks_toDeclaration hd, List.map_map]
  rfl

theorem names_of_grouped {ds es : List Declaration} (h : List.Forall₂ (Layout.LaidOutAs Layout.GroupedClass) ds es) :
    (es.filterMap Declaration.toClass?).map (·.name) = (ds.filterMap Declaration.toClass?).map (·.name) := by
  induction h with
  | nil => rfl
  | cons head _ ih =>
    cases head with
    | ofClass grouped => exact congrArg₂ (· :: ·) grouped.name ih
    | other noClass => rwa [List.filterMap_cons_none noClass, List.filterMap_cons_none noClass]

section
variable {s : Settings} {file : FileNode} {p q : Program}

theorem inBlocks_of_written (hformed : file.WellFormed) (built : (s.programOf file).program = .ok p)
    (laidOut : (s.layoutOf p).program = .ok q) {sizes : Option SizeTable} {lines : List HeaderLine}
    (written : headerLines s.style s.options sizes q = .whole lines) : InBlocks s.style s.options file lines := by
  obtain ⟨opening, body, hopening, hbody, rfl⟩ := Trail.append_eq_whole written
  obtain ⟨blocks, hblocks, rfl⟩ := Trail.concatMap_eq_whole hbody
  -- Nodes stand for declarations, which are laid out, which are written.
  have program : p = file.program := by
    have hbuilt : (build s.strict (file.events none)).program = .ok p := built
    rw [build_program s.strict hformed] at hbuilt
    split at hbuilt <;> cases hbuilt
    rfl
  have grouped := Layout.grouped_of_layout (wellBound_of_build built) laidOut
  rw [program] at grouped
  have declared : List.Forall₂ (Header.Block s.style (assertedSize s.style s.options sizes q)) file.program.declarations
      blocks := by
    refine forall₂_trans (fun d e block hgrouped hwritten => ?_) grouped hblocks
    exact Header.block_of_laidOut hgrouped hwritten
  refine ⟨_, opening, blocks, rfl, ?_, forall₂_trans (fun _ _ _ hd hblock => ⟨_, hd, hblock⟩)
    (forall₂_filterMap hformed.translatable.declarations) declared⟩
  rw [← hopening]
  exact congrArg _ (names_of_grouped grouped).symm

end

/-- The raw blocks of every source that compiles, found by their fences alone, are in its header one by one: each is a line
    of its own, unchanged and in the order of the source. The lines are blocks, one for each declaration and in a class
    for each member, and a raw block is its own block. --/
theorem raw_blocks_stay (s : Settings) (files : Files Id) {source code : String} {output outputFile : Option String}
    {warnings : List String}
    (compiled : Compilation.outcome (s.compileText files source output) = .ok (.success code outputFile warnings)) :
    ∃ file p q lines, parse (lex source).tokens = .ok file ∧ (s.programOf file).program = .ok p ∧
      (s.layoutOf p).program = .ok q ∧ (s.headerOf q (some (s.layoutOf p).sizes)).lines = lines ∧
      code = String.intercalate "\n" (lines.map (·.text s.style)) ++ "\n" ∧
      rawTexts s.style lines = rawContents source ∧
      rawContents source = (file.declarations.flatMap Node.rawBlocks).map (·.toRawBlock.code) ∧
      InBlocks s.style s.options file lines := by
  have hcode := code_of_deliver compiled
  obtain ⟨file, p, q, parsed, built, laidOut, written⟩ := draft_eq_ok hcode
  obtain ⟨hfault, hlines, htext⟩ := writeHeader_eq_ok written
  have inBlocks := inBlocks_of_written (wellFormed_of_parse parsed) built laidOut (Trail.whole_of_fault hfault)
  have contents : rawContents source = (file.declarations.flatMap Node.rawBlocks).map (·.toRawBlock.code) := by
    rw [rawContents_eq (faults_of_draft hcode), rawBlocks_of_parse parsed]
  exact ⟨file, p, q, _, parsed, built, laidOut, hlines, htext, inBlocks.rawTexts.trans contents.symm, contents, inBlocks⟩

/-! Three raw blocks, of which one stands in a class behind a pad, and the fences of a comment. -/

def fencedSource : String :=
  "\x60\x60\x60#include <x>\x60\x60\x60 // \x60\x60\x60no\x60\x60\x60\n" ++
  "class A \x7b int x @ 0x4; \x60\x60\x60 // y; \x60\x60\x60 int z; \x7d;\n\x60\x60\x60/* z */\x60\x60\x60"

def fencedFile : FileNode :=
  ⟨[.ofRawBlock ⟨"\x60\x60\x60#include <x>\x60\x60\x60", ⟨1, 1⟩⟩,
    .ofClass ⟨"A", [], [.ofVariable ⟨"x", ⟨"int", 0, ⟨2, 11⟩⟩, some ⟨"0x4", ⟨2, 19⟩⟩, ⟨2, 11⟩⟩,
      .ofRawBlock ⟨"\x60\x60\x60 // y; \x60\x60\x60", ⟨2, 24⟩⟩,
      .ofVariable ⟨"z", ⟨"int", 0, ⟨2, 38⟩⟩, none, ⟨2, 38⟩⟩], ⟨2, 1⟩⟩,
    .ofRawBlock ⟨"\x60\x60\x60/* z */\x60\x60\x60", ⟨3, 1⟩⟩], ⟨1, 1⟩⟩

def fencedProgram (pads : List Declaration) (last : Option Nat) : Program :=
  ⟨[.ofRawBlock ⟨"#include <x>", 1⟩,
    .ofClass ⟨"A", [], pads ++ [.ofVariable (Layout.declaredField "x" "int" (some 4) 2), .ofRawBlock ⟨" // y; ", 2⟩,
      .ofVariable (Layout.declaredField "z" "int" last 2)], 2⟩,
    .ofRawBlock ⟨"/* z */", 3⟩]⟩

def fencedLines : List HeaderLine :=
  [.code 0 "// DO NOT EDIT. THIS FILE WAS GENERATED BY THE RELANG COMPILER", .code 0 "#pragma once", .blank,
    .code 0 "class A;", .blank, .raw "#include <x>",
    .code 0 "#pragma pack(push)", .code 0 "#pragma pack(1)", .code 0 "class A", .code 0 "\x7b",
    .access true, .access false, .code 1 "char pad_0[4]; // offset 0x0", .access true, .code 1 "int x; // offset 0x4",
    .raw " // y; ", .code 1 "int z; // offset 0x8", .code 0 "\x7d;", .assertion "A" 12, .code 0 "#pragma pack(pop)",
    .blank, .raw "/* z */"]

theorem parse_fenced : parse (lex fencedSource).tokens = .ok fencedFile := by
  with_unfolding_all rfl

theorem built_fenced : (assertingSettings.programOf fencedFile).program = .ok (fencedProgram [] none) := by
  with_unfolding_all rfl

theorem layout_fenced : (assertingSettings.layoutOf (fencedProgram [] none)).program =
    .ok (fencedProgram [.ofVariable (.pad 0 4)] (some 8)) := by
  with_unfolding_all rfl

theorem headerLines_fenced : headerLines assertingSettings.style assertingSettings.options
    (some (assertingSettings.layoutOf (fencedProgram [] none)).sizes) (fencedProgram [.ofVariable (.pad 0 4)] (some 8)) =
      .whole fencedLines := by
  with_unfolding_all rfl

theorem compileText_fenced : Compilation.outcome (assertingSettings.compileText noFiles fencedSource none) =
    .ok (.success (headerText assertingSettings.style fencedLines) none []) :=
  compileText_of_stages (by with_unfolding_all rfl) parse_fenced built_fenced layout_fenced headerLines_fenced

theorem raw_blocks_stay_fenced :
    Compilation.outcome (assertingSettings.compileText noFiles fencedSource none) =
      .ok (.success (headerText assertingSettings.style fencedLines) none []) ∧
    ∃ file p q lines, parse (lex fencedSource).tokens = .ok file ∧ (assertingSettings.programOf file).program = .ok p ∧
      (assertingSettings.layoutOf p).program = .ok q ∧
      (assertingSettings.headerOf q (some (assertingSettings.layoutOf p).sizes)).lines = lines ∧
      headerText assertingSettings.style fencedLines =
        String.intercalate "\n" (lines.map (·.text assertingSettings.style)) ++ "\n" ∧
      rawTexts assertingSettings.style lines = rawContents fencedSource ∧
      rawContents fencedSource = (file.declarations.flatMap Node.rawBlocks).map (·.toRawBlock.code) ∧
      InBlocks assertingSettings.style assertingSettings.options file lines :=
  ⟨compileText_fenced, raw_blocks_stay assertingSettings noFiles compileText_fenced⟩

end Overlay
