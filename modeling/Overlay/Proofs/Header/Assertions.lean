import Overlay.Proofs.Build.Names
import Overlay.Proofs.Compile.Outcome
import Overlay.Proofs.Header.Lines
import Overlay.Proofs.Layout.Fields

/-! The assertions of a header. A header asserts sizes of its classes and of nothing else, and it asserts what the
    layout has recorded under the name of the class. That is the size of the class, unless a primitive type has the
    same name: the primitive is then found first, and its size is asserted of the class. -/

namespace Overlay

/-! ### Lines that assert nothing -/

/-- Lines without an assertion. --/
def AssertsNothing (t : Rendering) : Prop := ∀ name n, .assertion name n ∉ t.items

theorem CodeOnly.assertsNothing {t : Rendering} (h : CodeOnly t) : AssertsNothing t := fun name n hline => by
  obtain ⟨depth, text, heq⟩ := h _ hline
  cases heq

namespace Header
variable {style : Style}

theorem assertsNothing_append {t u : Rendering} (ht : AssertsNothing t) (hu : AssertsNothing u) :
    AssertsNothing (t ++ u) := fun name n h => by
  rcases Trail.mem_append.mp h with h | ⟨-, h⟩
  · exact ht name n h
  · exact hu name n h

theorem assertsNothing_member {className : String} {d : Declaration} : AssertsNothing (member style className d) := by
  cases d with
  | ofRawBlock r => simp [AssertsNothing, member, Trail.whole]
  | _ => exact (codeOnly_member rfl).assertsNothing

theorem assertsNothing_members {className : String} : ∀ {isOpen : Bool} {ds : List Declaration},
    AssertsNothing (members style className isOpen ds)
  | _, [] => by simp [AssertsNothing, members, Trail.whole]
  | isOpen, d :: _ => by
    have hlabel : AssertsNothing (.whole (labelLines isOpen (accessAfter isOpen d))) := by
      unfold labelLines
      split <;> simp [AssertsNothing, Trail.whole]
    exact assertsNothing_append (assertsNothing_append hlabel assertsNothing_member) assertsNothing_members

/-! ### What is asserted -/

theorem mem_classLines {size : Option Int} {c : Class} (h : (classLines style size c).fault = none) {name : String}
    {n : Int} : .assertion name n ∈ (classLines style size c).items ↔ c.name = name ∧ size = some n := by
  obtain ⟨hmembers, -⟩ := Trail.fault_of_append h
  rw [classLines, Trail.mem_append, Trail.mem_append]
  have hopening : .assertion name n ∉ (Trail.whole (classOpening style c) : Rendering).items := by
    simp [Trail.whole, classOpening]
  have hclosing : .assertion name n ∈ (Trail.whole (classClosing style size c) : Rendering).items ↔
      c.name = name ∧ size = some n := by
    cases size <;> simp [Trail.whole, classClosing, HeaderLine.blank, eq_comm]
  simp only [hopening, hclosing, hmembers, assertsNothing_members name n, and_false, false_or, true_and]

theorem mem_declaration {sizeOf? : String → Option Int} {d : Declaration}
    (h : (declaration style sizeOf? d).fault = none) {name : String} {n : Int} :
    .assertion name n ∈ (declaration style sizeOf? d).items ↔
      ∃ c, d = .ofClass c ∧ c.name = name ∧ sizeOf? name = some n := by
  cases d with
  | ofClass c =>
    rw [declaration, mem_classLines h]
    constructor
    · rintro ⟨rfl, hsize⟩
      exact ⟨c, rfl, rfl, hsize⟩
    · rintro ⟨_, ⟨⟩, rfl, hsize⟩
      exact ⟨rfl, hsize⟩
  | ofRawBlock r => simp [declaration, Trail.whole]
  | _ =>
    refine iff_of_false ((codeOnly_declaration ?_ ?_).assertsNothing name n) (by simp) <;> rfl

end Header

/-- A header asserts the sizes that are known of its classes. --/
theorem mem_headerLines {style : Style} {options : HeaderOptions} {sizes : Option SizeTable} {p : Program}
    (h : (headerLines style options sizes p).fault = none) {name : String} {n : Int} :
    .assertion name n ∈ (headerLines style options sizes p).items ↔
      (∃ c ∈ p.classes, c.name = name) ∧ assertedSize style options sizes p name = some n := by
  obtain ⟨hopening, hdeclarations⟩ := Trail.fault_of_append h
  rw [headerLines, Trail.mem_append, Trail.mem_concatMap hdeclarations]
  simp only [Header.codeOnly_opening.assertsNothing name n, false_or, hopening, true_and]
  constructor
  · rintro ⟨d, hd, hline⟩
    obtain ⟨c, rfl, hname, hsize⟩ := (Header.mem_declaration (Trail.fault_of_concatMap hdeclarations hd)).mp hline
    exact ⟨⟨c, Program.mem_classes.mpr hd, hname⟩, hsize⟩
  · rintro ⟨⟨c, hc, hname⟩, hsize⟩
    have hd := Program.mem_classes.mp hc
    exact ⟨_, hd, (Header.mem_declaration (Trail.fault_of_concatMap hdeclarations hd)).mpr ⟨c, rfl, hname, hsize⟩⟩

/-! ### Sizes that are laid out -/

namespace Layout

/-- The size of a class as it is laid out at `i`: where its last field ends, if the size of that field is known; and
    without fields, where they would begin, if there is something before. --/
def LaidOutSize (target : Target) (p : Program) (i : Nat) (c resolved : Class) (n : Int) : Prop :=
  match resolved.fields.getLast? with
  | some last =>
    ∃ (offset : Nat) (k : Int), last.offset = some offset ∧ FieldSizeKnown target p i last k ∧ n = offset + k
  | none => fieldsBegin (settledBefore target p i) c = some n ∧ 0 < n

theorem recordedSize?_iff {word : Int} (hword : 0 < word) {p q : Program} (hp : p.WellBound)
    (laidOut : (layout (.ofPointerSize word) p).program = .ok q) {i : Nat} {c : Class}
    (hc : p.declarations[i]? = some (.ofClass c)) :
    ∃ resolved, q.declarations[i]? = some (.ofClass resolved) ∧ resolved.name = c.name ∧ ∀ n,
      recordedSize? (.ofPointerSize word) p c.name = some (some n) ↔
        LaidOutSize (.ofPointerSize word) p i c resolved n := by
  obtain ⟨l, hl, hq, -⟩ := layout_class laidOut hc
  have hlt : i < p.declarations.length := (List.getElem?_eq_some_iff.mp hc).1
  have hbound : c.WellBound := hp.declarations _ (List.mem_of_getElem? hc)
  obtain ⟨members, last, placed, hresolved, hsize, -⟩ := placed_of_layoutClass hbound hl
  have hrecorded : recordedSize? (.ofPointerSize word) p c.name = some l.size := by
    rw [recordedSize?, ← settledBefore_length]
    exact sizeLedger.lookup_eq_of_lt laidOut hp.names hc hl hlt
  have hmembers : l.resolved.fields = members.filterMap Declaration.toVariable? := by
    rw [hresolved]
    rfl
  have tiled := placed.tiled (settledBefore_growing hp hword i)
  rw [← hmembers] at tiled
  obtain ⟨hfields, hnone⟩ := tiled.endsObject
  refine ⟨l.resolved, hq, resolved_name hl, fun n => ?_⟩
  rw [hrecorded, Option.some.injEq, hsize, LaidOutSize]
  cases hlast : l.resolved.fields.getLast? with
  | none => exact hnone (List.getLast?_eq_none_iff.mp hlast) n
  | some v =>
    rw [hfields v hlast n]
    simp only [fieldSizeKnown_iff hp hword laidOut (Nat.le_of_lt hlt)]

end Layout

/-! ### Compilations that succeed -/

theorem writeHeader_eq_ok {style : Style} {options : HeaderOptions} {sizes : Option SizeTable} {p : Program}
    {code : String} (h : (writeHeader style options sizes p).code = .ok code) :
    (headerLines style options sizes p).fault = none ∧
      (writeHeader style options sizes p).lines = (headerLines style options sizes p).items ∧
      code = headerText style (headerLines style options sizes p).items := by
  unfold writeHeader at h ⊢
  dsimp only at h ⊢
  split at h
  · cases h
  · rename_i hfault
    cases h
    rw [hfault]
    exact ⟨rfl, rfl, rfl⟩

theorem draft_eq_ok {s : Settings} {source code : String} (h : (s.draft source).code = .ok code) :
    ∃ file p q, parse (lex source).tokens = .ok file ∧ (s.programOf file).program = .ok p ∧
      (s.layoutOf p).program = .ok q ∧ (s.headerOf q (some (s.layoutOf p).sizes)).code = .ok code := by
  unfold Settings.draft at h
  dsimp only at h
  split at h
  · split at h
    · rename_i file hfile
      unfold Settings.draftEvents at h
      dsimp only at h
      split at h
      · cases h
      · rename_i p hp
        unfold Settings.draftProgram at h
        dsimp only at h
        split at h
        · cases h
        · rename_i q hq
          split at h
          · cases h
          · rename_i written hwritten
            cases h
            exact ⟨file, p, q, hfile, hp, hq, hwritten⟩
    · cases h
  · cases h

theorem failed_ne_success {failure : Failure} {warnings : List String} {notices : List Notice} {code : String}
    {outputFile : Option String} {others : List String} :
    (Compilation.failed failure warnings notices).outcome ≠ .ok (.success code outputFile others) := by
  cases failure <;> simp [Compilation.failed]

theorem code_of_deliver {files : Files Id} {output outputFile : Option String} {d : Draft} {code : String}
    {warnings : List String} (h : Compilation.outcome (Settings.deliver files output d) =
      .ok (.success code outputFile warnings)) : d.code = .ok code := by
  unfold Settings.deliver at h
  cases hcode : d.code with
  | error failure =>
    simp only [hcode] at h
    exact absurd h failed_ne_success
  | ok code =>
    simp only [hcode] at h
    split at h
    · cases h
      rfl
    · split at h
      · exact absurd h failed_ne_success
      · simp only [bind, pure] at h
        split at h
        · cases h
          rfl
        · exact absurd h failed_ne_success

/-- A compilation whose stages all succeed gives the header of the last one. --/
theorem compileText_of_stages {s : Settings} {files : Files Id} {source : String} {file : FileNode} {p q : Program}
    {lines : List HeaderLine} (lexed : (lex source).faults = []) (parsed : parse (lex source).tokens = .ok file)
    (built : (s.programOf file).program = .ok p) (laidOut : (s.layoutOf p).program = .ok q)
    (written : headerLines s.style s.options (some (s.layoutOf p).sizes) q = .whole lines) :
    Compilation.outcome (s.compileText files source none) =
      .ok (.success (headerText s.style lines) none (s.programOf file).warnings) := by
  have hheader : (s.headerOf q (some (s.layoutOf p).sizes)).code = .ok (headerText s.style lines) := by
    simp [Settings.headerOf, writeHeader, written, Trail.whole]
  have hdraft : (s.draft source).code = .ok (headerText s.style lines) := by
    rw [draft_of_layout lexed parsed built laidOut, hheader]
    rfl
  have hwarnings : (s.programOf file).warnings = [] := warnings_of_parse s.strict (wellFormed_of_parse parsed)
  rw [Settings.compileText, deliver_of_ok hdraft, draft_warnings, hwarnings]
  rfl

/-! ### Asserted sizes -/

/-- Lines that assert of every class the size that it is laid out with, if that is known, and nothing otherwise; or the
    size of the primitive type that has the name of the class, if there is one. --/
def AssertsSizes (target : Target) (p q : Program) (lines : List HeaderLine) : Prop :=
  ∀ (i : Nat) (c : Class), p.declarations[i]? = some (.ofClass c) → ∃ resolved,
    q.declarations[i]? = some (.ofClass resolved) ∧ resolved.name = c.name ∧ ∀ n, .assertion c.name n ∈ lines ↔
      match target.primitives.lookup c.name with
      | none => Layout.LaidOutSize target p i c resolved n
      | some size => n = size

/-- Every compilation with assertions that succeeds gives a header that asserts the sizes of the classes of its source,
    where the name of a primitive type stands for that type. An assertion is written with the name and the size. --/
theorem assertions_state_sizes {strict : Bool} {options : HeaderOptions} {pointerSize : Option Int}
    {environment : Option String} {s : Settings} (setup : Settings.new strict options pointerSize environment = .ok s)
    (asserts : options.sizeAssertions = true) (files : Files Id) {source code : String}
    {output outputFile : Option String} {warnings : List String}
    (compiled : Compilation.outcome (s.compileText files source output) = .ok (.success code outputFile warnings)) :
    ∃ file p q, parse (lex source).tokens = .ok file ∧ (s.programOf file).program = .ok p ∧
      (s.layoutOf p).program = .ok q ∧
      (∀ className n, (HeaderLine.assertion className n).text s.style =
        s!"static_assert(sizeof({className}) == {Hexadecimal.address n}, \"Unexpected class size\");") ∧
      ∃ lines, code = String.intercalate "\n" (lines.map (·.text s.style)) ++ "\n" ∧
        (s.headerOf q (some (s.layoutOf p).sizes)).lines = lines ∧ AssertsSizes s.style.target p q lines := by
  obtain ⟨word, hword, rfl⟩ := settings_eq_ok setup
  obtain ⟨file, p, q, parsed, built, laidOut, written⟩ := draft_eq_ok (code_of_deliver compiled)
  refine ⟨file, p, q, parsed, built, laidOut, HeaderLine.text_assertion_ofTarget _, ?_⟩
  obtain ⟨hfault, hlines, hcode⟩ := writeHeader_eq_ok written
  refine ⟨_, hcode, hlines, fun i c hc => ?_⟩
  have hp : p.WellBound := wellBound_of_build built
  have hclass : c ∈ p.classes := List.mem_filterMap.mpr ⟨_, List.mem_of_getElem? hc, rfl⟩
  have hname : IsName c.name := isName_of_build parsed built c hclass
  obtain ⟨resolved, hq, hresolved, hsize⟩ := Layout.recordedSize?_iff hword hp laidOut hc
  refine ⟨resolved, hq, hresolved, fun n => ?_⟩
  have hdeclared : ∃ d ∈ q.classes, d.name = c.name :=
    ⟨resolved, List.mem_filterMap.mpr ⟨_, List.mem_of_getElem? hq, rfl⟩, hresolved⟩
  have growing := Layout.settledBefore_growing hp hword p.declarations.length
  rw [Layout.settledBefore_length] at growing
  rw [mem_headerLines hfault, assertedSize, if_pos asserts, Option.getD_some]
  simp only [hdeclared, true_and]
  trans
  · exact hname.sizeOf?_eq_some_iff growing
  · cases hprimitive : Target.defaultPrimitives.lookup c.name with
    | none =>
      have hlookup : (Target.ofPointerSize word).primitives.lookup c.name = none := hprimitive
      simp only [Style.ofTarget, hlookup, reduceCtorEq, false_or, true_and]
      exact hsize n
    | some size =>
      have hlookup : (Target.ofPointerSize word).primitives.lookup c.name = some size := hprimitive
      simp [Style.ofTarget, hlookup, eq_comm]

/-! A class that holds a pointer, and one that has the name of a primitive type and holds the first one. -/

def namedSource : String := "class Node { Node* next @ 0x0; };\nclass BYTE { Node a @ 0x0; int b; };"

def namedFile : FileNode :=
  ⟨[.ofClass ⟨"Node", [], [.ofVariable ⟨"next", ⟨"Node", 1, ⟨1, 14⟩⟩, some ⟨"0x0", ⟨1, 27⟩⟩, ⟨1, 14⟩⟩], ⟨1, 1⟩⟩,
    .ofClass ⟨"BYTE", [], [.ofVariable ⟨"a", ⟨"Node", 0, ⟨2, 14⟩⟩, some ⟨"0x0", ⟨2, 23⟩⟩, ⟨2, 14⟩⟩,
      .ofVariable ⟨"b", ⟨"int", 0, ⟨2, 28⟩⟩, none, ⟨2, 28⟩⟩], ⟨2, 1⟩⟩], ⟨1, 1⟩⟩

def namedProgram (last : Option Nat) : Program :=
  ⟨[.ofClass ⟨"Node", [], [.ofVariable (Layout.declaredField "next" "Node*" (some 0) 1)], 1⟩,
    .ofClass ⟨"BYTE", [], [.ofVariable (Layout.declaredField "a" "Node" (some 0) 2),
      .ofVariable (Layout.declaredField "b" "int" last 2)], 2⟩]⟩

def assertingSettings : Settings := ⟨true, .ofTarget (.ofPointerSize 4), ⟨true, []⟩⟩

def namedLines : List HeaderLine :=
  [.code 0 "// DO NOT EDIT. THIS FILE WAS GENERATED BY THE RELANG COMPILER", .code 0 "#pragma once", .blank,
    .code 0 "class Node;", .code 0 "class BYTE;", .blank,
    .code 0 "#pragma pack(push)", .code 0 "#pragma pack(1)", .code 0 "class Node", .code 0 "\x7b", .access true,
    .code 1 "Node* next; // offset 0x0", .code 0 "\x7d;", .assertion "Node" 4, .code 0 "#pragma pack(pop)", .blank,
    .code 0 "#pragma pack(push)", .code 0 "#pragma pack(1)", .code 0 "class BYTE", .code 0 "\x7b", .access true,
    .code 1 "Node a; // offset 0x0", .code 1 "int b; // offset 0x4", .code 0 "\x7d;", .assertion "BYTE" 1,
    .code 0 "#pragma pack(pop)", .blank]

theorem parse_named : parse (lex namedSource).tokens = .ok namedFile := by
  with_unfolding_all rfl

theorem built_named : (assertingSettings.programOf namedFile).program = .ok (namedProgram none) := by
  with_unfolding_all rfl

theorem layout_named : (assertingSettings.layoutOf (namedProgram none)).program = .ok (namedProgram (some 4)) := by
  with_unfolding_all rfl

theorem headerLines_named : headerLines assertingSettings.style assertingSettings.options
    (some (assertingSettings.layoutOf (namedProgram none)).sizes) (namedProgram (some 4)) = .whole namedLines := by
  with_unfolding_all rfl

theorem compileText_named : Compilation.outcome (assertingSettings.compileText noFiles namedSource none) =
    .ok (.success (headerText assertingSettings.style namedLines) none []) :=
  compileText_of_stages (by with_unfolding_all rfl) parse_named built_named layout_named headerLines_named

theorem assertions_state_sizes_named :
    Settings.new true ⟨true, []⟩ none none = .ok assertingSettings ∧
    Compilation.outcome (assertingSettings.compileText noFiles namedSource none) =
      .ok (.success (headerText assertingSettings.style namedLines) none []) ∧
    ∃ file p q, parse (lex namedSource).tokens = .ok file ∧ (assertingSettings.programOf file).program = .ok p ∧
      (assertingSettings.layoutOf p).program = .ok q ∧
      (∀ className n, (HeaderLine.assertion className n).text assertingSettings.style =
        s!"static_assert(sizeof({className}) == {Hexadecimal.address n}, \"Unexpected class size\");") ∧
      ∃ lines, headerText assertingSettings.style namedLines =
          String.intercalate "\n" (lines.map (·.text assertingSettings.style)) ++ "\n" ∧
        (assertingSettings.headerOf q (some (assertingSettings.layoutOf p).sizes)).lines = lines ∧
        AssertsSizes assertingSettings.style.target p q lines :=
  have setup : Settings.new true ⟨true, []⟩ none none = .ok assertingSettings := rfl
  ⟨setup, compileText_named, assertions_state_sizes setup rfl noFiles compileText_named⟩

/-- A class of eight bytes of which a size of one is asserted, as its name is that of a primitive type. --/
theorem asserts_size_of_primitive :
    Compilation.outcome (assertingSettings.compileText noFiles namedSource none) =
      .ok (.success (headerText assertingSettings.style namedLines) none []) ∧
    parse (lex namedSource).tokens = .ok namedFile ∧
    (assertingSettings.programOf namedFile).program = .ok (namedProgram none) ∧
    (assertingSettings.layoutOf (namedProgram none)).program = .ok (namedProgram (some 4)) ∧
    .assertion "BYTE" 1 ∈ namedLines ∧ .assertion "BYTE" 8 ∉ namedLines ∧
    "static_assert(sizeof(BYTE) == 0x1, \"Unexpected class size\");" ∈
      namedLines.map (·.text assertingSettings.style) ∧
    ∃ c resolved, (namedProgram none).declarations[1]? = some (.ofClass c) ∧ c.name = "BYTE" ∧
      (namedProgram (some 4)).declarations[1]? = some (.ofClass resolved) ∧
      Layout.LaidOutSize (.ofPointerSize 4) (namedProgram none) 1 c resolved 8 := by
  have asserted : .assertion "BYTE" 1 ∈ namedLines := by simp [namedLines]
  have written : "static_assert(sizeof(BYTE) == 0x1, \"Unexpected class size\");" ∈
      namedLines.map (·.text assertingSettings.style) :=
    List.mem_map.mpr ⟨_, asserted, by with_unfolding_all rfl⟩
  refine ⟨compileText_named, parse_named, built_named, layout_named, asserted,
    by simp [namedLines, HeaderLine.blank], written, _, _, rfl, rfl, rfl, ?_⟩
  exact ⟨4, 4, rfl, ⟨4, .primitive (by decide +kernel) (by decide +kernel), rfl⟩, rfl⟩

end Overlay
