import Mathlib.Data.List.Forall2
import Overlay.Proofs.Compile.RawBlocks
import Overlay.Proofs.Header.Regions
import Overlay.Proofs.Text.WrittenAddress
import Overlay.Proofs.Tree.Addresses

/-! Addresses from a source to its header. The header of a source that compiles has a block for each declaration, and
    the number that is written in it is the one that the literal of the declaration denotes: the address that a function
    calls, the address that a variable refers to, and the offset of a field in its comment. --/

namespace Overlay

/-! ### Lines with numbers -/

namespace Header
open Layout
variable {style : Style} {className : String} {isOpen : Bool} {lines : List HeaderLine}

theorem members_singleton {d : Declaration} (written : members style className isOpen [d] = .whole lines) :
    ∃ own, member style className d = .whole own ∧ lines = labelLines isOpen (accessAfter isOpen d) ++ own := by
  obtain ⟨before, more, hbefore, hmore, rfl⟩ := Trail.append_eq_whole written
  obtain ⟨label, own, hlabel, hown, rfl⟩ := Trail.append_eq_whole hbefore
  cases hlabel
  cases hmore
  exact ⟨own, hown, List.append_nil _⟩

theorem global_eq_whole {v : Variable} (written : global v = .whole lines) : ∃ address, v.offset = some address ∧
    lines = [.code 0 s!"inline {v.type}& {v.name} = *({v.type}*){Hexadecimal.address address};", .blank] := by
  unfold global at written
  cases hoffset : v.offset with
  | none =>
    rw [hoffset] at written
    cases written
  | some address =>
    rw [hoffset] at written
    cases written
    exact ⟨address, rfl, rfl⟩

/-- A function that is not virtual has no pads, so its lines are its own behind a label. --/
theorem MemberBlock.function {f : Function} (notVirtual : f.isVirtual = false)
    (h : MemberBlock style className (.ofFunction f) lines) :
    ∃ isOpen address, f.address = some address ∧
      lines = labelLines isOpen f.isPublic ++ trampolineLines style 1 true f address := by
  cases h with
  | @other _ e pads isOpen _ _ padding filled written =>
    have hnil : pads = [] := List.eq_nil_iff_forall_not_mem.mpr fun pad hpad => by
      cases padding pad hpad with
      | slot _ _ isVirtual => exact absurd isVirtual (Bool.eq_false_iff.mp notVirtual)
    subst hnil
    obtain ⟨own, hown, rfl⟩ := members_singleton written
    cases filled with
    | slot isVirtual => exact absurd isVirtual (Bool.eq_false_iff.mp notVirtual)
    | function =>
      rw [member, if_neg (Bool.eq_false_iff.mp notVirtual)] at hown
      obtain ⟨address, haddress, rfl⟩ := trampoline_eq_whole hown
      exact ⟨isOpen, address, haddress, rfl⟩

/-- A field that has declared its offset keeps it, so its last line tells of it. --/
theorem MemberBlock.field {v : Variable} {offset : Nat} (hlength : v.length = none) (given : v.offset = some offset)
    (h : MemberBlock style className (.ofVariable v) lines) : ∃ before,
      lines = before ++ [.code 1 s!"{v.type} {v.name}; // offset {Hexadecimal.address offset}"] := by
  cases h with
  | @other _ e pads _ _ _ _ filled written =>
    rw [members_append] at written
    obtain ⟨before, last, -, hlast, rfl⟩ := Trail.append_eq_whole written
    obtain ⟨own, hown, rfl⟩ := members_singleton hlast
    cases filled with
    | @field _ offset' hsame =>
      obtain rfl := hsame offset given
      have hdeclarator : Variable.declarator? style.digitLimit { v with offset := some offset } = some v.name := by
        rw [Variable.declarator?, hlength]
      rw [member, Header.field, hdeclarator] at hown
      cases hown
      exact ⟨_, (List.append_assoc ..).symm⟩

end Header

/-! ### Nodes and their blocks -/

/-- Lines of which one is written with a call of an address, behind `indents`. --/
def Address.Called (style : Style) (indents : String) (a : Address) (lines : List HeaderLine) : Prop :=
  ∃ before after, lines.map (·.text style) =
    before ++ (indents ++ s!"auto f = reinterpret_cast<Func_t>({Hexadecimal.address a.value});") :: after

/-- Lines of which the last one is written with an address as the offset of a field. --/
def VariableNode.Placed (style : Style) (v : VariableNode) (a : Address) (lines : List HeaderLine) : Prop :=
  ∃ before, lines.map (·.text style) =
    before ++ [style.indent ++ s!"{v.type.text} {v.name}; // offset {Hexadecimal.address a.value}"]

/-- The lines of a member of a class have the number of its literal: the lines of a function that is not virtual call
    it, behind a label or not, and the last line of a field with an address tells of it. --/
def Node.BoundMember (style : Style) : Node → List HeaderLine → Prop
  | .ofFunction f, lines => f.modifier ≠ some "virtual" → ∃ isOpen a, f.address = some a ∧
      lines = Header.labelLines isOpen true ++ Header.trampolineLines style 1 true f.toFunction a.value ∧
      a.Called style (style.indent ++ style.indent) lines
  | .ofVariable v, lines => ∀ a, v.address = some a → v.Placed style a lines
  | _, _ => True

/-- The lines of a declaration have the numbers of its literals, those of the members of a class included: the lines of
    a function call its number, and a variable is one line that refers to it. --/
def Node.Bound (style : Style) : Node → List HeaderLine → Prop
  | .ofClass c, lines => ∃ size blocks, List.Forall₂ (Node.BoundMember style) c.members blocks ∧
      lines = Header.classOpening style c.toClass ++ blocks.flatten ++ Header.classClosing style size c.toClass
  | .ofFunction f, lines => ∃ a, f.address = some a ∧
      lines = Header.trampolineLines style 0 false f.toFunction a.value ∧ a.Called style style.indent lines
  | .ofVariable v, lines => ∃ a, v.address = some a ∧ lines.map (·.text style) =
      [s!"inline {v.type.text}& {v.name} = *({v.type.text}*){Hexadecimal.address a.value};", ""]
  | _, _ => True

section
variable {style : Style} {lines : List HeaderLine}

theorem called_trampolineLines {depth : Nat} {indents : String}
    (h : String.join (List.replicate (depth + 1) style.indent) = indents) (isMember : Bool) (f : Function) (a : Address) :
    a.Called style indents (Header.trampolineLines style depth isMember f a.value) := by
  have written : HeaderLine.text style
      (.code (depth + 1) s!"auto f = reinterpret_cast<Func_t>({Hexadecimal.address a.value});") = _ :=
    HeaderLine.text_code (depth + 1) (by simp [toString])
  refine ⟨((Header.trampolineLines style depth isMember f a.value).take 3).map (·.text style),
    ((Header.trampolineLines style depth isMember f a.value).drop 4).map (·.text style), ?_⟩
  rw [← h, ← written]
  rfl

theorem Address.Called.append {indents : String} {a : Address} (h : a.Called style indents lines)
    (front : List HeaderLine) : a.Called style indents (front ++ lines) := by
  obtain ⟨before, after, hlines⟩ := h
  exact ⟨front.map (·.text style) ++ before, after, by rw [List.map_append, hlines, List.append_assoc]⟩

theorem placed_append (v : VariableNode) (a : Address) (before : List HeaderLine) : v.Placed style a
    (before ++ [.code 1 s!"{v.type.text} {v.name}; // offset {Hexadecimal.address a.value}"]) := by
  refine ⟨before.map (·.text style), ?_⟩
  rw [List.map_append, List.map_singleton, Header.text_member (by simp [toString])]

theorem boundMember_of_block {className : String} {n : Node} {d : Declaration} (hn : n.MemberFormed)
    (hd : n.toMember? = some d) (h : Header.MemberBlock style className d lines) : n.BoundMember style lines := by
  cases n with
  | ofFunction f =>
    cases hd
    intro hmodifier
    have notVirtual : f.toFunction.isVirtual = false :=
      Bool.eq_false_iff.mpr fun h => hmodifier ((toFunction_modifier hn).2.mp h)
    obtain ⟨isOpen, _, haddress, hlines⟩ := h.function notVirtual
    obtain ⟨a, ha, rfl⟩ := Option.map_eq_some_iff.mp haddress
    refine ⟨isOpen, a, ha, hlines, hlines ▸ ?_⟩
    exact (called_trampolineLines (by simp) true f.toFunction a).append _
  | ofVariable v =>
    cases hd
    intro a ha
    have given : v.toVariable.offset = some a.value := congrArg (Option.map Address.value) ha
    have hlength : v.toVariable.length = none := rfl
    obtain ⟨before, hbefore⟩ := h.field hlength given
    exact hbefore ▸ placed_append v a before
  | _ => trivial

theorem bound_of_block {sizeOf? : String → Option Int} {n : Node} {d : Declaration} (hn : n.WellFormed)
    (hd : n.toDeclaration? = some d) (h : Header.Block style sizeOf? d lines) : n.Bound style lines := by
  cases n with
  | ofClass c =>
    cases hd
    cases h with
    | @ofClass _ blocks members =>
      have translated : List.Forall₂ (fun m d => m.MemberFormed ∧ m.toMember? = some d) c.members c.toClass.members :=
        (List.forall₂_and_left _ _).mpr ⟨hn, forall₂_filterMap fun m hm => (hn m hm).isSome⟩
      refine ⟨_, blocks, forall₂_trans (fun m d block hm hblock => ?_) translated members, rfl⟩
      exact boundMember_of_block hm.1 hm.2 hblock
    | other noClass => cases noClass
  | ofFunction f =>
    cases hd
    cases h with
    | other _ _ written =>
      obtain ⟨_, haddress, hlines⟩ := Header.trampoline_eq_whole written
      obtain ⟨a, ha, rfl⟩ := Option.map_eq_some_iff.mp haddress
      exact ⟨a, ha, hlines, hlines ▸ called_trampolineLines (by simp) false f.toFunction a⟩
  | ofVariable v =>
    cases hd
    cases h with
    | other _ _ written =>
      obtain ⟨_, hoffset, hlines⟩ := Header.global_eq_whole written
      obtain ⟨a, ha, rfl⟩ := Option.map_eq_some_iff.mp hoffset
      refine ⟨a, ha, ?_⟩
      rw [hlines, List.map_cons, List.map_singleton, HeaderLine.text_code_zero, HeaderLine.text_blank]
      rfl
  | _ => trivial

end

theorem InBlocks.bound {style : Style} {options : HeaderOptions} {file : FileNode} {lines : List HeaderLine}
    (hformed : file.WellFormed) (h : InBlocks style options file lines) : ∃ opening blocks,
      lines = opening ++ blocks.flatten ∧
      Header.opening style options.includes (file.program.classes.map (·.name)) = .whole opening ∧
      List.Forall₂ (Node.Bound style) file.declarations blocks := by
  obtain ⟨sizeOf?, opening, blocks, hlines, hopening, rel⟩ := h
  refine ⟨opening, blocks, hlines, hopening, ?_⟩
  refine ((List.forall₂_and_left _ _).mpr ⟨hformed, rel⟩).imp ?_
  rintro n block ⟨hn, d, hd, hblock⟩
  exact bound_of_block hn hd hblock

/-! ### Literals and numbers -/

section
variable {a b : Address}

theorem Address.address_value (h : IsAddressLiteral a.text) :
    Hexadecimal.address a.value = Hexadecimal.canonical a.text := Hexadecimal.address_of_literal h

/-- Literals are written alike if and only if they denote the same number. --/
theorem Address.address_eq_iff (ha : IsAddressLiteral a.text) (hb : IsAddressLiteral b.text) :
    Hexadecimal.address a.value = Hexadecimal.address b.value ↔
      Numeral.hexadecimal? a.text = Numeral.hexadecimal? b.text := by
  rw [Build.hexadecimal?_value ha, Build.hexadecimal?_value hb, Option.some.injEq]
  constructor
  · exact fun h => congrArg Nat.cast (Hexadecimal.address_injective h)
  · exact fun h => congrArg Hexadecimal.address h

end

/-- Addresses survive from literals to headers. A number is written as a text that is read as the number. The addresses
    of sources are the literals, `0x` and hexadecimal digits; each is written again with the digits that count in upper
    case, and two are written alike if and only if they denote the same number. And every source that compiles has a
    header with a block for each declaration, where the numbers that are written are those of the literals. --/
theorem addresses_survive :
    (∀ n : Nat, Numeral.hexadecimal? (Hexadecimal.address n) = some (n : Int)) ∧
    (∀ text, IsSourceAddress text ↔ IsAddressLiteral text) ∧
    (∀ a : Address, IsAddressLiteral a.text → Numeral.hexadecimal? a.text = some (a.value : Int) ∧
      Hexadecimal.address a.value = Hexadecimal.canonical a.text) ∧
    (∀ a b : Address, IsAddressLiteral a.text → IsAddressLiteral b.text →
      (Hexadecimal.address a.value = Hexadecimal.address b.value ↔
        Numeral.hexadecimal? a.text = Numeral.hexadecimal? b.text)) ∧
    ∀ (s : Settings) (files : Files Id) (source code : String) (output outputFile : Option String)
      (warnings : List String),
      Compilation.outcome (s.compileText files source output) = .ok (.success code outputFile warnings) →
      ∃ file p q opening blocks, parse (lex source).tokens = .ok file ∧ (s.programOf file).program = .ok p ∧
        (s.layoutOf p).program = .ok q ∧
        (∀ n ∈ file.declarations, ∀ a ∈ n.addresses, IsAddressLiteral a.text) ∧
        (s.headerOf q (some (s.layoutOf p).sizes)).lines = opening ++ blocks.flatten ∧
        code = String.intercalate "\n" ((opening ++ blocks.flatten).map (·.text s.style)) ++ "\n" ∧
        Header.opening s.style s.options.includes (file.program.classes.map (·.name)) = .whole opening ∧
        List.Forall₂ (Node.Bound s.style) file.declarations blocks := by
  refine ⟨Hexadecimal.hexadecimal?_address, fun _ => isSourceAddress_iff,
    fun _ ha => ⟨Build.hexadecimal?_value ha, Address.address_value ha⟩, fun _ _ => Address.address_eq_iff, ?_⟩
  intro s files source code output outputFile warnings compiled
  obtain ⟨file, p, q, parsed, built, laidOut, written⟩ := draft_eq_ok (code_of_deliver compiled)
  obtain ⟨hfault, hwritten, htext⟩ := writeHeader_eq_ok written
  have hformed := wellFormed_of_parse parsed
  have inBlocks := inBlocks_of_written hformed built laidOut (Trail.whole_of_fault hfault)
  obtain ⟨opening, blocks, hlines, hopening, rel⟩ := inBlocks.bound hformed
  rw [hlines] at hwritten htext
  exact ⟨file, p, q, opening, blocks, parsed, built, laidOut, fun n hn a => (hformed n hn).isAddressLiteral, hwritten,
    htext, hopening, rel⟩

/-! A field behind a pad, a static function and a variable, with leading zeros and digits of both cases. -/

def spelledSource : String := "class A \x7b int x @ 0x0a; static int f() @ 0X00fF; \x7d; int g @ 0xABc;"

def spelledFunction : FunctionNode :=
  { name := "f", returnType := ⟨"int", 0, ⟨1, 32⟩⟩, parameters := [], modifier := some "static",
    callingConvention := none, address := some ⟨"0X00fF", ⟨1, 42⟩⟩, position := ⟨1, 25⟩ }

def spelledFile : FileNode :=
  ⟨[.ofClass ⟨"A", [], [.ofVariable ⟨"x", ⟨"int", 0, ⟨1, 11⟩⟩, some ⟨"0x0a", ⟨1, 19⟩⟩, ⟨1, 11⟩⟩,
      .ofFunction spelledFunction], ⟨1, 1⟩⟩,
    .ofVariable ⟨"g", ⟨"int", 0, ⟨1, 53⟩⟩, some ⟨"0xABc", ⟨1, 61⟩⟩, ⟨1, 53⟩⟩], ⟨1, 1⟩⟩

def spelledLaidOut : Program :=
  ⟨[.ofClass ⟨"A", [], [.ofVariable (.pad 0 10), .ofVariable (Layout.declaredField "x" "int" (some 10) 1),
      .ofFunction spelledFunction.toFunction], 1⟩,
    .ofVariable (Layout.declaredField "g" "int" (some 2748) 1)]⟩

def spelledLines : List HeaderLine :=
  [.code 0 "// DO NOT EDIT. THIS FILE WAS GENERATED BY THE RELANG COMPILER", .code 0 "#pragma once", .blank,
    .code 0 "class A;", .blank,
    .code 0 "#pragma pack(push)", .code 0 "#pragma pack(1)", .code 0 "class A", .code 0 "\x7b",
    .access true, .access false, .code 1 "char pad_0[10]; // offset 0x0", .access true, .code 1 "int x; // offset 0xA",
    .code 1 "static inline int f()", .code 1 "\x7b", .code 2 "using Func_t = int(*)();",
    .code 2 "auto f = reinterpret_cast<Func_t>(0xFF);", .code 2 "return f();", .code 1 "\x7d", .blank,
    .code 0 "\x7d;", .assertion "A" 14, .code 0 "#pragma pack(pop)", .blank,
    .code 0 "inline int& g = *(int*)0xABC;", .blank]

theorem parse_spelled : parse (lex spelledSource).tokens = .ok spelledFile := by
  with_unfolding_all rfl

theorem built_spelled : (assertingSettings.programOf spelledFile).program = .ok spelledFile.program := by
  with_unfolding_all rfl

theorem layout_spelled : (assertingSettings.layoutOf spelledFile.program).program = .ok spelledLaidOut := by
  with_unfolding_all rfl

theorem headerLines_spelled : headerLines assertingSettings.style assertingSettings.options
    (some (assertingSettings.layoutOf spelledFile.program).sizes) spelledLaidOut = .whole spelledLines := by
  with_unfolding_all rfl

theorem compileText_spelled : Compilation.outcome (assertingSettings.compileText noFiles spelledSource none) =
    .ok (.success (headerText assertingSettings.style spelledLines) none []) :=
  compileText_of_stages (by with_unfolding_all rfl) parse_spelled built_spelled layout_spelled headerLines_spelled

theorem addresses_survive_spelled :
    IsAddressLiteral "0X00fF" ∧ Hexadecimal.address (Address.value ⟨"0X00fF", ⟨1, 42⟩⟩) = "0xFF" ∧
    Compilation.outcome (assertingSettings.compileText noFiles spelledSource none) =
      .ok (.success (headerText assertingSettings.style spelledLines) none []) ∧
    ∃ file p q opening blocks, parse (lex spelledSource).tokens = .ok file ∧
      (assertingSettings.programOf file).program = .ok p ∧ (assertingSettings.layoutOf p).program = .ok q ∧
      (∀ n ∈ file.declarations, ∀ a ∈ n.addresses, IsAddressLiteral a.text) ∧
      (assertingSettings.headerOf q (some (assertingSettings.layoutOf p).sizes)).lines = opening ++ blocks.flatten ∧
      headerText assertingSettings.style spelledLines =
        String.intercalate "\n" ((opening ++ blocks.flatten).map (·.text assertingSettings.style)) ++ "\n" ∧
      Header.opening assertingSettings.style assertingSettings.options.includes
        (file.program.classes.map (·.name)) = .whole opening ∧
      List.Forall₂ (Node.Bound assertingSettings.style) file.declarations blocks := by
  obtain ⟨-, -, hwritten, -, hcompiled⟩ := addresses_survive
  have literal : IsAddressLiteral "0X00fF" :=
    ⟨'X', ['0', '0', 'f', 'F'], rfl, .inr rfl, by decide, List.all_eq_true.mp rfl⟩
  have canonical : Hexadecimal.canonical "0X00fF" = "0xFF" := rfl
  exact ⟨literal, (hwritten _ literal).2.trans canonical, compileText_spelled,
    hcompiled _ _ _ _ _ _ _ compileText_spelled⟩

end Overlay
