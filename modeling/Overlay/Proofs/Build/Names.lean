import Overlay.Proofs.Build.Faithful
import Overlay.Proofs.Layout.Sizes
import Overlay.Proofs.Source.Lexemes
import Overlay.Proofs.Tree.Sound

/-! The names of the classes of a source. They are names as the lexer reads them, so there are no blanks in them to be
    stripped and no star at their end that would make them pointers. -/

namespace Overlay

/-- A text that is a name: it begins as a name may and goes on as a name may. --/
def IsName (text : String) : Prop :=
  ∃ c cs, text.toList = c :: cs ∧ Lexeme.isNameStart c = true ∧ ∀ d ∈ cs, Lexeme.isNamePart d = true

/-! ### Names as texts -/

/-- The code points of the blanks. --/
def blankPoints : List Nat :=
  [0x9, 0xa, 0xb, 0xc, 0xd, 0x1c, 0x1d, 0x1e, 0x1f, 0x20, 0x85, 0xa0, 0x1680, 0x2000, 0x2001, 0x2002, 0x2003, 0x2004,
   0x2005, 0x2006, 0x2007, 0x2008, 0x2009, 0x200a, 0x2028, 0x2029, 0x202f, 0x205f, 0x3000]

theorem mem_blankPoints {c : Char} (h : Text.isBlank c = true) : c.toNat ∈ blankPoints := by
  simp only [Text.isBlank, Bool.or_eq_true, Bool.and_eq_true, decide_eq_true_eq, beq_iff_eq] at h
  simp only [blankPoints, List.mem_cons, List.not_mem_nil, or_false]
  omega

theorem isBlank_of_isNamePart {c : Char} (h : Lexeme.isNamePart c = true) : Text.isBlank c = false := by
  have hblanks : ∀ n ∈ blankPoints, Text.letters.holds n = false ∧ Text.numerics.holds n = false ∧ n ≠ '_'.toNat := by
    decide +kernel
  by_contra hblank
  obtain ⟨hletter, hnumeric, hne⟩ := hblanks _ (mem_blankPoints (by simpa using hblank))
  have hc : c ≠ '_' := fun heq => hne (by rw [heq])
  simp [Lexeme.isNamePart, Text.isAlphanumeric, Text.isLetter, Text.isNumeric, hletter, hnumeric, hc] at h

theorem IsName.isNamePart {text : String} (h : IsName text) : ∀ c ∈ text.toList, Lexeme.isNamePart c = true := by
  obtain ⟨c, cs, htext, hstart, hparts⟩ := h
  rw [htext]
  exact List.forall_mem_cons.mpr ⟨isNamePart_of_isNameStart hstart, hparts⟩

theorem IsName.strip {text : String} (h : IsName text) : Text.strip text = text := by
  have hblank : ∀ c ∈ text.toList, Text.isBlank c = false := fun c hc => isBlank_of_isNamePart (h.isNamePart c hc)
  rw [Text.strip, Numeral.trimBlanks_eq_self hblank, String.ofList_toList]

theorem IsName.not_isPointerText {text : String} (h : IsName text) : ¬IsPointerText text := by
  intro hstar
  rw [IsPointerText, h.strip] at hstar
  exact absurd (h.isNamePart '*' (List.mem_of_getLast? hstar)) (by decide +kernel)

/-- The size of a name: that of the primitive type of this name, if there is one, and otherwise the settled one. --/
theorem IsName.sizeOf?_eq_some_iff {word : Int} {sizes : SizeTable} (h : sizes.Growing word) {name : String}
    (hname : IsName name) {n : Int} : sizes.sizeOf? name = some n ↔
      Target.defaultPrimitives.lookup name = some n ∨
        Target.defaultPrimitives.lookup name = none ∧ sizes.settled.lookup name = some (some n) := by
  rw [Overlay.sizeOf?_eq_some_iff h, hname.strip]
  simp [hname.not_isPointerText]

/-! ### Names of a source -/

theorem isName_of_mem_lex {source : String} {t : Token} (h : t ∈ (lex source).tokens) (hkind : t.kind = .identifier) :
    IsName t.text := by
  rcases List.mem_append.mp h with h | h
  · obtain ⟨⟨kind, text, p⟩, hpiece, htoken⟩ := List.mem_filterMap.mp h
    obtain ⟨c, cs, hfirst⟩ := firstPiece_of_mem_piecesAfter hpiece
    cases kind with
    | token kind =>
      cases htoken
      obtain rfl : kind = .identifier := hkind
      have hspace : Lexeme.isSpace c = false := by
        by_contra hspace
        rw [firstPiece, if_pos (by simpa using hspace)] at hfirst
        cases hfirst
      obtain ⟨rest, -, hisPiece⟩ := isPiece_firstPiece hfirst hspace
      generalize hk : PieceKind.token TokenKind.identifier = pieceKind at hisPiece
      cases hisPiece with
      | name start parts => exact ⟨_, _, String.toList_ofList, start, parts⟩
      | punctuation known =>
        cases hk
        unfold punctuation? at known
        split at known <;> cases known
      | _ => cases hk
    | _ => cases htoken
  · obtain rfl := List.mem_singleton.mp h
    cases hkind

section
open Grammar
variable {ts : List Token}

/-- An item of a repetition consists of some of the tokens. --/
theorem Many.of_mem {α : Type} {item : Rule α} {as : List α} (h : Many item ts as) {a : α} (ha : a ∈ as) :
    ∃ us ⊆ ts, item us a := by
  induction h with
  | nil => cases ha
  | cons first _ ih =>
    rcases List.mem_cons.mp ha with rfl | ha
    · exact ⟨_, List.subset_append_left _ _, first⟩
    · obtain ⟨us, hus, hitem⟩ := ih ha
      exact ⟨us, List.subset_append_of_subset_right _ hus, hitem⟩

theorem FileRule.of_mem {nodes : List Node} (h : FileRule ts nodes) {n : Node} (hn : n ∈ nodes) :
    ∃ us ⊆ ts, ItemRule us (some n) := by
  obtain ⟨ofItems⟩ := h
  exact Many.of_mem ofItems (by simpa using hn)

theorem ItemRule.declaration {n : Node} (h : ItemRule ts (some n)) (hn : ∀ c, n ≠ .ofClass c) : DeclarationRule ts n := by
  cases h with
  | ofClass => exact absurd rfl (hn _)
  | ofMember h =>
    cases h with
    | ofDeclaration h => exact h

theorem ItemRule.classNode {c : ClassNode} (h : ItemRule ts (some (.ofClass c))) : ClassRule ts c := by
  cases h with
  | ofClass h => exact h
  | ofMember h =>
    cases h with
    | ofDeclaration h => cases h

theorem ClassRule.name {c : ClassNode} (h : ClassRule ts c) : ∃ t ∈ ts, t.kind = .identifier ∧ c.name = t.text := by
  obtain ⟨-, isName, -, -, -, -, -⟩ := h
  exact ⟨_, by simp, isName, rfl⟩

theorem ClassRule.base {c : ClassNode} (h : ClassRule ts c) {base : String} (hbase : base ∈ c.bases) :
    ∃ t ∈ ts, t.kind = .identifier ∧ base = t.text := by
  obtain ⟨-, -, ofBases, -, -, -, -⟩ := h
  cases ofBases with
  | absent => cases hbase
  | present ofBases =>
    obtain ⟨-, ofNames⟩ := ofBases
    obtain ⟨t, ht, rfl⟩ := List.mem_map.mp hbase
    obtain ⟨first, others⟩ := ofNames
    rcases List.mem_cons.mp ht with rfl | ht
    · obtain ⟨isKind⟩ := first
      exact ⟨_, by simp, isKind, rfl⟩
    · obtain ⟨us, hus, hitem⟩ := Many.of_mem others ht
      obtain ⟨-, isKind⟩ := hitem
      obtain ⟨isKind⟩ := isKind
      have hmem := hus (List.mem_cons_of_mem _ List.mem_cons_self)
      exact ⟨_, by simp [hmem], isKind, rfl⟩

theorem ClassRule.member {c : ClassNode} (h : ClassRule ts c) {n : Node} (hn : n ∈ c.members) :
    ∃ us ⊆ ts, DeclarationRule us n := by
  obtain ⟨-, -, -, -, ofMembers, -, -⟩ := h
  obtain ⟨us, hus, hitem⟩ := Many.of_mem ofMembers (a := some n) (by simpa using hn)
  cases hitem with
  | ofDeclaration h => exact ⟨us, fun t ht => by simp [hus ht], h⟩

theorem ClassRule.fieldType {c : ClassNode} (h : ClassRule ts c) {v : VariableNode} (hv : .ofVariable v ∈ c.members) :
    ∃ t ∈ ts, t.kind = .identifier ∧ v.type.name = t.text := by
  obtain ⟨us, hus, hmember⟩ := ClassRule.member h hv
  cases hmember with
  | ofVariable h =>
    obtain ⟨ofType, -, -, -⟩ := h
    obtain ⟨isName, -⟩ := ofType
    exact ⟨_, hus (List.mem_append_left _ (List.mem_append_left _ List.mem_cons_self)), isName, rfl⟩

end

theorem closed_lex (source : String) : Parser.Closed (lex source).tokens := ⟨_, List.getLast?_concat, rfl⟩

/-- The declarations of a source consist of its tokens. --/
theorem itemRule_of_parse {source : String} {file : FileNode} (parsed : parse (lex source).tokens = .ok file)
    {n : Node} (hn : n ∈ file.declarations) : ∃ ts ⊆ (lex source).tokens, Grammar.ItemRule ts (some n) := by
  unfold parse at parsed
  split at parsed
  · rename_i nodes rest hok
    cases parsed
    obtain ⟨-, taken, htokens, hfile⟩ := Parser.declarations_reads (closed_lex source) hok
    obtain ⟨ts, hts, hitem⟩ := FileRule.of_mem hfile hn
    exact ⟨ts, fun t ht => htokens ▸ List.mem_append_left _ (hts ht), hitem⟩
  · cases parsed

theorem classRule_of_parse {source : String} {file : FileNode} (parsed : parse (lex source).tokens = .ok file)
    {c : ClassNode} (hc : .ofClass c ∈ file.declarations) : ∃ ts ⊆ (lex source).tokens, Grammar.ClassRule ts c := by
  obtain ⟨ts, hts, hitem⟩ := itemRule_of_parse parsed hc
  exact ⟨ts, hts, ItemRule.classNode hitem⟩

theorem isName_of_parse {source : String} {file : FileNode} (parsed : parse (lex source).tokens = .ok file)
    {c : ClassNode} (hc : .ofClass c ∈ file.declarations) : IsName c.name := by
  obtain ⟨ts, hts, hclass⟩ := classRule_of_parse parsed hc
  obtain ⟨t, ht, hkind, hname⟩ := ClassRule.name hclass
  rw [hname]
  exact isName_of_mem_lex (hts ht) hkind

section
variable {strict : Bool} {source : String} {file : FileNode} {p : Program}
  (parsed : parse (lex source).tokens = .ok file) (built : (build strict (file.events none)).program = .ok p)
include parsed built

theorem program_of_build : p = file.program := by
  rw [build_program strict (wellFormed_of_parse parsed)] at built
  split at built
  · cases built
  · exact (Except.ok.inj built).symm

theorem node_of_class {c : Class} (hc : c ∈ p.classes) : ∃ node, .ofClass node ∈ file.declarations ∧ c = node.toClass := by
  rw [program_of_build parsed built] at hc
  obtain ⟨n, hn, hdeclaration⟩ := List.mem_filterMap.mp (Program.mem_classes.mp hc)
  cases n with
  | ofClass node =>
    cases hdeclaration
    exact ⟨node, hn, rfl⟩
  | _ => cases hdeclaration

/-- The classes of a program that is built from a source have names. --/
theorem isName_of_build : ∀ c ∈ p.classes, IsName c.name := by
  intro c hc
  obtain ⟨node, hnode, rfl⟩ := node_of_class parsed built hc
  exact isName_of_parse parsed hnode

end
end Overlay
