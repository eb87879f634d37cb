import Overlay.Proofs.Source.RawContents
import Overlay.Proofs.Source.Spacing
import Overlay.Proofs.Tree.Complete

/-! The raw blocks of a tree. A tree that is derived from tokens has the raw blocks of the tokens, in their order: each
    rule hands on what its parts have, and only a raw block is one. -/

namespace Overlay

/-! ### Raw blocks of nodes -/

/-- The raw block that a node is. --/
def Node.ownRawBlock : Node → List RawBlockNode
  | .ofRawBlock r => [r]
  | _ => []

/-- The raw blocks of a node of a file, those in the body of a class included. --/
def Node.rawBlocks : Node → List RawBlockNode
  | .ofClass c => c.members.flatMap Node.ownRawBlock
  | node => node.ownRawBlock

/-! ### Raw blocks of derivations -/

theorem rawBlocksAmong_append (ts us : List Token) :
    rawBlocksAmong (ts ++ us) = rawBlocksAmong ts ++ rawBlocksAmong us := List.filterMap_append

theorem rawBlocksAmong_cons {t : Token} {kind : TokenKind} (h : t.kind = kind) (hne : kind ≠ .rawBlock)
    (ts : List Token) : rawBlocksAmong (t :: ts) = rawBlocksAmong ts :=
  List.filterMap_cons_none (if_neg (h ▸ hne))

namespace Grammar
variable {α : Type} {ts : List Token}

/-- A rule whose tokens have the raw blocks that `blocks` reads off what they stand for. --/
def Keeps (rule : Rule α) (blocks : α → List RawBlockNode) : Prop := ∀ ts a, rule ts a → rawBlocksAmong ts = blocks a

/-- A rule without raw blocks. --/
abbrev Rawless (rule : Rule α) : Prop := Keeps rule fun _ => []

theorem Keeps.many {item : Rule α} {blocks : α → List RawBlockNode} (h : Keeps item blocks) :
    Keeps (Many item) (·.flatMap blocks) := by
  intro ts as derived
  induction derived with
  | nil => rfl
  | cons first _ ih =>
    rw [rawBlocksAmong_append, h _ _ first, ih]
    rfl

theorem Rawless.many {item : Rule α} (h : Rawless item) : Rawless (Many item) := fun ts as derived =>
  (Keeps.many h ts as derived).trans (List.flatMap_eq_nil_iff.mpr fun _ _ => rfl)

theorem Rawless.opt {item : Rule α} (h : Rawless item) : Rawless (Opt item) := by
  intro ts a derived
  cases derived with
  | absent => rfl
  | present ofItem => exact h _ _ ofItem

theorem Rawless.optList {items : Rule (List α)} (h : Rawless items) : Rawless (OptList items) := by
  intro ts as derived
  cases derived with
  | absent => rfl
  | present ofItems => exact h _ _ ofItems

theorem Rawless.separated {item : Rule α} (h : Rawless item) : Rawless (Separated item) := by
  rintro _ _ ⟨first, others⟩
  have afterComma : Rawless (AfterComma item) := by
    rintro _ _ ⟨isComma, ofItem⟩
    rw [rawBlocksAmong_cons isComma nofun]
    exact h _ _ ofItem
  rw [rawBlocksAmong_append, h _ _ first, afterComma.many _ _ others]
  rfl

theorem rawless_ofKind (kind : TokenKind) (hne : kind ≠ .rawBlock) : Rawless (OfKind kind) := by
  rintro _ _ ⟨isKind⟩
  exact rawBlocksAmong_cons isKind hne []

theorem rawless_keyword (words : List String) : Rawless (Keyword words) := by
  rintro _ _ ⟨isKeyword, -⟩
  exact rawBlocksAmong_cons isKeyword nofun []

theorem rawless_type : Rawless TypeRule := by
  rintro _ _ ⟨isName, areStars⟩
  rw [rawBlocksAmong_cons isName nofun, rawBlocksAmong, List.filterMap_eq_nil_iff]
  intro t ht
  exact if_neg (by simp [areStars t ht])

theorem rawless_parameter : Rawless ParameterRule := by
  rintro _ _ ⟨ofType, isName⟩
  rw [rawBlocksAmong_append, rawless_type _ _ ofType, rawBlocksAmong_cons isName nofun]
  rfl

theorem rawless_address : Rawless AddressRule := by
  rintro _ _ ⟨isSign, isNumber, -⟩
  rw [rawBlocksAmong_cons isSign nofun, rawBlocksAmong_cons isNumber nofun]
  rfl

theorem rawless_function : Rawless FunctionRule := by
  rintro _ _ ⟨ofModifier, ofType, ofConvention, isName, opens, ofParameters, closes, ofAddress, ends⟩
  have modifier := (rawless_keyword _).opt _ _ ofModifier
  have convention := (rawless_keyword _).opt _ _ ofConvention
  have parameters := rawless_parameter.separated.optList _ _ ofParameters
  have address := rawless_address.opt _ _ ofAddress
  simp only [rawBlocksAmong_append, List.append_assoc, List.cons_append, rawBlocksAmong_cons isName nofun,
    rawBlocksAmong_cons opens nofun, rawBlocksAmong_cons closes nofun, rawBlocksAmong_cons ends nofun, modifier,
    rawless_type _ _ ofType, convention, parameters, address, List.nil_append]
  rfl

theorem rawless_variable : Rawless VariableRule := by
  rintro _ _ ⟨ofType, isName, ofAddress, ends⟩
  have address := rawless_address.opt _ _ ofAddress
  simp only [rawBlocksAmong_append, List.append_assoc, List.cons_append, rawBlocksAmong_cons isName nofun,
    rawBlocksAmong_cons ends nofun, rawless_type _ _ ofType, address, List.nil_append]
  rfl

theorem keeps_declaration : Keeps DeclarationRule Node.ownRawBlock := by
  intro ts n derived
  cases derived with
  | ofFunction h => exact rawless_function _ _ h
  | ofVariable h => exact rawless_variable _ _ h
  | ofRawBlock isRawBlock => exact List.filterMap_cons_some (if_pos isRawBlock)

/-- A member, which may be nothing. --/
theorem keeps_member : Keeps MemberRule fun n => n.toList.flatMap Node.ownRawBlock := by
  intro ts n derived
  cases derived with
  | ofDeclaration h => exact (keeps_declaration _ _ h).trans (List.flatMap_singleton ..).symm
  | ofSemicolon isSemicolon => exact rawBlocksAmong_cons isSemicolon nofun []

/-- Repeated items of which some are nothing. --/
theorem Keeps.some {item : Rule (Option α)} {blocks : α → List RawBlockNode}
    (h : Keeps item fun a => a.toList.flatMap blocks) :
    Keeps (Many item) fun as => (as.filterMap id).flatMap blocks := by
  intro ts as derived
  induction derived with
  | nil => rfl
  | @cons _ _ a _ first _ ih =>
    rw [rawBlocksAmong_append, h _ _ first, ih]
    cases a with
    | none => rfl
    | some a => exact (congrArg (· ++ _) (List.flatMap_singleton ..)).trans List.flatMap_cons.symm

theorem rawless_bases : Rawless BasesRule := by
  rintro _ _ ⟨isColon, ofNames⟩
  rw [rawBlocksAmong_cons isColon nofun]
  exact (rawless_ofKind .identifier nofun).separated _ _ ofNames

theorem keeps_class : Keeps ClassRule fun c => c.members.flatMap Node.ownRawBlock := by
  rintro _ _ ⟨ofOpening, isName, ofBases, opens, ofMembers, closes, ofEnding⟩
  have opening := rawless_keyword _ _ _ ofOpening
  have bases := rawless_bases.optList _ _ ofBases
  have ending := (rawless_ofKind .semicolon nofun).opt _ _ ofEnding
  have members := keeps_member.some _ _ ofMembers
  simp only [rawBlocksAmong_append, List.append_assoc, List.cons_append, rawBlocksAmong_cons isName nofun,
    rawBlocksAmong_cons opens nofun, rawBlocksAmong_cons closes nofun, opening, bases, ending, members, List.nil_append,
    List.append_nil]

theorem keeps_item : Keeps ItemRule fun n => n.toList.flatMap Node.rawBlocks := by
  intro ts n derived
  cases derived with
  | ofClass h => exact (keeps_class _ _ h).trans (List.flatMap_singleton ..).symm
  | ofMember h =>
    rw [keeps_member _ _ h]
    cases h with
    | ofSemicolon => rfl
    | ofDeclaration h => cases h <;> rfl

theorem keeps_file : Keeps FileRule fun nodes => nodes.flatMap Node.rawBlocks := by
  rintro _ _ ⟨ofItems⟩
  exact keeps_item.some _ _ ofItems

end Grammar

/-- The raw blocks of the tree of a source are those of its tokens. --/
theorem rawBlocks_of_parse {source : String} {file : FileNode} (parsed : parse (lex source).tokens = .ok file) :
    file.declarations.flatMap Node.rawBlocks = rawBlocksAmong (lex source).tokens := by
  have hlex : (lex source).tokens = (pieces .start source.toList).filterMap Piece.token? ++ [⟨.endOfInput, "", _⟩] := rfl
  have hends : ∀ t ∈ (pieces .start source.toList).filterMap Piece.token?, t.kind ≠ .endOfInput := fun t ht => by
    obtain ⟨_, hpiece⟩ := isPiece_of_mem_pieces ht
    exact hpiece.kind_ne_endOfInput
  have derived := (Parser.declarations_iff_derives hends rfl).mp (hlex ▸ (parse_eq_ok_iff.mp parsed).1)
  rw [hlex, rawBlocksAmong_append, Grammar.keeps_file _ _ derived]
  exact (List.append_nil _).symm

end Overlay
