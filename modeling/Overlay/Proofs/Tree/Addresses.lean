import Overlay.Proofs.Source.Spacing
import Overlay.Proofs.Tree.Complete
import Overlay.Proofs.Tree.WellFormed

/-! The addresses of trees. Each is a literal, `0x` and hexadecimal digits, and every such literal is the address of
    something in some source. -/

namespace Overlay

/-! ### Addresses of nodes -/

/-- The address of a function or a variable. --/
def Node.ownAddress? : Node → Option Address
  | .ofFunction f => f.address
  | .ofVariable v => v.address
  | _ => none

/-- The addresses of a node of a file, those in the body of a class included. --/
def Node.addresses : Node → List Address
  | .ofClass c => c.members.filterMap Node.ownAddress?
  | node => node.ownAddress?.toList

theorem Node.MemberFormed.isAddressLiteral {n : Node} (h : n.MemberFormed) {a : Address} (ha : n.ownAddress? = some a) :
    IsAddressLiteral a.text := by
  cases n with
  | ofFunction f => exact FunctionNode.WellFormed.address h a ha
  | ofVariable v => exact h a ha
  | _ => cases ha

theorem Node.WellFormed.isAddressLiteral {n : Node} (h : n.WellFormed) {a : Address} (ha : a ∈ n.addresses) :
    IsAddressLiteral a.text := by
  cases n with
  | ofClass c =>
    obtain ⟨m, hm, hown⟩ := List.mem_filterMap.mp ha
    exact (h m hm).isAddressLiteral hown
  | ofFunction f => exact Node.MemberFormed.isAddressLiteral (n := .ofFunction f) h (Option.mem_toList.mp ha)
  | ofVariable v => exact Node.MemberFormed.isAddressLiteral (n := .ofVariable v) h (Option.mem_toList.mp ha)
  | _ => cases ha

/-! ### Addresses of sources -/

/-- A text that is the address of something in some source without faults. --/
def IsSourceAddress (text : String) : Prop :=
  ∃ source file, (lex source).faults = [] ∧ parse (lex source).tokens = .ok file ∧
    ∃ n ∈ file.declarations, ∃ a ∈ n.addresses, a.text = text

/-- A declaration that binds a variable to a literal. --/
def boundTokens (literal : String) : List Token :=
  [⟨.identifier, "a", .start⟩, ⟨.identifier, "b", .start⟩, ⟨.atSign, "@", .start⟩, ⟨.number, literal, .start⟩,
    ⟨.semicolon, ";", .start⟩]

section
open Grammar
variable {literal : String}

theorem isPiece_boundTokens (h : IsAddressLiteral literal) :
    ∀ t ∈ boundTokens literal, ∃ rest, IsPiece rest (.token t.kind) t.text.toList := by
  obtain ⟨x, digits, hliteral, isX, -, hexDigits⟩ := h
  have hname : ∀ c, Lexeme.isNameStart c = true → IsPiece [] (.token (nameKind [c])) [c] := fun c start =>
    .name start (List.forall_mem_nil _) nofun
  have hnumber : IsPiece [] (.token .number) literal.toList := hliteral ▸ .hexNumber isX hexDigits nofun
  simp only [boundTokens, List.forall_mem_cons]
  exact ⟨⟨_, hname 'a' (by decide +kernel)⟩, ⟨_, hname 'b' (by decide +kernel)⟩, ⟨[], .punctuation rfl⟩, ⟨_, hnumber⟩,
    ⟨[], .punctuation rfl⟩, List.forall_mem_nil _⟩

/-- The tokens are those of some source, at other positions. --/
theorem exists_source_boundTokens (h : IsAddressLiteral literal) : ∃ source, (lex source).faults = [] ∧
    (lex source).tokens.map Token.content = (boundTokens literal).map Token.content ++ [(.endOfInput, "")] := by
  have hspace : Gaps ([' '] ++ []) := .cons (.space rfl) .nil
  have hne : [' '] ++ [] ≠ [] := List.cons_ne_nil _ _
  have hspaced : Spaced (boundTokens literal) _ := .cons hspace hne (.cons hspace hne (.cons hspace hne
    (.cons hspace hne (.single (.closed .nil)))))
  obtain ⟨segments, hsegments, hsame, hnoFaults⟩ := hspaced.exists_segments (isPiece_boundTokens h) .start
  rw [← String.toList_ofList (l := _ ++ _)] at hsegments
  obtain ⟨hcontent, hfaults⟩ := lex_of_segments hsegments
  exact ⟨_, hfaults.trans hnoFaults, hcontent.trans (congrArg (· ++ _) hsame)⟩

theorem fileRule_of_content {ts : List Token} (h : IsAddressLiteral literal)
    (hts : ts.map Token.content = (boundTokens literal).map Token.content) :
    ∃ n, FileRule ts [n] ∧ ∃ a ∈ n.addresses, a.text = literal := by
  simp only [boundTokens, List.map_cons, List.map_nil, List.map_eq_cons_iff, List.map_eq_nil_iff, Token.content,
    Prod.mk.injEq] at hts
  obtain ⟨type, _, rfl, ⟨isType, -⟩, name, _, rfl, ⟨isName, -⟩, sign, _, rfl, ⟨isSign, -⟩, number, _, rfl,
    ⟨isNumber, rfl⟩, semicolon, _, rfl, ⟨isSemicolon, -⟩, rfl⟩ := hts
  obtain ⟨x, digits, hliteral, isX, hne, -⟩ := h
  have haddress : AddressRule [sign, number] ⟨number.text, number.position⟩ :=
    .intro isSign isNumber ⟨x, digits, hliteral, isX, hne⟩
  have htype : TypeRule [type] _ := .intro isType (List.forall_mem_nil _)
  have hvariable : VariableRule [type, name, sign, number, semicolon] _ :=
    .intro htype isName (.present haddress) isSemicolon
  exact ⟨_, .intro (.cons (.ofMember (.ofDeclaration (.ofVariable hvariable))) .nil), _, List.mem_singleton_self _, rfl⟩

theorem isSourceAddress_of_literal (h : IsAddressLiteral literal) : IsSourceAddress literal := by
  obtain ⟨source, hfaults, hsource⟩ := exists_source_boundTokens h
  obtain ⟨ts, last, hsplit, hcontent, hlast⟩ := List.map_eq_append_iff.mp hsource
  obtain ⟨eof, rfl, heof⟩ := List.map_eq_singleton_iff.mp hlast
  have hends : ∀ t ∈ ts, t.kind ≠ .endOfInput := by
    intro t ht
    have hmem : t.content ∈ (boundTokens literal).map Token.content := hcontent ▸ List.mem_map_of_mem ht
    obtain ⟨u, hu, hsame⟩ := List.mem_map.mp hmem
    obtain ⟨_, hpiece⟩ := isPiece_boundTokens h u hu
    have hkind : u.kind = t.kind := congrArg Prod.fst hsame
    exact hkind ▸ hpiece.kind_ne_endOfInput
  obtain ⟨n, hrule, a, ha, htext⟩ := fileRule_of_content h hcontent
  refine ⟨source, ⟨[n], fileStart (ts ++ [eof])⟩, hfaults, ?_, n, List.mem_singleton_self n, a, ha, htext⟩
  rw [hsplit]
  exact ((parse_iff_derives hends (congrArg Prod.fst heof)).1 _).mpr ⟨hrule, rfl⟩

/-- The addresses of sources are the literals, each of them and no other text. --/
theorem isSourceAddress_iff : IsSourceAddress literal ↔ IsAddressLiteral literal := by
  refine ⟨?_, isSourceAddress_of_literal⟩
  rintro ⟨source, file, -, parsed, n, hn, a, ha, rfl⟩
  exact (wellFormed_of_parse parsed n hn).isAddressLiteral ha

end
end Overlay
