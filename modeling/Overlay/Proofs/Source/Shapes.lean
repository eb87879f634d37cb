import Overlay.Proofs.Text.AddressLiteral
import Overlay.Source.Piece
import Overlay.Tree.Grammar

/-! The shapes of tokens. A number that looks like an address is `0x` and hexadecimal digits, and a raw block has a
    fence at each end, whatever the source. -/

namespace Overlay

/-- A text between two fences. --/
def IsFenced (text : String) : Prop := ∃ code, text.toList = Lexeme.fence ++ code ++ Lexeme.fence

/-- What the texts of numbers and raw blocks look like. --/
structure Token.Shaped (t : Token) : Prop where
  number : t.kind = .number → Parser.isHexadecimal t.text = true → IsAddressLiteral t.text
  rawBlock : t.kind = .rawBlock → IsFenced t.text

/-! ### Lexemes -/

theorem isAddressLiteral_number {cs : List Char} {text : String} (htext : text.toList = Lexeme.number cs)
    (h : Parser.isHexadecimal text = true) : IsAddressLiteral text := by
  have hdigits : ∀ rest : List Char, ∀ d ∈ rest.takeWhile Lexeme.isHexDigit, Lexeme.isHexDigit d = true :=
    fun rest d hd => List.mem_takeWhile_imp hd
  unfold Parser.isHexadecimal at h
  unfold Lexeme.number at htext
  split at htext
  · rename_i rest
    refine ⟨'x', _, htext, Or.inl rfl, fun hnil => ?_, hdigits rest⟩
    rw [htext, hnil] at h
    cases h
  · rename_i rest
    refine ⟨'X', _, htext, Or.inr rfl, fun hnil => ?_, hdigits rest⟩
    rw [htext, hnil] at h
    cases h
  · -- A number of digits only has no `x` in its second place.
    have hall : ∀ c ∈ text.toList, Text.isDigit c = true := htext ▸ fun c hc => List.mem_takeWhile_imp hc
    split at h
    · rename_i heq
      exact absurd (hall 'x' (by simp [heq])) (by decide)
    · rename_i heq
      exact absurd (hall 'X' (by simp [heq])) (by decide)
    · cases h

theorem throughFence?_eq_some : ∀ {cs text : List Char}, Lexeme.throughFence? cs = some text →
    ∃ code, text = code ++ Lexeme.fence
  | [], _, h => by cases h
  | c :: rest, text, h => by
    unfold Lexeme.throughFence? at h
    split at h
    · cases h
      exact ⟨[], rfl⟩
    · obtain ⟨tail, htail, rfl⟩ := Option.map_eq_some_iff.mp h
      obtain ⟨code, rfl⟩ := throughFence?_eq_some htail
      exact ⟨c :: code, rfl⟩

theorem isFenced_rawBlock {cs text : List Char} (hfence : Lexeme.fence.isPrefixOf cs = true)
    (h : Lexeme.rawBlock? cs = some text) : IsFenced (String.ofList text) := by
  obtain ⟨rest, rfl⟩ := List.isPrefixOf_iff_prefix.mp hfence
  obtain ⟨tail, htail, rfl⟩ := Option.map_eq_some_iff.mp h
  obtain ⟨code, rfl⟩ := throughFence?_eq_some htail
  refine ⟨code, ?_⟩
  rw [String.toList_ofList, List.take_left, List.append_assoc]

/-! ### Tokens -/

theorem punctuation?_kind {c : Char} {kind : TokenKind} (h : punctuation? c = some kind) :
    kind ≠ .number ∧ kind ≠ .rawBlock := by
  unfold punctuation? at h
  split at h <;> cases h <;> decide

theorem nameKind_kind (text : List Char) : nameKind text ≠ .number ∧ nameKind text ≠ .rawBlock := by
  unfold nameKind
  split <;> decide

/-- Tokens of other kinds than numbers and raw blocks have no shape to keep. --/
theorem shaped_of_kind {t : Token} (h : t.kind ≠ .number ∧ t.kind ≠ .rawBlock) : t.Shaped :=
  ⟨fun hkind => absurd hkind h.1, fun hkind => absurd hkind h.2⟩

theorem shaped_firstPiece {c : Char} {cs text : List Char} {kind : TokenKind} (p : Position)
    (h : firstPiece c cs = (.token kind, text)) : Token.Shaped ⟨kind, String.ofList text, p⟩ := by
  unfold firstPiece at h
  dsimp only at h
  split at h
  · cases h
  · split at h
    · cases h
    · split at h
      · split at h <;> cases h
      · split at h
        · rename_i hfence
          split at h
          · rename_i block hblock
            cases h
            exact ⟨nofun, fun _ => isFenced_rawBlock hfence hblock⟩
          · cases h
        · split at h
          · cases h
            exact ⟨fun _ => isAddressLiteral_number String.toList_ofList, nofun⟩
          · split at h
            · cases h
              exact shaped_of_kind (nameKind_kind _)
            · split at h
              · rename_i hkind
                cases h
                exact shaped_of_kind (punctuation?_kind hkind)
              · cases h

theorem firstPiece_of_mem_piecesAfter {piece : Piece} {source : List Char} {skip : Nat} {p : Position}
    (h : piece ∈ piecesAfter skip p source) : ∃ c cs, firstPiece c cs = (piece.kind, piece.text) := by
  induction source generalizing skip p with
  | nil => cases skip <;> cases h
  | cons c cs ih =>
    cases skip with
    | zero =>
      rcases List.mem_cons.mp h with rfl | h
      · exact ⟨c, cs, rfl⟩
      · exact ih h
    | succ skip => exact ih h

/-- Every token of a source has its shape. --/
theorem shaped_of_mem_lex {source : String} {t : Token} (h : t ∈ (lex source).tokens) : t.Shaped := by
  rcases List.mem_append.mp h with h | h
  · obtain ⟨⟨kind, text, p⟩, hpiece, htoken⟩ := List.mem_filterMap.mp h
    obtain ⟨c, cs, hfirst⟩ := firstPiece_of_mem_piecesAfter hpiece
    cases kind with
    | token kind =>
      cases htoken
      exact shaped_firstPiece p hfirst
    | _ => cases htoken
  · obtain rfl := List.mem_singleton.mp h
    exact shaped_of_kind ⟨nofun, nofun⟩

end Overlay
