import Mathlib.Data.List.Induction
import Overlay.Proofs.Source.Lexemes

/-! A source as its pieces. Nothing of a source is lost and nothing is read twice: its tokens, what is skipped between
    them and what is rejected follow one another without a gap, each of them at the place that lines and columns
    count. -/

namespace Overlay

/-! ### Places -/

/-- The place behind the characters `before`: its line is one more than the line feeds among them, and its column one
    more than the characters since the last line feed. --/
def Position.behind (before : List Char) : Position :=
  ⟨1 + before.count '\n', 1 + (before.reverse.takeWhile (· != '\n')).length⟩

theorem Position.behind_concat (before : List Char) (c : Char) :
    Position.behind (before ++ [c]) = (Position.behind before).next c := by
  by_cases hc : c = '\n'
  · subst hc
    simp [Position.behind, Position.next, Int.add_assoc]
  · simp [Position.behind, Position.next, hc, Int.add_assoc]

theorem Position.start_after (cs : List Char) : Position.start.after cs = .behind cs := by
  induction cs using List.reverseRecOn with
  | nil => rfl
  | append_singleton cs c ih => rw [Position.after_append, ih, Position.behind_concat, after_cons, after_nil]

/-! ### Pieces one after the other -/

/-- Pieces that follow one another from the place `p` to the end of a text. --/
inductive Segments : Position → List Char → List Piece → Prop where
  | nil (p : Position) : Segments p [] []
  | cons {p : Position} {kind : PieceKind} {text rest : List Char} {others : List Piece}
      (isPiece : IsPiece rest kind text) (more : Segments (p.after text) rest others) :
      Segments p (text ++ rest) (⟨kind, text, p⟩ :: others)

section
variable {p : Position} {cs : List Char} {segments : List Piece}

theorem Segments.text (h : Segments p cs segments) : segments.flatMap (·.text) = cs := by
  induction h with
  | nil => rfl
  | cons _ _ ih => rw [List.flatMap_cons, ih]

/-- Every piece stands where the pieces before it end, and is what it is before those behind it. --/
theorem Segments.piece (h : Segments p cs segments) {before after : List Piece} {piece : Piece}
    (hsegments : segments = before ++ piece :: after) :
    piece.position = p.after (before.flatMap (·.text)) ∧
      IsPiece (after.flatMap (·.text)) piece.kind piece.text := by
  induction h generalizing before with
  | nil => simp at hsegments
  | @cons p kind text rest others isPiece more ih =>
    cases before with
    | nil =>
      obtain ⟨rfl, rfl⟩ := List.cons.inj hsegments
      rw [more.text]
      exact ⟨rfl, isPiece⟩
    | cons first before =>
      obtain ⟨rfl, hothers⟩ := List.cons.inj hsegments
      rw [List.flatMap_cons, Position.after_append]
      exact ih hothers

/-- A run of spaces before other pieces, character by character. --/
theorem Segments.spaces : ∀ {run : List Char} {p : Position}, (∀ c ∈ run, Lexeme.isSpace c = true) →
    Segments (p.after run) cs segments → ∃ more, Segments p (run ++ cs) (more ++ segments) ∧
      more.filterMap Piece.token? = [] ∧ more.filterMap Piece.fault? = []
  | [], _, _, h => ⟨[], h, rfl, rfl⟩
  | c :: run, p, hrun, h => by
    obtain ⟨more, hmore, htokens, hfaults⟩ := Segments.spaces (fun d hd => hrun d (List.mem_cons_of_mem _ hd)) h
    have hspace : Segments p ([c] ++ (run ++ cs)) (⟨.space, [c], p⟩ :: (more ++ segments)) :=
      .cons (.space (hrun c List.mem_cons_self)) hmore
    refine ⟨⟨.space, [c], p⟩ :: more, hspace, ?_, ?_⟩
    · rw [List.filterMap_cons_none rfl, htokens]
    · rw [List.filterMap_cons_none rfl, hfaults]

/-! ### Pieces of a source -/

theorem piecesAfter_eq (n : Nat) (p : Position) (cs : List Char) :
    piecesAfter n p cs = pieces (p.after (cs.take n)) (cs.drop n) := by
  induction cs generalizing n p with
  | nil => cases n <;> rfl
  | cons c cs ih =>
    cases n with
    | zero => rfl
    | succ n => exact ih n (p.next c)

theorem pieces_cons {c : Char} {kind : PieceKind} {text rest : List Char} (h : firstPiece c cs = (kind, text))
    (hne : text ≠ []) (htext : c :: cs = text ++ rest) (p : Position) :
    pieces p (c :: cs) = ⟨kind, text, p⟩ :: pieces (p.after text) rest := by
  obtain ⟨d, tail, rfl⟩ := List.exists_cons_of_ne_nil hne
  rw [List.cons_append] at htext
  obtain ⟨rfl, rfl⟩ := List.cons.inj htext
  rw [pieces, piecesAfter, h]
  dsimp only
  rw [piecesAfter_eq, List.length_cons, Nat.add_sub_cancel, List.take_left, List.drop_left, Position.after_cons]

/-- The pieces of a text, with every run of spaces character by character. --/
theorem exists_segments (p : Position) : ∀ cs : List Char, ∃ segments, Segments p cs segments ∧
    segments.filterMap Piece.token? = (pieces p cs).filterMap Piece.token? ∧
    segments.filterMap Piece.fault? = (pieces p cs).filterMap Piece.fault?
  | [] => ⟨[], .nil p, rfl, rfl⟩
  | c :: cs => by
    by_cases hspace : Lexeme.isSpace c = true
    · have hspaces : Lexeme.spaces (c :: cs) = c :: cs.takeWhile Lexeme.isSpace := by
        rw [Lexeme.spaces, List.takeWhile_cons_of_pos hspace]
      have hfirst : firstPiece c cs = (.space, c :: cs.takeWhile Lexeme.isSpace) := by
        rw [firstPiece, if_pos hspace, hspaces]
      have htext : c :: cs = c :: cs.takeWhile Lexeme.isSpace ++ cs.dropWhile Lexeme.isSpace := by simp
      have hlt : (cs.dropWhile Lexeme.isSpace).length < (c :: cs).length :=
        Nat.lt_succ_of_le (List.length_dropWhile_le _ _)
      obtain ⟨segments, hsegments, htokens, hfaults⟩ :=
        exists_segments (p.after (c :: cs.takeWhile Lexeme.isSpace)) (cs.dropWhile Lexeme.isSpace)
      have hrun : ∀ d ∈ c :: cs.takeWhile Lexeme.isSpace, Lexeme.isSpace d = true :=
        List.forall_mem_cons.mpr ⟨hspace, fun d hd => List.mem_takeWhile_imp hd⟩
      obtain ⟨more, hmore, hnoTokens, hnoFaults⟩ := hsegments.spaces hrun
      rw [← htext] at hmore
      rw [pieces_cons hfirst (List.cons_ne_nil _ _) htext]
      refine ⟨more ++ segments, hmore, ?_, ?_⟩
      · rw [List.filterMap_append, hnoTokens, htokens, List.nil_append, List.filterMap_cons_none rfl]
      · rw [List.filterMap_append, hnoFaults, hfaults, List.nil_append, List.filterMap_cons_none rfl]
    · cases hfirst : firstPiece c cs with
      | mk kind text =>
        obtain ⟨rest, htext, hpiece⟩ := isPiece_firstPiece hfirst (by simpa using hspace)
        have hlt : rest.length < (c :: cs).length := by
          rw [htext, List.length_append]
          exact Nat.lt_add_of_pos_left (List.length_pos_iff.mpr hpiece.ne_nil)
        obtain ⟨segments, hsegments, htokens, hfaults⟩ := exists_segments (p.after text) rest
        rw [pieces_cons hfirst hpiece.ne_nil htext, htext]
        refine ⟨⟨kind, text, p⟩ :: segments, .cons hpiece hsegments, ?_, ?_⟩
        · rw [List.filterMap_cons, List.filterMap_cons, htokens]
        · rw [List.filterMap_cons, List.filterMap_cons, hfaults]
termination_by cs => cs.length
decreasing_by all_goals exact hlt

end

theorem IsPiece.kind_ne_endOfInput {rest text : List Char} {kind : TokenKind} (h : IsPiece rest (.token kind) text) :
    kind ≠ .endOfInput := by
  generalize hkind : PieceKind.token kind = pieceKind at h
  cases h with
  | name =>
    cases hkind
    unfold nameKind
    split <;> decide
  | punctuation known =>
    cases hkind
    unfold punctuation? at known
    split at known <;> cases known <;> decide
  | rawBlock | hexNumber | number =>
    cases hkind
    decide
  | _ => cases hkind

/-- Every source is its pieces one after the other: the tokens, each by its text, and between them single spaces, whole
    comments and what is rejected. Each piece stands at the place that the lines and columns before it count, and names
    and numbers are as long as they can be. There is one fault for each rejected piece, in order, and one token for
    each piece that is one, before the only end of input. --/
theorem lex_lossless (source : String) : ∃ segments : List Piece,
    segments.flatMap (·.text) = source.toList ∧
    (lex source).tokens = segments.filterMap Piece.token? ++ [⟨.endOfInput, "", .behind source.toList⟩] ∧
    (∀ t ∈ segments.filterMap Piece.token?, t.kind ≠ .endOfInput) ∧
    (lex source).faults = segments.filterMap Piece.fault? ∧
    ∀ before piece after, segments = before ++ piece :: after →
      piece.position = .behind (before.flatMap (·.text)) ∧
        IsPiece (after.flatMap (·.text)) piece.kind piece.text := by
  obtain ⟨segments, hsegments, htokens, hfaults⟩ := exists_segments .start source.toList
  refine ⟨segments, hsegments.text, ?_, fun t ht => ?_, hfaults.symm, fun before piece after h => ?_⟩
  · rw [htokens, ← Position.start_after]
    rfl
  · obtain ⟨piece, hpiece, htoken⟩ := List.mem_filterMap.mp ht
    obtain ⟨before, after, hsplit⟩ := List.mem_iff_append.mp hpiece
    obtain ⟨-, hisPiece⟩ := hsegments.piece hsplit
    obtain ⟨kind, text, position⟩ := piece
    cases kind with
    | token kind =>
      cases htoken
      exact hisPiece.kind_ne_endOfInput
    | _ => cases htoken
  · obtain ⟨hposition, hisPiece⟩ := hsegments.piece h
    exact ⟨hposition.trans (Position.start_after _), hisPiece⟩

end Overlay
