import Overlay.Proofs.Source.Determined

/-! Tokens written with other gaps between them. A gap is spaces, block comments and whole line comments; whatever gaps
    stand around the tokens of a source, one at least between each two of them, the text so written has the same
    tokens, by kind and text, and no faults. A token never reaches into the gap behind it, because it is a token of its
    own before a space and before a slash. -/

namespace Overlay

/-- What makes a token the same wherever it stands. --/
def Token.content (t : Token) : TokenKind × String := (t.kind, t.text)

/-! ### Gaps -/

/-- A space, a block comment, or a line comment with the line feed that ends it. --/
inductive IsGap : List Char → Prop where
  | space {c : Char} (isSpace : Lexeme.isSpace c = true) : IsGap [c]
  | blockComment {body : List Char} (first : ¬['*', '/'] <:+: body ++ ['*']) :
      IsGap (['/', '*'] ++ body ++ ['*', '/'])
  | lineComment {body : List Char} (oneLine : '\n' ∉ body) : IsGap (['/', '/'] ++ body ++ ['\n'])

/-- Any number of gaps one after the other. --/
inductive Gaps : List Char → Prop where
  | nil : Gaps []
  | cons {gap more : List Char} (first : IsGap gap) (others : Gaps more) : Gaps (gap ++ more)

/-- Gaps at the end of a text, where a line comment needs no line feed. --/
inductive ClosingGaps : List Char → Prop where
  | closed {gaps : List Char} (closed : Gaps gaps) : ClosingGaps gaps
  | lineComment {gaps body : List Char} (closed : Gaps gaps) (oneLine : '\n' ∉ body) :
      ClosingGaps (gaps ++ (['/', '/'] ++ body))

/-- The texts of tokens in order, with a gap at least between each two of them and any gaps after the last. --/
inductive Spaced : List Token → List Char → Prop where
  | nil {last : List Char} (closing : ClosingGaps last) : Spaced [] last
  | single {t : Token} {last : List Char} (closing : ClosingGaps last) : Spaced [t] (t.text.toList ++ last)
  | cons {t u : Token} {others : List Token} {gap text : List Char} (gaps : Gaps gap) (apart : gap ≠ [])
      (more : Spaced (u :: others) text) : Spaced (t :: u :: others) (t.text.toList ++ (gap ++ text))

/-- A text that goes on with a gap, or not at all. --/
def BeginsGap (cs : List Char) : Prop := ∀ c, cs.head? = some c → Lexeme.isSpace c = true ∨ c = '/'

section
variable {cs gap rest text : List Char} {segments : List Piece} {p : Position}

theorem IsGap.beginsGap (h : IsGap gap) (cs : List Char) : BeginsGap (gap ++ cs) ∧ gap ≠ [] := by
  cases h with
  | space isSpace =>
    refine ⟨fun c hc => Or.inl ?_, List.cons_ne_nil _ _⟩
    cases hc
    exact isSpace
  | blockComment | lineComment =>
    refine ⟨fun c hc => Or.inr ?_, List.cons_ne_nil _ _⟩
    cases hc
    rfl

theorem Gaps.beginsGap (h : Gaps gap) (hgap : gap ≠ [] ∨ cs = []) : BeginsGap (gap ++ cs) := by
  cases h with
  | nil =>
    obtain rfl := hgap.resolve_left (· rfl)
    exact nofun
  | cons first others =>
    rw [List.append_assoc]
    exact (first.beginsGap _).1

theorem ClosingGaps.beginsGap (h : ClosingGaps gap) : BeginsGap gap := by
  cases h with
  | closed closed =>
    rw [← List.append_nil gap]
    exact closed.beginsGap (Or.inr rfl)
  | @lineComment gaps body closed =>
    by_cases hnil : gaps = []
    · subst hnil
      exact fun c hc => Or.inr (Option.some.inj hc).symm
    · exact closed.beginsGap (Or.inl hnil)

/-! ### Gaps as pieces -/

theorem IsGap.exists_segments (h : IsGap gap) (hcs : Segments (p.after gap) cs segments) :
    ∃ more, Segments p (gap ++ cs) (more ++ segments) ∧
      more.filterMap Piece.token? = [] ∧ more.filterMap Piece.fault? = [] := by
  cases h with
  | space isSpace => exact ⟨[_], .cons (.space isSpace) hcs, rfl, rfl⟩
  | blockComment first => exact ⟨[_], .cons (.blockComment first) hcs, rfl, rfl⟩
  | @lineComment body oneLine =>
    rw [Position.after_append] at hcs
    have hfeed : Segments (p.after (['/', '/'] ++ body)) (['\n'] ++ cs) _ := .cons (.space rfl) hcs
    have hcomment : IsPiece (['\n'] ++ cs) .comment (['/', '/'] ++ body) :=
      .lineComment oneLine fun c hc => (Option.some.inj hc).symm
    rw [List.append_assoc]
    exact ⟨[_, _], .cons hcomment hfeed, rfl, rfl⟩

theorem Gaps.exists_segments (h : Gaps gap) (hcs : Segments (p.after gap) cs segments) :
    ∃ more, Segments p (gap ++ cs) (more ++ segments) ∧
      more.filterMap Piece.token? = [] ∧ more.filterMap Piece.fault? = [] := by
  induction h generalizing p with
  | nil => exact ⟨[], hcs, rfl, rfl⟩
  | cons first others ih =>
    rw [Position.after_append] at hcs
    obtain ⟨later, hlater, htokens, hfaults⟩ := ih hcs
    obtain ⟨more, hmore, hnoTokens, hnoFaults⟩ := first.exists_segments hlater
    rw [List.append_assoc]
    refine ⟨more ++ later, by rwa [List.append_assoc], ?_, ?_⟩
    · rw [List.filterMap_append, hnoTokens, htokens, List.nil_append]
    · rw [List.filterMap_append, hnoFaults, hfaults, List.nil_append]

theorem ClosingGaps.exists_segments (h : ClosingGaps gap) (p : Position) :
    ∃ more, Segments p gap more ∧ more.filterMap Piece.token? = [] ∧ more.filterMap Piece.fault? = [] := by
  cases h with
  | closed closed =>
    obtain ⟨more, hmore, hquiet⟩ := closed.exists_segments (.nil (p.after gap))
    rw [List.append_nil, List.append_nil] at hmore
    exact ⟨more, hmore, hquiet⟩
  | @lineComment gaps body closed oneLine =>
    have hcomment : Segments (p.after gaps) (['/', '/'] ++ body ++ []) _ := .cons (.lineComment oneLine nofun) (.nil _)
    rw [List.append_nil] at hcomment
    obtain ⟨more, hmore, htokens, hfaults⟩ := closed.exists_segments hcomment
    refine ⟨_, hmore, ?_, ?_⟩
    · rw [List.filterMap_append, htokens]
      rfl
    · rw [List.filterMap_append, hfaults]
      rfl

/-! ### Tokens before gaps -/

/-- A token keeps its kind and text before a gap and at the end of a text. --/
theorem IsPiece.before_gap {kind : TokenKind} (h : IsPiece rest (.token kind) text) (hgap : BeginsGap cs) :
    IsPiece cs (.token kind) text := by
  -- What may follow a number or a name is told by the class of its characters, and no such class has a gap's first.
  have hstops : ∀ q : Char → Bool, [' ', '\t', '\r', '\n', '/'].any q = false →
      ∀ c, cs.head? = some c → q c = false := by
    intro q hq c hc
    have hstop : ∀ d ∈ [' ', '\t', '\r', '\n', '/'], q d = false := fun d hd => by
      simpa using List.any_eq_false.mp hq d hd
    rcases hgap c hc with hspace | rfl
    · rcases isSpace_cases hspace with rfl | rfl | rfl | rfl <;> exact hstop _ (by simp)
    · exact hstop _ (by simp)
  generalize hkind : PieceKind.token kind = pieceKind at h ⊢
  cases h with
  | rawBlock first => exact .rawBlock first
  | hexNumber isX hexDigits => exact .hexNumber isX hexDigits (hstops _ (by decide))
  | number isDigits =>
    refine .number isDigits (hstops _ (by decide)) fun _ c hc => ?_
    have hnoX := hstops (fun d => d == 'x' || d == 'X') (by decide) c hc
    simpa using hnoX
  | name start parts => exact .name start parts (hstops _ (by decide))
  | punctuation known => exact .punctuation known
  | space | lineComment | blockComment | unexpected | openComment | openRawBlock => cases hkind

theorem isPiece_of_mem_pieces {source : List Char} {t : Token} (h : t ∈ (pieces p source).filterMap Piece.token?) :
    ∃ rest, IsPiece rest (.token t.kind) t.text.toList := by
  obtain ⟨segments, hsegments, htokens, -⟩ := exists_segments p source
  rw [← htokens] at h
  obtain ⟨⟨kind, text, q⟩, hpiece, htoken⟩ := List.mem_filterMap.mp h
  obtain ⟨before, after, hsplit⟩ := List.mem_iff_append.mp hpiece
  obtain ⟨-, hisPiece⟩ := hsegments.piece hsplit
  cases kind with
  | token kind =>
    cases htoken
    exact ⟨_, by simpa using hisPiece⟩
  | _ => cases htoken

theorem content_cons (kind : TokenKind) (text : List Char) (p : Position) (segments : List Piece) :
    ((⟨.token kind, text, p⟩ :: segments).filterMap Piece.token?).map Token.content =
      (kind, String.ofList text) :: (segments.filterMap Piece.token?).map Token.content := rfl

/-- Spaced tokens are the pieces of their text that are tokens, and no piece is rejected. --/
theorem Spaced.exists_segments {tokens : List Token} (h : Spaced tokens cs)
    (htokens : ∀ t ∈ tokens, ∃ rest, IsPiece rest (.token t.kind) t.text.toList) (p : Position) :
    ∃ segments, Segments p cs segments ∧ (segments.filterMap Piece.token?).map Token.content = tokens.map Token.content ∧
      segments.filterMap Piece.fault? = [] := by
  induction h generalizing p with
  | nil closing =>
    obtain ⟨more, hmore, hnoTokens, hnoFaults⟩ := closing.exists_segments p
    exact ⟨more, hmore, by rw [hnoTokens, List.map_nil], hnoFaults⟩
  | @single t last closing =>
    obtain ⟨_, hpiece⟩ := htokens t List.mem_cons_self
    obtain ⟨more, hmore, hnoTokens, hnoFaults⟩ := closing.exists_segments (p.after t.text.toList)
    refine ⟨_, .cons (hpiece.before_gap closing.beginsGap) hmore, ?_, ?_⟩
    · rw [content_cons, hnoTokens, String.ofList_toList]
      rfl
    · rw [List.filterMap_cons_none rfl, hnoFaults]
  | @cons t u others gap text gaps apart more ih =>
    obtain ⟨_, hpiece⟩ := htokens t List.mem_cons_self
    obtain ⟨later, hlater, hsame, hlaterFaults⟩ :=
      ih (fun v hv => htokens v (List.mem_cons_of_mem _ hv)) ((p.after t.text.toList).after gap)
    obtain ⟨between, hbetween, hnoTokens, hnoFaults⟩ := gaps.exists_segments hlater
    refine ⟨_, .cons (hpiece.before_gap (gaps.beginsGap (Or.inl apart))) hbetween, ?_, ?_⟩
    · rw [content_cons, List.filterMap_append, hnoTokens, List.nil_append, hsame, String.ofList_toList]
      rfl
    · rw [List.filterMap_cons_none rfl, List.filterMap_append, hnoFaults, hlaterFaults, List.nil_append]

/-! ### Respaced sources -/

theorem lex_of_segments {source : String} (h : Segments .start source.toList segments) :
    (lex source).tokens.map Token.content =
        (segments.filterMap Piece.token?).map Token.content ++ [(.endOfInput, "")] ∧
      (lex source).faults = segments.filterMap Piece.fault? := by
  obtain ⟨htokens, hfaults⟩ := h.tokens_faults
  refine ⟨?_, hfaults⟩
  change (_ ++ [_]).map Token.content = _
  rw [htokens, List.map_append]
  rfl

theorem filter_tokens (source : String) :
    (lex source).tokens.filter (·.kind != .endOfInput) = (pieces .start source.toList).filterMap Piece.token? := by
  change (_ ++ [_]).filter _ = _
  rw [List.filter_append, List.filter_eq_self.mpr fun t ht => ?_]
  · exact List.append_nil _
  · obtain ⟨_, hpiece⟩ := isPiece_of_mem_pieces ht
    simpa using hpiece.kind_ne_endOfInput

/-- The tokens of a source, written one after the other with gaps between them and any gaps around them, are the tokens
    of the text so written, and it has no faults. --/
theorem lex_spaced {source : String} {lead body : List Char} (hlead : Gaps lead)
    (hbody : Spaced ((lex source).tokens.filter (·.kind != .endOfInput)) body) :
    (lex (String.ofList (lead ++ body))).faults = [] ∧
      (lex (String.ofList (lead ++ body))).tokens.map Token.content = (lex source).tokens.map Token.content := by
  rw [filter_tokens] at hbody
  obtain ⟨segments, hsegments, hsame, hnoFaults⟩ :=
    hbody.exists_segments (fun t ht => isPiece_of_mem_pieces ht) (Position.start.after lead)
  obtain ⟨before, hbefore, hnoTokens, hleadFaults⟩ := hlead.exists_segments hsegments
  rw [← String.toList_ofList (l := lead ++ body)] at hbefore
  obtain ⟨hcontent, hfaults⟩ := lex_of_segments hbefore
  constructor
  · rw [hfaults, List.filterMap_append, hleadFaults, hnoFaults, List.nil_append]
  · rw [hcontent, List.filterMap_append, hnoTokens, List.nil_append, hsame]
    change _ = (_ ++ [_]).map Token.content
    rw [List.map_append]
    rfl

theorem lex_spaced_comments : Gaps "// *\n ".toList ∧
    Spaced ((lex "int*```/*```").tokens.filter (·.kind != .endOfInput)) "int/***/* \r```/*```// end".toList ∧
      (lex "// *\n int/***/* \r```/*```// end").faults = [] ∧
      (lex "// *\n int/***/* \r```/*```// end").tokens.map Token.content =
        (lex "int*```/*```").tokens.map Token.content := by
  have hlead : Gaps "// *\n ".toList := by
    have hline : Gaps (['/', '/'] ++ [' ', '*'] ++ ['\n'] ++ ([' '] ++ [])) :=
      .cons (.lineComment (by decide)) (.cons (.space rfl) .nil)
    simpa using hline
  have hbody : Spaced ((lex "int*```/*```").tokens.filter (·.kind != .endOfInput))
      "int/***/* \r```/*```// end".toList := by
    have hcomment : Gaps (['/', '*'] ++ ['*'] ++ ['*', '/'] ++ []) := .cons (.blockComment (by decide)) .nil
    have hspaces : Gaps ([' '] ++ (['\r'] ++ [])) := .cons (.space rfl) (.cons (.space rfl) .nil)
    have hclosing : ClosingGaps ([] ++ (['/', '/'] ++ [' ', 'e', 'n', 'd'])) := .lineComment .nil (by decide)
    have htokens : (lex "int*```/*```").tokens.filter (·.kind != .endOfInput) =
        [⟨.identifier, "int", ⟨1, 1⟩⟩, ⟨.star, "*", ⟨1, 4⟩⟩, ⟨.rawBlock, "```/*```", ⟨1, 5⟩⟩] := by decide +kernel
    rw [htokens]
    simpa using Spaced.cons (t := ⟨.identifier, "int", ⟨1, 1⟩⟩) hcomment (List.cons_ne_nil _ _)
      (.cons (t := ⟨.star, "*", ⟨1, 4⟩⟩) hspaces (List.cons_ne_nil _ _)
        (.single (t := ⟨.rawBlock, "```/*```", ⟨1, 5⟩⟩) hclosing))
  have hspaced := lex_spaced hlead hbody
  rw [← String.toList_append, String.ofList_toList] at hspaced
  exact ⟨hlead, hbody, hspaced⟩

end
end Overlay
