import Overlay.Proofs.Source.Lossless

/-! What a piece determines. A text that begins with a piece of some kind has that piece, with that text, as its first:
    no character begins pieces of two kinds, and each lexeme stops where the piece stops. A text that is pieces one after
    the other therefore has the tokens and the faults of these pieces. -/

namespace Overlay

/-! ### Characters that begin a piece -/

/-- No code point from `a` to `b` is in the ranges. --/
def Text.Ranges.avoid : Text.Ranges → Nat → Nat → Bool
  | [], _, _ => true
  | (first, last) :: rest, a, b => if last < a then avoid rest a b else b < first && b ≤ last

theorem Text.Ranges.holds_of_avoid {a b n : Nat} (ha : a ≤ n) (hb : n ≤ b) :
    ∀ {ranges : Text.Ranges}, ranges.avoid a b = true → ranges.holds n = false
  | [], _ => rfl
  | (first, last) :: rest, h => by
    unfold Text.Ranges.avoid at h
    unfold Text.Ranges.holds
    split at h
    · rename_i hlast
      rw [if_pos (by omega)]
      exact holds_of_avoid ha hb h
    · simp only [Bool.and_eq_true, decide_eq_true_eq] at h
      rw [if_neg (by omega)]
      simpa using by omega

theorem Text.Ranges.exists_of_holds {n : Nat} :
    ∀ {ranges : Text.Ranges}, ranges.holds n = true → ∃ range ∈ ranges, range.1 ≤ n ∧ n ≤ range.2
  | [], h => by cases h
  | (first, last) :: rest, h => by
    unfold Text.Ranges.holds at h
    split at h
    · obtain ⟨range, hrange, hn⟩ := exists_of_holds h
      exact ⟨range, List.mem_cons_of_mem _ hrange, hn⟩
    · rename_i hlast
      exact ⟨(first, last), List.mem_cons_self, by simpa using h, Nat.le_of_not_lt hlast⟩

theorem letters_avoid_digits : ∀ range ∈ Text.digits, Text.letters.avoid range.1 range.2 = true := by decide +kernel

theorem isNameStart_of_isDigit {c : Char} (h : Text.isDigit c = true) : Lexeme.isNameStart c = false := by
  obtain ⟨range, hrange, hfirst, hlast⟩ := Text.Ranges.exists_of_holds h
  have hletter : Text.isLetter c = false := Text.Ranges.holds_of_avoid hfirst hlast (letters_avoid_digits range hrange)
  have hunderscore : c ≠ '_' := by
    rintro rfl
    revert h
    decide
  simp [Lexeme.isNameStart, hletter, hunderscore]

/-- A character that begins neither a space nor a comment nor a raw block. --/
structure IsPlain (c : Char) : Prop where
  noSpace : Lexeme.isSpace c = false
  noSlash : c ≠ '/'
  noFence : c ≠ '\x60'

theorem isSpace_cases {c : Char} (h : Lexeme.isSpace c = true) : c = ' ' ∨ c = '\t' ∨ c = '\r' ∨ c = '\n' := by
  simpa [Lexeme.isSpace, or_assoc] using h

/-- A class of characters without the spaces, the slash and the fence has plain characters only. --/
theorem isPlain_of_class {p : Char → Bool} (hp : [' ', '\t', '\r', '\n', '/', '\x60'].any p = false) {c : Char}
    (h : p c = true) : IsPlain c := by
  have hne : ∀ d ∈ [' ', '\t', '\r', '\n', '/', '\x60'], c ≠ d := by
    rintro d hd rfl
    exact List.any_eq_false.mp hp c hd h
  refine ⟨Bool.eq_false_iff.mpr fun hspace => ?_, hne _ (by simp), hne _ (by simp)⟩
  rcases isSpace_cases hspace with heq | heq | heq | heq <;> exact hne _ (by simp) heq

theorem isPlain_of_isDigit {c : Char} (h : Text.isDigit c = true) : IsPlain c := isPlain_of_class (by decide) h

theorem isPlain_of_isNameStart {c : Char} (h : Lexeme.isNameStart c = true) : IsPlain c :=
  isPlain_of_class (by decide) h

theorem isPlain_of_punctuation {c : Char} (h : (punctuation? c).isSome = true) : IsPlain c :=
  isPlain_of_class (p := fun d => (punctuation? d).isSome) (by decide) h

section
variable {c : Char} {cs rest text : List Char} {kind : PieceKind}

theorem IsPlain.firstPiece (h : IsPlain c) (cs : List Char) : firstPiece c cs =
    if Text.isDigit c then (.token .number, Lexeme.number (c :: cs))
    else if Lexeme.isNameStart c then (.token (nameKind (Lexeme.name (c :: cs))), Lexeme.name (c :: cs))
    else match punctuation? c with
      | some kind => (.token kind, [c])
      | none => (.rejected (.unexpected c), [c]) := by
  cases hpunctuation : punctuation? c <;>
    simp only [Overlay.firstPiece, hpunctuation, h.noSpace, Lexeme.fence, List.isPrefixOf_cons_cons,
      beq_false_of_ne h.noSlash.symm, beq_false_of_ne h.noFence.symm, Bool.false_and, Bool.false_eq_true, if_false]

theorem noDigit_of_punctuation {kind : TokenKind} (h : punctuation? c = some kind) :
    Text.isDigit c = false ∧ Lexeme.isNameStart c = false := by
  unfold punctuation? at h
  split at h <;> first | decide | cases h

/-! ### Where a lexeme stops -/

theorem takeWhile_run {p : Char → Bool} (hrun : ∀ d ∈ cs, p d = true) (hstop : ∀ d, rest.head? = some d → p d = false) :
    (cs ++ rest).takeWhile p = cs := by
  rw [List.takeWhile_append_of_pos hrun]
  cases rest with
  | nil => simp
  | cons d rest => rw [List.takeWhile_cons_of_neg (by simp [hstop d rfl]), List.append_nil]

theorem throughCommentEnd_first {body : List Char} (first : ¬['*', '/'] <:+: body ++ ['*']) :
    Lexeme.throughCommentEnd (body ++ ['*', '/'] ++ rest) = (body ++ ['*', '/'], true) := by
  induction body with
  | nil => rfl
  | cons c body ih =>
    have hbody := ih fun hinfix => first (List.infix_cons_iff.mpr (.inr hinfix))
    rw [List.cons_append, List.cons_append, Lexeme.throughCommentEnd, hbody]
    rintro tail rfl htail
    -- Only a body that goes on with a slash would have ended the comment at this star.
    cases body with
    | nil => cases htail
    | cons d body =>
      obtain ⟨rfl, -⟩ := List.cons.inj htail
      exact first (List.infix_cons_iff.mpr (.inl ⟨body ++ ['*'], rfl⟩))

theorem throughCommentEnd_none {body : List Char} (noEnd : ¬['*', '/'] <:+: body) :
    Lexeme.throughCommentEnd body = (body, false) := by
  cases h : Lexeme.throughCommentEnd body with
  | mk text closed =>
    cases closed with
    | true =>
      obtain ⟨before, rest, rfl, rfl, -⟩ := throughCommentEnd_closed h
      exact absurd ⟨before, rest, by simp⟩ noEnd
    | false => rw [(throughCommentEnd_open h).1]

theorem throughFence?_closed {code : List Char} (first : ¬Lexeme.fence <:+: code ++ Lexeme.fence.dropLast) :
    Lexeme.throughFence? (code ++ Lexeme.fence ++ rest) = some (code ++ Lexeme.fence) := by
  induction code with
  | nil => simp [Lexeme.throughFence?, Lexeme.fence]
  | cons c code ih =>
    have hcode := ih fun hinfix => first (List.infix_cons_iff.mpr (.inr hinfix))
    rw [List.cons_append, List.cons_append, Lexeme.throughFence?, hcode, if_neg]
    · rfl
    · intro hbegins
      refine first (List.infix_cons_iff.mpr (.inl ?_))
      -- The three characters of a fence here are among those before the last one of the closing fence.
      have hlong : (c :: (code ++ Lexeme.fence.dropLast)) <+: c :: (code ++ Lexeme.fence ++ rest) :=
        ⟨'\x60' :: rest, by simp [Lexeme.fence]⟩
      exact List.prefix_of_prefix_length_le (List.isPrefixOf_iff_prefix.mp hbegins) hlong (by simp [Lexeme.fence])

theorem throughFence?_open {body : List Char} (noEnd : ¬Lexeme.fence <:+: body) : Lexeme.throughFence? body = none := by
  cases h : Lexeme.throughFence? body with
  | none => rfl
  | some text =>
    obtain ⟨code, rest, rfl, rfl, -⟩ := throughFence?_first h
    exact absurd ⟨code, rest, rfl⟩ noEnd

/-! ### The first piece -/

theorem firstPiece_lineComment {body : List Char} : firstPiece '/' ('/' :: body) =
    (.comment, '/' :: '/' :: body.takeWhile (· != '\n')) := by
  simp [firstPiece, Lexeme.isSpace, Lexeme.lineComment]

theorem firstPiece_blockComment {body : List Char} : firstPiece '/' ('*' :: body) =
    match Lexeme.throughCommentEnd body with
    | (text, true) => (.comment, '/' :: '*' :: text)
    | (text, false) => (.rejected .openComment, '/' :: '*' :: text) := by
  cases h : Lexeme.throughCommentEnd body with
  | mk text closed => cases closed <;> simp [firstPiece, Lexeme.isSpace, Lexeme.blockComment, h]

theorem firstPiece_fence {body : List Char} : firstPiece '\x60' ('\x60' :: '\x60' :: body) =
    match Lexeme.throughFence? body with
    | some text => (.token .rawBlock, Lexeme.fence ++ text)
    | none => (.rejected .openRawBlock, Lexeme.fence ++ body) := by
  cases h : Lexeme.throughFence? body <;> simp [firstPiece, Lexeme.isSpace, Lexeme.rawBlock?, Lexeme.fence, h]

theorem firstPiece_number (h : Text.isDigit c = true) :
    firstPiece c cs = (.token .number, Lexeme.number (c :: cs)) := by
  rw [(isPlain_of_isDigit h).firstPiece, if_pos h]

theorem firstPiece_name (h : Lexeme.isNameStart c = true) :
    firstPiece c cs = (.token (nameKind (Lexeme.name (c :: cs))), Lexeme.name (c :: cs)) := by
  have hdigit : Text.isDigit c ≠ true := fun hdigit => by simp [isNameStart_of_isDigit hdigit] at h
  rw [(isPlain_of_isNameStart h).firstPiece, if_neg hdigit, if_pos h]

theorem firstPiece_punctuation {kind : TokenKind} (h : punctuation? c = some kind) :
    firstPiece c cs = (.token kind, [c]) := by
  obtain ⟨hdigit, hname⟩ := noDigit_of_punctuation h
  rw [(isPlain_of_punctuation (by simp [h])).firstPiece, if_neg (by simp [hdigit]), if_neg (by simp [hname]), h]

theorem firstPiece_unexpected (h : BeginsNothing c cs) : firstPiece c cs = (.rejected (.unexpected c), [c]) := by
  unfold firstPiece
  dsimp only
  rw [if_neg (by simp [h.noSpace]), if_neg fun hbegins => h.noLineComment (List.isPrefixOf_iff_prefix.mp hbegins),
    if_neg fun hbegins => h.noBlockComment (List.isPrefixOf_iff_prefix.mp hbegins),
    if_neg fun hbegins => h.noRawBlock (List.isPrefixOf_iff_prefix.mp hbegins), if_neg (by simp [h.noNumber]),
    if_neg (by simp [h.noName]), h.noPunctuation]

theorem number_decimal {d : Char} (isDigits : ∀ c ∈ d :: cs, Text.isDigit c = true)
    (maximal : ∀ c, rest.head? = some c → Text.isDigit c = false)
    (noHex : d :: cs = ['0'] → ∀ c, rest.head? = some c → c ≠ 'x' ∧ c ≠ 'X') :
    Lexeme.number (d :: (cs ++ rest)) = d :: cs := by
  have hrun : (d :: cs ++ rest).takeWhile Text.isDigit = d :: cs := takeWhile_run isDigits maximal
  have hnoX : ∀ x tail, x = 'x' ∨ x = 'X' → d :: (cs ++ rest) ≠ '0' :: x :: tail := by
    intro x tail hx heq
    obtain ⟨rfl, htail⟩ := List.cons.inj heq
    cases cs with
    | nil => exact hx.elim (noHex rfl x (by simp_all)).1 (noHex rfl x (by simp_all)).2
    | cons c cs =>
      obtain ⟨rfl, -⟩ := List.cons.inj htail
      have hdigit := isDigits c (by simp)
      rcases hx with rfl | rfl <;> revert hdigit <;> decide
  unfold Lexeme.number
  split
  · exact absurd ‹_› (hnoX _ _ (Or.inl rfl))
  · exact absurd ‹_› (hnoX _ _ (Or.inr rfl))
  · exact hrun

/-- The first piece of a text that begins with a piece is that piece. --/
theorem IsPiece.firstPiece (h : IsPiece rest kind (c :: text)) (hkind : kind ≠ .space) :
    firstPiece c (text ++ rest) = (kind, c :: text) := by
  generalize htext : c :: text = whole at h
  cases h with
  | space => exact absurd rfl hkind
  | @lineComment body oneLine ends =>
    cases htext
    have hrun : (body ++ rest).takeWhile (· != '\n') = body :=
      takeWhile_run (fun d hd => by simpa using ne_of_mem_of_not_mem hd oneLine) fun d hd => by simpa using ends d hd
    change Overlay.firstPiece '/' ('/' :: (body ++ rest)) = (.comment, '/' :: '/' :: body)
    rw [firstPiece_lineComment, hrun]
  | @blockComment body first =>
    cases htext
    change Overlay.firstPiece '/' ('*' :: (body ++ ['*', '/'] ++ rest)) = (.comment, '/' :: '*' :: (body ++ ['*', '/']))
    rw [firstPiece_blockComment, throughCommentEnd_first first]
  | @rawBlock code first =>
    cases htext
    change Overlay.firstPiece '\x60' ('\x60' :: '\x60' :: (code ++ Lexeme.fence ++ rest)) =
      (.token .rawBlock, Lexeme.fence ++ (code ++ Lexeme.fence))
    rw [firstPiece_fence, throughFence?_closed first]
  | @hexNumber x digits isX hexDigits maximal =>
    cases htext
    have hrun : (digits ++ rest).takeWhile Lexeme.isHexDigit = digits := takeWhile_run hexDigits maximal
    rw [firstPiece_number (by decide)]
    rcases isX with rfl | rfl <;> rw [List.cons_append, Lexeme.number, hrun]
  | number isDigits maximal noHex =>
    cases htext
    rw [firstPiece_number (isDigits _ List.mem_cons_self), number_decimal isDigits maximal noHex]
  | name start parts maximal =>
    cases htext
    have hrun : Lexeme.name (c :: text ++ rest) = c :: text :=
      takeWhile_run (List.forall_mem_cons.mpr ⟨isNamePart_of_isNameStart start, parts⟩) maximal
    rw [firstPiece_name start, ← List.cons_append, hrun]
  | punctuation known =>
    cases htext
    exact firstPiece_punctuation known
  | unexpected nothing =>
    cases htext
    exact firstPiece_unexpected nothing
  | @openComment body toTheEnd noEnd =>
    cases htext
    rw [toTheEnd, List.append_nil]
    change Overlay.firstPiece '/' ('*' :: body) = (.rejected .openComment, '/' :: '*' :: body)
    rw [firstPiece_blockComment, throughCommentEnd_none noEnd]
  | @openRawBlock body toTheEnd noEnd =>
    cases htext
    rw [toTheEnd, List.append_nil]
    change Overlay.firstPiece '\x60' ('\x60' :: '\x60' :: body) = (.rejected .openRawBlock, Lexeme.fence ++ body)
    rw [firstPiece_fence, throughFence?_open noEnd]

/-! ### Tokens and faults -/

/-- A space in front of a text is no token and no fault. --/
theorem pieces_space (h : Lexeme.isSpace c = true) (p : Position) :
    (pieces p (c :: cs)).filterMap Piece.token? = (pieces (p.next c) cs).filterMap Piece.token? ∧
      (pieces p (c :: cs)).filterMap Piece.fault? = (pieces (p.next c) cs).filterMap Piece.fault? := by
  have hrun : ∀ {d : Char} {ds : List Char} (q : Position), Lexeme.isSpace d = true → pieces q (d :: ds) =
      ⟨.space, d :: ds.takeWhile Lexeme.isSpace, q⟩ ::
        pieces (q.after (d :: ds.takeWhile Lexeme.isSpace)) (ds.dropWhile Lexeme.isSpace) := by
    intro d ds q hd
    refine pieces_cons ?_ (List.cons_ne_nil _ _) (by simp) q
    rw [firstPiece, if_pos hd, Lexeme.spaces, List.takeWhile_cons_of_pos hd]
  rw [hrun p h, List.filterMap_cons_none rfl, List.filterMap_cons_none rfl]
  cases cs with
  | nil => exact ⟨rfl, rfl⟩
  | cons d ds =>
    by_cases hd : Lexeme.isSpace d = true
    · rw [hrun _ hd, List.filterMap_cons_none rfl, List.filterMap_cons_none rfl, List.takeWhile_cons_of_pos hd,
        List.dropWhile_cons_of_pos hd]
      exact ⟨rfl, rfl⟩
    · rw [List.takeWhile_cons_of_neg hd, List.dropWhile_cons_of_neg hd]
      exact ⟨rfl, rfl⟩

/-- The tokens and the faults of a text are those of any pieces that it is one after the other. --/
theorem Segments.tokens_faults {p : Position} {segments : List Piece} (h : Segments p cs segments) :
    (pieces p cs).filterMap Piece.token? = segments.filterMap Piece.token? ∧
      (pieces p cs).filterMap Piece.fault? = segments.filterMap Piece.fault? := by
  induction h with
  | nil => exact ⟨rfl, rfl⟩
  | @cons p kind text rest others isPiece more ih =>
    by_cases hkind : kind = .space
    · subst hkind
      cases isPiece with
      | space isSpace =>
        obtain ⟨htokens, hfaults⟩ := pieces_space isSpace p
        rw [List.filterMap_cons_none rfl, List.filterMap_cons_none rfl, ← ih.1, ← ih.2]
        exact ⟨htokens, hfaults⟩
    · obtain ⟨c, tail, rfl⟩ := List.exists_cons_of_ne_nil isPiece.ne_nil
      rw [List.cons_append, pieces_cons (isPiece.firstPiece hkind) (List.cons_ne_nil _ _) rfl, List.filterMap_cons,
        List.filterMap_cons, List.filterMap_cons, List.filterMap_cons, ih.1, ih.2]
      exact ⟨rfl, rfl⟩

end
end Overlay
