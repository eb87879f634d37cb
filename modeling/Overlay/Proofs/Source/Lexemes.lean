import Overlay.Proofs.Source.Shapes

/-! What the pieces of a source are. A piece of each kind is described by its own text and by what follows it: a name or
    a number goes on as far as it can, a comment or a raw block ends at the first place where it may end, and what is
    rejected begins nothing or has no end. The first piece of a text is always such a piece. -/

namespace Overlay

/-- No piece but a rejected one begins with `c`, if `rest` follows it. --/
structure BeginsNothing (c : Char) (rest : List Char) : Prop where
  noSpace : Lexeme.isSpace c = false
  noLineComment : ¬['/', '/'] <+: c :: rest
  noBlockComment : ¬['/', '*'] <+: c :: rest
  noRawBlock : ¬Lexeme.fence <+: c :: rest
  noNumber : Text.isDigit c = false
  noName : Lexeme.isNameStart c = false
  noPunctuation : punctuation? c = none

/-- The text is that of one piece of a kind, if `rest` follows it. Of a space, the text is one character. --/
inductive IsPiece (rest : List Char) : PieceKind → List Char → Prop where
  | space {c : Char} (isSpace : Lexeme.isSpace c = true) : IsPiece rest .space [c]
  | lineComment {body : List Char} (oneLine : '\n' ∉ body) (ends : ∀ c, rest.head? = some c → c = '\n') :
      IsPiece rest .comment (['/', '/'] ++ body)
  | blockComment {body : List Char} (first : ¬['*', '/'] <:+: body ++ ['*']) :
      IsPiece rest .comment (['/', '*'] ++ body ++ ['*', '/'])
  | rawBlock {code : List Char} (first : ¬Lexeme.fence <:+: code ++ Lexeme.fence.dropLast) :
      IsPiece rest (.token .rawBlock) (Lexeme.fence ++ code ++ Lexeme.fence)
  | hexNumber {x : Char} {digits : List Char} (isX : x = 'x' ∨ x = 'X')
      (hexDigits : ∀ d ∈ digits, Lexeme.isHexDigit d = true)
      (maximal : ∀ c, rest.head? = some c → Lexeme.isHexDigit c = false) :
      IsPiece rest (.token .number) ('0' :: x :: digits)
  | number {d : Char} {digits : List Char} (isDigits : ∀ c ∈ d :: digits, Text.isDigit c = true)
      (maximal : ∀ c, rest.head? = some c → Text.isDigit c = false)
      (noHex : d :: digits = ['0'] → ∀ c, rest.head? = some c → c ≠ 'x' ∧ c ≠ 'X') :
      IsPiece rest (.token .number) (d :: digits)
  | name {c : Char} {cs : List Char} (start : Lexeme.isNameStart c = true)
      (parts : ∀ d ∈ cs, Lexeme.isNamePart d = true)
      (maximal : ∀ d, rest.head? = some d → Lexeme.isNamePart d = false) :
      IsPiece rest (.token (nameKind (c :: cs))) (c :: cs)
  | punctuation {c : Char} {kind : TokenKind} (known : punctuation? c = some kind) : IsPiece rest (.token kind) [c]
  | unexpected {c : Char} (nothing : BeginsNothing c rest) : IsPiece rest (.rejected (.unexpected c)) [c]
  | openComment {body : List Char} (toTheEnd : rest = []) (noEnd : ¬['*', '/'] <:+: body) :
      IsPiece rest (.rejected .openComment) (['/', '*'] ++ body)
  | openRawBlock {body : List Char} (toTheEnd : rest = []) (noEnd : ¬Lexeme.fence <:+: body) :
      IsPiece rest (.rejected .openRawBlock) (Lexeme.fence ++ body)

theorem IsPiece.ne_nil {rest text : List Char} {kind : PieceKind} (h : IsPiece rest kind text) : text ≠ [] := by
  cases h <;> simp [Lexeme.fence]

/-! ### Runs of characters -/

section
variable {cs text : List Char}

theorem head_dropWhile {p : Char → Bool} {c : Char} (h : (cs.dropWhile p).head? = some c) : p c = false := by
  have hc := List.head?_dropWhile_not p cs
  rw [h] at hc
  exact hc

theorem isNamePart_of_isNameStart {c : Char} (h : Lexeme.isNameStart c = true) : Lexeme.isNamePart c = true := by
  rcases Bool.or_eq_true_iff.mp h with h | h
  · simp [Lexeme.isNamePart, Text.isAlphanumeric, h]
  · simp [Lexeme.isNamePart, h]

theorem isPiece_name {c : Char} (h : Lexeme.isNameStart c = true) :
    ∃ rest, c :: cs = Lexeme.name (c :: cs) ++ rest ∧
      IsPiece rest (.token (nameKind (Lexeme.name (c :: cs)))) (Lexeme.name (c :: cs)) := by
  have hname : Lexeme.name (c :: cs) = c :: cs.takeWhile Lexeme.isNamePart := by
    rw [Lexeme.name, List.takeWhile_cons_of_pos (isNamePart_of_isNameStart h)]
  rw [hname]
  refine ⟨cs.dropWhile Lexeme.isNamePart, by simp, .name h (fun d hd => List.mem_takeWhile_imp hd) fun d hd => ?_⟩
  exact head_dropWhile hd

theorem isPiece_number {c : Char} (h : Text.isDigit c = true) :
    ∃ rest, c :: cs = Lexeme.number (c :: cs) ++ rest ∧ IsPiece rest (.token .number) (Lexeme.number (c :: cs)) := by
  have hex : ∀ x tail, x = 'x' ∨ x = 'X' → ∃ rest,
      '0' :: x :: tail = '0' :: x :: tail.takeWhile Lexeme.isHexDigit ++ rest ∧
        IsPiece rest (.token .number) ('0' :: x :: tail.takeWhile Lexeme.isHexDigit) := fun x tail hx =>
    ⟨tail.dropWhile Lexeme.isHexDigit, by simp, .hexNumber hx (fun d hd => List.mem_takeWhile_imp hd) fun d hd =>
      head_dropWhile hd⟩
  unfold Lexeme.number
  split
  · rename_i tail heq
    rw [heq]
    exact hex 'x' tail (Or.inl rfl)
  · rename_i tail heq
    rw [heq]
    exact hex 'X' tail (Or.inr rfl)
  · rename_i hx hX
    rw [List.takeWhile_cons_of_pos h]
    refine ⟨cs.dropWhile Text.isDigit, by simp, .number ?_ (fun d hd => head_dropWhile hd) ?_⟩
    · exact List.forall_mem_cons.mpr ⟨h, fun d hd => List.mem_takeWhile_imp hd⟩
    · -- A zero that is a whole number is not followed by an `x`, or it would begin a hexadecimal one.
      intro hzero d hd
      obtain ⟨rfl, hnil⟩ := List.cons.inj hzero
      have hcs : cs = cs.dropWhile Text.isDigit := by
        have := List.takeWhile_append_dropWhile (p := Text.isDigit) (l := cs)
        rwa [hnil, List.nil_append, eq_comm] at this
      obtain ⟨tail, htail⟩ := List.head?_eq_some_iff.mp hd
      rw [← hcs] at htail
      constructor
      · rintro rfl
        exact hx tail (by rw [htail])
      · rintro rfl
        exact hX tail (by rw [htail])

/-! ### Comments and raw blocks -/

theorem isPiece_lineComment (h : ['/', '/'] <+: cs) :
    ∃ rest, cs = Lexeme.lineComment cs ++ rest ∧ IsPiece rest .comment (Lexeme.lineComment cs) := by
  obtain ⟨tail, rfl⟩ := h
  change ∃ rest, ['/', '/'] ++ tail = ['/', '/'] ++ tail.takeWhile (· != '\n') ++ rest ∧
    IsPiece rest .comment (['/', '/'] ++ tail.takeWhile (· != '\n'))
  refine ⟨tail.dropWhile (· != '\n'), by simp, .lineComment (fun hmem => ?_) fun c hc => ?_⟩
  · simpa using List.mem_takeWhile_imp hmem
  · simpa using head_dropWhile hc

/-- The end of a block comment is the first `*/`. --/
theorem throughCommentEnd_closed : ∀ {cs text : List Char}, Lexeme.throughCommentEnd cs = (text, true) →
    ∃ body rest, text = body ++ ['*', '/'] ∧ cs = text ++ rest ∧ ¬['*', '/'] <:+: body ++ ['*']
  | [], _, h => by cases h
  | c :: cs, text, h => by
    unfold Lexeme.throughCommentEnd at h
    split at h
    · rename_i heq
      cases heq
    · rename_i tail heq
      cases heq
      cases h
      exact ⟨[], tail, rfl, rfl, by decide⟩
    · rename_i d tail hno heq
      cases heq
      cases hrest : Lexeme.throughCommentEnd cs with
      | mk tailText closed =>
        rw [hrest] at h
        cases h
        obtain ⟨body, rest, rfl, rfl, hfirst⟩ := throughCommentEnd_closed hrest
        refine ⟨c :: body, rest, rfl, rfl, fun hinfix => ?_⟩
        rcases List.infix_cons_iff.mp hinfix with hbegins | hinfix
        · -- A `*/` at the front would have ended the comment here.
          obtain ⟨more, hmore⟩ := hbegins
          cases body with
          | nil => simp at hmore
          | cons d body =>
            obtain ⟨rfl, hd⟩ := List.cons.inj hmore
            obtain ⟨rfl, -⟩ := List.cons.inj hd
            exact hno _ rfl rfl
        · exact hfirst hinfix

theorem throughCommentEnd_open : ∀ {cs text : List Char}, Lexeme.throughCommentEnd cs = (text, false) →
    text = cs ∧ ¬['*', '/'] <:+: cs
  | [], _, h => by
    cases h
    exact ⟨rfl, by decide⟩
  | c :: cs, text, h => by
    unfold Lexeme.throughCommentEnd at h
    split at h
    · rename_i heq
      cases heq
    · cases h
    · rename_i d tail hno heq
      cases heq
      cases hrest : Lexeme.throughCommentEnd cs with
      | mk tailText closed =>
        rw [hrest] at h
        cases h
        obtain ⟨rfl, hnone⟩ := throughCommentEnd_open hrest
        refine ⟨rfl, fun hinfix => ?_⟩
        rcases List.infix_cons_iff.mp hinfix with ⟨more, hmore⟩ | hinfix
        · obtain ⟨rfl, htail⟩ := List.cons.inj hmore
          exact hno more rfl htail.symm
        · exact hnone hinfix

theorem isPiece_blockComment (h : ['/', '*'] <+: cs) {closed : Bool} (htext : Lexeme.blockComment cs = (text, closed)) :
    ∃ rest, cs = text ++ rest ∧ IsPiece rest (if closed then .comment else .rejected .openComment) text := by
  obtain ⟨tail, rfl⟩ := h
  change ((['/', '*'] ++ (Lexeme.throughCommentEnd tail).1, (Lexeme.throughCommentEnd tail).2) : List Char × Bool) = _
    at htext
  cases hend : Lexeme.throughCommentEnd tail with
  | mk body found =>
    rw [hend] at htext
    cases htext
    cases found with
    | true =>
      obtain ⟨body, rest, rfl, rfl, hfirst⟩ := throughCommentEnd_closed hend
      refine ⟨rest, by simp, ?_⟩
      rw [← List.append_assoc]
      exact .blockComment hfirst
    | false =>
      obtain ⟨rfl, hnone⟩ := throughCommentEnd_open hend
      exact ⟨[], by simp, .openComment rfl hnone⟩

/-- The end of a raw block is the first fence after the one that opens it. --/
theorem throughFence?_first : ∀ {cs text : List Char}, Lexeme.throughFence? cs = some text →
    ∃ code rest, text = code ++ Lexeme.fence ∧ cs = text ++ rest ∧ ¬Lexeme.fence <:+: code ++ Lexeme.fence.dropLast
  | [], _, h => by cases h
  | c :: cs, text, h => by
    unfold Lexeme.throughFence? at h
    split at h
    · rename_i hfence
      cases h
      obtain ⟨rest, hrest⟩ := List.isPrefixOf_iff_prefix.mp hfence
      exact ⟨[], rest, rfl, hrest.symm, by decide⟩
    · rename_i hfence
      obtain ⟨tail, htail, rfl⟩ := Option.map_eq_some_iff.mp h
      obtain ⟨code, rest, rfl, rfl, hfirst⟩ := throughFence?_first htail
      refine ⟨c :: code, rest, rfl, rfl, fun hinfix => ?_⟩
      rcases List.infix_cons_iff.mp hinfix with hbegins | hinfix
      · refine hfence (List.isPrefixOf_iff_prefix.mpr (hbegins.trans ?_))
        have hdrop : Lexeme.fence = Lexeme.fence.dropLast ++ ['\x60'] := rfl
        refine ⟨'\x60' :: rest, ?_⟩
        conv => rhs; rw [hdrop]
        simp
      · exact hfirst hinfix

theorem throughFence?_none : ∀ {cs : List Char}, Lexeme.throughFence? cs = none → ¬Lexeme.fence <:+: cs
  | [], _ => by decide
  | c :: cs, h => by
    unfold Lexeme.throughFence? at h
    split at h
    · cases h
    · rename_i hfence
      intro hinfix
      rcases List.infix_cons_iff.mp hinfix with hbegins | hinfix
      · exact hfence (List.isPrefixOf_iff_prefix.mpr hbegins)
      · exact throughFence?_none (Option.map_eq_none_iff.mp h) hinfix

theorem isPiece_rawBlock (h : Lexeme.fence <+: cs) (htext : Lexeme.rawBlock? cs = some text) :
    ∃ rest, cs = text ++ rest ∧ IsPiece rest (.token .rawBlock) text := by
  obtain ⟨tail, rfl⟩ := h
  obtain ⟨body, hbody, rfl⟩ := Option.map_eq_some_iff.mp htext
  rw [List.drop_left] at hbody
  obtain ⟨code, rest, rfl, rfl, hfirst⟩ := throughFence?_first hbody
  refine ⟨rest, by simp, ?_⟩
  rw [List.take_left, ← List.append_assoc]
  exact .rawBlock hfirst

theorem isPiece_openRawBlock (h : Lexeme.fence <+: cs) (hnone : Lexeme.rawBlock? cs = none) :
    IsPiece [] (.rejected .openRawBlock) cs := by
  obtain ⟨tail, rfl⟩ := h
  have htail := Option.map_eq_none_iff.mp hnone
  rw [List.drop_left] at htail
  exact .openRawBlock rfl (throughFence?_none htail)

/-! ### The first piece -/

/-- The first piece of a text that begins with no space is a piece of its kind. --/
theorem isPiece_firstPiece {c : Char} {kind : PieceKind} (h : firstPiece c cs = (kind, text))
    (hspace : Lexeme.isSpace c = false) : ∃ rest, c :: cs = text ++ rest ∧ IsPiece rest kind text := by
  unfold firstPiece at h
  dsimp only at h
  rw [if_neg (by simp [hspace])] at h
  split at h
  · rename_i hline
    cases h
    exact isPiece_lineComment (List.isPrefixOf_iff_prefix.mp hline)
  rename_i hline
  split at h
  · rename_i hblock
    have hbegins := List.isPrefixOf_iff_prefix.mp hblock
    split at h <;> rename_i htext <;> cases h <;> exact isPiece_blockComment hbegins htext
  rename_i hblock
  split at h
  · rename_i hfence
    have hbegins := List.isPrefixOf_iff_prefix.mp hfence
    split at h
    · rename_i htext
      cases h
      exact isPiece_rawBlock hbegins htext
    · rename_i htext
      cases h
      exact ⟨[], by simp, isPiece_openRawBlock hbegins htext⟩
  rename_i hfence
  split at h
  · rename_i hdigit
    cases h
    exact isPiece_number hdigit
  rename_i hdigit
  split at h
  · rename_i hname
    cases h
    exact isPiece_name hname
  rename_i hname
  split at h
  · rename_i hkind
    cases h
    exact ⟨cs, rfl, .punctuation hkind⟩
  · rename_i hnone
    cases h
    refine ⟨cs, rfl, .unexpected ?_⟩
    rw [List.isPrefixOf_iff_prefix] at hline hblock hfence
    exact ⟨hspace, hline, hblock, hfence, by simpa using hdigit, by simpa using hname, hnone⟩

end
end Overlay
