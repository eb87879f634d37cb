import Overlay.Proofs.Build.Translation
import Overlay.Proofs.Source.Determined

/-! The raw blocks of a source. They are found without tokens, by a reader that goes over the characters and knows only
    whether it is in a comment or in a raw block. In a source without faults this reader and the lexer find the same
    blocks: no character of another lexeme opens a comment or a raw block, and both end where the lexer ends them. -/

namespace Overlay

/-! ### Raw blocks by their fences -/

/-- What the next character of a source stands in. Of a raw block, the characters before the next one are known. --/
inductive Inside where
  | nothing
  | lineComment
  | blockComment
  | rawBlock (code : List Char)

/-- What stands between each fence outside of comments and the first fence after it. --/
def contentsFrom : Inside → List Char → List (List Char)
  | _, [] => []
  | .nothing, '/' :: '/' :: cs => contentsFrom .lineComment cs
  | .nothing, '/' :: '*' :: cs => contentsFrom .blockComment cs
  | .nothing, '\x60' :: '\x60' :: '\x60' :: cs => contentsFrom (.rawBlock []) cs
  | .nothing, _ :: cs => contentsFrom .nothing cs
  | .lineComment, c :: cs => contentsFrom (if c = '\n' then .nothing else .lineComment) cs
  | .blockComment, '*' :: '/' :: cs => contentsFrom .nothing cs
  | .blockComment, _ :: cs => contentsFrom .blockComment cs
  | .rawBlock code, '\x60' :: '\x60' :: '\x60' :: cs => code :: contentsFrom .nothing cs
  | .rawBlock code, c :: cs => contentsFrom (.rawBlock (code ++ [c])) cs

/-- The contents of the raw blocks of a source. --/
def rawContents (source : String) : List String := (contentsFrom .nothing source.toList).map String.ofList

/-! ### Lexemes for the reader -/

section
variable {rest : List Char}

theorem contentsFrom_plain {c : Char} (noSlash : c ≠ '/') (noFence : c ≠ '\x60') (cs : List Char) :
    contentsFrom .nothing (c :: cs) = contentsFrom .nothing cs :=
  contentsFrom.eq_5 c cs (fun _ hc _ => noSlash hc) (fun _ hc _ => noSlash hc) fun _ hc _ => noFence hc

theorem contentsFrom_run {text : List Char} (noSlash : '/' ∉ text) (noFence : '\x60' ∉ text) :
    contentsFrom .nothing (text ++ rest) = contentsFrom .nothing rest := by
  induction text with
  | nil => rfl
  | cons c text ih =>
    simp only [List.mem_cons, not_or] at noSlash noFence
    rw [List.cons_append, contentsFrom_plain (Ne.symm noSlash.1) (Ne.symm noFence.1), ih noSlash.2 noFence.2]

theorem contentsFrom_lineComment {body : List Char} (oneLine : '\n' ∉ body)
    (ends : ∀ c, rest.head? = some c → c = '\n') :
    contentsFrom .lineComment (body ++ rest) = contentsFrom .nothing rest := by
  induction body with
  | nil =>
    cases rest with
    | nil => rfl
    | cons c rest =>
      obtain rfl := ends c rfl
      exact (contentsFrom_plain (by decide) (by decide) rest).symm
  | cons c body ih =>
    simp only [List.mem_cons, not_or] at oneLine
    rw [List.cons_append, contentsFrom.eq_6, if_neg (Ne.symm oneLine.1), ih oneLine.2]

theorem contentsFrom_blockComment {body : List Char} (first : ¬['*', '/'] <:+: body ++ ['*']) :
    contentsFrom .blockComment (body ++ ['*', '/'] ++ rest) = contentsFrom .nothing rest := by
  induction body with
  | nil => rfl
  | cons c body ih =>
    rw [List.cons_append, List.infix_cons_iff, not_or] at first
    rw [List.cons_append, List.cons_append, contentsFrom.eq_8, ih first.2]
    rintro cs rfl hcs
    -- The comment would end here.
    cases body with
    | nil => cases hcs
    | cons d body =>
      cases hcs
      exact first.1 ⟨body ++ ['*'], rfl⟩

theorem contentsFrom_rawBlock {code : List Char} (first : ¬Lexeme.fence <:+: code ++ Lexeme.fence.dropLast)
    (before : List Char) : contentsFrom (.rawBlock before) (code ++ Lexeme.fence ++ rest) =
      (before ++ code) :: contentsFrom .nothing rest := by
  induction code generalizing before with
  | nil =>
    rw [List.append_nil]
    rfl
  | cons c code ih =>
    rw [List.cons_append, List.infix_cons_iff, not_or] at first
    rw [List.cons_append, List.cons_append, contentsFrom.eq_10, ih first.2, List.append_assoc, List.singleton_append]
    rintro cs rfl hcs
    -- The raw block would end here: two more characters of a fence stand before the rest, whatever the code is.
    refine first.1 ?_
    match code, hcs with
    | [], _ => exact ⟨[], rfl⟩
    | [_], hcs =>
      cases hcs
      exact ⟨['\x60'], rfl⟩
    | _ :: _ :: code, hcs =>
      cases hcs
      exact ⟨code ++ Lexeme.fence.dropLast, rfl⟩

end

/-! ### Raw blocks of tokens -/

/-- The raw block that a token is. --/
def Token.rawBlock? (t : Token) : Option RawBlockNode :=
  if t.kind = .rawBlock then some ⟨t.text, t.position⟩ else none

/-- The raw blocks among tokens. --/
def rawBlocksAmong (ts : List Token) : List RawBlockNode := ts.filterMap Token.rawBlock?

section
variable {p : Position} {rest text cs : List Char} {kind : PieceKind} {segments : List Piece}

theorem contentsFrom_plainRun (plain : ∀ c ∈ text, IsPlain c) :
    contentsFrom .nothing (text ++ rest) = contentsFrom .nothing rest :=
  contentsFrom_run (fun h => (plain _ h).noSlash rfl) fun h => (plain _ h).noFence rfl

/-- The reader passes over all pieces but raw blocks, unless they are rejected. --/
theorem IsPiece.contents (h : IsPiece rest kind text) (noRaw : kind ≠ .token .rawBlock)
    (accepted : ∀ reason, kind ≠ .rejected reason) :
    contentsFrom .nothing (text ++ rest) = contentsFrom .nothing rest := by
  cases h with
  | space isSpace =>
    rcases isSpace_cases isSpace with rfl | rfl | rfl | rfl <;> exact contentsFrom_plain (by decide) (by decide) rest
  | lineComment oneLine ends => exact contentsFrom_lineComment oneLine ends
  | blockComment first => exact contentsFrom_blockComment first
  | rawBlock => exact absurd rfl noRaw
  | @hexNumber x digits isX hexDigits =>
    have hx : IsPlain x := isPlain_of_class (p := fun c => c == 'x' || c == 'X') (by decide) (by simpa using isX)
    have hdigits : ∀ d ∈ digits, IsPlain d := fun d hd => isPlain_of_class (by decide) (hexDigits d hd)
    exact contentsFrom_plainRun (List.forall_mem_cons.mpr
      ⟨isPlain_of_isDigit (by decide), List.forall_mem_cons.mpr ⟨hx, hdigits⟩⟩)
  | number isDigits => exact contentsFrom_plainRun fun c hc => isPlain_of_isDigit (isDigits c hc)
  | name start parts =>
    exact contentsFrom_plainRun (List.forall_mem_cons.mpr
      ⟨isPlain_of_isNameStart start, fun d hd => isPlain_of_class (by decide) (parts d hd)⟩)
  | punctuation known =>
    have hc := isPlain_of_punctuation (Option.isSome_of_mem known)
    exact contentsFrom_plain hc.noSlash hc.noFence rest
  | unexpected | openComment | openRawBlock => exact absurd rfl (accepted _)

/-- The reader finds the content of a piece that is a raw block. --/
theorem IsPiece.contents_rawBlock (h : IsPiece rest (.token .rawBlock) text) : ∃ code,
    text = Lexeme.fence ++ code ++ Lexeme.fence ∧
      contentsFrom .nothing (text ++ rest) = code :: contentsFrom .nothing rest := by
  generalize hkind : PieceKind.token .rawBlock = pieceKind at h
  cases h with
  | rawBlock first => exact ⟨_, rfl, contentsFrom_rawBlock first []⟩
  | name =>
    injection hkind with hkind
    exact absurd hkind.symm (nameKind_kind _).2
  | punctuation known =>
    cases hkind
    exact absurd rfl (punctuation?_kind known).2
  | _ => cases hkind

/-- In pieces without a fault, the reader finds the content of every raw block in order, and nothing else. --/
theorem Segments.contents (h : Segments p cs segments) (noFaults : segments.filterMap Piece.fault? = []) :
    (contentsFrom .nothing cs).map String.ofList =
      (rawBlocksAmong (segments.filterMap Piece.token?)).map (·.toRawBlock.code) := by
  induction h with
  | nil => rfl
  | @cons p kind text rest others isPiece _ ih =>
    cases kind with
    | rejected => cases noFaults
    | space | comment =>
      rw [isPiece.contents nofun nofun]
      exact ih noFaults
    | token kind =>
      by_cases hkind : kind = .rawBlock
      · subst hkind
        obtain ⟨code, rfl, hcontents⟩ := isPiece.contents_rawBlock
        have hraw : RawBlockNode.toRawBlock ⟨String.ofList (Lexeme.fence ++ code ++ Lexeme.fence), p⟩ =
            ⟨String.ofList code, p.line⟩ := Build.toRawBlock_fenced String.toList_ofList
        rw [hcontents, List.map_cons, ih noFaults]
        exact congrArg (· :: _) (congrArg RawBlock.code hraw).symm
      · rw [isPiece.contents (by simpa using hkind) nofun, ih noFaults]
        simp [rawBlocksAmong, Piece.token?, Token.rawBlock?, hkind]

end

/-- The raw blocks that the reader finds in a source without faults are those of its tokens. --/
theorem rawContents_eq {source : String} (noFaults : (lex source).faults = []) :
    rawContents source = (rawBlocksAmong (lex source).tokens).map (·.toRawBlock.code) := by
  obtain ⟨segments, hsegments, htokens, hfaults⟩ := exists_segments .start source.toList
  have hend : rawBlocksAmong (lex source).tokens = rawBlocksAmong (segments.filterMap Piece.token?) := by
    change rawBlocksAmong (_ ++ [_]) = _
    rw [rawBlocksAmong, List.filterMap_append, ← htokens]
    simp [rawBlocksAmong, Token.rawBlock?]
  rw [rawContents, hsegments.contents (hfaults.trans noFaults), hend]

example : rawContents "a \x60\x60\x60x\x60\x60\x60 // \x60\x60\x60y\x60\x60\x60\n/* \x60\x60\x60 */ b" = ["x"] := by decide

end Overlay
