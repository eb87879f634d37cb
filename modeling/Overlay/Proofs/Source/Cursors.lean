import Overlay.Proofs.Source.Determined
import Overlay.Source.Cursor

/-! Cursors and scanners. A cursor does character by character what a scanner does with whole lexemes, at every place of
    a source and whatever stands there: no repetition goes on for ever, and no text goes on behind the end. -/

namespace Overlay

theorem lookAt_natCast {α : Type} (items : List α) (n : Nat) : lookAt items n = (items[n]?).elim .beyond .found := by
  have hfits : ¬(n : Int) < Word.least := by
    unfold Word.least
    omega
  unfold lookAt
  by_cases hn : n < items.length
  · have hlt : ¬(n : Int) ≥ items.length := by omega
    have hnat : ¬(n : Int) < 0 := by omega
    simp [hlt, hfits, hnat, hn]
  · have hge : (n : Int) ≥ items.length := by omega
    rw [if_pos hge, List.getElem?_eq_none (by omega)]
    rfl

/-! ### Scanners that move on -/

namespace Scanner
variable {s : Scanner}

theorem skip_skip (m n : Nat) : (s.skip m).skip n = s.skip (m + n) := by
  simp only [skip, List.take_add, Position.after_append, List.reverse_append, List.append_assoc, List.drop_drop]

theorem skip_length_take (n : Nat) : s.skip (s.rest.take n).length = s.skip n := by
  have htake : s.rest.take (s.rest.take n).length = s.rest.take n := by
    rw [List.length_take, List.take_eq_take_min]
    simp
  have hdrop : s.rest.drop (s.rest.take n).length = s.rest.drop n := by
    rw [List.length_take, List.drop_eq_drop_min]
    simp
  rw [skip, skip, htake, hdrop]

theorem skip_front {text rest : List Char} (h : s.rest = text ++ rest) :
    (s.skip text.length).rest = rest ∧ (s.skip text.length).position = s.position.after text := by
  simp [skip, h]

theorem skip_of_nil (h : s.rest = []) (n : Nat) : s.skip n = s := by
  obtain ⟨read, rest, position, faults⟩ := s
  cases h
  simp [skip]

theorem skip_zero : s.skip 0 = s := rfl

theorem rest_skip (n : Nat) : (s.skip n).rest = s.rest.drop n := rfl

theorem offset_skip (s : Scanner) (n : Nat) : (s.skip n).offset = s.offset + (s.rest.take n).length := by
  rw [offset, skip, List.length_append, List.length_reverse, Nat.add_comm]
  rfl

theorem skip_skip_rest (n : Nat) : (s.skip n).skip (s.skip n).rest.length = s.skip s.rest.length := by
  rw [rest_skip, List.length_drop, skip_skip, ← skip_length_take, List.take_of_length_le (by omega)]

/-- A scanner at the same place with other faults. --/
def withFaults (s : Scanner) (faults : List LexFault) : Scanner := ⟨s.read, s.rest, s.position, faults⟩

/-- The cursor at the place of a scanner. --/
def cursor (s : Scanner) : Cursor := ⟨s.source, s.offset, s.position, s.faults⟩

theorem cursor_skip_one {c : Char} {cs : List Char} (h : s.rest = c :: cs) :
    (s.skip 1).cursor = { s.cursor with place := s.cursor.place + 1, position := s.cursor.position.next c } := by
  rw [cursor, source_skip, offset_skip, skip, h]
  rfl

theorem drop_source (n : Nat) : s.source.drop (s.offset + n) = s.rest.drop n := by
  rw [source, offset, ← List.length_reverse, List.drop_length_add_append]

theorem current?_cursor : s.cursor.current? = s.rest.head? := by
  rw [Cursor.current?, ← List.head?_drop]
  exact congrArg List.head? (drop_source 0)

theorem any_cursor (p : Char → Bool) (s : Scanner) : s.cursor.current?.any p = s.rest.head?.any p :=
  congrArg (Option.any p) current?_cursor

theorem look_one {x : Char} : (s.cursor.look 1 == .found x) = (s.rest[1]? == some x) := by
  have hplace : s.source[s.offset + 1]? = s.rest[1]? := by
    rw [← List.head?_drop, drop_source, List.head?_drop]
  have hlook : s.cursor.look 1 = (s.rest[1]?).elim .beyond .found := by
    rw [← hplace]
    exact lookAt_natCast s.source (s.offset + 1)
  rw [hlook, Bool.eq_iff_iff]
  cases s.rest[1]? <;> simp

theorem startsWith_cursor (text : List Char) : s.cursor.startsWith text = text.isPrefixOf s.rest :=
  congrArg text.isPrefixOf (drop_source 0)

theorem place_lt_cursor : decide (s.cursor.place < s.cursor.source.length) = !s.rest.isEmpty := by
  have hlength : s.cursor.source.length = s.cursor.place + s.rest.length := by
    rw [cursor, source, List.length_append, List.length_reverse, offset]
  rw [hlength]
  cases s.rest <;> simp

end Scanner

namespace Reading
variable {α β : Type} {s next last : Scanner} {r : Reading α} {a : α} {c : Char} {cs : List Char}

/-! ### Readings that come to an end -/

/-- Reading at the place of a scanner comes to an end, gives `a`, and is then at the place of the scanner `next`. --/
def Gives (r : Reading α) (s : Scanner) (a : α) (next : Scanner) : Prop := r s.cursor = .some (.ok a, next.cursor)

theorem bind_apply (r : Reading α) (f : α → Reading β) (c : Cursor) : (r >>= f) c = (r c).bind fun
    | (.ok a, next) => f a next
    | (.error overrun, next) => .some (.error overrun, next) := by
  change StateT.bind r _ c = _
  unfold StateT.bind
  refine congrArg (Part.bind (r c)) (funext fun (got, next) => ?_)
  cases got <;> rfl

theorem get_bind_apply (f : Cursor → Reading β) (c : Cursor) : (get >>= f) c = f c c := by
  have hget : (get : Reading Cursor) c = .some (.ok c, c) :=
    Part.bind_some (c, c) fun p => .some (Except.ok p.1, p.2)
  rw [bind_apply, hget, Part.bind_some]

theorem gives_pure : (pure a : Reading α).Gives s a s := rfl

theorem Gives.bind {f : α → Reading β} {b : β} (h : r.Gives s a next) (h' : (f a).Gives next b last) :
    (r >>= f).Gives s b last := by
  rw [Gives, bind_apply, h, Part.bind_some]
  exact h'

theorem gives_get {f : Cursor → Reading β} {b : β} (h : (f s.cursor).Gives s b next) :
    (get >>= f).Gives s b next := (get_bind_apply f s.cursor).trans h

theorem gives_modify {f : Cursor → Cursor} (h : f s.cursor = next.cursor) :
    (modify f : Reading Unit).Gives s () next := by
  rw [Gives, ← h]
  exact Part.bind_some ((), f s.cursor) fun p => .some (Except.ok p.1, p.2)

theorem gives_set {c : Cursor} (h : c = next.cursor) : (set c : Reading PUnit).Gives s ⟨⟩ next := by
  rw [Gives, ← h]
  exact Part.bind_some (PUnit.unit, c) fun p => .some (Except.ok p.1, p.2)

theorem gives_reject (reason : Rejection) (p : Position) : (reject reason p).Gives s () (s.reject reason p) :=
  gives_modify rfl

theorem gives_advance (s : Scanner) : advance.Gives s s.rest.head? (s.skip 1) := by
  refine gives_get ?_
  rw [Scanner.current?_cursor]
  cases hrest : s.rest with
  | nil =>
    rw [Scanner.skip_of_nil hrest]
    exact gives_pure
  | cons c cs => exact (gives_set (Scanner.cursor_skip_one hrest).symm).bind gives_pure

theorem gives_takeChar (h : s.rest = c :: cs) : takeChar.Gives s c (s.skip 1) := by
  have hadvance := gives_advance s
  rw [h] at hadvance
  exact hadvance.bind gives_pure

/-- A text overruns at the end of the source, and only there. --/
theorem takeChar_overruns_iff :
    (∃ overrun next, takeChar s.cursor = .some (.error overrun, next)) ↔ s.rest = [] := by
  constructor
  · rintro ⟨overrun, next, hoverrun⟩
    by_contra hne
    obtain ⟨c, cs, hrest⟩ := List.exists_cons_of_ne_nil hne
    cases Part.some_injective ((gives_takeChar hrest).symm.trans hoverrun)
  · intro hnil
    have hadvance := gives_advance s
    rw [hnil, Scanner.skip_of_nil hnil] at hadvance
    refine ⟨⟨s.offset⟩, s.cursor, ?_⟩
    rw [takeChar, bind_apply, hadvance, Part.bind_some]
    exact get_bind_apply _ _

/-! ### Loops -/

section
variable {σ : Type} {body : σ → Reading (α ⊕ σ)} {reached further : σ}

theorem gives_loop_end (h : (body reached).Gives s (.inl a) next) : (loop body reached).Gives s a next := by
  refine Part.eq_some_iff.mpr (PFun.fix_stop ?_)
  rw [turn, h, Part.map_some, Part.mem_some_iff]

theorem gives_loop_on (h : (body reached).Gives s (.inr further) next)
    (hothers : (loop body further).Gives next a last) : (loop body reached).Gives s a last := by
  have hturn : .inr (further, next.cursor) ∈ turn body (reached, s.cursor) := by
    rw [turn, h, Part.map_some, Part.mem_some_iff]
  exact (PFun.fix_fwd_eq hturn).trans hothers

end

/-- A repetition comes to an end at `last` and takes `as`, whatever it took before. --/
def Repeats (more : Cursor → Bool) (r : Reading α) (s : Scanner) (as : List α) (last : Scanner) : Prop :=
  ∀ taken, (loop (takeOrEnd more r) taken).Gives s (taken ++ as) last

section
variable {more : Cursor → Bool} {as : List α}

theorem Repeats.gives (h : Repeats more r s as last) : (repeatWhile more r).Gives s as last := h []

theorem repeats_nil (h : more s.cursor = false) : Repeats more r s [] s := by
  intro taken
  refine gives_loop_end (gives_get ?_)
  rw [h, List.append_nil]
  exact gives_pure

theorem repeats_cons (h : more s.cursor = true) (hitem : r.Gives s a next) (hothers : Repeats more r next as last) :
    Repeats more r s (a :: as) last := by
  intro taken
  have hmore := hothers (taken ++ [a])
  rw [List.append_assoc, List.singleton_append] at hmore
  refine gives_loop_on (gives_get ?_) hmore
  rw [h]
  exact hitem.bind gives_pure

/-- Where each item is one character, a repetition goes over the characters in front that fulfil its condition. --/
theorem repeats_run (more : Cursor → Bool) (p : Char → Bool) (f : Char → α)
    (hmore : ∀ s : Scanner, more s.cursor = s.rest.head?.any p)
    (hitem : ∀ (s : Scanner) c cs, s.rest = c :: cs → r.Gives s (f c) (s.skip 1)) (s : Scanner) :
    Repeats more r s ((s.rest.takeWhile p).map f) (s.skip (s.rest.takeWhile p).length) := by
  induction hrest : s.rest generalizing s with
  | nil =>
    rw [Scanner.skip_of_nil hrest]
    exact repeats_nil (by rw [hmore, hrest]; rfl)
  | cons c cs ih =>
    have hhead : more s.cursor = p c := by
      rw [hmore, hrest]
      rfl
    by_cases hc : p c = true
    · have hothers := ih (s.skip 1) (by rw [Scanner.rest_skip, hrest]; rfl)
      rw [Scanner.skip_skip, Nat.add_comm] at hothers
      rw [List.takeWhile_cons_of_pos hc]
      exact repeats_cons (hhead.trans hc) (hitem s c cs hrest) hothers
    · rw [List.takeWhile_cons_of_neg hc]
      exact repeats_nil (hhead.trans (Bool.eq_false_iff.mpr hc))

end

theorem gives_takeWhile (p : Char → Bool) (s : Scanner) :
    (repeatWhile (·.current?.any p) takeChar).Gives s (s.rest.takeWhile p) (s.skip (s.rest.takeWhile p).length) := by
  have hrun := (repeats_run (·.current?.any p) p id (Scanner.any_cursor p) (fun _ _ _ => gives_takeChar) s).gives
  rwa [List.map_id] at hrun

theorem gives_advance_cons (s : Scanner) (c : Char) (cs : List Char) (h : s.rest = c :: cs) :
    advance.Gives s (some c) (s.skip 1) := by
  have hadvance := gives_advance s
  rwa [h] at hadvance

theorem gives_passWhile (p : Char → Bool) (s : Scanner) :
    (repeatWhile (·.current?.any p) advance).Gives s ((s.rest.takeWhile p).map some)
      (s.skip (s.rest.takeWhile p).length) :=
  (repeats_run (·.current?.any p) p some (Scanner.any_cursor p) gives_advance_cons s).gives

theorem gives_passRest (s : Scanner) :
    (repeatWhile (·.current?.isSome) advance).Gives s (s.rest.map some) (s.skip s.rest.length) := by
  have hmore (s : Scanner) : s.cursor.current?.isSome = s.rest.head?.any fun _ => true := by
    rw [Scanner.current?_cursor]
    cases s.rest <;> rfl
  have hall : s.rest.takeWhile (fun _ => true) = s.rest := List.takeWhile_eq_self_iff.mpr fun _ _ => rfl
  have hrun := (repeats_run (·.current?.isSome) (fun _ => true) some hmore gives_advance_cons s).gives
  rwa [hall] at hrun

/-- A text takes all characters up to a place in the source. --/
theorem repeats_upTo {stop n : Nat} (hstop : stop = s.offset + n) (hn : n ≤ s.rest.length) :
    Repeats (·.place < stop) takeChar s (s.rest.take n) (s.skip n) := by
  induction n generalizing s with
  | zero =>
    rw [List.take_zero, Scanner.skip_zero]
    refine repeats_nil ?_
    simp [Scanner.cursor, hstop]
  | succ n ih =>
    obtain ⟨c, cs, hrest⟩ := List.exists_cons_of_length_pos (Nat.lt_of_lt_of_le (Nat.succ_pos n) hn)
    have hoffset : (s.skip 1).offset = s.offset + 1 := by simp [Scanner.skip, Scanner.offset, hrest]
    have hothers := ih (s := s.skip 1) (by omega) (by rw [Scanner.rest_skip, List.length_drop]; omega)
    rw [Scanner.skip_skip, Nat.add_comm 1 n, Scanner.rest_skip, hrest] at hothers
    rw [hrest]
    refine repeats_cons ?_ (gives_takeChar hrest) hothers
    simp [Scanner.cursor, hstop]

/-! ### Spaces and comments -/

theorem gives_passSpaces (s : Scanner) : passSpaces.Gives s () s.passSpaces :=
  (gives_passWhile Lexeme.isSpace s).bind gives_pure

theorem gives_passLineComment (s : Scanner) : passLineComment.Gives s () s.passLineComment := by
  have hpasses : passLineComment.Gives s () _ :=
    (gives_advance s).bind ((gives_advance _).bind ((gives_passWhile (· != '\n') _).bind gives_pure))
  rw [Scanner.skip_skip (s := s)] at hpasses
  rw [Scanner.passLineComment, Lexeme.lineComment, List.length_append, ← Scanner.skip_skip, Scanner.skip_length_take]
  exact hpasses

theorem gives_commentEnd (h : s.rest = '*' :: '/' :: cs) : commentEndOrChar.Gives s (.inl true) (s.skip 2) := by
  refine gives_get ?_
  rw [Scanner.current?_cursor, Scanner.look_one, h]
  have hmoves : (do let _ ← advance; let _ ← advance; return .inl true : Reading (Bool ⊕ Unit)).Gives s (.inl true) _ :=
    (gives_advance s).bind ((gives_advance _).bind gives_pure)
  rw [Scanner.skip_skip] at hmoves
  exact hmoves

theorem gives_commentChar (h : s.rest = c :: cs) (hno : ∀ tail, c = '*' → cs = '/' :: tail → False) :
    commentEndOrChar.Gives s (.inr ()) (s.skip 1) := by
  have hnotHere : (c == '*' && (c :: cs)[1]? == some '/') = false := by
    rw [Bool.eq_false_iff]
    intro hhere
    simp only [Bool.and_eq_true, beq_iff_eq, List.getElem?_cons_succ, ← List.head?_eq_getElem?,
      List.head?_eq_some_iff] at hhere
    obtain ⟨hstar, tail, htail⟩ := hhere
    exact hno tail hstar htail
  refine gives_get ?_
  rw [Scanner.current?_cursor, Scanner.look_one, h]
  dsimp only [List.head?_cons]
  rw [hnotHere]
  exact (gives_advance s).bind gives_pure

/-- A cursor and a lexeme end at the same `*/`. --/
theorem gives_throughCommentEnd (s : Scanner) : throughCommentEnd.Gives s (Lexeme.throughCommentEnd s.rest).2
    (s.skip (Lexeme.throughCommentEnd s.rest).1.length) := by
  induction hrest : s.rest using Lexeme.throughCommentEnd.induct generalizing s with
  | case1 =>
    rw [Scanner.skip_of_nil hrest]
    refine gives_loop_end (gives_get ?_)
    rw [Scanner.current?_cursor, hrest]
    exact gives_pure
  | case2 rest => exact gives_loop_end (gives_commentEnd hrest)
  | case3 c rest hno _ _ _ ih =>
    have hothers := ih (s.skip 1) (by rw [Scanner.rest_skip, hrest]; rfl)
    rw [Scanner.skip_skip, Nat.add_comm] at hothers
    rw [Lexeme.throughCommentEnd]
    · exact gives_loop_on (gives_commentChar hrest fun tail hstar => hno tail hstar) hothers
    · exact hno

theorem gives_passBlockComment (s : Scanner) : passBlockComment.Gives s () s.passBlockComment := by
  have hend := gives_throughCommentEnd (s.skip 2)
  have hskip : (s.skip 2).skip (Lexeme.throughCommentEnd (s.rest.drop 2)).1.length =
      s.skip (Lexeme.blockComment s.rest).1.length := by
    rw [Lexeme.blockComment, List.length_append, ← Scanner.skip_skip, Scanner.skip_length_take]
  rw [Scanner.rest_skip, hskip] at hend
  have hclosed : (Lexeme.throughCommentEnd (s.rest.drop 2)).2 = (Lexeme.blockComment s.rest).2 := rfl
  rw [hclosed] at hend
  refine gives_get ((gives_advance s).bind ((gives_advance _).bind ?_))
  rw [Scanner.skip_skip]
  refine hend.bind ?_
  unfold Scanner.passBlockComment
  obtain ⟨text, closed⟩ := Lexeme.blockComment s.rest
  cases closed with
  | true => exact gives_pure
  | false => exact gives_reject _ _

/-! ### Texts -/

theorem length_of_countBefore? {n : Nat} (h : countBefore? Lexeme.fence cs = some n) :
    n + Lexeme.fence.length ≤ cs.length := by
  induction cs generalizing n with
  | nil => cases h
  | cons c cs ih =>
    unfold countBefore? at h
    split at h
    · rename_i hfence
      cases h
      simpa using (List.isPrefixOf_iff_prefix.mp hfence).length_le
    · obtain ⟨m, hm, rfl⟩ := Option.map_eq_some_iff.mp h
      have hle := ih hm
      rw [List.length_cons]
      omega

theorem throughFence?_eq (cs : List Char) :
    Lexeme.throughFence? cs = (countBefore? Lexeme.fence cs).map fun n => cs.take (n + Lexeme.fence.length) := by
  induction cs with
  | nil => rfl
  | cons c cs ih =>
    unfold Lexeme.throughFence? countBefore?
    split
    · rename_i hfence
      exact congrArg some (List.prefix_iff_eq_take.mp (List.isPrefixOf_iff_prefix.mp hfence))
    · rw [ih, Option.map_map, Option.map_map]
      rfl

/-- A cursor and a lexeme end at the same fence, which the source reaches to. --/
theorem gives_takeRawBlock (s : Scanner) : takeRawBlock.Gives s s.takeRawBlock.1 s.takeRawBlock.2 := by
  have hfind : s.cursor.find? Lexeme.fence (s.cursor.place + Lexeme.fence.length) =
      (countBefore? Lexeme.fence (s.rest.drop Lexeme.fence.length)).map (s.offset + Lexeme.fence.length + ·) :=
    congrArg (fun cs => (countBefore? Lexeme.fence cs).map _) (s.drop_source Lexeme.fence.length)
  refine gives_get ?_
  rw [hfind, Scanner.takeRawBlock, Lexeme.rawBlock?, throughFence?_eq]
  cases hcount : countBefore? Lexeme.fence (s.rest.drop Lexeme.fence.length) with
  | none =>
    exact (gives_reject _ _).bind ((gives_passRest _).bind gives_pure)
  | some n =>
    have hle : n + 3 ≤ s.rest.length - 3 := List.length_drop ▸ length_of_countBefore? hcount
    have hstop : s.offset + 3 + n + 3 = s.offset + (3 + (n + 3)) := by omega
    have htaken := (repeats_upTo hstop (by omega)).gives
    have htext : s.rest.take (3 + (n + 3)) = s.rest.take 3 ++ (s.rest.drop 3).take (n + 3) := List.take_add
    rw [← Scanner.skip_length_take, htext] at htaken
    exact htaken.bind gives_pure

/-- Whether a number begins with `0x`, as a cursor asks for it. --/
theorem marked_iff : (s.cursor.current? == some '0' &&
      (s.cursor.look 1 == .found 'x' || s.cursor.look 1 == .found 'X')) = true ↔
    ∃ x cs, s.rest = '0' :: x :: cs ∧ (x = 'x' ∨ x = 'X') := by
  rw [Scanner.current?_cursor, Scanner.look_one, Scanner.look_one]
  constructor
  · intro h
    match hrest : s.rest with
    | [] | [_] => simp [hrest] at h
    | c :: x :: cs =>
      rw [hrest] at h
      obtain ⟨rfl, hx⟩ : c = '0' ∧ (x = 'x' ∨ x = 'X') := by simpa using h
      exact ⟨x, cs, rfl, hx⟩
  · rintro ⟨x, cs, hrest, hx⟩
    rw [hrest]
    rcases hx with rfl | rfl <;> rfl

theorem gives_takeNumber (s : Scanner) : takeNumber.Gives s s.takeNumber.1 s.takeNumber.2 := by
  refine gives_get ?_
  split
  · rename_i hmarked
    obtain ⟨x, cs, hrest, hx⟩ := marked_iff.mp hmarked
    have hnumber : Lexeme.number s.rest = '0' :: x :: cs.takeWhile Lexeme.isHexDigit := by
      rw [hrest]
      rcases hx with rfl | rfl <;> rfl
    have behindZero : (s.skip 1).rest = x :: cs := by rw [Scanner.rest_skip, hrest]; rfl
    have behindMark : ((s.skip 1).skip 1).rest = cs := by rw [Scanner.rest_skip, behindZero]; rfl
    have hdigits := gives_takeWhile Lexeme.isHexDigit ((s.skip 1).skip 1)
    have hlast : ((s.skip 1).skip 1).skip (cs.takeWhile Lexeme.isHexDigit).length = s.takeNumber.2 := by
      rw [Scanner.skip_skip, Scanner.skip_skip, Scanner.takeNumber, hnumber]
      refine congrArg s.skip ?_
      rw [List.length_cons, List.length_cons]
      omega
    rw [behindMark, hlast] at hdigits
    have htext : s.takeNumber.1 = '0' :: x :: cs.takeWhile Lexeme.isHexDigit := hnumber
    rw [htext]
    exact (gives_takeChar hrest).bind ((gives_takeChar behindZero).bind (hdigits.bind gives_pure))
  · rename_i hplain
    have hnumber : Lexeme.number s.rest = s.rest.takeWhile Text.isDigit := by
      unfold Lexeme.number
      split
      · rename_i tail heq
        exact absurd (marked_iff.mpr ⟨'x', tail, heq, .inl rfl⟩) hplain
      · rename_i tail heq
        exact absurd (marked_iff.mpr ⟨'X', tail, heq, .inr rfl⟩) hplain
      · rfl
    rw [Scanner.takeNumber, hnumber]
    exact gives_takeWhile Text.isDigit s

theorem gives_takeName (s : Scanner) : takeName.Gives s s.takeName.1 s.takeName.2 := gives_takeWhile _ s

/-! ### Tokens -/

theorem isPrefixOf_pair {x y : Char} :
    [x, y].isPrefixOf s.rest = (s.rest.head? == some x && s.cursor.look 1 == .found y) := by
  rw [Scanner.look_one]
  match s.rest with
  | [] => rfl
  | [_] => simp [List.isPrefixOf]
  | c :: d :: _ => simp [List.isPrefixOf, BEq.comm]

/-- The scanner behind a piece of its source. --/
def behind (s : Scanner) (piece : Piece) : Scanner :=
  (s.skip piece.text.length).withFaults (s.faults ++ piece.fault?.toList)

theorem behind_of_noFault {piece : Piece} (h : piece.fault? = none) : behind s piece = s.skip piece.text.length := by
  rw [behind, h, Option.toList_none, List.append_nil]
  rfl

/-- A cursor goes over the first piece of a text that begins with no space. --/
theorem gives_lexeme {kind : PieceKind} {text : List Char} (hrest : s.rest = c :: cs)
    (hspace : Lexeme.isSpace c = false) (hfirst : firstPiece c cs = (kind, text)) :
    (lexeme c).Gives s (Piece.token? ⟨kind, text, s.position⟩) (behind s ⟨kind, text, s.position⟩) := by
  have hpair (y : Char) : (c == '/' && s.cursor.look 1 == .found y) = ['/', y].isPrefixOf s.rest := by
    rw [isPrefixOf_pair, hrest]
    rfl
  -- The cursor asks what `firstPiece` asks, in the same order.
  refine gives_get ?_
  rw [hpair, hpair, Scanner.startsWith_cursor]
  rw [firstPiece, if_neg (Bool.eq_false_iff.mp hspace), ← hrest] at hfirst
  by_cases hline : ['/', '/'].isPrefixOf s.rest = true
  · rw [if_pos hline] at hfirst ⊢
    cases hfirst
    rw [behind_of_noFault rfl]
    exact (gives_passLineComment s).bind gives_pure
  rw [if_neg hline] at hfirst ⊢
  by_cases hblock : ['/', '*'].isPrefixOf s.rest = true
  · rw [if_pos hblock] at hfirst ⊢
    have hpass := gives_passBlockComment s
    unfold Scanner.passBlockComment at hpass
    generalize Lexeme.blockComment s.rest = comment at hfirst hpass
    obtain ⟨text, _ | _⟩ := comment
    · cases hfirst
      exact hpass.bind gives_pure
    · cases hfirst
      rw [behind_of_noFault rfl]
      exact hpass.bind gives_pure
  rw [if_neg hblock] at hfirst ⊢
  by_cases hfence : Lexeme.fence.isPrefixOf s.rest = true
  · rw [if_pos hfence] at hfirst ⊢
    have htake := gives_takeRawBlock s
    unfold Scanner.takeRawBlock at htake
    generalize Lexeme.rawBlock? s.rest = block at hfirst htake
    cases block with
    | some text =>
      cases hfirst
      rw [behind_of_noFault rfl]
      exact htake.bind gives_pure
    | none =>
      cases hfirst
      exact htake.bind gives_pure
  rw [if_neg hfence] at hfirst ⊢
  by_cases hdigit : Text.isDigit c = true
  · rw [if_pos hdigit] at hfirst ⊢
    cases hfirst
    rw [behind_of_noFault rfl]
    exact (gives_takeNumber s).bind gives_pure
  rw [if_neg hdigit] at hfirst ⊢
  by_cases hname : Lexeme.isNameStart c = true
  · rw [if_pos hname] at hfirst ⊢
    cases hfirst
    rw [behind_of_noFault rfl]
    exact (gives_takeName s).bind gives_pure
  rw [if_neg hname] at hfirst ⊢
  cases hkind : punctuation? c with
  | some kind =>
    rw [hkind] at hfirst
    cases hfirst
    rw [behind_of_noFault rfl]
    exact (gives_advance s).bind gives_pure
  | none =>
    rw [hkind] at hfirst
    cases hfirst
    exact (gives_reject _ _).bind ((gives_advance _).bind gives_pure)

/-- The spaces in front of a text are no tokens and no faults. --/
theorem pieces_spaces (p : Position) (cs : List Char) :
    (pieces p cs).filterMap Piece.token? =
        (pieces (p.after (Lexeme.spaces cs)) (cs.dropWhile Lexeme.isSpace)).filterMap Piece.token? ∧
      (pieces p cs).filterMap Piece.fault? =
        (pieces (p.after (Lexeme.spaces cs)) (cs.dropWhile Lexeme.isSpace)).filterMap Piece.fault? := by
  unfold Lexeme.spaces
  induction cs generalizing p with
  | nil => exact ⟨rfl, rfl⟩
  | cons c cs ih =>
    by_cases hc : Lexeme.isSpace c = true
    · obtain ⟨htokens, hfaults⟩ := pieces_space hc p
      rw [htokens, hfaults, List.takeWhile_cons_of_pos hc, List.dropWhile_cons_of_pos hc]
      exact ih (p.next c)
    · rw [List.takeWhile_cons_of_neg hc, List.dropWhile_cons_of_neg hc]
      exact ⟨rfl, rfl⟩

/-- A turn over `n` characters that finds a token or none, and faults. They come before the tokens and the faults of
    what is left of the text. --/
structure Turn (s : Scanner) (found : Option Token) (n : Nat) (faults : List LexFault) : Prop where
  moves : 0 < n
  gives : spacedLexeme.Gives s found ((s.skip n).withFaults (s.faults ++ faults))
  tokens : (pieces s.position s.rest).filterMap Piece.token? =
    found.toList ++ (pieces (s.skip n).position (s.skip n).rest).filterMap Piece.token?
  faultsFirst : (pieces s.position s.rest).filterMap Piece.fault? =
    faults ++ (pieces (s.skip n).position (s.skip n).rest).filterMap Piece.fault?

theorem filterMap_cons_eq {γ δ : Type} (f : γ → Option δ) (x : γ) (xs : List γ) :
    (x :: xs).filterMap f = (f x).toList ++ xs.filterMap f := by
  rw [List.filterMap_cons]
  cases f x <;> rfl

theorem exists_turn (hne : s.rest ≠ []) : ∃ found n faults, Turn s found n faults := by
  obtain ⟨htokens, hfaults⟩ := pieces_spaces s.position s.rest
  obtain ⟨hrest, hposition⟩ : s.passSpaces.rest = s.rest.dropWhile Lexeme.isSpace ∧
      s.passSpaces.position = s.position.after (Lexeme.spaces s.rest) :=
    Scanner.skip_front List.takeWhile_append_dropWhile.symm
  rw [← hposition, ← hrest] at htokens hfaults
  cases hfront : s.passSpaces.rest with
  | nil =>
    refine ⟨none, (Lexeme.spaces s.rest).length, [], Nat.pos_of_ne_zero fun hzero => hne ?_, ?_, htokens, hfaults⟩
    · rwa [Scanner.passSpaces, hzero] at hfront
    · refine (gives_passSpaces s).bind (gives_get ?_)
      rw [Scanner.current?_cursor, hfront, List.append_nil]
      exact gives_pure
  | cons c ds =>
    have hspace : Lexeme.isSpace c = false := head_dropWhile (by rw [← hrest, hfront]; rfl)
    obtain ⟨⟨kind, text⟩, hfirst⟩ : ∃ piece, firstPiece c ds = piece := ⟨_, rfl⟩
    obtain ⟨rest, htext, hpiece⟩ := isPiece_firstPiece hfirst hspace
    obtain ⟨hbehind, hplace⟩ := Scanner.skip_front (hfront.trans htext)
    have hgives := gives_lexeme hfront hspace hfirst
    have hskip : s.passSpaces.skip text.length = s.skip ((Lexeme.spaces s.rest).length + text.length) :=
      Scanner.skip_skip _ _
    rw [hskip] at hbehind hplace
    rw [behind, hskip] at hgives
    refine ⟨Piece.token? ⟨kind, text, s.passSpaces.position⟩, (Lexeme.spaces s.rest).length + text.length,
      (Piece.fault? ⟨kind, text, s.passSpaces.position⟩).toList,
      Nat.add_pos_right _ (List.length_pos_iff.mpr hpiece.ne_nil), (gives_passSpaces s).bind (gives_get ?_), ?_, ?_⟩
    · rw [Scanner.current?_cursor, hfront]
      exact hgives
    · rw [htokens, hfront, pieces_cons hfirst hpiece.ne_nil htext, filterMap_cons_eq, hbehind, hplace]
    · rw [hfaults, hfront, pieces_cons hfirst hpiece.ne_nil htext, filterMap_cons_eq, hbehind, hplace]

/-- Each turn moves on, so the turns come to an end, and what they find are the tokens and the faults of the text. --/
theorem repeats_turns (s : Scanner) : ∃ found,
    Repeats (fun c => c.place < c.source.length) spacedLexeme s found
      ((s.skip s.rest.length).withFaults (s.faults ++ (pieces s.position s.rest).filterMap Piece.fault?)) ∧
    found.filterMap id = (pieces s.position s.rest).filterMap Piece.token? := by
  induction hlength : s.rest.length using Nat.strongRecOn generalizing s with
  | ind length ih =>
    subst hlength
    by_cases hnil : s.rest = []
    · have hstop : decide (s.cursor.place < s.cursor.source.length) = false := by
        rw [Scanner.place_lt_cursor, hnil]
        rfl
      have hends : Repeats (fun c => c.place < c.source.length) spacedLexeme s [] s := repeats_nil hstop
      have hnone : pieces s.position [] = [] := rfl
      rw [Scanner.skip_of_nil hnil, hnil, hnone, List.filterMap_nil, List.append_nil]
      exact ⟨[], hends, rfl⟩
    · have hmore : decide (s.cursor.place < s.cursor.source.length) = true := by
        rw [Scanner.place_lt_cursor]
        simpa using hnil
      obtain ⟨found, n, faults, turn⟩ := exists_turn hnil
      have hless : (s.skip n).rest.length < s.rest.length := by
        have hmoves := turn.moves
        have hpos := List.length_pos_iff.mpr hnil
        rw [Scanner.rest_skip, List.length_drop]
        omega
      obtain ⟨others, hothers, htokens⟩ := ih _ hless ((s.skip n).withFaults (s.faults ++ faults)) rfl
      have hlast : s.skip s.rest.length = (s.skip n).skip (s.skip n).rest.length := (Scanner.skip_skip_rest n).symm
      refine ⟨found :: others, ?_, ?_⟩
      · rw [turn.faultsFirst, ← List.append_assoc, hlast]
        exact repeats_cons hmore turn.gives hothers
      · rw [filterMap_cons_eq, htokens, turn.tokens]
        rfl

theorem gives_takeTokens (s : Scanner) : takeTokens.Gives s s.takeTokens.1 s.takeTokens.2 := by
  obtain ⟨found, hturns, hfound⟩ := repeats_turns (s.withFaults [])
  have hclear : (modify fun c => { c with faults := [] } : Reading Unit).Gives s () (s.withFaults []) :=
    gives_modify rfl
  have htokens : s.takeTokens.1 = (pieces s.position s.rest).filterMap Piece.token? ++
      [⟨.endOfInput, "", (s.skip s.rest.length).position⟩] := by
    rw [Scanner.skip, List.take_length]
    rfl
  refine hclear.bind (hturns.gives.bind (gives_get ?_))
  rw [hfound, htokens]
  exact gives_pure

/-- A call on a cursor does what it does on a scanner. --/
theorem gives_read (call : Call) (s : Scanner) : call.read.Gives s (Call.scan s call).1 (Call.scan s call).2 := by
  cases call with
  | current =>
    refine gives_get ?_
    rw [Scanner.current?_cursor]
    exact gives_pure
  | look | hasFaults | faults => exact gives_get gives_pure
  | advance => exact (gives_advance s).bind gives_pure
  | passSpaces => exact (gives_passSpaces s).bind gives_pure
  | passLineComment => exact (gives_passLineComment s).bind gives_pure
  | passBlockComment => exact (gives_passBlockComment s).bind gives_pure
  | takeRawBlock => exact (gives_takeRawBlock s).bind gives_pure
  | takeNumber => exact (gives_takeNumber s).bind gives_pure
  | takeName => exact (gives_takeName s).bind gives_pure
  | takeTokens => exact (gives_takeTokens s).bind gives_pure

end Reading

end Overlay
