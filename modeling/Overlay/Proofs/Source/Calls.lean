import Overlay.Proofs.Source.Cursors
import Overlay.Reuse

/-! Calls on a cursor in any order. Each comes to an end and succeeds, as it does on a scanner. A call only moves on
    over what it gives, so line and column are always those of the place. -/

namespace Overlay

/-! ### Places and calls -/

/-- A cursor in a source, with the line and the column of its place. --/
structure Cursor.Counted (source : List Char) (c : Cursor) : Prop where
  ofSource : c.source = source
  inside : c.place ≤ source.length
  position : c.position = .behind (source.take c.place)

/-- A call that succeeds, does not move back, and gives no text but the one that it moves over. --/
structure Called.Moves (source : List Char) (m : Called) : Prop where
  succeeds : ∃ answer, m.outcome = .ok answer
  before : m.before.Counted source
  after : m.after.Counted source
  forward : m.before.place ≤ m.after.place
  text : ∀ text, m.outcome = .ok (.text (some text)) →
    text = (source.drop m.before.place).take (m.after.place - m.before.place)

section
variable {s : Scanner} {source : List Char}

theorem rawBlock?_begins {cs text : List Char} (h : Lexeme.rawBlock? cs = some text) : text <+: cs := by
  obtain ⟨body, hbody, rfl⟩ := Option.map_eq_some_iff.mp h
  obtain ⟨-, rest, -, hrest, -⟩ := throughFence?_first hbody
  refine ⟨rest, ?_⟩
  rw [List.append_assoc, ← hrest, List.take_append_drop]

theorem number_begins (cs : List Char) : Lexeme.number cs <+: cs := by
  have hdigits (p : Char → Bool) (x : Char) (rest : List Char) : '0' :: x :: rest.takeWhile p <+: '0' :: x :: rest :=
    List.prefix_append_right_inj ['0', x] |>.mpr (List.takeWhile_prefix p)
  unfold Lexeme.number
  split
  · exact hdigits _ _ _
  · exact hdigits _ _ _
  · exact List.takeWhile_prefix _

/-- A call moves on over some characters, and if it gives a text, over just this one. --/
theorem scan_moves (call : Call) (s : Scanner) : ∃ n faults, (Call.scan s call).2 = (s.skip n).withFaults faults ∧
    ∀ text, (Call.scan s call).1 = .text (some text) → text = s.rest.take n := by
  have stays : s = (s.skip 0).withFaults s.faults := rfl
  cases call with
  | current | look | hasFaults | faults => exact ⟨0, _, stays, nofun⟩
  | passSpaces | passLineComment | takeTokens => exact ⟨_, _, rfl, nofun⟩
  | advance =>
    refine ⟨1, _, rfl, fun text htext => ?_⟩
    obtain ⟨c, hc, rfl⟩ := Option.map_eq_some_iff.mp (Answer.text.inj htext)
    obtain ⟨cs, hcs⟩ := List.head?_eq_some_iff.mp hc
    rw [hcs]
    rfl
  | passBlockComment =>
    unfold Call.scan Scanner.passBlockComment
    generalize Lexeme.blockComment s.rest = comment
    obtain ⟨text, _ | _⟩ := comment <;> exact ⟨text.length, _, rfl, nofun⟩
  | takeRawBlock =>
    unfold Call.scan Scanner.takeRawBlock
    cases hblock : Lexeme.rawBlock? s.rest with
    | none => exact ⟨s.rest.length, _, rfl, nofun⟩
    | some block =>
      refine ⟨block.length, _, rfl, fun text htext => ?_⟩
      obtain rfl := Option.some.inj (Answer.text.inj htext)
      exact List.prefix_iff_eq_take.mp (rawBlock?_begins hblock)
  | takeNumber =>
    refine ⟨_, _, rfl, fun text htext => ?_⟩
    obtain rfl := Option.some.inj (Answer.text.inj htext)
    exact List.prefix_iff_eq_take.mp (number_begins s.rest)
  | takeName =>
    refine ⟨_, _, rfl, fun text htext => ?_⟩
    obtain rfl := Option.some.inj (Answer.text.inj htext)
    exact List.prefix_iff_eq_take.mp (List.takeWhile_prefix _)

theorem Scanner.take_source : s.source.take s.offset = s.read.reverse := by
  rw [source, offset, ← List.length_reverse, List.take_left]

theorem Scanner.place_le_length : s.cursor.place ≤ s.source.length := by
  rw [source, List.length_append, List.length_reverse]
  exact Nat.le_add_right _ _

theorem Cursor.Counted.skip (h : s.cursor.Counted source) (n : Nat) (faults : List LexFault) :
    ((s.skip n).withFaults faults).cursor.Counted source := by
  obtain ⟨hsource, -, hposition⟩ := h
  have hsame : (s.skip n).source = source := (s.source_skip n).trans hsource
  have hbefore : s.position = .behind s.read.reverse := by
    rw [← Scanner.take_source, show s.source = source from hsource]
    exact hposition
  refine ⟨hsame, hsame ▸ (s.skip n).place_le_length, ?_⟩
  calc (s.skip n).position
    _ = (Position.behind s.read.reverse).after (s.rest.take n) := by rw [← hbefore]; rfl
    _ = .behind (s.read.reverse ++ s.rest.take n) := by
      rw [← Position.start_after, ← Position.start_after, Position.after_append]
    _ = .behind (s.skip n).read.reverse := by rw [Scanner.skip, List.reverse_append, List.reverse_reverse]
    _ = .behind (source.take (s.skip n).offset) := by rw [← hsame, Scanner.take_source]

/-- Calls on a cursor come to an end and succeed as those on a scanner do. --/
theorem calls_moves (h : s.cursor.Counted source) (calls : List Call) : ∃ made, s.cursor.calls calls = .some made ∧
    made.map (·.call) = calls ∧ made.map (·.outcome) = (outcomes Call.scan s calls).map .ok ∧
    ∀ m ∈ made, m.Moves source := by
  induction calls generalizing s with
  | nil => exact ⟨[], rfl, rfl, rfl, List.forall_mem_nil _⟩
  | cons call calls ih =>
    have hread := Reading.gives_read call s
    obtain ⟨n, faults, hnext, htext⟩ := scan_moves call s
    have hcounted : (Call.scan s call).2.cursor.Counted source := hnext ▸ h.skip n faults
    have hplace : (Call.scan s call).2.cursor.place = s.cursor.place + (s.rest.take n).length := by
      rw [hnext]
      exact s.offset_skip n
    have hrest : s.cursor.source.drop s.cursor.place = s.rest := s.drop_source 0
    obtain ⟨made, hmade, hcalls, houtcomes, hmoves⟩ := ih hcounted
    refine ⟨⟨call, s.cursor, .ok (Call.scan s call).1, (Call.scan s call).2.cursor⟩ :: made, ?_, ?_, ?_, ?_⟩
    · rw [Cursor.calls, hread, Part.bind_some]
      exact (congrArg _ hmade).trans (Part.map_some _ _)
    · rw [List.map_cons, hcalls]
    · rw [List.map_cons, houtcomes]
      rfl
    · refine List.forall_mem_cons.mpr ⟨⟨⟨_, rfl⟩, h, hcounted, ?_, fun text hanswer => ?_⟩, hmoves⟩
      · rw [hplace]
        exact Nat.le_add_right _ _
      · rw [hplace, Nat.add_sub_cancel_left, ← h.ofSource, hrest, htext text (Except.ok.inj hanswer)]
        exact List.prefix_iff_eq_take.mp (List.take_prefix n s.rest)

end

/-- Whatever calls are made on a cursor, each comes to an end and succeeds, with the answer of a scanner. No call moves
    back or out of the source, line and column stay those of the place, and a text that is given is the part of the
    source between the places before and after the call. --/
theorem calls_keep_count (source : String) (calls : List Call) : ∃ made,
    (Cursor.ofSource source).calls calls = .some made ∧ made.map (·.call) = calls ∧
    made.map (·.outcome) = (outcomes Call.scan (.ofSource source) calls).map .ok ∧
    ∀ m ∈ made, m.Moves source.toList := by
  have start : (Scanner.ofSource source).cursor.Counted source.toList := ⟨rfl, Nat.zero_le _, rfl⟩
  exact calls_moves start calls

/-! A block comment and a name where there is neither. -/

example : outcomes Call.scan (.ofSource "1") [.passBlockComment, .faults, .takeName] =
    [.nothing, .faults [⟨.openComment, ⟨1, 1⟩⟩], .text (some [])] := by
  decide

end Overlay
