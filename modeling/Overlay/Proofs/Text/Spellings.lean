import Overlay.Build.Step
import Overlay.Proofs.Text.AddressLiteral

/-! Every spelling of a number in base sixteen that is read as an address. Besides the literals, which are an optional
    `0x` and digits, the reader takes blanks behind that `0x`, a sign, another `0x`, underscores, and digits of any
    script. A text that has none of these is read only if it is a literal, and every other text is a mistake. --/

namespace Overlay

/-! ### Literals -/

/-- A `0x`. --/
def IsMark (cs : List Char) : Prop := cs = ['0', 'x'] ∨ cs = ['0', 'X']

/-- A text that is, but for blanks around it, an optional `0x` and hexadecimal digits, which denote `n`. --/
def IsHexLiteral (text : String) (n : Int) : Prop :=
  ∃ mark digits, Text.trimBlanks text.toList = mark ++ digits ∧ (mark = [] ∨ IsMark mark) ∧ digits ≠ [] ∧
    (∀ d ∈ digits, Lexeme.isHexDigit d = true) ∧ n = (Numeral.ofDigits 16 digits : Nat)

/-- A character that is in no literal, but that a text may have that is read all the same. --/
def IsLooseChar (c : Char) : Prop :=
  Text.isBlank c = true ∨ c = '+' ∨ c = '-' ∨ c = '_' ∨ 0x80 ≤ c.toNat

/-- A text with one of these characters, blanks around it apart, or with two marks at its front. --/
def IsLoose (text : String) : Prop :=
  (∃ c ∈ Text.trimBlanks text.toList, IsLooseChar c) ∨
    ∃ first second rest, Text.trimBlanks text.toList = first ++ second ++ rest ∧ IsMark first ∧ IsMark second

namespace Numeral

/-! ### Spellings -/

/-- `Grouped run digits`: the characters of `run` are hexadecimal digits with single underscores between some of them,
    and `digits` are the digits alone. --/
inductive Grouped : List Char → List Char → Prop
  | last {d : Char} (hd : Lexeme.isHexDigit d = true) : Grouped [d] [d]
  | digit {d : Char} {run digits : List Char} (hd : Lexeme.isHexDigit d = true) (rest : Grouped run digits) :
      Grouped (d :: run) (d :: digits)
  | joined {d : Char} {run digits : List Char} (hd : Lexeme.isHexDigit d = true) (rest : Grouped run digits) :
      Grouped (d :: '_' :: run) (d :: digits)

/-- What may stand behind the first mark, in ASCII: blanks around a sign, another mark with an optional underscore, and
    grouped digits. --/
structure Spelling where
  before : List Char
  sign : List Char
  mark : List Char
  run : List Char
  digits : List Char
  after : List Char
  before_isSpace : ∀ c ∈ before, isSpace c = true
  isSign : sign = [] ∨ sign = ['+'] ∨ sign = ['-']
  isMark : mark = [] ∨ ∃ m, IsMark m ∧ (mark = m ∨ mark = m ++ ['_'])
  grouped : Grouped run digits
  after_isSpace : ∀ c ∈ after, isSpace c = true

namespace Spelling

/-- The characters of a spelling. --/
def chars (s : Spelling) : List Char := s.before ++ (s.sign ++ (s.mark ++ (s.run ++ s.after)))

/-- The number that a spelling denotes. --/
def value (s : Spelling) : Int :=
  if s.sign = ['-'] then -((ofDigits 16 s.digits : Nat) : Int) else (ofDigits 16 s.digits : Nat)

end Spelling

/-- The characters behind the first mark, if there is one. --/
def unmarked : List Char → List Char
  | '0' :: x :: rest => if x == 'x' || x == 'X' then rest else '0' :: x :: rest
  | cs => cs

theorem hexadecimal?_eq_read (text : String) :
    hexadecimal? text = (read 16 true none (unmarked (Text.trimBlanks text.toList))).toOption := rfl

/-! ### Digits in groups -/

theorem isDigitOf_iff {c : Char} : isDigitOf 16 c = true ↔ Lexeme.isHexDigit c = true := by
  refine ⟨fun h => ?_, isDigitOf_of_isHexDigit⟩
  unfold isDigitOf digitValue? at h
  simp only [Lexeme.isHexDigit, Bool.or_eq_true, Bool.and_eq_true, decide_eq_true_eq, or_assoc]
  split_ifs at h with h0 ha hA
  · exact .inl h0
  · exact .inr (.inl ha)
  · exact .inr (.inr hA)

theorem ne_of_isHexDigit {c d : Char} (hc : Lexeme.isHexDigit c = true) (hd : Lexeme.isHexDigit d = false) : c ≠ d := by
  rintro rfl
  rw [hc] at hd
  cases hd

theorem ne_underscore {c : Char} (hc : Lexeme.isHexDigit c = true) : c ≠ '_' := ne_of_isHexDigit hc (by decide)

namespace Grouped
variable {run digits : List Char}

theorem ne_nil (h : Grouped run digits) : run ≠ [] := by
  cases h <;> exact List.cons_ne_nil _ _

/-- The first character of a group is a digit. --/
theorem head (h : Grouped run digits) : ∃ d rest, run = d :: rest ∧ Lexeme.isHexDigit d = true := by
  cases h with
  | last hd => exact ⟨_, _, rfl, hd⟩
  | digit hd _ => exact ⟨_, _, rfl, hd⟩
  | joined hd _ => exact ⟨_, _, rfl, hd⟩

theorem mem (h : Grouped run digits) : ∀ c ∈ run, c = '_' ∨ Lexeme.isHexDigit c = true := by
  induction h with
  | last hd => simp [hd]
  | digit hd _ ih => exact List.forall_mem_cons.mpr ⟨.inr hd, ih⟩
  | joined hd _ ih => exact List.forall_mem_cons.mpr ⟨.inr hd, List.forall_mem_cons.mpr ⟨.inl rfl, ih⟩⟩

theorem filter (h : Grouped run digits) : run.filter (· != '_') = digits := by
  induction h with
  | last hd => simp [ne_underscore hd]
  | digit hd _ ih | joined hd _ ih => simp [ne_underscore hd, ih]

theorem wellGrouped (h : Grouped run digits) : wellGrouped run = true := by
  induction h with
  | last hd => simp [Numeral.wellGrouped, ne_underscore hd]
  | digit hd rest ih =>
    obtain ⟨e, more, rfl, he⟩ := rest.head
    simp [Numeral.wellGrouped, ne_underscore hd, ne_underscore he, ih]
  | joined hd rest ih =>
    obtain ⟨e, more, rfl, _⟩ := rest.head
    simp [Numeral.wellGrouped, ne_underscore hd, ih]

theorem digits_eq (h : Grouped run digits) (hrun : '_' ∉ run) : digits = run := by
  rw [← h.filter, List.filter_eq_self]
  rintro c hc
  simpa using fun hcu : c = '_' => hrun (hcu ▸ hc)

theorem digits_isHexDigit (h : Grouped run digits) : digits ≠ [] ∧ ∀ d ∈ digits, Lexeme.isHexDigit d = true := by
  induction h with
  | last hd => exact ⟨List.cons_ne_nil _ _, by simp [hd]⟩
  | digit hd _ ih | joined hd _ ih => exact ⟨List.cons_ne_nil _ _, List.forall_mem_cons.mpr ⟨hd, ih.2⟩⟩

end Grouped

/-- Digits and underscores that are well grouped are digits with single underscores between them. --/
theorem grouped_of_wellGrouped {run : List Char} (hne : run ≠ []) (hwell : wellGrouped run = true)
    (hmem : ∀ c ∈ run, c = '_' ∨ Lexeme.isHexDigit c = true) : Grouped run (run.filter (· != '_')) := by
  suffices h : ∃ digits, Grouped run digits by
    obtain ⟨digits, h⟩ := h
    rwa [h.filter]
  fun_induction wellGrouped run with
  | case1 => exact absurd rfl hne
  | case2 | case4 => cases hwell
  | case3 c hc => exact ⟨_, .last ((hmem c List.mem_cons_self).resolve_left hc)⟩
  | case5 c d rest hc ih =>
    obtain ⟨digits, h⟩ := ih (List.cons_ne_nil _ _) hwell
      fun e he => hmem e (List.mem_cons_of_mem _ (List.mem_cons_of_mem _ he))
    exact ⟨_, .joined ((hmem c List.mem_cons_self).resolve_left hc) h⟩
  | case6 c d rest hc _ _ ih =>
    obtain ⟨digits, h⟩ := ih (List.cons_ne_nil _ _) hwell fun e he => hmem e (List.mem_cons_of_mem _ he)
    exact ⟨_, .digit ((hmem c List.mem_cons_self).resolve_left hc) h⟩

/-! ### The parts of a spelling -/

/-- Digits with a limit on nothing: a well grouped run, and blanks after it. --/
theorem readDigits_eq_ok_iff {cs : List Char} {n : Nat} : readDigits 16 none cs = .ok n ↔
    ∃ run digits after, cs = run ++ after ∧ Grouped run digits ∧ (∀ c ∈ after, isSpace c = true) ∧
      n = ofDigits 16 digits := by
  have hpart : ∀ c, (c == '_' || isDigitOf 16 c) = true ↔ c = '_' ∨ Lexeme.isHexDigit c = true := fun c => by
    rw [Bool.or_eq_true, beq_iff_eq, isDigitOf_iff]
  constructor
  · intro h
    unfold readDigits at h
    simp only [Option.any_none, Bool.false_eq_true, if_false, Bool.or_eq_true, List.isEmpty_iff, Bool.not_eq_true'] at h
    split_ifs at h with hbad hafter
    obtain ⟨hne, hwell⟩ := not_or.mp hbad
    have hmem : ∀ c ∈ cs.takeWhile (fun c => c == '_' || isDigitOf 16 c), c = '_' ∨ Lexeme.isHexDigit c = true :=
      fun c hc => (hpart c).mp (List.mem_takeWhile_imp (p := fun c => c == '_' || isDigitOf 16 c) hc)
    exact ⟨_, _, _, List.takeWhile_append_dropWhile.symm, grouped_of_wellGrouped hne (by simpa using hwell) hmem,
      by simpa using hafter, (Except.ok.inj h).symm⟩
  · rintro ⟨run, digits, after, rfl, hrun, hafter, rfl⟩
    have hall : ∀ c ∈ run, (c == '_' || isDigitOf 16 c) = true := fun c hc => (hpart c).mpr (hrun.mem c hc)
    -- A blank is no part of the run, so the run ends where the blanks begin.
    have hend : ∀ c ∈ after, (c == '_' || isDigitOf 16 c) = false := by
      intro c hc
      have hspace := hafter c hc
      rw [Bool.eq_false_iff, ne_eq, hpart]
      rintro (rfl | hdigit)
      · exact absurd hspace (by decide)
      · rw [isSpace_of_isHexDigit hdigit] at hspace
        cases hspace
    have hstop : after.takeWhile (fun c => c == '_' || isDigitOf 16 c) = [] ∧
        after.dropWhile (fun c => c == '_' || isDigitOf 16 c) = after := by
      cases after with
      | nil => exact ⟨rfl, rfl⟩
      | cons c rest =>
        have hc := hend c List.mem_cons_self
        exact ⟨List.takeWhile_cons_of_neg (by simp [hc]), List.dropWhile_cons_of_neg (by simp [hc])⟩
    unfold readDigits
    dsimp only
    rw [List.takeWhile_append_of_pos hall, List.dropWhile_append_of_pos hall, hstop.1, hstop.2, List.append_nil,
      hrun.filter, hrun.wellGrouped]
    simpa [hrun.ne_nil] using hafter

/-- What comes before the rest of a numeral is a sign or nothing. --/
theorem exists_sign (cs : List Char) : ∃ sign, cs = sign ++ (splitSign cs).2 ∧
    (sign = [] ∨ sign = ['+'] ∨ sign = ['-']) ∧ ((splitSign cs).1 = true ↔ sign = ['-']) := by
  unfold splitSign
  split
  · exact ⟨['-'], rfl, .inr (.inr rfl), by simp⟩
  · exact ⟨['+'], rfl, .inr (.inl rfl), by simp⟩
  · exact ⟨[], rfl, .inl rfl, by simp⟩

/-- What comes before the digits of a numeral is a mark with an optional underscore, or nothing. --/
theorem exists_marker (cs : List Char) : ∃ mark, cs = mark ++ dropMarker cs ∧
    (mark = [] ∨ ∃ m, IsMark m ∧ (mark = m ∨ mark = m ++ ['_'])) := by
  unfold dropMarker
  split
  · rename_i x rest
    split_ifs with hx
    · have hmark : IsMark ['0', x] := by simpa [IsMark] using hx
      split
      · exact ⟨['0', x, '_'], rfl, .inr ⟨_, hmark, .inr rfl⟩⟩
      · exact ⟨['0', x], rfl, .inr ⟨_, hmark, .inl rfl⟩⟩
    · exact ⟨[], rfl, .inl rfl⟩
  · exact ⟨[], rfl, .inl rfl⟩

namespace Spelling
variable (s : Spelling)

/-- What follows the sign begins with a digit. --/
theorem exists_head : ∃ d rest, s.mark ++ (s.run ++ s.after) = d :: rest ∧ Lexeme.isHexDigit d = true := by
  rcases s.isMark with hmark | ⟨m, rfl | rfl, hmark | hmark⟩
  · obtain ⟨d, rest, hrun, hd⟩ := s.grouped.head
    exact ⟨d, rest ++ s.after, by rw [hmark, hrun]; rfl, hd⟩
  all_goals exact ⟨'0', _, by rw [hmark]; rfl, by decide⟩

theorem dropWhile_chars : s.chars.dropWhile isSpace = s.sign ++ (s.mark ++ (s.run ++ s.after)) := by
  rw [chars, List.dropWhile_append_of_pos s.before_isSpace]
  obtain ⟨d, rest, hrest, hd⟩ := s.exists_head
  rw [hrest]
  rcases s.isSign with hsign | hsign | hsign <;> rw [hsign]
  · exact List.dropWhile_cons_of_neg (by simp [isSpace_of_isHexDigit hd])
  · rfl
  · rfl

theorem splitSign_chars : splitSign (s.sign ++ (s.mark ++ (s.run ++ s.after))) =
    (decide (s.sign = ['-']), s.mark ++ (s.run ++ s.after)) := by
  obtain ⟨d, rest, hrest, hd⟩ := s.exists_head
  rw [hrest]
  rcases s.isSign with hsign | hsign | hsign <;> rw [hsign]
  · unfold splitSign
    split
    · rename_i heq
      exact absurd (List.cons.inj heq).1 (ne_of_isHexDigit hd (by decide))
    · rename_i heq
      exact absurd (List.cons.inj heq).1 (ne_of_isHexDigit hd (by decide))
    · rfl
  · rfl
  · rfl

theorem dropMarker_chars : dropMarker (s.mark ++ (s.run ++ s.after)) = s.run ++ s.after := by
  rcases s.isMark with hmark | ⟨m, hm, hmark⟩
  · rw [hmark, List.nil_append]
    -- Neither digits and underscores nor blanks are an `x`.
    have hx : ∀ c ∈ s.run ++ s.after, c ≠ 'x' ∧ c ≠ 'X' := by
      intro c hc
      rcases List.mem_append.mp hc with hc | hc
      · rcases s.grouped.mem c hc with rfl | hc
        · decide
        · exact ⟨ne_of_isHexDigit hc (by decide), ne_of_isHexDigit hc (by decide)⟩
      · have hspace := s.after_isSpace c hc
        constructor <;> rintro rfl <;> exact absurd hspace (by decide)
    unfold dropMarker
    split
    · rename_i x rest heq
      have := hx x (heq ▸ List.mem_cons_of_mem _ List.mem_cons_self)
      rw [if_neg (by simp [this]), heq]
    · rfl
  · obtain ⟨d, rest, hrun, hd⟩ := s.grouped.head
    have hd : d ≠ '_' := ne_underscore hd
    rcases hm with rfl | rfl <;> rcases hmark with hmark | hmark <;> rw [hmark, hrun] <;> simp [dropMarker, hd]

end Spelling

/-- The reader of numerals in base sixteen reads the spellings, each with its value. --/
theorem read_eq_ok_iff {text : List Char} {n : Int} : read 16 true none text = .ok n ↔
    ∃ s : Spelling, text.map toAscii = s.chars ∧ n = s.value := by
  constructor
  · intro h
    obtain ⟨sign, hsplit, hsign, hneg⟩ := exists_sign ((text.map toAscii).dropWhile isSpace)
    obtain ⟨mark, hmarker, hmark⟩ := exists_marker (splitSign ((text.map toAscii).dropWhile isSpace)).2
    unfold read at h
    simp only [if_true] at h
    cases hread : readDigits 16 none (dropMarker (splitSign ((text.map toAscii).dropWhile isSpace)).2) with
    | error fault => simp [hread] at h
    | ok m =>
      obtain ⟨run, digits, after, hbody, hrun, hafter, rfl⟩ := readDigits_eq_ok_iff.mp hread
      refine ⟨⟨(text.map toAscii).takeWhile isSpace, sign, mark, run, digits, after,
        fun c hc => List.mem_takeWhile_imp hc, hsign, hmark, hrun, hafter⟩, ?_, ?_⟩
      · rw [Spelling.chars, ← hbody, ← hmarker, ← hsplit, List.takeWhile_append_dropWhile]
      · simp only [hread, Except.ok.injEq] at h
        simp only [Spelling.value, ← hneg, ← h]
  · rintro ⟨s, htext, rfl⟩
    have hdigits := readDigits_eq_ok_iff.mpr ⟨s.run, s.digits, s.after, rfl, s.grouped, s.after_isSpace, rfl⟩
    unfold read
    rw [htext, s.dropWhile_chars, s.splitSign_chars]
    simp only [if_true, s.dropMarker_chars, hdigits, decide_eq_true_eq, Spelling.value]

/-- Addresses are read from exactly the spellings, behind an optional first mark. --/
theorem hexadecimal?_eq_some_iff {text : String} {n : Int} : hexadecimal? text = some n ↔
    ∃ s : Spelling, (unmarked (Text.trimBlanks text.toList)).map toAscii = s.chars ∧ n = s.value := by
  rw [hexadecimal?_eq_read, ← read_eq_ok_iff]
  cases read 16 true none (unmarked (Text.trimBlanks text.toList)) with
  | ok m => simp [Except.toOption]
  | error fault => simp [Except.toOption]

/-! ### Literals and loose texts -/

/-- The first mark of a text, and the characters behind it. A text without a first mark has none at its front. --/
theorem exists_unmarked (cs : List Char) : ∃ mark, cs = mark ++ unmarked cs ∧
    (IsMark mark ∨ (mark = [] ∧ ∀ m rest, IsMark m → cs ≠ m ++ rest)) := by
  unfold unmarked
  split
  · rename_i x rest
    split_ifs with hx
    · exact ⟨['0', x], rfl, .inl (by simpa [IsMark] using hx)⟩
    · refine ⟨[], rfl, .inr ⟨rfl, ?_⟩⟩
      rintro m more (rfl | rfl) heq <;> simp_all
  · rename_i hnot
    exact ⟨[], rfl, .inr ⟨rfl, by rintro m more (rfl | rfl) rfl <;> exact hnot _ _ rfl⟩⟩

theorem unmarked_of_hexDigits {mark digits : List Char} (hmark : mark = [] ∨ IsMark mark)
    (hdigits : ∀ d ∈ digits, Lexeme.isHexDigit d = true) : unmarked (mark ++ digits) = digits := by
  rcases hmark with rfl | rfl | rfl
  · unfold unmarked
    split
    · rename_i x rest heq
      rw [List.nil_append] at heq
      have hx : Lexeme.isHexDigit x = true := hdigits x (by simp [heq])
      have hne : x ≠ 'x' ∧ x ≠ 'X' := ⟨ne_of_isHexDigit hx (by decide), ne_of_isHexDigit hx (by decide)⟩
      rw [if_neg (by simp [hne]), heq]
    · rfl
  · rfl
  · rfl

/-- A literal is read, and denotes the value of its digits. --/
theorem hexadecimal?_of_isHexLiteral {text : String} {n : Int} (h : IsHexLiteral text n) :
    hexadecimal? text = some n := by
  obtain ⟨mark, digits, htext, hmark, hne, hdigits, rfl⟩ := h
  rw [hexadecimal?_eq_read, htext, unmarked_of_hexDigits hmark hdigits, read_of_hexDigits hdigits hne]
  rfl

/-- A character of ASCII stands for itself. --/
theorem toAscii_of_lt {c : Char} (h : c.toNat < 0x80) : toAscii c = c := by
  rcases Nat.lt_or_eq_of_le (Nat.le_of_lt_succ h) with hlt | heq
  · exact if_pos hlt
  · have : c = '\x7f' := Char.toNat_inj.mp heq
    rw [this]
    decide

theorem isBlank_of_isSpace {c : Char} (h : isSpace c = true) : Text.isBlank c = true := by
  rcases Bool.or_eq_true_iff.mp h with hspace | hcontrol
  · rw [beq_iff_eq.mp hspace]
    decide
  · simp only [Bool.and_eq_true, decide_eq_true_eq] at hcontrol
    simp [Text.isBlank, hcontrol]

/-- A spelling that has nothing loose and does not begin with a mark is made of digits alone. --/
theorem Spelling.chars_eq_digits {s : Spelling} (hchars : ∀ c ∈ s.chars, ¬ IsLooseChar c)
    (hmark : ∀ m rest, IsMark m → s.chars ≠ m ++ rest) : s.chars = s.digits := by
  have hblanks : ∀ {cs : List Char}, (∀ c ∈ cs, isSpace c = true) → (∀ c ∈ cs, c ∈ s.chars) → cs = [] :=
    fun hspace hmem => List.eq_nil_iff_forall_not_mem.mpr fun c hc =>
      hchars c (hmem c hc) (.inl (isBlank_of_isSpace (hspace c hc)))
  have hbefore : s.before = [] := hblanks s.before_isSpace fun c hc => by simp [chars, hc]
  have hafter : s.after = [] := hblanks s.after_isSpace fun c hc => by simp [chars, hc]
  have hsign : s.sign = [] := by
    rcases s.isSign with hsign | hsign | hsign
    · exact hsign
    · exact absurd (.inr (.inl rfl)) (hchars '+' (by simp [chars, hsign]))
    · exact absurd (.inr (.inr (.inl rfl))) (hchars '-' (by simp [chars, hsign]))
  have hnone : s.mark = [] := by
    rcases s.isMark with hnone | ⟨m, hm, hmark' | hmark'⟩
    · exact hnone
    · exact absurd (by rw [chars, hbefore, hsign, hmark']; rfl) (hmark m (s.run ++ s.after) hm)
    · exact absurd (.inr (.inr (.inr (.inl rfl)))) (hchars '_' (by simp [chars, hmark']))
  have hrun : '_' ∉ s.run := fun hmem =>
    hchars '_' (by simp [chars, hmem]) (.inr (.inr (.inr (.inl rfl))))
  rw [chars, hbefore, hsign, hnone, hafter, List.append_nil, List.nil_append, List.nil_append, List.nil_append,
    s.grouped.digits_eq hrun]

/-- A text that is read and has nothing loose is a literal. --/
theorem isHexLiteral_of_hexadecimal? {text : String} {n : Int} (hloose : ¬ IsLoose text)
    (h : hexadecimal? text = some n) : IsHexLiteral text n := by
  obtain ⟨s, hs, rfl⟩ := hexadecimal?_eq_some_iff.mp h
  obtain ⟨mark, htext, hmark⟩ := exists_unmarked (Text.trimBlanks text.toList)
  generalize unmarked (Text.trimBlanks text.toList) = body at hs htext
  have hbody : ∀ c ∈ body, ¬ IsLooseChar c := fun c hc hl =>
    hloose (.inl ⟨c, htext ▸ List.mem_append_right _ hc, hl⟩)
  have hplain : body = s.chars := by
    have hascii : ∀ c ∈ body, toAscii c = id c := fun c hc =>
      toAscii_of_lt (Nat.lt_of_not_le fun hle => hbody c hc (.inr (.inr (.inr (.inr hle)))))
    rw [← hs, List.map_congr_left hascii, List.map_id]
  subst hplain
  -- Behind a first mark a second one would be loose, and without a first mark there is none.
  have hsecond : ∀ m rest, IsMark m → s.chars ≠ m ++ rest := by
    intro m rest hm heq
    rcases hmark with hfirst | ⟨rfl, hnone⟩
    · exact hloose (.inr ⟨mark, m, rest, by rw [htext, heq, List.append_assoc], hfirst, hm⟩)
    · exact hnone m rest hm (by rw [htext, heq, List.nil_append])
  have hdigits := Spelling.chars_eq_digits hbody hsecond
  have hplus : s.sign ≠ ['-'] := fun hsign =>
    hbody '-' (by simp [Spelling.chars, hsign]) (.inr (.inr (.inl rfl)))
  obtain ⟨hne, hhex⟩ := s.grouped.digits_isHexDigit
  exact ⟨mark, s.digits, hdigits ▸ htext, hmark.elim .inr fun h => .inl h.1, hne, hhex, if_neg hplus⟩

end Numeral

/-! ### Addresses -/

/-- An address is read from the spellings and from nothing else, each with its value. The literals are among them, and
    are all that is read of the texts that have nothing loose. Every other text is a mistake, in every state and with
    the line of the event. --/
theorem address_reading (text : String) :
    (∀ n, Numeral.hexadecimal? text = some n ↔
      ∃ s : Numeral.Spelling, (Numeral.unmarked (Text.trimBlanks text.toList)).map Numeral.toAscii = s.chars ∧
        n = s.value) ∧
    (∀ n, IsHexLiteral text n → Numeral.hexadecimal? text = some n) ∧
    (¬ IsLoose text → ∀ n, Numeral.hexadecimal? text = some n → IsHexLiteral text n) ∧
    (Numeral.hexadecimal? text = none → ∀ strict s line names,
      ∃ fault, Build.step strict s ⟨.ofAddress, .opening, line, text, names⟩ = .error fault ∧
        fault.diagnostic? = some ⟨.semantic, s!"invalid hexadecimal literal '{text}'", some line⟩) := by
  refine ⟨fun n => Numeral.hexadecimal?_eq_some_iff, fun n => Numeral.hexadecimal?_of_isHexLiteral,
    fun hloose n => Numeral.isHexLiteral_of_hexadecimal? hloose, fun hnone strict s line names => ?_⟩
  refine ⟨.mistaken (.invalidAddress text) line, ?_, rfl⟩
  simp [Build.step, Build.bindAddress, hnone]

theorem address_reading_trimmed : IsHexLiteral " 0X1f\n" 31 ∧ Numeral.hexadecimal? " 0X1f\n" = some 31 ∧
    ¬ IsLoose " 0X1f\n" ∧ Numeral.hexadecimal? "0xZZ" = none ∧
    ∃ fault, Build.step true .initial ⟨.ofAddress, .opening, 9, "0xZZ", []⟩ = .error fault ∧
      fault.diagnostic? = some ⟨.semantic, "invalid hexadecimal literal '0xZZ'", some 9⟩ := by
  have htrim : Text.trimBlanks " 0X1f\n".toList = ['0', 'X', '1', 'f'] := by decide
  have hloose : ¬ IsLoose " 0X1f\n" := by
    rintro (⟨c, hc, hl⟩ | ⟨first, second, rest, heq, hfirst, hsecond⟩)
    · have hplain : ∀ c ∈ ['0', 'X', '1', 'f'], ¬ IsLooseChar c := by
        rw [List.forall_mem_cons, List.forall_mem_cons, List.forall_mem_cons, List.forall_mem_singleton]
        unfold IsLooseChar
        decide
      exact hplain c (htrim ▸ hc) hl
    · rw [htrim] at heq
      rcases hfirst with rfl | rfl <;> rcases hsecond with rfl | rfl <;> simp at heq
  have hread := (address_reading " 0X1f\n").2.1 31
    ⟨['0', 'X'], ['1', 'f'], htrim, .inr (.inr rfl), by decide, List.all_eq_true.mp rfl, rfl⟩
  have hnone : Numeral.hexadecimal? "0xZZ" = none := by decide
  exact ⟨(address_reading " 0X1f\n").2.2.1 hloose 31 hread, hread, hloose, hnone,
    (address_reading "0xZZ").2.2.2 hnone true .initial 9 []⟩

/-- A sign is read, though no literal has one. --/
theorem address_reading_signed :
    Numeral.hexadecimal? "-5" = some (-5) ∧ ¬ ∀ n, Numeral.hexadecimal? "-5" = some n ↔ IsHexLiteral "-5" n := by
  have hread : Numeral.hexadecimal? "-5" = some (-5) := by decide
  refine ⟨hread, fun h => ?_⟩
  obtain ⟨_, digits, _, _, _, _, hvalue⟩ := (h (-5)).mp hread
  exact absurd (hvalue ▸ Int.natCast_nonneg (Numeral.ofDigits 16 digits)) (by decide)

end Overlay
