import Overlay.Tree.Reader
import Overlay.Tree.Walk

/-! Walks up to the end of input. A walk only moves on from a token that is not the end of input, so it is never behind
    the first one, and what comes after it is never looked at. Whatever a repetition takes begins with such a token, so
    it comes to an end, and a walk does what the parser does on the tokens from its place on. -/

namespace Overlay

/-! ### The first end of input -/

/-- The place of the first end of input, or else the number of tokens. --/
def firstEnd (tokens : List Token) : Nat := tokens.findIdx (·.kind == .endOfInput)

/-- Tokens before an end of input, and that end. --/
structure Ending where
  upTo : List Token
  last : Token
  isEnd : last.kind = .endOfInput
  noEnd : ∀ t ∈ upTo, t.kind ≠ .endOfInput

namespace Ending

/-- The tokens with more tokens after the end of input. --/
def followedBy (e : Ending) (after : List Token) : List Token := e.upTo ++ e.last :: after

variable {e : Ending} {after after' : List Token} {t : Token} {place : Nat}

theorem exists_followedBy {tokens : List Token} (h : ∃ t ∈ tokens, t.kind = .endOfInput) :
    ∃ (e : Ending) (after : List Token), tokens = e.followedBy after := by
  induction tokens with
  | nil => simp at h
  | cons t ts ih =>
    by_cases ht : t.kind = .endOfInput
    · exact ⟨⟨[], t, ht, by simp⟩, ts, rfl⟩
    · have hts : ∃ u ∈ ts, u.kind = .endOfInput := by simpa [ht] using h
      obtain ⟨e, after, rfl⟩ := ih hts
      exact ⟨⟨t :: e.upTo, e.last, e.isEnd, List.forall_mem_cons.mpr ⟨ht, e.noEnd⟩⟩, after, rfl⟩

theorem firstEnd_followedBy : firstEnd (e.followedBy after) = e.upTo.length := by
  have hnone : e.upTo.findIdx (·.kind == .endOfInput) = e.upTo.length :=
    List.findIdx_eq_length.mpr fun t ht => by simpa using e.noEnd t ht
  have hhead : (e.last :: after).findIdx (·.kind == .endOfInput) = 0 := by simp [List.findIdx_cons, e.isEnd]
  rw [firstEnd, followedBy, List.findIdx_append, hnone, if_neg (Nat.lt_irrefl _), hhead, Nat.zero_add]

theorem take_followedBy : (e.followedBy after).take (e.upTo.length + 1) ++ after' = e.followedBy after' := by
  rw [followedBy, followedBy, List.take_length_add_append, List.take_succ_cons, List.take_zero, List.append_assoc]
  rfl

theorem length_followedBy : e.upTo.length < (e.followedBy after).length := by
  rw [followedBy, List.length_append, List.length_cons]
  omega

/-- Up to the end of input, the tokens do not depend on those after it. --/
theorem getElem?_followedBy (h : place ≤ e.upTo.length) :
    (e.followedBy after)[place]? = (e.followedBy after')[place]? := by
  rcases Nat.lt_or_eq_of_le h with h | rfl
  · rw [followedBy, followedBy, List.getElem?_append_left h, List.getElem?_append_left h]
  · rw [followedBy, followedBy, List.getElem?_append_right (Nat.le_refl _), List.getElem?_append_right (Nat.le_refl _),
      Nat.sub_self, List.getElem?_cons_zero, List.getElem?_cons_zero]

theorem kind_eq_end (h : (e.followedBy after)[place]? = some t) (hplace : place ≤ e.upTo.length) :
    t.kind = .endOfInput ↔ place = e.upTo.length := by
  rcases Nat.lt_or_eq_of_le hplace with hlt | rfl
  · rw [followedBy, List.getElem?_append_left hlt] at h
    exact iff_of_false (e.noEnd t (List.mem_of_getElem? h)) (Nat.ne_of_lt hlt)
  · rw [followedBy, List.getElem?_append_right (Nat.le_refl _), Nat.sub_self, List.getElem?_cons_zero] at h
    exact iff_of_true (Option.some.inj h ▸ e.isEnd) rfl

end Ending

/-! ### A walk and the tokens that a parser is left with -/

namespace Walk

/-- The walk goes over the tokens of `e` and `after`, has taken the places before its own one after the other, and is
    where a parser of `e` and `after'` has the tokens `left` left, none of them taken behind the end of input. --/
structure Facing (e : Ending) (after after' : List Token) (w : Walk) (left : List Token) : Prop where
  tokens : w.tokens = e.followedBy after
  left : left = (e.followedBy after').drop w.place
  notPast : w.place ≤ e.upTo.length
  before : w.before = (List.range w.place).reverse

variable {e : Ending} {after after' left : List Token} {w : Walk}

theorem facing_start : (start (e.followedBy after)).Facing e after after' (e.followedBy after') :=
  ⟨rfl, rfl, Nat.zero_le _, rfl⟩

namespace Facing

theorem current (h : w.Facing e after after' left) : w.current = left.head? := by
  rw [Walk.current, h.tokens, h.left, List.head?_drop]
  exact Ending.getElem?_followedBy h.notPast

theorem exists_head (h : w.Facing e after after' left) :
    ∃ t, left.head? = some t ∧ (t.kind = .endOfInput ↔ w.place = e.upTo.length) := by
  have hlt : w.place < (e.followedBy after').length := Nat.lt_of_le_of_lt h.notPast Ending.length_followedBy
  refine ⟨(e.followedBy after')[w.place], ?_, ?_⟩
  · rw [h.left, List.head?_drop, List.getElem?_eq_getElem hlt]
  · exact Ending.kind_eq_end (List.getElem?_eq_getElem hlt) h.notPast

theorem isAt (h : w.Facing e after after' left) (kind : TokenKind) : w.isAt kind = Parser.isAt kind left := by
  rw [Walk.isAt, h.current, Parser.isAt]

theorem isAtKeyword (h : w.Facing e after after' left) (words : List String) :
    w.isAtKeyword words = Parser.isAtKeyword words left := by
  rw [Walk.isAtKeyword, h.current, Parser.isAtKeyword]

/-- From any token but the end of input the walk goes to the next place. --/
theorem advance {t : Token} (h : w.Facing e after after' left) (hhead : left.head? = some t)
    (ht : t.kind ≠ .endOfInput) :
    w.advance.Facing e after after' (Parser.next left) ∧ w.advance.place = w.place + 1 := by
  obtain ⟨u, hu, hkind⟩ := h.exists_head
  obtain rfl : t = u := Option.some.inj (hhead.symm.trans hu)
  have hlt : w.place < e.upTo.length := Nat.lt_of_le_of_ne h.notPast fun hend => ht (hkind.mpr hend)
  have hnext : w.place + 1 < w.tokens.length := by
    rw [h.tokens]
    exact Nat.lt_of_le_of_lt hlt Ending.length_followedBy
  have hnext' : w.place + 1 < (e.followedBy after').length := Nat.lt_of_le_of_lt hlt Ending.length_followedBy
  rw [Walk.advance, if_pos hnext]
  refine ⟨⟨h.tokens, ?_, hlt, ?_⟩, rfl⟩
  · rw [h.left, List.drop_eq_getElem_cons (Nat.lt_of_succ_lt hnext'), List.drop_eq_getElem_cons hnext']
    rfl
  · rw [h.before, List.range_succ, List.reverse_append]
    rfl

/-- A walk that is at a later place leaves fewer tokens. --/
theorem length_lt {w' : Walk} {left' : List Token} (h : w.Facing e after after' left)
    (h' : w'.Facing e after after' left') (hlt : w.place < w'.place) : left'.length < left.length := by
  have hlength : e.upTo.length < (e.followedBy after').length := Ending.length_followedBy
  have hplace := h.notPast
  rw [h.left, h'.left, List.length_drop, List.length_drop]
  omega

/-- Walks over other tokens after the end of input that face the same tokens left are at the same place. --/
theorem walk_eq {w' : Walk} {others : List Token} (h : w.Facing e after after' left)
    (h' : w'.Facing e others after' left) : w' = { w with tokens := e.followedBy others } := by
  have hlength : e.upTo.length < (e.followedBy after').length := Ending.length_followedBy
  have hleft : (e.followedBy after').length - w.place = (e.followedBy after').length - w'.place := by
    rw [← List.length_drop, ← List.length_drop, ← h.left, ← h'.left]
  have hplace : w'.place = w.place := by
    have hnotPast := h.notPast
    have hnotPast' := h'.notPast
    omega
  change Walk.mk w'.tokens w'.place w'.before = ⟨_, w.place, w.before⟩
  rw [h'.tokens, h'.before, h.before, hplace]

end Facing
end Walk

/-! ### Walking like a parser -/

namespace Walking
open Walk
variable {e : Ending} {after after' : List Token} {α β : Type}

/-- The walk comes to an end at the place `least` or later, with what the parser gives, and faces the tokens that the
    parser leaves; where both fail, they blame the same. --/
inductive Outcome (e : Ending) (after after' : List Token) (least : Nat) :
    Part (Except ParseFault α × Walk) → EStateM.Result ParseFault (List Token) α → Prop where
  | read {a : α} {next : Walk} {left : List Token} (facing : next.Facing e after after' left)
      (atLeast : least ≤ next.place) : Outcome e after after' least (.some (.ok a, next)) (.ok a left)
  | failed {fault : ParseFault} {next : Walk} {left : List Token} (facing : next.Facing e after after' left) :
      Outcome e after after' least (.some (.error fault, next)) (.error fault left)

/-- The walk does what the parser does. --/
def Follows (e : Ending) (after after' : List Token) (p : Walking α) (q : Parser α) : Prop :=
  ∀ w left, w.Facing e after after' left → Outcome e after after' w.place (p w) (q left)

/-- Where the tokens left fulfil `here`, the walk does what the parser does, and takes a token. --/
def TakesAt (here : List Token → Prop) (e : Ending) (after after' : List Token) (p : Walking α) (q : Parser α) : Prop :=
  ∀ w left, w.Facing e after after' left → here left → Outcome e after after' (w.place + 1) (p w) (q left)

/-- The walk does what the parser does, and takes a token. --/
def Takes (e : Ending) (after after' : List Token) (p : Walking α) (q : Parser α) : Prop :=
  TakesAt (fun _ => True) e after after' p q

variable {here : List Token → Prop} {p p' : Walking α} {q q' : Parser α} {f : α → Walking β} {f' : α → Parser β}

/-! ### Composed walks -/

theorem Outcome.mono {least least' : Nat} {got : Part (Except ParseFault α × Walk)}
    {want : EStateM.Result ParseFault (List Token) α} (h : Outcome e after after' least got want)
    (hle : least' ≤ least) : Outcome e after after' least' got want := by
  cases h with
  | read facing atLeast => exact .read facing (Nat.le_trans hle atLeast)
  | failed facing => exact .failed facing

theorem Takes.follows (h : Takes e after after' p q) : Follows e after after' p q := fun w left hw =>
  (h w left hw trivial).mono (Nat.le_succ _)

theorem bind_apply (p : Walking α) (f : α → Walking β) (w : Walk) :
    (p >>= f) w = (p w).bind fun
      | (.ok a, next) => f a next
      | (.error fault, next) => .some (.error fault, next) := by
  change StateT.bind p _ w = _
  unfold StateT.bind
  refine congrArg (Part.bind (p w)) (funext fun (got, next) => ?_)
  cases got <;> rfl

theorem Outcome.bind {w : Walk} {left : List Token} {least least' : Nat}
    (hfirst : Outcome e after after' least (p w) (q left))
    (hrest : ∀ a next rest, next.Facing e after after' rest → least ≤ next.place →
      Outcome e after after' least' (f a next) (f' a rest)) :
    Outcome e after after' least' ((p >>= f) w) ((q >>= f') left) := by
  change Outcome e after after' least' _ (EStateM.bind q f' left)
  rw [bind_apply]
  unfold EStateM.bind
  generalize p w = got at hfirst ⊢
  generalize q left = want at hfirst ⊢
  cases hfirst with
  | read facing atLeast =>
    rw [Part.bind_some]
    exact hrest _ _ _ facing atLeast
  | failed facing =>
    rw [Part.bind_some]
    exact .failed facing

theorem Outcome.ite {w : Walk} {least : Nat} {want want' : EStateM.Result ParseFault (List Token) α} {c : Bool}
    (hp : c = true → Outcome e after after' least (p w) want)
    (hp' : c = false → Outcome e after after' least (p' w) want') :
    Outcome e after after' least ((if c then p else p') w) (if c then want else want') := by
  cases c with
  | true => exact hp rfl
  | false => exact hp' rfl

theorem follows_bind (hp : Follows e after after' p q) (hf : ∀ a, Follows e after after' (f a) (f' a)) :
    Follows e after after' (p >>= f) (q >>= f') := fun w left hw =>
  (hp w left hw).bind fun a next rest hnext hle => (hf a next rest hnext).mono hle

theorem takesAt_bind (hp : TakesAt here e after after' p q) (hf : ∀ a, Follows e after after' (f a) (f' a)) :
    TakesAt here e after after' (p >>= f) (q >>= f') := fun w left hw hhere =>
  (hp w left hw hhere).bind fun a next rest hnext hle => (hf a next rest hnext).mono hle

theorem takes_bind (hp : Takes e after after' p q) (hf : ∀ a, Follows e after after' (f a) (f' a)) :
    Takes e after after' (p >>= f) (q >>= f') := takesAt_bind hp hf

theorem takes_of_bind (hp : Follows e after after' p q) (hf : ∀ a, Takes e after after' (f a) (f' a)) :
    Takes e after after' (p >>= f) (q >>= f') := fun w left hw _ =>
  (hp w left hw).bind fun a next rest hnext hle => (hf a next rest hnext trivial).mono (Nat.succ_le_succ hle)

theorem follows_pure {a : α} : Follows e after after' (pure a) (pure a) := fun _ _ hw => .read hw (Nat.le_refl _)

theorem follows_throw {fault : ParseFault} :
    Follows e after after' (throw fault : Walking α) (throw fault) := fun _ _ hw => .failed hw

theorem follows_throw_bind {fault : ParseFault} :
    Follows e after after' (throw fault >>= f) (throw fault >>= f') := by
  intro w left hw
  have hthrow : (throw fault : Walking α) w = .some (.error fault, w) := rfl
  rw [bind_apply, hthrow, Part.bind_some]
  exact .failed hw

theorem takes_map (f : α → β) (hp : Takes e after after' p q) : Takes e after after' (f <$> p) (f <$> q) := by
  rw [map_eq_pure_bind, map_eq_pure_bind]
  exact takes_bind hp fun _ => follows_pure

theorem follows_map (f : α → β) (hp : Follows e after after' p q) : Follows e after after' (f <$> p) (f <$> q) := by
  rw [map_eq_pure_bind, map_eq_pure_bind]
  exact follows_bind hp fun _ => follows_pure

theorem follows_ite {c : Prop} [Decidable c] (hp : Follows e after after' p q) (hp' : Follows e after after' p' q') :
    Follows e after after' (if c then p else p') (if c then q else q') := by
  by_cases hc : c
  · rw [if_pos hc, if_pos hc]
    exact hp
  · rw [if_neg hc, if_neg hc]
    exact hp'

theorem get_apply (w : Walk) : (get : Walking Walk) w = .some (.ok w, w) :=
  Part.bind_some (w, w) fun p => .some (Except.ok p.1, p.2)

theorem moveOn_apply (w : Walk) : moveOn w = .some (.ok (), w.advance) :=
  Part.bind_some ((), w.advance) fun p => .some (Except.ok p.1, p.2)

theorem get_bind_apply (f : Walk → Walking α) (w : Walk) : (get >>= f) w = f w w := by
  rw [bind_apply, get_apply, Part.bind_some]

theorem moveOn_bind_apply (f : Unit → Walking α) (w : Walk) : (moveOn >>= f) w = f () w.advance := by
  rw [bind_apply, moveOn_apply, Part.bind_some]

/-! ### Moving over tokens -/

theorem isAt_end_of_isAt {kind : TokenKind} (left : List Token) (h : Parser.isAt kind left = true)
    (hkind : kind ≠ .endOfInput) : Parser.isAt .endOfInput left = false := by
  cases left with
  | nil => rfl
  | cons t ts =>
    have ht : t.kind = kind := by simpa [Parser.isAt] using h
    simpa [Parser.isAt, ht] using hkind

theorem isAt_end_of_isAtKeyword {words : List String} (left : List Token)
    (h : Parser.isAtKeyword words left = true) : Parser.isAt .endOfInput left = false := by
  have hat : Parser.isAt .keyword left = true := by
    cases left with
    | nil => cases h
    | cons t ts =>
      simp only [Parser.isAtKeyword, List.head?_cons, Option.any_some, Token.isKeywordOf, Bool.and_eq_true] at h
      exact h.1
  exact isAt_end_of_isAt left hat (by decide)

/-- Every place but the end of input is moved on from. --/
theorem takesAt_moveOn (hhere : ∀ left, here left → Parser.isAt .endOfInput left = false) :
    TakesAt here e after after' moveOn Parser.moveOn := by
  intro w left hw hleft
  obtain ⟨t, ht, -⟩ := hw.exists_head
  have hkind : t.kind ≠ .endOfInput := by simpa [Parser.isAt, ht] using hhere left hleft
  obtain ⟨facing, hplace⟩ := hw.advance ht hkind
  rw [moveOn_apply]
  exact .read facing (Nat.le_of_eq hplace.symm)

theorem takesAt_kind {kind : TokenKind} (hkind : kind ≠ .endOfInput) :
    TakesAt (Parser.isAt kind · = true) e after after' moveOn Parser.moveOn :=
  takesAt_moveOn fun left h => isAt_end_of_isAt left h hkind

theorem expectWhere_of_fits {fits : Token → Bool} {what : Expected} {w : Walk} {t : Token} (h : w.current = some t)
    (hfit : fits t = true) : expectWhere fits what w = .some (.ok t, w.advance) := by
  rw [expectWhere, get_bind_apply, h]
  dsimp only
  rw [if_pos hfit, moveOn_bind_apply]
  rfl

theorem takes_expectWhere {fits : Token → Bool} {what : Expected} (hfits : ∀ t, fits t = true → t.kind ≠ .endOfInput) :
    Takes e after after' (expectWhere fits what) (Parser.expectWhere fits what) := by
  intro w left hw _
  obtain ⟨t, ht, -⟩ := hw.exists_head
  unfold Parser.expectWhere
  rw [ht]
  dsimp only
  by_cases hfit : fits t = true
  · obtain ⟨facing, hplace⟩ := hw.advance ht (hfits t hfit)
    rw [if_pos hfit, expectWhere_of_fits (hw.current.trans ht) hfit]
    exact .read facing (Nat.le_of_eq hplace.symm)
  · rw [if_neg hfit, expectWhere, get_bind_apply, hw.current, ht]
    dsimp only
    rw [if_neg hfit]
    exact .failed hw

theorem takes_expect {kind : TokenKind} {what : Expected} (hkind : kind ≠ .endOfInput) :
    Takes e after after' (expect kind what) (Parser.expect kind what) :=
  takes_expectWhere fun t ht => by
    rw [beq_iff_eq.mp ht]
    exact hkind

theorem follows_expect {kind : TokenKind} {what : Expected} (hkind : kind ≠ .endOfInput) :
    Follows e after after' (expect kind what) (Parser.expect kind what) := (takes_expect hkind).follows

theorem follows_accept {kind : TokenKind} (hkind : kind ≠ .endOfInput) :
    Follows e after after' (accept kind) (Parser.accept kind) := by
  intro w left hw
  unfold accept Parser.accept
  rw [get_bind_apply, hw.isAt]
  refine .ite (fun hat => ?_) fun _ => .read hw (Nat.le_refl _)
  exact (takesAt_bind (takesAt_kind hkind) (fun _ => follows_pure) w left hw hat).mono (Nat.le_succ _)

theorem follows_acceptKeyword {words : List String} :
    Follows e after after' (acceptKeyword words) (Parser.acceptKeyword words) := by
  intro w left hw
  unfold acceptKeyword Parser.acceptKeyword
  rw [get_bind_apply, hw.isAtKeyword, hw.current]
  refine .ite (fun hat => ?_) fun _ => .read hw (Nat.le_refl _)
  exact (takesAt_bind (takesAt_moveOn isAt_end_of_isAtKeyword) (fun _ => follows_pure) w left hw hat).mono
    (Nat.le_succ _)

theorem takes_fail {cause : ParseCause} : Takes e after after' (fail cause : Walking α) (Parser.fail cause) := by
  intro w left hw _
  unfold fail Parser.fail
  rw [get_bind_apply, hw.current]
  exact .failed hw

/-! ### Repetitions -/

section Repetition
variable {more : Walk → Bool} {more' : List Token → Bool} {w : Walk} {taken : List α}

theorem turn_of_read {a : α} {next : Walk} (h : more w = true) (hitem : p w = .some (.ok a, next)) :
    .inr (taken ++ [a], next) ∈ turn more p (taken, w) := by
  rw [turn, if_pos h, hitem, Part.map_some, Part.mem_some_iff]

/-- A turn that ends with items is one where nothing more is asked for. --/
theorem more_of_turn {last : Walk} {as : List α} (h : .inl (.ok as, last) ∈ turn more p (taken, w)) :
    more last = false := by
  by_cases hgo : more w = true
  · rw [turn, if_pos hgo, Part.mem_map_iff] at h
    obtain ⟨⟨_ | a, next⟩, -, h⟩ := h
    · cases h
    · cases h
  · rw [turn, if_neg hgo, Part.mem_some_iff] at h
    cases h
    exact Bool.eq_false_iff.mpr hgo

theorem fix_turn_of_not_more (h : more w = false) : (turn more p).fix (taken, w) = .some (.ok taken, w) := by
  refine Part.eq_some_iff.mpr (PFun.fix_stop ?_)
  rw [turn, if_neg (Bool.eq_false_iff.mp h), Part.mem_some_iff]

theorem fix_turn_of_failed {fault : ParseFault} {next : Walk} (h : more w = true)
    (hitem : p w = .some (.error fault, next)) :
    (turn more p).fix (taken, w) = .some (.error fault, next) := by
  refine Part.eq_some_iff.mpr (PFun.fix_stop ?_)
  rw [turn, if_pos h, hitem, Part.map_some, Part.mem_some_iff]

/-- Items that take a token each bring a repetition to an end, and the parser has no reason to leave it earlier. --/
theorem outcome_fix_turn (hmore : ∀ w left, w.Facing e after after' left → more w = more' left)
    (hitem : TakesAt (more' · = true) e after after' p q) (taken : List α) (w : Walk) (left : List Token)
    (hw : w.Facing e after after' left) :
    Outcome e after after' w.place ((turn more p).fix (taken, w))
      (EStateM.map (taken ++ ·) (Parser.repeatWhile more' q) left) := by
  induction hlength : left.length using Nat.strongRecOn generalizing taken w left with
  | ind length ih =>
  unfold EStateM.map
  rw [Parser.repeatWhile]
  by_cases hgo : more' left = true
  · have hwalk : more w = true := (hmore w left hw).trans hgo
    have hfirst := hitem w left hw hgo
    rw [if_pos hgo]
    generalize hgot : p w = got at hfirst
    generalize q left = want at hfirst ⊢
    cases hfirst with
    | failed facing =>
      rw [fix_turn_of_failed hwalk hgot]
      exact .failed facing
    | @read a next rest facing took =>
      have hlt : rest.length < left.length := hw.length_lt facing took
      have hothers := ih rest.length (hlength ▸ hlt) (taken ++ [a]) next rest facing rfl
      unfold EStateM.map at hothers
      rw [PFun.fix_fwd_eq (turn_of_read hwalk hgot)]
      dsimp only
      rw [if_pos hlt]
      generalize Parser.repeatWhile more' q rest = want at hothers ⊢
      cases want with
      | ok as final =>
        dsimp only at hothers ⊢
        rw [List.append_assoc, List.singleton_append] at hothers
        exact hothers.mono (Nat.le_of_succ_le took)
      | error fault final => exact hothers.mono (Nat.le_of_succ_le took)
  · have hwalk : more w = false := (hmore w left hw).trans (Bool.eq_false_iff.mpr hgo)
    rw [if_neg hgo, fix_turn_of_not_more hwalk]
    dsimp only
    rw [List.append_nil]
    exact .read hw (Nat.le_refl _)

theorem follows_repeatWhile (hmore : ∀ w left, w.Facing e after after' left → more w = more' left)
    (hitem : TakesAt (more' · = true) e after after' p q) :
    Follows e after after' (repeatWhile more p) (Parser.repeatWhile more' q) := by
  intro w left hw
  have hall := outcome_fix_turn hmore hitem [] w left hw
  unfold EStateM.map at hall
  rw [repeatWhile]
  generalize Parser.repeatWhile more' q left = want at hall ⊢
  cases want <;> exact hall

end Repetition

/-- Items that follow tokens of a kind. --/
theorem follows_repeatAfter {kind : TokenKind} (hkind : kind ≠ .endOfInput) (hp : Follows e after after' p q) :
    Follows e after after' (repeatWhile (Walk.isAt kind) (do moveOn; p))
      (Parser.repeatWhile (Parser.isAt kind) (do Parser.moveOn; q)) :=
  follows_repeatWhile (fun _ _ hw => hw.isAt kind)
    (takesAt_bind (takesAt_kind hkind) fun _ => hp)

/-! ### Parts of a tree -/

theorem takes_typeName : Takes e after after' typeName Parser.typeName := by
  refine takes_bind (takes_expect nofun) fun name => follows_bind ?_ fun stars => follows_pure
  exact follows_repeatWhile (fun _ _ hw => hw.isAt .star) (takesAt_kind nofun)

theorem follows_parameter : Follows e after after' parameter Parser.parameter :=
  follows_bind takes_typeName.follows fun _ => follows_bind (follows_expect nofun) fun _ => follows_pure

theorem follows_parameters : Follows e after after' parameters Parser.parameters := by
  intro w left hw
  unfold parameters Parser.parameters
  rw [get_bind_apply, hw.isAt]
  refine .ite (fun _ => .read hw (Nat.le_refl _)) fun _ => ?_
  refine follows_bind follows_parameter (fun first => follows_bind ?_ fun others => follows_pure) w left hw
  exact follows_repeatAfter nofun follows_parameter

theorem follows_address : Follows e after after' address Parser.address :=
  follows_bind (follows_accept nofun) fun _ => follows_ite
    (follows_bind (follows_expect nofun) fun _ => follows_ite follows_pure follows_throw) follows_pure

theorem follows_functionAfter {modifier convention : Option Token} {type : TypeName} {name : Token} :
    Follows e after after' (functionAfter modifier type convention name)
      (Parser.functionAfter modifier type convention name) := by
  refine follows_bind follows_parameters fun parameters => follows_bind (follows_expect nofun) fun _ => ?_
  exact follows_bind follows_address fun address => follows_bind (follows_expect nofun) fun _ => follows_pure

theorem follows_variableAfter {modifier convention : Option Token} {type : TypeName} {name : Token} :
    Follows e after after' (variableAfter modifier type convention name)
      (Parser.variableAfter modifier type convention name) := by
  unfold variableAfter Parser.variableAfter
  cases modifier with
  | some t => exact follows_throw_bind
  | none =>
    cases convention with
    | some t => exact follows_throw_bind
    | none =>
      exact follows_bind follows_address fun address => follows_bind (follows_expect nofun) fun _ => follows_pure

theorem takes_functionOrVariable : Takes e after after' functionOrVariable Parser.functionOrVariable := by
  refine takes_of_bind follows_acceptKeyword fun modifier => takes_bind takes_typeName fun type => ?_
  refine follows_bind follows_acceptKeyword fun convention => follows_bind (follows_expect nofun) fun name => ?_
  refine follows_bind (follows_accept nofun) fun found => follows_ite ?_ ?_
  · exact follows_bind follows_functionAfter fun f => follows_pure
  · exact follows_bind follows_variableAfter fun v => follows_pure

theorem takes_declaration : Takes e after after' declaration Parser.declaration := by
  intro w left hw _
  unfold declaration Parser.declaration
  rw [get_bind_apply, hw.current]
  obtain ⟨t, ht, -⟩ := hw.exists_head
  rw [ht]
  dsimp only
  refine .ite (fun hraw => ?_) fun _ => takes_functionOrVariable w left hw trivial
  have hat : Parser.isAt .rawBlock left = true := by rwa [Parser.isAt, ht]
  refine takesAt_bind (takesAt_kind ?_) (fun _ => follows_pure) w left hw hat
  exact nofun

theorem takesAt_semicolon : TakesAt (Parser.isAt .semicolon · = true) e after after' (do moveOn; return none)
    (do Parser.moveOn; return (none : Option α)) :=
  takesAt_bind (takesAt_kind nofun) fun _ => follows_pure

theorem takes_member {name : String} : Takes e after after' (member name) (Parser.member name) := by
  intro w left hw _
  unfold member Parser.member
  rw [get_bind_apply, hw.isAt, hw.isAt, hw.isAtKeyword]
  refine .ite (fun _ => takes_fail w left hw trivial) fun _ => ?_
  refine .ite (fun hsemicolon => takesAt_semicolon w left hw hsemicolon) fun _ => ?_
  refine .ite (fun _ => takes_fail w left hw trivial) fun _ => ?_
  exact takes_map some takes_declaration w left hw trivial

theorem follows_bases : Follows e after after' bases Parser.bases := by
  refine follows_bind (follows_accept nofun) fun found => follows_ite ?_ follows_pure
  refine follows_bind (follows_expect nofun) fun first => ?_
  exact follows_bind (follows_repeatAfter nofun (follows_expect nofun)) fun others => follows_pure

theorem takes_classNode : Takes e after after' classNode Parser.classNode := by
  have hopening : ∀ t : Token, t.isKeyword classKeyword = true → t.kind ≠ .endOfInput := fun t ht => by
    have hkind : t.kind = .keyword := by simpa using (Bool.and_eq_true_iff.mp ht).1
    simp [hkind]
  have hmore : ∀ (w : Walk) left, w.Facing e after after' left →
      (!w.isAt .rightBrace) = !Parser.isAt .rightBrace left := fun w left hw => by rw [hw.isAt]
  refine takes_bind (takes_expectWhere hopening) fun opening => follows_bind (follows_expect nofun) fun name => ?_
  refine follows_bind follows_bases fun bases => follows_bind (follows_expect nofun) fun _ => ?_
  refine follows_bind (follows_repeatWhile hmore fun w left hw _ => takes_member w left hw trivial) fun members => ?_
  exact follows_bind (follows_expect nofun) fun _ => follows_bind (follows_accept nofun) fun _ => follows_pure

theorem takes_topLevel : Takes e after after' topLevel Parser.topLevel := by
  intro w left hw _
  unfold topLevel Parser.topLevel
  rw [get_bind_apply, hw.isAt, hw.isAtKeyword]
  refine .ite (fun hsemicolon => takesAt_semicolon w left hw hsemicolon) fun _ => ?_
  refine .ite (fun _ => takes_map _ takes_classNode w left hw trivial) fun _ => ?_
  exact takes_map some takes_declaration w left hw trivial

theorem follows_declarations : Follows e after after' declarations Parser.declarations := by
  have hmore : ∀ (w : Walk) left, w.Facing e after after' left → (w.current.isSome && !w.isAt .endOfInput) =
      (!left.isEmpty && !Parser.isAt .endOfInput left) := fun w left hw => by
    rw [hw.isAt, hw.current]
    cases left <;> rfl
  exact follows_bind (follows_repeatWhile hmore fun w left hw _ => takes_topLevel w left hw trivial) fun items =>
    follows_pure

/-! ### Where a walk ends -/

/-- A repetition only comes to an end without a fault where nothing more is asked for. --/
theorem repeatWhile_ends {more : Walk → Bool} {p : Walking α} {w last : Walk} {as : List α}
    (h : repeatWhile more p w = .some (.ok as, last)) : more last = false :=
  PFun.fixInduction' (C := fun _ => more last = false) (Part.eq_some_iff.mp h) (fun _ => more_of_turn)
    fun _ _ _ _ hnext => hnext

theorem exists_of_bind {b : β} {w last : Walk} (h : (p >>= f) w = .some (.ok b, last)) :
    ∃ a next, p w = .some (.ok a, next) ∧ f a next = .some (.ok b, last) := by
  rw [bind_apply, Part.eq_some_iff, Part.mem_bind_iff] at h
  obtain ⟨⟨_ | a, next⟩, hfirst, h⟩ := h
  · cases Part.mem_some_iff.mp h
  · exact ⟨a, next, Part.eq_some_iff.mpr hfirst, Part.eq_some_iff.mpr h⟩

/-- Without a fault, the declarations of a file only come to an end where no token is left or the input ends. --/
theorem declarations_ends {w last : Walk} {nodes : List Node} (h : declarations w = .some (.ok nodes, last)) :
    last.current.isSome = false ∨ last.isAt .endOfInput = true := by
  obtain ⟨items, next, hitems, h⟩ := exists_of_bind h
  cases Part.some_injective h
  have hmore := repeatWhile_ends hitems
  rwa [Bool.and_eq_false_iff, Bool.not_eq_false'] at hmore

/-- A repetition that asks for more where its item stays does not come to an end. --/
theorem repeatWhile_endless {more : Walk → Bool} {p : Walking α} {w : Walk} {a : α} (hmore : more w = true)
    (hstay : p w = .some (.ok a, w)) : repeatWhile more p w = .none := by
  refine Part.eq_none_iff.mpr fun got h => ?_
  refine PFun.fixInduction (C := fun going => going.2 ≠ w) h ?_ rfl
  rintro ⟨taken, w'⟩ - ih rfl
  exact ih (taken ++ [a], w') (turn_of_read hmore hstay) rfl

/-- A type does not come to an end at a star that is the last token. --/
example : typeName (.start [⟨.identifier, "int", .start⟩, ⟨.star, "*", .start⟩]) = .none := by
  rw [typeName, bind_apply, expect, expectWhere_of_fits rfl rfl, Part.bind_some]
  dsimp only
  rw [bind_apply, repeatWhile_endless rfl (moveOn_apply _), Part.bind_none]

/-! ### Files -/

/-- The parser of a file that begins at `start`. --/
def parserFrom (start : Position) : Parser FileNode :=
  (fun declarations => ⟨declarations, start⟩) <$> Parser.declarations

theorem parse_eq (tokens : List Token) :
    parse tokens = match parserFrom (fileStart tokens) tokens with
      | .ok node _ => .ok node
      | .error fault _ => .error fault := by
  change parse tokens = match EStateM.map _ Parser.declarations tokens with
    | .ok node _ => .ok node
    | .error fault _ => .error fault
  unfold parse EStateM.map
  cases Parser.declarations tokens <;> rfl

theorem reader_file_eq (tokens : List Token) :
    (Reader.ofTokens tokens).file = match parserFrom (fileStart tokens) tokens with
      | .ok node left => (.ok node, ⟨tokens, left⟩)
      | .error fault left => (.error fault, ⟨tokens, left⟩) := by
  change Reader.run ⟨tokens, tokens⟩ (parserFrom (fileStart tokens)) = _
  unfold Reader.run
  cases parserFrom (fileStart tokens) tokens <;> rfl

theorem outcome_file : Outcome e after after' 0 (file (e.followedBy after))
    (parserFrom (fileStart (e.followedBy after')) (e.followedBy after')) := by
  have hstart : fileStart (e.followedBy after) = fileStart (e.followedBy after') := by
    rw [fileStart, fileStart, List.head?_eq_getElem?, List.head?_eq_getElem?]
    rw [Ending.getElem?_followedBy (Nat.zero_le _)]
  rw [file, hstart]
  exact follows_map _ follows_declarations _ _ facing_start

/-- A file is read as the parser and the reader read it, whatever comes after the end of input. --/
theorem file_followedBy (e : Ending) (after after' : List Token) :
    ∃ last left, last.Facing e after after' left ∧
      file (e.followedBy after) = .some (parse (e.followedBy after'), last) ∧
      (Reader.ofTokens (e.followedBy after')).file = (parse (e.followedBy after'), ⟨e.followedBy after', left⟩) := by
  have h : Outcome e after after' 0 _ _ := outcome_file
  rw [parse_eq, reader_file_eq]
  generalize file (e.followedBy after) = got at h ⊢
  generalize parserFrom _ (e.followedBy after') = want at h ⊢
  cases h with
  | read facing => exact ⟨_, _, facing, rfl, rfl⟩
  | failed facing => exact ⟨_, _, facing, rfl, rfl⟩

theorem file_nil :
    file [] = .some (.ok ⟨[], .start⟩, .start []) ∧ parserFrom (fileStart []) [] = .ok ⟨[], .start⟩ [] := by
  constructor
  · rw [file, map_eq_pure_bind, bind_apply, declarations, bind_apply, repeatWhile, fix_turn_of_not_more rfl]
    rw [Part.bind_some]
    exact Part.bind_some _ _
  · have hnone : Parser.declarations [] = .ok [] [] := by
      change EStateM.bind _ _ [] = _
      unfold EStateM.bind
      rw [Parser.repeatWhile]
      rfl
    change EStateM.map _ Parser.declarations [] = _
    unfold EStateM.map
    rw [hnone]
    rfl

/-- Without a fault, a walk over a file ends at the first end of input. --/
theorem place_of_file {left : List Token} {node : FileNode} {last : Walk} (hfacing : last.Facing e after after' left)
    (h : file (e.followedBy after) = .some (.ok node, last)) : last.place = e.upTo.length := by
  rw [file, map_eq_pure_bind] at h
  obtain ⟨nodes, next, hnodes, h⟩ := exists_of_bind h
  cases Part.some_injective h
  obtain ⟨t, ht, hkind⟩ := hfacing.exists_head
  rcases declarations_ends hnodes with hnone | hend
  · simp [hfacing.current, ht] at hnone
  · rw [hfacing.isAt, Parser.isAt, ht] at hend
    exact hkind.mp (by simpa using hend)

end Walking

/-- Reading a file comes to an end, with a tree only at the first end of input, and never goes behind that. No token
    after it matters. --/
theorem walk_ends_at_first_end (tokens : List Token) (h : tokens = [] ∨ ∃ t ∈ tokens, t.kind = .endOfInput) :
    ∃ outcome last, Walking.file tokens = .some (outcome, last) ∧ parse tokens = outcome ∧
      (∃ reader, (Reader.ofTokens tokens).file = (outcome, reader) ∧ reader.position = last.place) ∧
      (∀ place ∈ last.place :: last.before, place ≤ firstEnd tokens) ∧
      (tokens ≠ [] → outcome.isOk → last.place = firstEnd tokens) ∧
      (tokens ≠ [] → ∀ after, parse (tokens.take (firstEnd tokens + 1) ++ after) = outcome ∧
        Walking.file (tokens.take (firstEnd tokens + 1) ++ after) =
          .some (outcome, { last with tokens := tokens.take (firstEnd tokens + 1) ++ after })) := by
  rcases h with rfl | h
  · obtain ⟨hwalk, hparse⟩ := Walking.file_nil
    refine ⟨.ok ⟨[], .start⟩, .start [], hwalk, ?_, ⟨⟨[], []⟩, ?_, rfl⟩, by simp [Walk.start], by simp, by simp⟩
    · rw [Walking.parse_eq, hparse]
    · rw [Walking.reader_file_eq, hparse]
  obtain ⟨e, after, rfl⟩ := Ending.exists_followedBy h
  obtain ⟨last, left, hfacing, hfile, hreader⟩ := Walking.file_followedBy e after after
  rw [Ending.firstEnd_followedBy]
  refine ⟨_, last, hfile, rfl, ⟨_, hreader, ?_⟩, ?_, fun _ hok => ?_, fun _ others => ?_⟩
  · have hlength : e.upTo.length < (e.followedBy after).length := Ending.length_followedBy
    have hplace := hfacing.notPast
    rw [hfacing.left, Reader.position]
    dsimp only
    rw [List.length_drop]
    omega
  · intro place hplace
    have hle : place ≤ last.place := by
      rw [hfacing.before, List.mem_cons, List.mem_reverse, List.mem_range] at hplace
      omega
    exact Nat.le_trans hle hfacing.notPast
  · obtain ⟨node, hnode⟩ : ∃ node, parse (e.followedBy after) = .ok node := by
      cases hparse : parse (e.followedBy after) with
      | ok node => exact ⟨node, rfl⟩
      | error fault => rw [hparse] at hok; cases hok
    exact Walking.place_of_file hfacing (hnode ▸ hfile)
  · rw [Ending.take_followedBy]
    obtain ⟨last', left', hfacing', hfile', hreader'⟩ := Walking.file_followedBy e others after
    obtain ⟨_, _, -, hparse, -⟩ := Walking.file_followedBy e after others
    obtain rfl : left = left' := congrArg (·.2.left) (hreader.symm.trans hreader')
    refine ⟨congrArg Prod.fst (Part.some_injective (hparse.symm.trans hfile)), ?_⟩
    rw [hfile', hfacing.walk_eq hfacing']

theorem walk_ends_before_star :
    ∃ outcome last, Walking.file [⟨.semicolon, ";", .start⟩, ⟨.endOfInput, "", .start⟩, ⟨.star, "*", .start⟩] =
      .some (outcome, last) ∧ (outcome.isOk → last.place = 1) ∧ ∀ place ∈ last.place :: last.before, place ≤ 1 := by
  obtain ⟨outcome, last, hfile, -, -, hplaces, hend, -⟩ := walk_ends_at_first_end
    [⟨.semicolon, ";", .start⟩, ⟨.endOfInput, "", .start⟩, ⟨.star, "*", .start⟩]
    (.inr ⟨⟨.endOfInput, "", .start⟩, by simp, rfl⟩)
  exact ⟨outcome, last, hfile, hend (by simp), hplaces⟩

end Overlay
