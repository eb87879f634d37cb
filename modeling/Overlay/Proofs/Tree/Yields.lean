import Overlay.Tree.Grammar

/-! What parsers give on tokens that are all good in some way. The tokens that a parser leaves are among those that it
    got, so they are good too, and what it gives can be read off the good tokens that it has taken. -/

namespace Overlay
namespace Parser
variable {Good : Token → Prop} {α β : Type}

/-- A parser that gives results with `Q` on good tokens, and leaves good tokens. --/
def Yields (Good : Token → Prop) (p : Parser α) (Q : α → Prop) : Prop :=
  ∀ ts a rest, (∀ t ∈ ts, Good t) → p ts = .ok a rest → Q a ∧ ∀ t ∈ rest, Good t

theorem mem_of_mem_next {t : Token} {ts : List Token} (h : t ∈ next ts) : t ∈ ts := by
  match ts with
  | [] | [_] => exact h
  | _ :: _ :: _ => exact List.mem_cons_of_mem _ h

/-! ### Composed parsers -/

theorem Yields.mono {p : Parser α} {P Q : α → Prop} (hp : Yields Good p P) (h : ∀ a, P a → Q a) : Yields Good p Q :=
  fun ts a rest hts hok => (hp ts a rest hts hok).imp_left (h a)

theorem yields_pure {a : α} {Q : α → Prop} (h : Q a) : Yields Good (pure a) Q := by
  intro ts b rest hts hok
  cases hok
  exact ⟨h, hts⟩

theorem yields_bind {p : Parser α} {f : α → Parser β} {P : α → Prop} {Q : β → Prop} (hp : Yields Good p P)
    (hf : ∀ a, P a → Yields Good (f a) Q) : Yields Good (p >>= f) Q := by
  intro ts b rest hts hok
  change EStateM.bind p f ts = .ok b rest at hok
  unfold EStateM.bind at hok
  split at hok
  · rename_i a middle hmiddle
    obtain ⟨ha, hgood⟩ := hp ts a middle hts hmiddle
    exact hf a ha middle b rest hgood hok
  · cases hok

theorem yields_map {p : Parser α} {f : α → β} {Q : β → Prop} (hp : Yields Good p fun a => Q (f a)) :
    Yields Good (f <$> p) Q := by
  intro ts b rest hts hok
  change EStateM.map f p ts = .ok b rest at hok
  unfold EStateM.map at hok
  split at hok
  · rename_i a middle hmiddle
    cases hok
    exact hp ts a _ hts hmiddle
  · cases hok

theorem yields_ite {c : Prop} [Decidable c] {p q : Parser α} {Q : α → Prop} (hp : c → Yields Good p Q)
    (hq : ¬c → Yields Good q Q) : Yields Good (if c then p else q) Q := by
  by_cases hc : c
  · rw [if_pos hc]
    exact hp hc
  · rw [if_neg hc]
    exact hq hc

theorem yields_throw {fault : ParseFault} {Q : α → Prop} : Yields Good (throw fault : Parser α) Q :=
  fun _ _ _ _ hok => nomatch hok

/-! ### Moving over tokens -/

theorem yields_moveOn : Yields Good moveOn fun _ => True := by
  intro ts _ rest hts hok
  cases hok
  exact ⟨trivial, fun t ht => hts t (mem_of_mem_next ht)⟩

theorem yields_expectWhere {fits : Token → Bool} {what : Expected} :
    Yields Good (expectWhere fits what) fun t => Good t ∧ fits t = true := by
  intro ts a rest hts hok
  unfold expectWhere at hok
  split at hok
  · cases hok
  · rename_i t hhead
    split at hok
    · rename_i hfits
      cases hok
      exact ⟨⟨hts _ (List.mem_of_head? hhead), hfits⟩, fun t ht => hts t (mem_of_mem_next ht)⟩
    · cases hok

theorem yields_expect {kind : TokenKind} {what : Expected} :
    Yields Good (expect kind what) fun t => Good t ∧ t.kind = kind :=
  yields_expectWhere.mono fun _ ⟨hgood, hkind⟩ => ⟨hgood, by simpa using hkind⟩

theorem yields_accept {kind : TokenKind} : Yields Good (accept kind) fun _ => True := by
  intro ts a rest hts hok
  unfold accept at hok
  split at hok <;> cases hok
  · exact ⟨trivial, fun t ht => hts t (mem_of_mem_next ht)⟩
  · exact ⟨trivial, hts⟩

theorem yields_acceptKeyword {words : List String} :
    Yields Good (acceptKeyword words) fun found => ∀ t, found = some t → t.text ∈ words := by
  intro ts a rest hts hok
  unfold acceptKeyword at hok
  split at hok
  · rename_i hat
    cases hok
    refine ⟨fun t ht => ?_, fun t ht => hts t (mem_of_mem_next ht)⟩
    rw [isAtKeyword, ht] at hat
    simp only [Option.any_some, Token.isKeywordOf, Bool.and_eq_true, List.contains_iff_mem] at hat
    exact hat.2
  · cases hok
    exact ⟨nofun, hts⟩

/-- A repetition gives items of what it repeats. --/
theorem yields_repeatWhile {more : List Token → Bool} {item : Parser α} {Q : α → Prop} (hitem : Yields Good item Q) :
    Yields Good (repeatWhile more item) fun as => ∀ a ∈ as, Q a := by
  intro ts
  fun_induction repeatWhile more item ts with
  | case1 ts _ fault rest => exact fun _ _ _ hok => nomatch hok
  | case2 ts _ a middle hitemOk hlt fault final hfault ih => exact fun _ _ _ hok => nomatch hok
  | case3 ts _ a middle hitemOk hlt as final hrest ih =>
    intro result rest hts hok
    cases hok
    obtain ⟨ha, hmiddle⟩ := hitem ts a middle hts hitemOk
    obtain ⟨has, hgood⟩ := ih as _ hmiddle hrest
    exact ⟨List.forall_mem_cons.mpr ⟨ha, has⟩, hgood⟩
  | case4 ts _ a middle hitemOk hlt =>
    -- An item that takes no token is the last one.
    intro result rest hts hok
    cases hok
    obtain ⟨ha, hgood⟩ := hitem ts a _ hts hitemOk
    exact ⟨List.forall_mem_cons.mpr ⟨ha, nofun⟩, hgood⟩
  | case5 ts _ =>
    intro result rest hts hok
    cases hok
    exact ⟨nofun, hts⟩

end Parser
end Overlay
